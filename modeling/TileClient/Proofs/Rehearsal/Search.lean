import TileClient.Proofs.Rehearsal.Turns
import TileClient.Proofs.Session.Transition

/-! A discovery among its tasks and reports never stalls and never doubles. Its steps, the turns of
its tasks and the order in which reports are taken may follow each other in any way. -/
namespace TileClient.Rehearsal

/-- A piece of work of a discovery: a request or a pause under way, perhaps cancelled, or the
report that one of them has left. -/
inductive Work where
  | asking (attempt : Nat) (cancelled : Bool)
  | answered (attempt : Nat)
  | resting (attempt : Nat) (cancelled : Bool)
  | rested (attempt : Nat)
  deriving DecidableEq, Repr

namespace Work

def attempt : Work → Nat
  | .asking attempt _ | .answered attempt | .resting attempt _ | .rested attempt => attempt

def isPause : Work → Bool
  | .asking _ _ | .answered _ => false
  | .resting _ _ | .rested _ => true

/-- Whether the report is there, or still sure to come. -/
def isAlive : Work → Bool
  | .asking _ cancelled | .resting _ cancelled => !cancelled
  | .answered _ | .rested _ => true

def ofEntry? (e : Entry) : Option Work :=
  match e.task with
  | .request attempt _ => some (.asking attempt e.cancelled)
  | .pause attempt _ => some (.resting attempt e.cancelled)
  | .dial _ _ _ | .pump _ _ => none

def ofReport : DiscoveryMessage → Work
  | .response attempt _ => .answered attempt
  | .retryDue attempt => .rested attempt

def ofMessage? : Message → Option Work
  | .discovery m => some (ofReport m)
  | .opened _ _ | .dialFailed _ _ | .transport _ _ => none

end Work

def Backstage.works (b : Backstage) : List Work :=
  b.tasks.filterMap Work.ofEntry? ++ b.mailbox.filterMap Work.ofMessage?

/-- A discovery with everything behind it, and the attempts of all requests so far, oldest first. -/
structure Search where
  back : Backstage
  discovery : Discovery
  issued : List Nat

/-- What can happen to a search: its owner starts or stops it, or hands it any report that waits,
or a task has a turn. -/
inductive SearchAct where
  | discover
  | cancel
  | handle (index : Nat)
  | turn (turn : Turn)

namespace Search

def opening (retryDelay timeout : Nat) (script : Script) : Search :=
  ⟨.opening retryDelay timeout script, .idle, []⟩

def follow (s : Search) (step : Discovery × List Effect) : Search :=
  ⟨s.back.performAll step.2, step.1, s.issued ++ Effect.collect Effect.request? step.2⟩

def pull (s : Search) (index : Nat) : Search :=
  { s with back := { s.back with mailbox := s.back.mailbox.eraseIdx index } }

def act (s : Search) : SearchAct → Search
  | .discover => s.follow s.discovery.discover
  | .cancel => s.follow s.discovery.cancel
  | .handle index =>
    match s.back.mailbox[index]? with
    | some (.discovery m) =>
      let (discovery, effects, _) := s.discovery.handle m
      (s.pull index).follow (discovery, effects)
    | _ => s
  | .turn turn => { s with back := s.back.turn turn }

def run (s : Search) (acts : List SearchAct) : Search := acts.foldl act s

/-- The work that the discovery would act on if it were handed over now. -/
def outstanding (s : Search) : List Work :=
  s.back.works.filter fun work => s.discovery.isCurrent work.attempt

end Search

/-- The handles of a discovery fit a piece of work of the current attempt. -/
def Work.HeldBy (work : Work) (d : Discovery) : Prop :=
  if work.isPause then d.request = none ∧ d.pause = some d.attempt
  else d.request = some d.attempt ∧ d.pause = none

/-- What holds of a search at any time: while it is active there is a single piece of work, and
what has not been cancelled is held. -/
structure Search.Kept (s : Search) : Prop where
  numbered : s.back.Numbered
  past : ∀ work ∈ s.back.works, work.attempt ≤ s.discovery.attempt
  alive : ∀ e ∈ s.back.tasks, e.cancelled = false → e.task.name ∈ s.discovery.holdings
  quiet : s.discovery.active = false → s.discovery.request = none ∧ s.discovery.pause = none
  single : s.discovery.active = true →
    ∃ work, s.outstanding = [work] ∧ work.isAlive = true ∧ work.HeldBy s.discovery
  issued : s.issued = List.range' 1 s.discovery.attempt

private theorem filter_around {p : Work → Bool} {before after : List Work} {x y : Work}
    (h : (before ++ y :: after).filter p = [x]) (hy : p y = true) :
    y = x ∧ ∀ z ∈ before ++ after, p z = false := by
  rw [List.filter_append, List.filter_cons_of_pos hy] at h
  rcases hb : before.filter p with _ | ⟨z, zs⟩
  · rw [hb, List.nil_append, List.cons.injEq] at h
    obtain ⟨rfl, ha⟩ := h
    refine ⟨rfl, fun z hz => ?_⟩
    rcases List.mem_append.mp hz with hz | hz
    · simpa using List.filter_eq_nil_iff.mp hb z hz
    · simpa using List.filter_eq_nil_iff.mp ha z hz
  · simp [hb] at h

private theorem split_of_getElem? {α : Type} {l : List α} {index : Nat} {a : α}
    (h : l[index]? = some a) :
    ∃ before after, l = before ++ a :: after ∧ l.eraseIdx index = before ++ after := by
  obtain ⟨short, rfl⟩ := List.getElem?_eq_some_iff.mp h
  refine ⟨l.take index, l.drop (index + 1), ?_, List.eraseIdx_eq_take_drop_succ l index⟩
  rw [← List.drop_eq_getElem_cons short, List.take_append_drop]

private theorem filter_without {p : Work → Bool} {before after : List Work} {y : Work}
    (hy : p y = false) : (before ++ after).filter p = (before ++ y :: after).filter p := by
  simp [hy]

namespace Work

theorem ofEntry?_givenUp_attempt {names : List TaskName} {e : Entry} {work : Work}
    (h : ofEntry? (e.givenUp names) = some work) :
    ∃ old, ofEntry? e = some old ∧ old.attempt = work.attempt := by
  unfold ofEntry? at h ⊢
  rw [Entry.givenUp_task] at h
  split at h <;> simp_all
  all_goals
    subst h
    rfl

theorem ofEntry?_name {e : Entry} {work : Work} (h : ofEntry? e = some work) :
    e.task.name = if work.isPause then .pause work.attempt else .request work.attempt := by
  unfold ofEntry? at h
  split at h <;> simp_all
  all_goals
    subst h
    simp [Task.name, isPause, attempt, *]

theorem ofEntry?_isAlive {e : Entry} {work : Work} (h : ofEntry? e = some work) :
    work.isAlive = !e.cancelled := by
  unfold ofEntry? at h
  split at h <;> simp_all
  all_goals
    subst h
    rfl

theorem HeldBy.mem_holdings {work : Work} {d : Discovery} (h : work.HeldBy d)
    (current : work.attempt = d.attempt) :
    (if work.isPause then TaskName.pause work.attempt else .request work.attempt) ∈ d.holdings := by
  unfold HeldBy at h
  cases hp : work.isPause <;>
    simp_all [Discovery.holdings, Discovery.pauses]

end Work

namespace Backstage

theorem works_of_cancel {b : Backstage} {names : List TaskName} {work : Work}
    (h : work ∈ (b.performAll (names.map .cancel)).works) :
    ∃ old ∈ b.works, old.attempt = work.attempt := by
  obtain ⟨ready, performed⟩ := b.performAll_cancel names
  rw [performed] at h
  rcases List.mem_append.mp h with task | report
  · obtain ⟨e, member, read⟩ := List.mem_filterMap.mp task
    obtain ⟨was, isTask, rfl⟩ := List.mem_map.mp member
    obtain ⟨old, read, same⟩ := Work.ofEntry?_givenUp_attempt read
    exact ⟨old, List.mem_append_left _ (List.mem_filterMap.mpr ⟨was, isTask, read⟩), same⟩
  · exact ⟨work, List.mem_append_right _ report, rfl⟩

theorem cancelled_of_cancel {b : Backstage} {names : List TaskName}
    (given : ∀ e ∈ b.tasks, e.cancelled = false → e.task.name ∈ names) {e : Entry}
    (member : e ∈ (b.performAll (names.map .cancel)).tasks) : e.cancelled = true := by
  obtain ⟨ready, performed⟩ := b.performAll_cancel names
  rw [performed] at member
  obtain ⟨old, isTask, rfl⟩ := List.mem_map.mp member
  cases before : old.cancelled with
  | true => exact Entry.givenUp_cancelled (.inl before)
  | false => exact Entry.givenUp_cancelled (.inr (given old isTask before))

theorem works_spawn (b : Backstage) {task : Task} {work : Work}
    (read : Work.ofEntry? ⟨b.nextId, task, false⟩ = some work) :
    (b.spawn task).works =
      b.tasks.filterMap Work.ofEntry? ++ work :: b.mailbox.filterMap Work.ofMessage? := by
  simp [works, spawn, read]

theorem works_of_split {b : Backstage} {before after : List Entry} {e : Entry} {work : Work}
    (split : b.tasks = before ++ e :: after) (read : Work.ofEntry? e = some work) :
    b.works = before.filterMap Work.ofEntry? ++
      work :: (after.filterMap Work.ofEntry? ++ b.mailbox.filterMap Work.ofMessage?) := by
  simp [works, split, read]

end Backstage

theorem Search.works_of_waiting {s : Search} {index : Nat} {m : DiscoveryMessage}
    (waits : s.back.mailbox[index]? = some (.discovery m)) :
    ∃ before after, s.back.works = before ++ Work.ofReport m :: after ∧
      (s.pull index).back.works = before ++ after := by
  obtain ⟨before, after, split, rest⟩ := split_of_getElem? waits
  refine ⟨s.back.tasks.filterMap Work.ofEntry? ++ before.filterMap Work.ofMessage?,
    after.filterMap Work.ofMessage?, ?_, ?_⟩
  · simp [Backstage.works, split, Work.ofMessage?]
  · simp [Backstage.works, pull, rest]

namespace Search.Kept

variable {s : Search}

theorem mem_outstanding (h : s.Kept) (active : s.discovery.active = true) {e : Entry}
    (member : e ∈ s.back.tasks) (alive : e.cancelled = false) :
    ∃ work ∈ s.outstanding, Work.ofEntry? e = some work := by
  obtain ⟨single, _, _, held⟩ := h.single active
  have holding := h.alive e member alive
  obtain ⟨work, read, attempt⟩ : ∃ work, Work.ofEntry? e = some work ∧
      work.attempt = s.discovery.attempt := by
    unfold Work.HeldBy at held
    obtain ⟨id, task, cancelled⟩ := e
    cases hp : single.isPause <;>
      simp only [hp, if_true, if_false, Bool.false_eq_true] at held <;>
      simp [Discovery.holdings, Discovery.pauses, held] at holding <;>
      cases task <;> simp_all [Task.name, Work.ofEntry?, Work.attempt]
  refine ⟨work, List.mem_filter.mpr ⟨?_, ?_⟩, read⟩
  · exact List.mem_append_left _ (List.mem_filterMap.mpr ⟨e, member, read⟩)
  · simp [Discovery.isCurrent, active, attempt]

theorem cancelled_of_report (h : s.Kept) (active : s.discovery.active = true)
    {m : DiscoveryMessage} (single : s.outstanding = [Work.ofReport m]) :
    ∀ e ∈ s.back.tasks, e.cancelled = true := by
  intro e member
  cases alive : e.cancelled with
  | true => rfl
  | false =>
    obtain ⟨work, isWork, read⟩ := h.mem_outstanding active member alive
    rw [single, List.mem_singleton] at isWork
    subst isWork
    unfold Work.ofEntry? at read
    cases m <;> split at read <;> simp [Work.ofReport] at read

/-- A step that gives up all that is under way and starts one task leaves that task alone. -/
theorem of_start {b : Backstage} {d : Discovery} {issued : List Nat} {names : List TaskName}
    {effect : Effect} {task : Task} {work : Work} (numbered : b.Numbered)
    (old : ∀ w ∈ b.works, w.attempt ≤ d.attempt ∧ d.isCurrent w.attempt = false)
    (given : ∀ e ∈ b.tasks, e.cancelled = false → e.task.name ∈ names)
    (starts : ∀ b : Backstage, b.perform effect = b.spawn task)
    (read : ∀ id, Work.ofEntry? ⟨id, task, false⟩ = some work) (alive : work.isAlive = true)
    (current : d.isCurrent work.attempt) (held : work.HeldBy d)
    (all : issued = List.range' 1 d.attempt) :
    Kept ⟨b.performAll (names.map .cancel ++ [effect]), d, issued⟩ := by
  have active := Discovery.active_of_isCurrent current
  have attempt : work.attempt = d.attempt := by
    simp only [Discovery.isCurrent, Bool.and_eq_true, beq_iff_eq] at current
    exact current.2
  have spawned : b.performAll (names.map .cancel ++ [effect]) =
      (b.performAll (names.map .cancel)).spawn task := by
    rw [Backstage.performAll_append]
    exact starts _
  have stale : ∀ w ∈ (b.performAll (names.map .cancel)).works,
      w.attempt ≤ d.attempt ∧ d.isCurrent w.attempt = false := by
    intro w member
    obtain ⟨was, member, same⟩ := Backstage.works_of_cancel member
    exact same ▸ old was member
  have works := Backstage.works_spawn (b.performAll (names.map .cancel)) (read _)
  constructor
  · exact numbered.performAll _
  · intro w member
    rw [spawned, works] at member
    rcases List.mem_append.mp member with before | rest
    · exact (stale w (List.mem_append_left _ before)).1
    · rcases List.mem_cons.mp rest with rfl | after
      · exact Nat.le_of_eq attempt
      · exact (stale w (List.mem_append_right _ after)).1
  · intro e member isAlive
    rw [spawned] at member
    rcases List.mem_append.mp member with was | new
    · have gone := Backstage.cancelled_of_cancel given was
      simp [gone] at isAlive
    · rw [List.mem_singleton.mp new]
      exact Work.ofEntry?_name (read _) ▸ held.mem_holdings attempt
  · intro idle
    simp [active] at idle
  · intro _
    refine ⟨work, ?_, alive, held⟩
    have none (l : List Work) (sub : ∀ w ∈ l, w ∈ (b.performAll (names.map .cancel)).works) :
        l.filter (fun w => d.isCurrent w.attempt) = [] :=
      List.filter_eq_nil_iff.mpr fun w member => by simp [(stale w (sub w member)).2]
    simp only [outstanding, spawned, works]
    rw [List.filter_append,
      List.filter_cons_of_pos (p := fun w : Work => d.isCurrent w.attempt) current,
      none _ fun w => List.mem_append_left _, none _ fun w => List.mem_append_right _,
      List.nil_append]
  · exact all

/-- A step that gives up all that is under way and asks again. -/
theorem of_ask {b : Backstage} {d : Discovery} {issued : List Nat} {names : List TaskName}
    (numbered : b.Numbered) (past : ∀ w ∈ b.works, w.attempt ≤ d.attempt)
    (given : ∀ e ∈ b.tasks, e.cancelled = false → e.task.name ∈ names)
    (all : issued = List.range' 1 d.attempt) :
    Kept ⟨b.performAll (names.map .cancel ++ [.request (d.attempt + 1)]), d.asked,
      issued ++ [d.attempt + 1]⟩ := by
  have old : ∀ w ∈ b.works,
      w.attempt ≤ d.asked.attempt ∧ d.asked.isCurrent w.attempt = false := by
    intro w member
    have := past w member
    simp only [Discovery.asked, Discovery.isCurrent, Bool.true_and, beq_eq_false_iff_ne]
    omega
  have counted : issued ++ [d.attempt + 1] = List.range' 1 d.asked.attempt := by
    rw [all, Discovery.asked, List.range'_concat, Nat.one_mul, Nat.add_comm 1]
  have read (id : Nat) : Work.ofEntry? ⟨id, .request (d.attempt + 1) .unbegun, false⟩ =
      some (.asking (d.attempt + 1) false) := rfl
  exact of_start numbered old given (fun _ => rfl) read rfl
    (by simp [Discovery.isCurrent, Discovery.asked, Work.attempt])
    (by simp [Work.HeldBy, Work.isPause, Discovery.asked]) counted

/-- A step that gives up all that is under way and stops leaves nothing to act on. -/
theorem of_stop {b : Backstage} {d : Discovery} {issued : List Nat} {names : List TaskName}
    (numbered : b.Numbered) (old : ∀ w ∈ b.works, w.attempt ≤ d.attempt)
    (given : ∀ e ∈ b.tasks, e.cancelled = false → e.task.name ∈ names)
    (idle : d.active = false) (empty : d.request = none ∧ d.pause = none)
    (all : issued = List.range' 1 d.attempt) :
    Kept ⟨b.performAll (names.map .cancel), d, issued⟩ := by
  constructor
  · exact numbered.performAll _
  · intro w member
    obtain ⟨was, member, same⟩ := Backstage.works_of_cancel member
    exact same ▸ old was member
  · intro e member isAlive
    have gone := Backstage.cancelled_of_cancel given member
    simp [gone] at isAlive
  · exact fun _ => empty
  · intro active
    simp [idle] at active
  · exact all

/-- A report of the current attempt is the single piece of work, and without it there is none. -/
theorem of_report (h : s.Kept) {index : Nat} {m : DiscoveryMessage}
    (waits : s.back.mailbox[index]? = some (.discovery m))
    (current : s.discovery.isCurrent m.attempt) :
    s.outstanding = [Work.ofReport m] ∧ (Work.ofReport m).HeldBy s.discovery ∧
      ∀ w ∈ (s.pull index).back.works, s.discovery.isCurrent w.attempt = false := by
  obtain ⟨work, single, -, held⟩ := h.single (Discovery.active_of_isCurrent current)
  obtain ⟨before, after, was, now⟩ := works_of_waiting waits
  have around := single
  rw [outstanding, was] at around
  obtain ⟨rfl, others⟩ := filter_around around (by cases m <;> exact current)
  exact ⟨single, held, now ▸ others⟩

theorem of_back (h : s.Kept) {b : Backstage} (numbered : b.Numbered)
    (tasks : b.tasks.Sublist s.back.tasks) (works : b.works = s.back.works) :
    Kept { s with back := b } := by
  have same : outstanding { s with back := b } = s.outstanding := by
    simp only [outstanding, works]
  exact ⟨numbered, works ▸ h.past, fun e member => h.alive e (tasks.subset member), h.quiet,
    same ▸ h.single, h.issued⟩

/-- A turn in which a piece of work goes its way from a task to a report. -/
theorem of_move (h : s.Kept) {b : Backstage} (numbered : b.Numbered)
    (tasks : b.tasks.Sublist s.back.tasks) {before after : List Work} {x y : Work}
    (was : s.back.works = before ++ x :: after) (now : b.works = before ++ after ++ [y])
    (attempt : y.attempt = x.attempt) (isPause : y.isPause = x.isPause)
    (alive : y.isAlive = true) : Kept { s with back := b } := by
  refine ⟨numbered, ?_, fun e member => h.alive e (tasks.subset member), h.quiet, ?_, h.issued⟩
  · intro w member
    rw [now] at member
    rcases List.mem_append.mp member with old | new
    · have among := (List.sublist_cons_self x after).append_left before
      exact h.past w (was ▸ among.subset old)
    · rw [List.mem_singleton.mp new, attempt]
      exact h.past x (was ▸ List.mem_append_right _ List.mem_cons_self)
  · intro active
    obtain ⟨work, single, isAlive, held⟩ := h.single active
    rw [outstanding, was] at single
    cases current : s.discovery.isCurrent x.attempt with
    | true =>
      obtain ⟨rfl, others⟩ := filter_around single current
      refine ⟨y, ?_, alive, by simpa only [Work.HeldBy, isPause] using held⟩
      have none : (before ++ after).filter (fun w => s.discovery.isCurrent w.attempt) = [] :=
        List.filter_eq_nil_iff.mpr fun w member => by simp [others w member]
      rw [outstanding, now, List.filter_append, none, List.nil_append]
      simp [attempt, current]
    | false =>
      refine ⟨work, ?_, isAlive, held⟩
      rw [outstanding, now, List.filter_append, filter_without (y := x) current, single]
      simp [attempt, current]

/-- A turn in which a cancelled piece of work is lost, and a cancelled one was not wanted. -/
theorem of_drop (h : s.Kept) {b : Backstage} (numbered : b.Numbered)
    (tasks : b.tasks.Sublist s.back.tasks) {before after : List Work} {x : Work}
    (was : s.back.works = before ++ x :: after) (now : b.works = before ++ after)
    (cancelled : x.isAlive = false) : Kept { s with back := b } := by
  refine ⟨numbered, ?_, fun e member => h.alive e (tasks.subset member), h.quiet, ?_, h.issued⟩
  · intro w member
    rw [now] at member
    have among := (List.sublist_cons_self x after).append_left before
    exact h.past w (was ▸ among.subset member)
  · intro active
    obtain ⟨work, single, isAlive, held⟩ := h.single active
    rw [outstanding, was] at single
    refine ⟨work, ?_, isAlive, held⟩
    rw [outstanding, now, filter_without (y := x), single]
    refine Bool.eq_false_iff.mpr fun current => ?_
    obtain ⟨rfl, -⟩ := filter_around single current
    rw [cancelled] at isAlive
    cases isAlive

theorem discover (h : s.Kept) : Kept (s.act .discover) := by
  have next := of_ask h.numbered h.past h.alive h.issued
  simpa [act, follow, Discovery.discover_eq] using next

theorem cancel (h : s.Kept) : Kept (s.act .cancel) := by
  have next := of_stop h.numbered h.past h.alive (d := s.discovery.stopped) rfl ⟨rfl, rfl⟩ h.issued
  simpa [act, follow, Discovery.cancel_eq] using next

theorem past_pull (h : s.Kept) {index : Nat} {m : DiscoveryMessage}
    (waits : s.back.mailbox[index]? = some (.discovery m)) :
    ∀ w ∈ (s.pull index).back.works, w.attempt ≤ s.discovery.attempt := by
  obtain ⟨before, after, was, now⟩ := works_of_waiting waits
  intro w member
  rw [now] at member
  have among := (List.sublist_cons_self (Work.ofReport m) after).append_left before
  exact h.past w (was ▸ among.subset member)

theorem pull_old (h : s.Kept) {index : Nat} {m : DiscoveryMessage}
    (waits : s.back.mailbox[index]? = some (.discovery m))
    (old : s.discovery.isCurrent m.attempt = false) : Kept (s.pull index) := by
  obtain ⟨before, after, was, now⟩ := works_of_waiting waits
  have same : (s.pull index).outstanding = s.outstanding := by
    rw [outstanding, outstanding, was, now]
    exact filter_without (by cases m <;> exact old)
  exact ⟨⟨h.numbered.nodup, h.numbered.below⟩, h.past_pull waits, h.alive, h.quiet,
    same ▸ h.single, h.issued⟩

theorem handle (h : s.Kept) (index : Nat) : Kept (s.act (.handle index)) := by
  simp only [act]
  split
  · rename_i m waits
    have handled := s.discovery.handling m
    have numbered : (s.pull index).back.Numbered := ⟨h.numbered.nodup, h.numbered.below⟩
    have past := h.past_pull waits
    have given (current : s.discovery.isCurrent m.attempt) (names : List TaskName) :
        ∀ e ∈ (s.pull index).back.tasks, e.cancelled = false → e.task.name ∈ names := by
      intro e member alive
      obtain ⟨single, -⟩ := h.of_report waits current
      have gone := h.cancelled_of_report (Discovery.active_of_isCurrent current) single
      simp [gone e member] at alive
    generalize s.discovery.handle m = outcome at handled
    cases handled with
    | ignored old =>
      have kept := h.pull_old waits old
      simpa [follow, pull, Backstage.performAll] using kept
    | refused current unusable =>
      obtain ⟨-, held, others⟩ := h.of_report waits current
      have read (id : Nat) : Work.ofEntry? ⟨id, .pause s.discovery.attempt .unbegun, false⟩ =
          some (.resting s.discovery.attempt false) := rfl
      have starts (b : Backstage) : b.perform (.pause s.discovery.attempt) =
          b.spawn (.pause s.discovery.attempt .unbegun) := rfl
      have next := of_start numbered (fun w member => ⟨past w member, others w member⟩)
        (given current s.discovery.pauses) starts read rfl (d := s.discovery.paused)
        (by simpa [Discovery.isCurrent, Discovery.paused, Work.attempt] using
          Discovery.active_of_isCurrent current)
        (by simp [Work.HeldBy, Work.isPause, Discovery.paused]) h.issued
      simpa [follow, pull] using next
    | assigned current usable =>
      have next := of_stop numbered past (given current s.discovery.pauses)
        (d := s.discovery.stopped) rfl ⟨rfl, rfl⟩ h.issued
      simpa [follow, pull] using next
    | retried current =>
      have next := of_ask numbered past (given current []) h.issued
      simpa [follow, pull] using next
  · exact h

theorem of_turned (h : s.Kept) {b : Backstage} (turned : s.back.Turned b) :
    Kept { s with back := b } := by
  have numbered := turned.numbered h.numbered
  have leaves {before after : List Entry} {e : Entry}
      (split : s.back.tasks = before ++ e :: after) :
      (before ++ after).Sublist s.back.tasks := by
    rw [split]
    exact (List.sublist_cons_self _ _).append_left _
  cases turned with
  | idle => exact h
  | @replied before after e attempt progress reply split task =>
    have read : Work.ofEntry? e = some (.asking attempt e.cancelled) := by
      simp [Work.ofEntry?, task]
    have was := Backstage.works_of_split split read
    refine h.of_move (y := .answered attempt) numbered (leaves split) was ?_ rfl rfl rfl
    simp [Backstage.works, Work.ofMessage?, Work.ofReport]
  | @rested before after e attempt progress split task =>
    have read : Work.ofEntry? e = some (.resting attempt e.cancelled) := by
      simp [Work.ofEntry?, task]
    have was := Backstage.works_of_split split read
    refine h.of_move (y := .rested attempt) numbered (leaves split) was ?_ rfl rfl rfl
    simp [Backstage.works, Work.ofMessage?, Work.ofReport]
  | opened split task | failed fault split task | closed split task here next
    | released split cancelled task =>
    refine h.of_back numbered (leaves split) ?_
    simp [Backstage.works, split, Work.ofEntry?, task, Work.ofMessage?, Backstage.post,
      Backstage.updateLink]
  | forwarded member task here next more =>
    refine h.of_back numbered (List.Sublist.refl _) ?_
    simp [Backstage.works, Work.ofMessage?, Backstage.post, Backstage.updateLink]
  | @dropped before after e split cancelled =>
    cases read : Work.ofEntry? e with
    | none =>
      refine h.of_back numbered (leaves split) ?_
      simp [Backstage.works, split, read]
    | some work =>
      have was := Backstage.works_of_split split read
      refine h.of_drop numbered (leaves split) was (by simp [Backstage.works]) ?_
      rw [Work.ofEntry?_isAlive read, cancelled, Bool.not_true]

theorem turn (h : s.Kept) (turn : Turn) : Kept (s.act (.turn turn)) :=
  h.of_turned (h.numbered.turned turn)

end Search.Kept

namespace Search

theorem kept_act {s : Search} (h : s.Kept) (act : SearchAct) : Kept (s.act act) := by
  cases act with
  | discover => exact h.discover
  | cancel => exact h.cancel
  | handle index => exact h.handle index
  | turn turn => exact h.turn turn

theorem kept_opening (retryDelay timeout : Nat) (script : Script) :
    (opening retryDelay timeout script).Kept := by
  refine ⟨⟨List.nodup_nil, ?_⟩, ?_, ?_, fun _ => ⟨rfl, rfl⟩, ?_, rfl⟩ <;>
    simp [opening, Backstage.opening, Backstage.works, Discovery.idle]

theorem kept_run {s : Search} (h : s.Kept) (acts : List SearchAct) : Kept (s.run acts) := by
  induction acts generalizing s with
  | nil => exact h
  | cons act acts ih => exact ih (kept_act h act)

private theorem outstanding_of_idle {s : Search} (idle : s.discovery.active = false) :
    s.outstanding = [] :=
  List.filter_eq_nil_iff.mpr fun work _ => by simp [Discovery.isCurrent, idle]

private theorem isRetryPending_iff {s : Search} (h : s.Kept) :
    s.discovery.isRetryPending = true ↔ ∃ work ∈ s.outstanding, work.isPause = true := by
  cases active : s.discovery.active with
  | false =>
    have empty := (h.quiet active).2
    simp [outstanding_of_idle active, Discovery.isRetryPending, empty]
  | true =>
    obtain ⟨work, single, -, held⟩ := h.single active
    unfold Work.HeldBy at held
    cases pause : work.isPause <;>
      simp_all [Discovery.isRetryPending]

/-- Whatever happens, an active discovery has one piece of work that it would act on, which is
not cancelled and whose handle it holds, and one that is not active has none. The attempts of its
requests count up from one. -/
theorem one_piece_of_work (retryDelay timeout : Nat) (script : Script) (acts : List SearchAct) :
    let s := (opening retryDelay timeout script).run acts
    (s.discovery.active = true →
      ∃ work, s.outstanding = [work] ∧ work.isAlive = true ∧ work.HeldBy s.discovery) ∧
    (s.discovery.active = false →
      s.outstanding = [] ∧ s.discovery.request = none ∧ s.discovery.pause = none ∧
        ∀ e ∈ s.back.tasks, e.cancelled = true) ∧
    (∀ m, s.discovery.handle m ≠ (s.discovery, [], none) ↔ s.discovery.isCurrent m.attempt = true) ∧
    (s.discovery.isRetryPending = true ↔ ∃ work ∈ s.outstanding, work.isPause = true) ∧
    s.issued = List.range' 1 s.discovery.attempt ∧ s.issued.Pairwise (· < ·) := by
  intro s
  have h : s.Kept := kept_run (kept_opening retryDelay timeout script) acts
  refine ⟨h.single, ?_, fun m => s.discovery.acts_iff m, isRetryPending_iff h, h.issued, ?_⟩
  · intro idle
    obtain ⟨noRequest, noPause⟩ := h.quiet idle
    refine ⟨outstanding_of_idle idle, noRequest, noPause, ?_⟩
    intro e member
    refine Bool.not_eq_false _ ▸ fun alive => ?_
    have holding := h.alive e member alive
    simp [Discovery.holdings, Discovery.pauses, noRequest, noPause] at holding
  · rw [h.issued]
    exact List.pairwise_lt_range'

example : ((opening 5 5 .offline).run
    [.discover, .discover, .turn (.finish 0 (.ok "") (.ok ()))]).outstanding =
      [.asking 2 false] := by
  decide

end Search

end TileClient.Rehearsal
