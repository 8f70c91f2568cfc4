import TileClient.Proofs.Rehearsal.Adrift
import TileClient.Proofs.Rehearsal.Callers
import TileClient.Proofs.Session.Leftovers

/-! Of the dials that are started only those never begin that are given up before their first turn.
Orders, reports and the turns of tasks may follow each other in any way, and a task that has begun
may end by its report although it was cancelled. -/
namespace TileClient.Rehearsal

/-- Whether a task has had a turn. A pump is not asked. -/
def Task.hasBegun : Task → Bool
  | .request _ (.waiting _ _) | .pause _ (.waiting _ _) | .dial _ _ (.waiting _ _) => true
  | .request _ .unbegun | .pause _ .unbegun | .dial _ _ .unbegun | .pump _ _ => false

/-- A world, with the dials that have begun so far, oldest first. -/
structure Watch (ω : Type) where
  world : World ω
  begun : List (Nat × Endpoint)

/-- What can happen while connections can be opened: the owner gives an order, the oldest report is
handled, a server acts, a task has its turn, a task that has begun ends by its report, all that are
to run have their turns, or time passes. -/
inductive WatchAct (ω : Type) where
  | order (order : Order ω)
  | take
  | serve (link : Nat) (serving : Serving)
  | turn (id : Nat)
  | late (id : Nat) (reply : Except Fault String) (answer : Except Fault Unit)
  | settle
  | reach (time : Nat)

namespace Watch

variable {ω : Type}

def opening (retryDelay timeout : Nat) (script : Script) : Watch ω :=
  ⟨.opening retryDelay timeout script, []⟩

abbrev back (w : Watch ω) : Backstage := w.world.back

abbrev session (w : Watch ω) : Session := w.world.connection.session

/-- The same, but for what is behind the connection. -/
def withBack (w : Watch ω) (back : Backstage) : Watch ω := { w with world := { w.world with back } }

def turn (w : Watch ω) (id : Nat) : Watch ω :=
  { w.withBack (w.back.run id) with begun := w.begun ++ (w.back.begins? id).toList }

/-- Ends a task that has begun, cancelled or not. -/
def late (w : Watch ω) (id : Nat) (reply : Except Fault String) (answer : Except Fault Unit) :
    Watch ω :=
  if (w.back.tasks.find? (·.id = id)).any (·.task.hasBegun) then
    w.withBack (w.back.turn (.finish id reply answer))
  else w

/-- Runs the tasks that are to run, and then those that take another turn, at most so many rounds. -/
def settleWithin : (rounds : Nat) → Watch ω → Watch ω
  | 0, w => w
  | rounds + 1, w =>
    match w.back.ready with
    | [] => w
    | ready => settleWithin rounds (ready.foldl turn (w.withBack { w.back with ready := [] }))

def settle (w : Watch ω) : Watch ω :=
  w.settleWithin ((w.back.links.flatMap (·.inbox)).length + 2)

def act (w : Watch ω) : WatchAct ω → Watch ω
  | .order order => { w with world := w.world.act (.order true order) }
  | .take => { w with world := w.world.act (.take true) }
  | .serve link serving => { w with world := w.world.act (.serve link serving) }
  | .turn id => w.turn id
  | .late id reply answer => w.late id reply answer
  | .settle => w.settle
  | .reach time => w.withBack (w.back.reach time)

def run (w : Watch ω) (acts : List (WatchAct ω)) : Watch ω := acts.foldl act w

theorem back_turns (w : Watch ω) (ids : List Nat) :
    (ids.foldl turn w).back = ids.foldl Backstage.run w.back := by
  induction ids generalizing w with
  | nil => rfl
  | cons id ids ih => exact ih (w.turn id)

theorem back_settle (w : Watch ω) : w.settle.back = w.back.settle := by
  have within (rounds : Nat) (w : Watch ω) :
      (w.settleWithin rounds).back = w.back.settleWithin rounds := by
    induction rounds generalizing w with
    | zero => rfl
    | succ rounds ih =>
      cases ready : w.back.ready with
      | nil => simp only [settleWithin, Backstage.settleWithin, ready]
      | cons id ids =>
        simp only [settleWithin, Backstage.settleWithin, ready]
        rw [ih, back_turns]
        rfl
  exact within _ w

end Watch

namespace Backstage

theorem ready_server {b c : Backstage} {link : Nat} {act : Link → Link × Bool} {done : Bool}
    (h : b.server link act = some (c, done)) : b.ready ⊆ c.ready := by
  obtain ⟨l, -, acted⟩ := Option.map_eq_some_iff.mp h
  simp only [Prod.mk.injEq] at acted
  obtain ⟨rfl, -⟩ := acted
  split
  · unfold wakePump
    split
    · exact ready_wake (b.updateLink link fun _ => (act l).1) _
    · exact List.Subset.refl _
  · exact List.Subset.refl _

theorem quest_bare (b : Backstage) : b.quest.bare = b.bare.quest := by
  have seeks (e : Entry) : e.anew.task.seeks = e.task.seeks := by
    obtain ⟨id, task, cancelled⟩ := e
    cases task <;> rfl
  simp [Backstage.quest, bare, opening, List.filter_map, Function.comp_def, seeks]

/-- A task that has begun is no dial that waits, and its report is its own. -/
theorem Numbered.ran_late {b : Backstage} (h : b.Numbered) {id : Nat}
    (begun : (b.tasks.find? (·.id = id)).any (·.task.hasBegun) = true)
    (reply : Except Fault String) (answer : Except Fault Unit) :
    b.begins? id = none ∧ b.Ran id (b.turn (.finish id reply answer)) := by
  cases found : b.tasks.find? (·.id = id) with
  | none => simp [found] at begun
  | some e =>
    obtain ⟨before, after, split, removed⟩ := h.split found
    have began : e.task.hasBegun = true := by simpa [found] using begun
    have quiet : e.task.unbegun? = none := by
      cases task : e.task with
      | dial epoch endpoint progress => cases progress <;> simp_all [Task.hasBegun, Task.unbegun?]
      | request | pause | pump => rfl
    have none : e.caller? = none := by
      rw [Entry.caller?, quiet]
      exact ite_self _
    obtain ⟨task, ending, calling⟩ : ∃ task, e.task.ending reply answer = some task ∧
        task.calling? = e.task.calling? := by
      cases task : e.task with
      | request | pause => exact ⟨_, rfl, rfl⟩
      | dial epoch endpoint progress =>
        cases progress with
        | unbegun => simp [task, Task.hasBegun] at began
        | waiting => exact ⟨_, rfl, rfl⟩
      | pump => simp [task, Task.hasBegun] at began
    obtain ⟨tasks, ready, dialled, mailbox⟩ := (b.removeTask id).dials_report task
    refine ⟨by rw [begins?, found, Option.bind_some, none], ?_⟩
    simp only [Backstage.turn, found, ending]
    refine .of_split found split removed [] ?_ (by simp) (fun epoch member => ?_) ?_
      (ready ▸ List.Subset.refl _)
    · rw [tasks, removeTask, removed, List.append_nil]
    · rw [List.filterMap_nil, List.nil_append, mailbox, List.mem_append] at member
      refine member.imp_right fun own => .inl ?_
      rw [← calling]
      exact Option.mem_toList.mp own
    · rw [dialled, none]
      rfl

end Backstage

namespace Search

theorem works_bare (b : Backstage) : b.bare.works = b.works := by
  have anew : Work.ofEntry? ∘ Entry.anew = Work.ofEntry? := by
    funext e
    obtain ⟨id, task, cancelled⟩ := e
    cases task <;> rfl
  rw [Backstage.works, Backstage.bare, List.filterMap_map, anew]
  rfl

theorem Kept.of_bare {s : Search} (h : s.Kept) {b : Backstage} (same : b.bare = s.back.bare) :
    Kept { s with back := b } := by
  have works : b.works = s.back.works := by rw [← works_bare, same, works_bare]
  have outstanding : outstanding { s with back := b } = s.outstanding := by
    simp only [Search.outstanding, works]
  refine ⟨b.numbered_bare.mp (same ▸ s.back.numbered_bare.mpr h.numbered), works ▸ h.past, ?_,
    h.quiet, outstanding ▸ h.single, h.issued⟩
  intro e member alive
  obtain ⟨old, isOld, anew⟩ := Backstage.anew_of_bare same member
  have name := congrArg (·.task.name) anew
  have cancelled : old.cancelled = e.cancelled := congrArg (·.cancelled) anew
  simp only [Entry.anew, Task.name_anew] at name
  exact name ▸ h.alive old isOld (cancelled.trans alive)

end Search

theorem World.Seeks.takesTurns {ω : Type} {w : World ω} (h : w.Seeks) {b : Backstage}
    (turns : w.back.TakesTurns b) : World.Seeks { w with back := b } := by
  refine turns.keeps (P := fun b => World.Seeks { w with back := b }) (fun {b c} same kept => ?_)
    (fun b turn kept => kept.turn turn) h
  have quest : c.quest.bare = b.quest.bare := by rw [Backstage.quest_bare, same, Backstage.quest_bare]
  exact ⟨c.numbered_bare.mp (same ▸ b.numbered_bare.mpr kept.numbered), kept.records,
    Search.Kept.of_bare kept.kept quest⟩

namespace Watch

variable {ω : Type}

/-- What holds of a watched world at any time. A dial that has not begun waits for its turn and is
held, or it was given up; one that has begun was written down, and so nothing else reports. -/
structure Steady (w : Watch ω) : Prop where
  seeks : w.world.Seeks
  always : w.world.journal.Open
  among : (w.begun ++ w.back.waiting).Sublist w.world.journal.dialled
  held : ∀ p ∈ w.back.waiting, w.session.dial = some p.1
  calls : ∀ epoch ∈ w.back.calls, epoch ∈ w.begun.map Prod.fst
  logged : w.back.dialled = (w.begun.map Prod.snd).reverse
  fate : ∀ p ∈ w.world.journal.dialled, p ∈ w.begun ++ w.back.waiting ∨
    ∃ episode ∈ w.world.journal, .cancel (.dial p.1) ∈ episode.effects

namespace Steady

variable {w : Watch ω}

theorem handsOver (h : w.Steady) : w.world.journal.HandsOver w.session :=
  h.seeks.records.handsOver h.always

theorem later (h : w.Steady) {p q : Nat × Endpoint} (begun : p ∈ w.begun)
    (waits : q ∈ w.back.waiting) : p.1 < q.1 := by
  have rising := h.handsOver.rising.sublist h.among
  exact (List.pairwise_append.mp rising).2.2 p begun q waits

theorem waiting_cases (h : w.Steady) : w.back.waiting = [] ∨ ∃ p, w.back.waiting = [p] := by
  have rising := h.handsOver.rising.sublist ((List.sublist_append_right _ _).trans h.among)
  cases waiting : w.back.waiting with
  | nil => exact .inl rfl
  | cons p rest =>
    cases rest with
    | nil => exact .inr ⟨p, rfl⟩
    | cons q rest =>
      rw [waiting] at rising
      have less : p.1 < q.1 := List.rel_of_pairwise_cons rising List.mem_cons_self
      have first := h.held p (by simp [waiting])
      have second := h.held q (by simp [waiting])
      rw [first] at second
      exact absurd (Option.some.inj second) (Nat.ne_of_lt less)

theorem of_same (h : w.Steady) {b : Backstage} (seeks : World.Seeks { w.world with back := b })
    (waiting : b.waiting = w.back.waiting) (calls : b.calls = w.back.calls)
    (dialled : b.dialled = w.back.dialled) : (w.withBack b).Steady :=
  ⟨seeks, h.always, waiting.symm ▸ h.among, waiting.symm ▸ h.held, calls.symm ▸ h.calls,
    dialled.trans h.logged, waiting.symm ▸ h.fate⟩

theorem waiting_of_ran (h : w.Steady) {id : Nat} {b : Backstage} (ran : w.back.Ran id b) :
    (w.back.begins? id).toList ++ b.waiting = w.back.waiting := by
  obtain ⟨before, after, was, now⟩ := ran.waiting
  rw [now, was]
  cases begins : w.back.begins? id with
  | none => simp
  | some p =>
    rw [begins] at was
    -- only one dial waits, so nothing stands before or after the one that begins
    rcases h.waiting_cases with none | ⟨q, one⟩
    · simp [none] at was
    · have short := congrArg List.length (one.symm.trans was)
      simp only [List.length_singleton, List.length_append, Option.toList_some] at short
      obtain rfl : before = [] := List.length_eq_zero_iff.mp (by omega)
      obtain rfl : after = [] := List.length_eq_zero_iff.mp (by omega)
      rfl

theorem of_ran (h : w.Steady) {id : Nat} {b : Backstage} (ran : w.back.Ran id b)
    (seeks : World.Seeks { w.world with back := b }) :
    Steady { w.withBack b with begun := w.begun ++ (w.back.begins? id).toList } := by
  have waiting := h.waiting_of_ran ran
  have same : (w.begun ++ (w.back.begins? id).toList) ++ b.waiting = w.begun ++ w.back.waiting := by
    rw [List.append_assoc, waiting]
  refine ⟨seeks, h.always, same.symm ▸ h.among, fun p waits => ?_, fun epoch call => ?_, ?_,
    same.symm ▸ h.fate⟩
  · exact h.held p (waiting ▸ List.mem_append_right _ waits)
  · rw [List.map_append, List.mem_append]
    exact (ran.calls epoch call).imp_left (h.calls epoch)
  · refine ran.dialled.trans ?_
    rw [h.logged]
    cases w.back.begins? id <;> simp

theorem turn (h : w.Steady) (id : Nat) : (w.turn id).Steady :=
  h.of_ran (h.seeks.numbered.ran id)
    (h.seeks.takesTurns (Backstage.run_takes_turns h.seeks.numbered id))

theorem late (h : w.Steady) (id : Nat) (reply : Except Fault String) (answer : Except Fault Unit) :
    (w.late id reply answer).Steady := by
  unfold Watch.late
  split
  · rename_i begun
    obtain ⟨none, ran⟩ := h.seeks.numbered.ran_late begun reply answer
    have ended := h.of_ran ran (h.seeks.turn (.finish id reply answer))
    simpa [none, withBack] using ended
  · exact h

theorem reach (h : w.Steady) (time : Nat) : (w.withBack (w.back.reach time)).Steady := by
  have seeks := h.seeks.takesTurns (Backstage.reach_takes_turns w.back time)
  obtain ⟨ready, woken⟩ := Backstage.wakes_eq { w.back with now := time }
    (w.back.tasks.filter fun e => e.task.due?.any (· ≤ time))
  refine h.of_same seeks ?_ ?_ ?_ <;> rw [Backstage.reach, woken] <;> rfl

theorem serve (h : w.Steady) (link : Nat) (serving : Serving) :
    (w.act (.serve link serving)).Steady := by
  have seeks := h.seeks.serve link serving
  simp only [act, World.act] at seeks ⊢
  split
  · exact h
  · rename_i back done acted
    rw [acted] at seeks
    obtain ⟨l, ready, -, -, rfl⟩ := Backstage.eq_of_server acted
    exact ⟨seeks, h.always, h.among, h.held, h.calls, h.logged, h.fate⟩

theorem withReady (h : w.Steady) (ready : List Nat) : (w.withBack { w.back with ready }).Steady :=
  h.of_same (h.seeks.takesTurns (.of_bare rfl)) rfl rfl rfl

theorem turns (h : w.Steady) (ids : List Nat) : (ids.foldl Watch.turn w).Steady ∧
    (ids.foldl Watch.turn w).begun ++ (ids.foldl Watch.turn w).back.waiting =
      w.begun ++ w.back.waiting ∧
    ∀ e ∈ (ids.foldl Watch.turn w).back.tasks, e.caller?.isSome = true →
      e ∈ w.back.tasks ∧ e.id ∉ ids := by
  induction ids generalizing w with
  | nil => exact ⟨h, rfl, fun e member _ => ⟨member, List.not_mem_nil⟩⟩
  | cons id ids ih =>
    obtain ⟨steady, same, callers⟩ := ih (h.turn id)
    have ran := h.seeks.numbered.ran id
    refine ⟨steady, same.trans ?_, fun e member waits => ?_⟩
    · change (w.begun ++ (w.back.begins? id).toList) ++ (w.back.run id).waiting = _
      rw [List.append_assoc, h.waiting_of_ran ran]
    · obtain ⟨before, rest⟩ := callers e member waits
      obtain ⟨isTask, other⟩ := ran.callers e before waits
      exact ⟨isTask, List.not_mem_cons_of_ne_of_not_mem other rest⟩

theorem settleWithin (h : w.Steady) (rounds : Nat) : (w.settleWithin rounds).Steady ∧
    (w.settleWithin rounds).begun ++ (w.settleWithin rounds).back.waiting =
      w.begun ++ w.back.waiting ∧
    ∀ e ∈ (w.settleWithin rounds).back.tasks, e.caller?.isSome = true → e ∈ w.back.tasks := by
  induction rounds generalizing w with
  | zero => exact ⟨h, rfl, fun e member _ => member⟩
  | succ rounds ih =>
    rw [Watch.settleWithin]
    split
    · exact ⟨h, rfl, fun e member _ => member⟩
    · obtain ⟨steady, same, callers⟩ := (h.withReady []).turns w.back.ready
      obtain ⟨settled, still, among⟩ := ih steady
      exact ⟨settled, still.trans same, fun e member waits =>
        (callers e (among e member waits) waits).1⟩

/-- Once all is settled, every dial that waited has begun. -/
theorem settle (h : w.Steady) (woken : w.back.Woken) : w.settle.Steady ∧
    w.settle.back.waiting = [] ∧ w.settle.begun = w.begun ++ w.back.waiting := by
  have all : w.settle.Steady ∧ w.settle.begun ++ w.settle.back.waiting = w.begun ++ w.back.waiting ∧
      ∀ e ∈ w.settle.back.tasks, e.caller?.isSome = false := by
    unfold Watch.settle
    -- the first round is enough: whatever waits is to run in it
    rw [Watch.settleWithin]
    split
    · rename_i quiet
      refine ⟨h, rfl, fun e member => Bool.eq_false_iff.mpr fun waits => ?_⟩
      have := woken e member waits
      simp [quiet] at this
    · obtain ⟨steady, same, callers⟩ := (h.withReady []).turns w.back.ready
      obtain ⟨settled, still, among⟩ := steady.settleWithin _
      refine ⟨settled, still.trans same, fun e member => Bool.eq_false_iff.mpr fun waits => ?_⟩
      obtain ⟨isTask, away⟩ := callers e (among e member waits) waits
      exact away (woken e isTask waits)
  obtain ⟨steady, same, none⟩ := all
  have empty : w.settle.back.waiting = [] :=
    List.filterMap_eq_nil_iff.mpr fun e member => by simpa using none e member
  rw [empty, List.append_nil] at same
  exact ⟨steady, empty, same⟩

/-- A dial that waits and is not given up by a call is held after it. -/
theorem still_held (h : w.Steady) (outside : Outside) {call : Call ω}
    (reported : ∀ m, call = .handle m → m ∈ w.back.mailbox) {p : Nat × Endpoint}
    (waits : p ∈ w.back.waiting)
    (alive : .cancel (.dial p.1) ∉ (w.world.connection.call outside call).2.1) :
    (w.world.connection.call outside call).1.session.dial = some p.1 := by
  have records := h.seeks.records
  have held : TaskName.dial p.1 ∈ w.session.lines := by
    simp [Session.lines, h.held p waits]
  refine Decidable.byContradiction fun gone => ?_
  -- what is let go of without being cancelled has reported, and a dial that waits has not
  have left : TaskName.dial p.1 ∉ (w.world.connection.call outside call).1.session.lines := by
    simpa [Session.lines] using gone
  rcases (records.step outside call).gives_up records.coherent records.numbered held left with
    cancelled | ⟨m, handled, source⟩
  · exact alive cancelled
  · have own := Message.dial?_of_source source
    have call : p.1 ∈ w.back.calls :=
      List.mem_append_right _ (List.mem_filterMap.mpr ⟨m, reported m handled, own⟩)
    obtain ⟨q, begun, same⟩ := List.mem_map.mp (h.calls p.1 call)
    exact absurd same (Nat.ne_of_lt (h.later begun waits))

theorem held_of_dialled (h : w.Steady) (outside : Outside) {call : Call ω} {p : Nat × Endpoint}
    (new : p ∈ (w.world.connection.episode outside call).dialled) :
    (w.world.connection.call outside call).1.session.dial = some p.1 ∧ w.session.epoch < p.1 := by
  obtain ⟨after, next⟩ := Connection.dialling_of_dialled h.seeks.records.coherent new
  rw [after, next]
  exact ⟨rfl, Nat.lt_succ_self _⟩

theorem waiting_of_dialled (h : w.Steady) (outside : Outside) {call : Call ω}
    (reported : ∀ m, call = .handle m → m ∈ w.back.mailbox) {p : Nat × Endpoint}
    (new : p ∈ (w.world.connection.episode outside call).dialled) : (w.back.waiting.filter fun p =>
      decide (.cancel (.dial p.1) ∉ (w.world.connection.call outside call).2.1)) = [] := by
  obtain ⟨dial, above⟩ := h.held_of_dialled outside new
  refine List.filter_eq_nil_iff.mpr fun q waits => ?_
  simp only [decide_eq_true_eq]
  intro alive
  have still := h.still_held outside reported waits alive
  have below := h.handsOver.bounded q (h.among.subset (List.mem_append_right _ waits))
  rw [dial] at still
  have same := Option.some.inj still
  omega

theorem fate_call (h : w.Steady) {episode : Episode ω} {waiting : List (Nat × Endpoint)}
    (now : waiting = (w.back.waiting.filter fun p =>
      decide (.cancel (.dial p.1) ∉ episode.effects)) ++ episode.dialled) :
    ∀ p ∈ w.world.journal.dialled ++ episode.dialled, p ∈ w.begun ++ waiting ∨
      ∃ e ∈ w.world.journal ++ [episode], .cancel (.dial p.1) ∈ e.effects := by
  intro p member
  rw [now, ← List.append_assoc, List.mem_append, List.mem_append]
  rcases List.mem_append.mp member with old | new
  · rcases h.fate p old with among | ⟨e, earlier, cancelled⟩
    · rcases List.mem_append.mp among with begun | waited
      · exact .inl (.inl (.inl begun))
      · by_cases cancelled : .cancel (.dial p.1) ∈ episode.effects
        · exact .inr ⟨episode, by simp, cancelled⟩
        · exact .inl (.inl (.inr (List.mem_filter.mpr ⟨waited, decide_eq_true cancelled⟩)))
    · exact .inr ⟨e, List.mem_append_left _ earlier, cancelled⟩
  · exact .inl (.inr new)

theorem call (h : w.Steady) {call : Call ω} {rest : List Message}
    (mailbox : w.back.mailbox = call.message?.toList ++ rest)
    (seeks : World.Seeks
      (World.call { w.world with back := { w.back with mailbox := rest } } true call)) :
    Steady ⟨World.call { w.world with back := { w.back with mailbox := rest } } true call,
      w.begun⟩ := by
  let b : Backstage := { w.back with mailbox := rest }
  let outside : Outside := ⟨true, b.listening⟩
  let episode := w.world.connection.episode outside call
  have step := h.seeks.records.step outside call
  have reported : ∀ m, call = .handle m → m ∈ w.back.mailbox := by
    rintro m rfl
    simp [mailbox, Call.message?]
  have waiting : (b.performAll episode.effects).waiting = _ := b.waiting_step step
  have longer : Journal.dialled (w.world.journal ++ [episode]) =
      w.world.journal.dialled ++ episode.dialled := by simp [Journal.dialled]
  have stays : (w.back.waiting.filter fun p => decide (.cancel (.dial p.1) ∉ episode.effects)).Sublist
      w.back.waiting := List.filter_sublist
  refine ⟨seeks, ?_, ?_, ?_, ?_, ?_, ?_⟩
  · exact List.forall_mem_append.mpr ⟨h.always, by simp [Connection.episode]⟩
  · change (w.begun ++ (b.performAll episode.effects).waiting).Sublist
      (Journal.dialled (w.world.journal ++ [episode]))
    rw [waiting, longer, ← List.append_assoc]
    exact ((stays.append_left w.begun).trans h.among).append_right _
  · intro p waits
    have among : p ∈ (b.performAll episode.effects).waiting := waits
    rw [waiting, List.mem_append] at among
    rcases among with old | new
    · obtain ⟨waited, alive⟩ := List.mem_filter.mp old
      exact h.still_held outside reported waited (of_decide_eq_true alive)
    · exact (h.held_of_dialled outside new).1
  · intro epoch member
    have among : epoch ∈ (b.performAll episode.effects).calls := member
    rw [b.calls_performAll] at among
    refine h.calls epoch ?_
    rcases List.mem_append.mp among with task | report
    · exact List.mem_append_left _ task
    · refine List.mem_append_right _ ?_
      rw [mailbox, List.filterMap_append]
      exact List.mem_append_right _ report
  · exact (b.dialled_performAll episode.effects).trans h.logged
  · intro p member
    change p ∈ Journal.dialled (w.world.journal ++ [episode]) at member
    rw [longer] at member
    exact h.fate_call waiting p member

theorem order (h : w.Steady) (order : Order ω) : (w.act (.order order)).Steady :=
  h.call (List.nil_append _).symm (World.seeks_act h.seeks (.order true order))

theorem take (h : w.Steady) : (w.act .take).Steady := by
  have seeks := h.seeks.take true
  simp only [act, World.act] at seeks ⊢
  split
  · exact h
  · rename_i m rest mailbox
    simp only [mailbox] at seeks
    exact h.call mailbox seeks

end Steady

/-- What holds of a watched world between its acts: every dial that waits is to have its turn. -/
structure Kept (w : Watch ω) : Prop where
  steady : w.Steady
  woken : w.back.Woken

variable {w : Watch ω}

theorem Kept.order (h : w.Kept) (order : Order ω) : (w.act (.order order)).Kept :=
  ⟨h.steady.order order, h.woken.performAll _⟩

theorem Kept.take (h : w.Kept) : (w.act .take).Kept := by
  refine ⟨h.steady.take, ?_⟩
  simp only [act, World.act]
  split
  · exact h.woken
  · rename_i m rest mailbox
    have woken : Backstage.Woken { w.back with mailbox := rest } := h.woken
    exact woken.performAll _

theorem Kept.serve (h : w.Kept) (link : Nat) (serving : Serving) :
    (w.act (.serve link serving)).Kept := by
  refine ⟨h.steady.serve link serving, ?_⟩
  simp only [act, World.act]
  split
  · exact h.woken
  · rename_i back done acted
    have ready := Backstage.ready_server acted
    obtain ⟨l, _, -, -, rfl⟩ := Backstage.eq_of_server acted
    exact h.woken.mono (fun e member _ => member) ready

theorem Kept.turn (h : w.Kept) (id : Nat) : (w.turn id).Kept := by
  have ran := h.steady.seeks.numbered.ran id
  exact ⟨h.steady.turn id, h.woken.mono (fun e member waits => (ran.callers e member waits).1) ran.ready⟩

theorem Kept.late (h : w.Kept) (id : Nat) (reply : Except Fault String)
    (answer : Except Fault Unit) : (w.late id reply answer).Kept := by
  refine ⟨h.steady.late id reply answer, ?_⟩
  unfold Watch.late
  split
  · rename_i begun
    obtain ⟨-, ran⟩ := h.steady.seeks.numbered.ran_late begun reply answer
    exact h.woken.mono (fun e member waits => (ran.callers e member waits).1) ran.ready
  · exact h.woken

theorem Kept.settle (h : w.Kept) : w.settle.Kept := by
  obtain ⟨steady, none, -⟩ := h.steady.settle h.woken
  exact ⟨steady, Backstage.woken_of_waiting none⟩

theorem Kept.reach (h : w.Kept) (time : Nat) : (w.withBack (w.back.reach time)).Kept := by
  refine ⟨h.steady.reach time, h.woken.mono (fun e member _ => ?_) ?_⟩
  · obtain ⟨ready, woken⟩ := Backstage.wakes_eq { w.back with now := time }
      (w.back.tasks.filter fun e => e.task.due?.any (· ≤ time))
    have among : e ∈ (w.back.reach time).tasks := member
    rw [Backstage.reach, woken] at among
    exact among
  · exact Backstage.ready_wakes { w.back with now := time } _

theorem kept_act (h : w.Kept) (act : WatchAct ω) : (w.act act).Kept := by
  cases act with
  | order order => exact h.order order
  | take => exact h.take
  | serve link serving => exact h.serve link serving
  | turn id => exact h.turn id
  | late id reply answer => exact h.late id reply answer
  | settle => exact h.settle
  | reach time => exact h.reach time

theorem kept_opening (retryDelay timeout : Nat) (script : Script) :
    (opening retryDelay timeout script : Watch ω).Kept := by
  refine ⟨⟨World.seeks_opening retryDelay timeout script, ?_, ?_, ?_, ?_, rfl, ?_⟩, ?_⟩ <;>
    simp [opening, World.opening, Backstage.opening, Backstage.waiting, Backstage.calls,
      Backstage.Woken, Journal.Open, Journal.dialled]

theorem kept_run (h : w.Kept) (acts : List (WatchAct ω)) : (w.run acts).Kept := by
  induction acts generalizing w with
  | nil => exact h
  | cons act acts ih => exact ih (kept_act h act)

/-- An order to connect leaves its own dial waiting, and no other. -/
theorem Kept.waiting_connect (h : w.Kept) (endpoint : Endpoint) :
    (w.act (.order (.connect endpoint))).back.waiting = [(w.session.epoch + 1, endpoint)] ∧
      (w.act (.order (.connect endpoint))).session.epoch = w.session.epoch + 1 := by
  let outside : Outside := ⟨true, w.back.listening⟩
  let call : Call ω := .order (.connect endpoint)
  have records := h.steady.seeks.records
  have available : outside.available = true := rfl
  have dialled := (Connection.handsOver_episode records.coherent records.numbered available
    call).dialled
  have epoch := Connection.epoch_episode records.coherent outside call
  rw [dialled] at epoch
  have moved : (w.world.connection.episode outside call).after.epoch = w.session.epoch + 1 := epoch
  have new : (w.world.connection.episode outside call).dialled =
      [(w.session.epoch + 1, endpoint)] := by
    rw [dialled, moved]
    rfl
  refine ⟨?_, moved⟩
  have order : ∀ m, (.order (.connect endpoint) : Call ω) = .handle m → m ∈ w.back.mailbox := nofun
  have waiting := w.back.waiting_step (records.step outside call)
  rw [h.steady.waiting_of_dialled outside order (new ▸ List.mem_singleton.mpr rfl),
    List.nil_append] at waiting
  exact waiting.trans new

theorem Kept.settle_connects (h : w.Kept) (endpoints : List Endpoint) (last : Endpoint) :
    (((w.run (endpoints.map fun endpoint => .order (.connect endpoint))).act
      (.order (.connect last))).settle).begun =
        w.begun ++ [(w.session.epoch + endpoints.length + 1, last)] := by
  induction endpoints generalizing w with
  | nil =>
    have next := h.order (.connect last)
    obtain ⟨-, -, begun⟩ := next.steady.settle next.woken
    rw [(h.waiting_connect last).1] at begun
    exact begun
  | cons endpoint endpoints ih =>
    have rest := ih (h.order (.connect endpoint))
    rw [(h.waiting_connect endpoint).2, Nat.add_right_comm w.session.epoch 1] at rest
    exact rest

example : ((opening 10 10 .offline : Watch Unit).run [.order (.connect ⟨"left", 1⟩),
    .order (.connect ⟨"right", 2⟩), .settle]).begun = [(2, ⟨"right", 2⟩)] := by
  decide

end Watch

end TileClient.Rehearsal
