import TileClient.Proofs.Rehearsal.Lines
import TileClient.Proofs.Rehearsal.Schedule
import TileClient.Proofs.Session.Handoff

/-! Dials backstage. A dial waits for its first run; then it has begun, and what is left of it later
is its report. What steps ask for and what tasks do when they run is said for dials alone. -/
namespace TileClient

def Message.dial? : Message → Option Nat
  | .opened epoch _ | .dialFailed epoch _ => some epoch
  | .discovery _ | .transport _ _ => none

theorem Message.dial?_of_source {m : Message} {epoch : Nat} (name : m.source = .dial epoch) :
    m.dial? = some epoch := by
  cases m with
  | discovery report => cases report <;> simp [source] at name
  | opened | dialFailed => simpa [source, dial?] using name
  | transport => simp [source] at name

namespace Rehearsal

def Task.unbegun? : Task → Option (Nat × Endpoint)
  | .dial epoch endpoint .unbegun => some (epoch, endpoint)
  | _ => none

def Task.calling? : Task → Option Nat
  | .dial epoch _ (.waiting _ _) => some epoch
  | _ => none

theorem Task.eq_of_unbegun? {task : Task} {p : Nat × Endpoint} (h : task.unbegun? = some p) :
    task = .dial p.1 p.2 .unbegun := by
  unfold unbegun? at h
  split at h
  · obtain rfl := Option.some.inj h
    rfl
  · cases h

/-- The dial that begins if a task is run next. -/
def Entry.caller? (e : Entry) : Option (Nat × Endpoint) :=
  if e.cancelled then none else e.task.unbegun?

theorem Entry.caller?_givenUp (name : TaskName) (e : Entry) :
    (e.givenUp [name]).caller? = e.caller?.filter fun p => decide (.dial p.1 ≠ name) := by
  obtain ⟨id, task, cancelled⟩ := e
  cases cancelled with
  | true => by_cases named : task.name = name <;> simp [givenUp, caller?, named]
  | false =>
    cases dial : task.unbegun? with
    | none => by_cases named : task.name = name <;> simp [givenUp, caller?, named, dial]
    | some p =>
      obtain rfl := Task.eq_of_unbegun? dial
      by_cases named : TaskName.dial p.1 = name <;>
        simp [givenUp, caller?, Task.name, Task.unbegun?, named, Option.filter]

namespace Backstage

/-- The dials that wait for their first run. -/
def waiting (b : Backstage) : List (Nat × Endpoint) := b.tasks.filterMap Entry.caller?

/-- The epochs of dials that have begun and are under way, or whose report waits. -/
def calls (b : Backstage) : List Nat :=
  b.tasks.filterMap (·.task.calling?) ++ b.mailbox.filterMap Message.dial?

/-- Every dial that waits for its first run is to run. -/
def Woken (b : Backstage) : Prop := ∀ e ∈ b.tasks, e.caller?.isSome = true → e.id ∈ b.ready

/-- The dial that begins if the task of a number is run. -/
def begins? (b : Backstage) (id : Nat) : Option (Nat × Endpoint) :=
  (b.tasks.find? (·.id = id)).bind Entry.caller?

theorem calls_perform (b : Backstage) (effect : Effect) : (b.perform effect).calls = b.calls := by
  have mailbox := (b.sameLines_perform effect).mailbox
  have tasks : (b.perform effect).tasks.filterMap (·.task.calling?) =
      b.tasks.filterMap (·.task.calling?) := by
    cases effect with
    | request | pause | dial | pump => simp [perform, spawn, Task.calling?]
    | release | transmit | publish => rfl
    | cancel name =>
      obtain ⟨ready, cancelled⟩ := b.cancel_eq name
      simp [perform, cancelled]
  rw [calls, calls, mailbox, tasks]

theorem calls_performAll (b : Backstage) (effects : List Effect) :
    (b.performAll effects).calls = b.calls := by
  induction effects generalizing b with
  | nil => rfl
  | cons effect effects ih => exact (ih (b.perform effect)).trans (b.calls_perform effect)

theorem waiting_perform (b : Backstage) (effect : Effect) : (b.perform effect).waiting =
    (b.waiting.filter fun p => decide (effect ≠ .cancel (.dial p.1))) ++
      (Effect.dialling? effect).toList := by
  cases effect with
  | request | pause | dial | pump =>
    simp [perform, spawn, waiting, Entry.caller?, Task.unbegun?]
  | release | transmit | publish => simp [perform, waiting, updateLink]
  | cancel name =>
    obtain ⟨ready, cancelled⟩ := b.cancel_eq name
    simp [perform, cancelled, waiting, List.filterMap_map, Entry.caller?_givenUp,
      List.filter_filterMap, eq_comm]

theorem waiting_performAll (b : Backstage) {effects : List Effect}
    (silent : Effect.collect Effect.dialling? effects = []) : (b.performAll effects).waiting =
      b.waiting.filter fun p => decide (.cancel (.dial p.1) ∉ effects) := by
  induction effects generalizing b with
  | nil => simp [performAll]
  | cons effect effects ih =>
    rw [Effect.collect_cons, List.append_eq_nil_iff] at silent
    have rest := ih (b.perform effect) silent.2
    rw [waiting_perform, silent.1, List.append_nil, List.filter_filter] at rest
    rw [performAll, List.foldl_cons, ← performAll, rest]
    refine List.filter_congr fun p _ => ?_
    simp [eq_comm, Bool.and_comm]

/-- What waits after a step of a session: what waited and is not cancelled, and the new dial. -/
theorem waiting_step {ω : Type} (b : Backstage) {s t : Session} {call : Call ω}
    {effects : List Effect} (step : s.Transition call effects t) :
    (b.performAll effects).waiting =
      (b.waiting.filter fun p => decide (.cancel (.dial p.1) ∉ effects)) ++
        Effect.collect Effect.dialling? effects := by
  rcases step.dials with silent | ⟨-, names, endpoint, rfl⟩
  · rw [b.waiting_performAll silent, silent, List.append_nil]
  · have silent : Effect.collect Effect.dialling? (names.map .cancel) = [] := by simp
    rw [performAll_append]
    refine (waiting_perform _ (.dial (s.epoch + 1) endpoint)).trans ?_
    rw [waiting_performAll b silent, List.filter_filter]
    simp

theorem dialled_performAll (b : Backstage) (effects : List Effect) :
    (b.performAll effects).dialled = b.dialled := by
  induction effects generalizing b with
  | nil => rfl
  | cons effect effects ih =>
    refine (ih (b.perform effect)).trans ?_
    cases effect with
    | cancel name =>
      obtain ⟨ready, cancelled⟩ := b.cancel_eq name
      rw [perform, cancelled]
    | _ => rfl

theorem ready_wake (b : Backstage) (id : Nat) : b.ready ⊆ (b.wake id).ready := by
  unfold wake
  split
  · exact List.Subset.refl _
  · exact List.subset_append_left _ _

theorem ready_wakes (b : Backstage) (entries : List Entry) :
    b.ready ⊆ (entries.foldl (fun b e => b.wake e.id) b).ready := by
  induction entries generalizing b with
  | nil => exact List.Subset.refl _
  | cons e entries ih => exact List.Subset.trans (b.ready_wake e.id) (ih (b.wake e.id))

theorem ready_perform (b : Backstage) (effect : Effect) : b.ready ⊆ (b.perform effect).ready := by
  cases effect with
  | request | pause | dial | pump => exact List.subset_append_left _ _
  | release | transmit | publish => exact List.Subset.refl _
  | cancel name => exact b.ready_wakes _

theorem Woken.mono {b c : Backstage} (h : b.Woken)
    (callers : ∀ e ∈ c.tasks, e.caller?.isSome = true → e ∈ b.tasks) (ready : b.ready ⊆ c.ready) :
    c.Woken :=
  fun e member waits => ready (h e (callers e member waits) waits)

theorem woken_of_waiting {b : Backstage} (none : b.waiting = []) : b.Woken := by
  intro e member waits
  have quiet := List.filterMap_eq_nil_iff.mp none e member
  simp [quiet] at waits

theorem Woken.perform {b : Backstage} (h : b.Woken) (effect : Effect) : (b.perform effect).Woken := by
  have ready := b.ready_perform effect
  cases effect with
  | request | pause | dial | pump =>
    intro e member waits
    rcases List.mem_append.mp member with old | new
    · exact ready (h e old waits)
    · rw [List.mem_singleton.mp new]
      exact List.mem_append_right _ (List.mem_singleton.mpr rfl)
  | release | transmit | publish => exact h
  | cancel name =>
    obtain ⟨_, cancelled⟩ := b.cancel_eq name
    intro e member waits
    have among : e ∈ b.tasks.map (Entry.givenUp [name]) := by
      rw [Backstage.perform, cancelled] at member
      exact member
    obtain ⟨old, isOld, rfl⟩ := List.mem_map.mp among
    rw [Entry.caller?_givenUp] at waits
    rw [Entry.givenUp_id]
    refine ready (h old isOld ?_)
    cases caller : old.caller? with
    | none => simp [caller] at waits
    | some => rfl

theorem Woken.performAll {b : Backstage} (h : b.Woken) (effects : List Effect) :
    (b.performAll effects).Woken := by
  induction effects generalizing b with
  | nil => exact h
  | cons effect effects ih => exact ih (h.perform effect)

/-- What a run of a task means for dials: at most one begins, and it was to run. -/
structure Ran (b : Backstage) (id : Nat) (c : Backstage) : Prop where
  waiting : ∃ before after, b.waiting = before ++ (b.begins? id).toList ++ after ∧
    c.waiting = before ++ after
  calls : ∀ epoch ∈ c.calls, epoch ∈ b.calls ∨ epoch ∈ (b.begins? id).toList.map Prod.fst
  dialled : c.dialled = (b.begins? id).toList.map Prod.snd ++ b.dialled
  callers : ∀ e ∈ c.tasks, e.caller?.isSome = true → e ∈ b.tasks ∧ e.id ≠ id
  ready : b.ready ⊆ c.ready

/-- Beginning a task means nothing for the others. -/
theorem dials_begin (b : Backstage) (task : Task) :
    (b.begin task).1.tasks = b.tasks ∧ (b.begin task).1.mailbox = b.mailbox ∧
      (b.begin task).1.ready = b.ready ∧
      (b.begin task).1.dialled = task.unbegun?.toList.map Prod.snd ++ b.dialled ∧
      (b.begin task).2.unbegun? = none ∧
      ∀ epoch, (b.begin task).2.calling? = some epoch →
        task.calling? = some epoch ∨ epoch ∈ task.unbegun?.toList.map Prod.fst := by
  cases task with
  | request attempt progress | pause attempt progress =>
    cases progress <;> exact ⟨rfl, rfl, rfl, rfl, rfl, nofun⟩
  | dial epoch endpoint progress =>
    cases progress with
    | unbegun =>
      refine ⟨rfl, rfl, rfl, rfl, rfl, fun own begun => .inr ?_⟩
      simpa [begin, Task.calling?, Task.unbegun?, eq_comm] using begun
    | waiting => exact ⟨rfl, rfl, rfl, rfl, rfl, fun _ => .inl⟩
  | pump => exact ⟨rfl, rfl, rfl, rfl, rfl, nofun⟩

theorem dials_report (b : Backstage) (task : Task) :
    (b.report task).tasks = b.tasks ∧ (b.report task).ready = b.ready ∧
      (b.report task).dialled = b.dialled ∧
      (b.report task).mailbox.filterMap Message.dial? =
        b.mailbox.filterMap Message.dial? ++ task.calling?.toList := by
  cases task with
  | request attempt progress | pause attempt progress =>
    cases progress <;> simp [report, post, Message.dial?, Task.calling?]
  | dial epoch endpoint progress =>
    cases progress with
    | unbegun => simp [report, Task.calling?]
    | waiting due outcome =>
      cases outcome <;> simp [report, post, newLink, Message.dial?, Task.calling?]
  | pump => simp [report, Task.calling?]

/-- Forwarding means nothing for dials. -/
theorem dials_forward (epoch link limit : Nat) (b : Backstage) :
    let c := (forward epoch link limit b).1
    c.tasks = b.tasks ∧ c.ready = b.ready ∧ c.dialled = b.dialled ∧
      c.mailbox.filterMap Message.dial? = b.mailbox.filterMap Message.dial? := by
  induction limit generalizing b with
  | zero => exact ⟨rfl, rfl, rfl, rfl⟩
  | succ limit ih =>
    rw [forward]
    split
    · exact ⟨rfl, rfl, rfl, rfl⟩
    · rename_i event rest _
      have posted : ((b.updateLink link fun _ => rest).post (.transport epoch event)).mailbox.filterMap
          Message.dial? = b.mailbox.filterMap Message.dial? := by
        simp [post, updateLink, Message.dial?]
      dsimp only
      split
      · exact ⟨rfl, rfl, rfl, posted⟩
      · obtain ⟨tasks, ready, dialled, mailbox⟩ :=
          ih ((b.updateLink link fun _ => rest).post (.transport epoch event))
        exact ⟨tasks, ready, dialled, mailbox.trans posted⟩

section
variable {b c : Backstage} {id : Nat} {e : Entry} {before after : List Entry}

/-- A task that is run stays with what has become of it, or leaves its place. -/
theorem Ran.of_split (found : b.tasks.find? (·.id = id) = some e)
    (split : b.tasks = before ++ e :: after)
    (removed : b.tasks.filter (·.id != id) = before ++ after) (rest : List Entry)
    (tasks : c.tasks = before ++ rest ++ after) (none : ∀ x ∈ rest, x.caller? = none)
    (reports : ∀ epoch ∈ rest.filterMap (·.task.calling?) ++ c.mailbox.filterMap Message.dial?,
      epoch ∈ b.mailbox.filterMap Message.dial? ∨ e.task.calling? = some epoch ∨
        epoch ∈ e.caller?.toList.map Prod.fst)
    (dialled : c.dialled = e.caller?.toList.map Prod.snd ++ b.dialled) (ready : b.ready ⊆ c.ready) :
    b.Ran id c := by
  have begins : b.begins? id = e.caller? := by rw [begins?, found, Option.bind_some]
  have quiet : rest.filterMap Entry.caller? = [] := List.filterMap_eq_nil_iff.mpr none
  refine ⟨⟨before.filterMap Entry.caller?, after.filterMap Entry.caller?, ?_, ?_⟩, ?_, ?_, ?_, ready⟩
  · rw [Backstage.waiting, split, begins, List.filterMap_append, List.filterMap_cons]
    cases e.caller? <;> simp
  · rw [Backstage.waiting, tasks, List.filterMap_append, List.filterMap_append, quiet, List.append_nil]
  · intro epoch member
    rw [begins]
    have among : epoch ∈ before.filterMap (·.task.calling?) ++ after.filterMap (·.task.calling?) ∨
        epoch ∈ rest.filterMap (·.task.calling?) ++ c.mailbox.filterMap Message.dial? := by
      simp only [Backstage.calls, tasks, List.filterMap_append, List.mem_append] at member ⊢
      tauto
    have was : b.calls = before.filterMap (·.task.calling?) ++
        (e.task.calling?.toList ++ after.filterMap (·.task.calling?)) ++
          b.mailbox.filterMap Message.dial? := by
      rw [Backstage.calls, split, List.filterMap_append, List.filterMap_cons]
      cases e.task.calling? <;> simp
    rw [was]
    rcases among with other | own
    · left
      simp only [List.mem_append] at other ⊢
      tauto
    · rcases reports epoch own with report | calling | begun
      · exact .inl (List.mem_append_right _ report)
      · left
        simp [calling]
      · exact .inr begun
  · rw [begins]
    exact dialled
  · intro x member waits
    rw [tasks] at member
    have other : x ∈ before ++ after := by
      rcases List.mem_append.mp member with first | last
      · rcases List.mem_append.mp first with old | mid
        · exact List.mem_append_left _ old
        · simp [none x mid] at waits
      · exact List.mem_append_right _ last
    rw [← removed] at other
    obtain ⟨isTask, away⟩ := List.mem_filter.mp other
    exact ⟨isTask, by simpa using away⟩

theorem replaceTask_split (own : e.id = id) (split : b.tasks = before ++ e :: after)
    (removed : b.tasks.filter (·.id != id) = before ++ after) (task : Task) :
    (b.replaceTask id task).tasks = before ++ [{ e with task }] ++ after := by
  have others : ∀ x ∈ before ++ after, x.id ≠ id := by
    intro x member
    rw [← removed] at member
    simpa using (List.mem_filter.mp member).2
  have stays (entries : List Entry) (sub : entries ⊆ before ++ after) :
      entries.map (fun x => if x.id = id then { x with task } else x) = entries :=
    (List.map_congr_left fun x member => if_neg (others x (sub member))).trans (List.map_id _)
  rw [replaceTask, split, List.map_append, List.map_cons, if_pos own,
    stays before (List.subset_append_left _ _), stays after (List.subset_append_right _ _)]
  simp

/-- A pump means nothing for dials. -/
theorem Ran.of_pump {epoch link : Nat} (found : b.tasks.find? (·.id = id) = some e)
    (split : b.tasks = before ++ e :: after)
    (removed : b.tasks.filter (·.id != id) = before ++ after) (pump : e.task = .pump epoch link) :
    b.Ran id (b.runPump id epoch link) := by
  have none : e.caller? = none := by
    rw [Entry.caller?, pump]
    exact ite_self _
  have calling : e.task.calling? = Option.none := by rw [pump]; rfl
  obtain ⟨tasks, ready, dialled, mailbox⟩ := dials_forward epoch link share b
  have same {c : Backstage} (rest : List Entry) (alike : ∀ x ∈ rest, x = e)
      (tasks : c.tasks = before ++ rest ++ after)
      (mailbox : c.mailbox.filterMap Message.dial? = b.mailbox.filterMap Message.dial?)
      (dialled : c.dialled = b.dialled) (ready : b.ready ⊆ c.ready) : b.Ran id c := by
    have silent : rest.filterMap (·.task.calling?) = [] :=
      List.filterMap_eq_nil_iff.mpr fun x member => alike x member ▸ calling
    refine .of_split found split removed rest tasks (fun x member => alike x member ▸ none) ?_ ?_ ready
    · rw [silent, mailbox]
      exact fun epoch member => .inl member
    · rw [dialled, none]
      rfl
  unfold runPump
  generalize forward epoch link share b = outcome at tasks ready dialled mailbox ⊢
  obtain ⟨c, ended⟩ := outcome
  simp only at tasks ready dialled mailbox
  have woken : b.ready ⊆ c.ready := ready ▸ List.Subset.refl _
  have here : c.tasks = before ++ [e] ++ after := by simp [tasks, split]
  cases ended with
  | closed =>
    refine same [] (by simp) ?_ mailbox dialled woken
    simp only [updateLink, removeTask, tasks, removed, List.append_nil]
  | caughtUp => exact same [e] (by simp) here mailbox dialled woken
  | interrupted =>
    have stays : (c.wake id).tasks = c.tasks ∧ (c.wake id).mailbox = c.mailbox ∧
        (c.wake id).dialled = c.dialled := by
      unfold wake
      split <;> exact ⟨rfl, rfl, rfl⟩
    obtain ⟨sameTasks, sameMailbox, sameLog⟩ := stays
    exact same [e] (by simp) (sameTasks.trans here) (sameMailbox ▸ mailbox) (sameLog.trans dialled)
      (List.Subset.trans woken (c.ready_wake id))

/-- Any other task begins, if it has not, and then waits or ends by its report. -/
theorem Ran.of_begin (found : b.tasks.find? (·.id = id) = some e) (own : e.id = id)
    (split : b.tasks = before ++ e :: after)
    (removed : b.tasks.filter (·.id != id) = before ++ after) (alive : e.cancelled = false) :
    b.Ran id (let (b, task) := b.begin e.task
      match task.due? with
      | none => b.replaceTask id task
      | some due =>
        if due ≤ b.now then (b.removeTask id).report task else b.replaceTask id task) := by
  have caller : e.caller? = e.task.unbegun? := if_neg (by simp [alive])
  obtain ⟨tasks, mailbox, ready, dialled, begun, calling⟩ := b.dials_begin e.task
  rw [← caller] at dialled
  generalize b.begin e.task = started at *
  obtain ⟨d, task⟩ := started
  simp only at tasks mailbox ready dialled begun calling ⊢
  have waits : b.Ran id (d.replaceTask id task) := by
    refine .of_split found split removed [{ e with task }] ?_ ?_ ?_ dialled (ready ▸ List.Subset.refl _)
    · exact replaceTask_split own (tasks ▸ split) (tasks ▸ removed) task
    · simp [Entry.caller?, begun]
    · intro epoch member
      rw [List.mem_append] at member
      rcases member with goes | report
      · have goes : task.calling? = some epoch := by simpa using goes
        exact .inr (caller ▸ calling epoch goes)
      · exact .inl (mailbox ▸ report)
  have ends : b.Ran id ((d.removeTask id).report task) := by
    obtain ⟨left, woken, log, reports⟩ := (d.removeTask id).dials_report task
    refine .of_split found split removed [] ?_ (by simp) ?_ (log.trans dialled) ?_
    · rw [left, removeTask, tasks, removed, List.append_nil]
    · intro epoch member
      rw [List.filterMap_nil, List.nil_append, reports, List.mem_append] at member
      rcases member with old | report
      · exact .inl (mailbox ▸ old)
      · exact .inr (caller ▸ calling epoch (Option.mem_toList.mp report))
    · exact woken ▸ ready ▸ List.Subset.refl _
  split
  · exact waits
  · split
    · exact ends
    · exact waits

end

theorem Numbered.ran {b : Backstage} (h : b.Numbered) (id : Nat) : b.Ran id (b.run id) := by
  unfold run
  cases found : b.tasks.find? (·.id = id) with
  | none =>
    have begins : b.begins? id = none := by rw [begins?, found, Option.bind_none]
    refine ⟨⟨b.waiting, [], by simp [begins], by simp⟩, fun epoch => .inl, by simp [begins], ?_,
      List.Subset.refl _⟩
    intro e member _
    exact ⟨member, by simpa using List.find?_eq_none.mp found e member⟩
  | some e =>
    obtain ⟨before, after, split, removed⟩ := h.split found
    have own : e.id = id := by simpa using List.find?_some found
    cases cancelled : e.cancelled with
    | true =>
      have none : e.caller? = none := if_pos cancelled
      have leaves {c : Backstage} (tasks : c.tasks = b.tasks.filter (·.id != e.id))
          (mailbox : c.mailbox = b.mailbox) (dialled : c.dialled = b.dialled)
          (ready : c.ready = b.ready) : b.Ran id c := by
        refine .of_split found split removed [] ?_ (by simp) ?_ ?_ (ready ▸ List.Subset.refl _)
        · rw [tasks, own, removed, List.append_nil]
        · rw [mailbox]
          exact fun epoch member => .inl (by simpa using member)
        · rw [dialled, none]
          rfl
      simp only [cancelled, if_true, discard]
      split <;> exact leaves rfl rfl rfl rfl
    | false =>
      have begins := Ran.of_begin found own split removed cancelled
      simp only [cancelled, Bool.false_eq_true, if_false]
      cases task : e.task with
      | pump epoch link => exact .of_pump found split removed task
      | request | pause | dial =>
        rw [task] at begins
        exact begins

end Backstage

end Rehearsal

end TileClient
