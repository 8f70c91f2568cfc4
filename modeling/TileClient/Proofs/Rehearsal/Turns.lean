import TileClient.Rehearsal.Backstage

/-! Background tasks without a schedule: any task may take its turn at any time, and one that was
cancelled may end by its report all the same. Nothing is said about clocks and scripts. -/
namespace TileClient.Rehearsal

/-- A task about to report: what it reports if it asked the directory, or if it dialled. A pump
never comes to this. -/
def Task.ending (reply : Except Fault String) (answer : Except Fault Unit) : Task → Option Task
  | .request attempt _ => some (.request attempt (.waiting none reply))
  | .pause attempt _ => some (.pause attempt (.waiting none ()))
  | .dial epoch endpoint _ => some (.dial epoch endpoint (.waiting none answer))
  | .pump _ _ => none

/-- What a task can do when it has its turn: end with a report, forward one event if it is a
pump, or, if it was cancelled, end in silence. -/
inductive Turn where
  | finish (id : Nat) (reply : Except Fault String) (answer : Except Fault Unit)
  | forward (id : Nat)
  | discard (id : Nat)

namespace Backstage

/-- Forwards one event of a link, if there is one. The pump ends with the event that says the
link is closed. -/
def forwardOnce (b : Backstage) (id epoch link : Nat) : Backstage :=
  match forward epoch link 1 b with
  | (b, .closed) => (b.removeTask id).updateLink link Link.release
  | (b, _) => b

def turn (b : Backstage) : Turn → Backstage
  | .finish id reply answer =>
    match b.tasks.find? (·.id = id) with
    | none => b
    | some e =>
      match e.task.ending reply answer with
      | none => b
      | some task => (b.removeTask id).report task
  | .forward id =>
    match b.tasks.find? (·.id = id) with
    | some ⟨_, .pump epoch link, _⟩ => b.forwardOnce id epoch link
    | _ => b
  | .discard id =>
    match b.tasks.find? (·.id = id) with
    | none => b
    | some e => if e.cancelled then b.discard e else b

/-- Tasks have numbers of their own, and none of them is given out again. -/
structure Numbered (b : Backstage) : Prop where
  nodup : (b.tasks.map (·.id)).Nodup
  below : ∀ e ∈ b.tasks, e.id < b.nextId

/-- The task that goes by a number stands alone with it, so that nothing else is removed. -/
theorem Numbered.split {b : Backstage} (h : b.Numbered) {id : Nat} {e : Entry}
    (found : b.tasks.find? (·.id = id) = some e) :
    ∃ before after, b.tasks = before ++ e :: after ∧
      b.tasks.filter (·.id != id) = before ++ after := by
  obtain ⟨before, after, split⟩ := List.append_of_mem (List.mem_of_find?_eq_some found)
  have same : e.id = id := by simpa using List.find?_some found
  have nodup := h.nodup
  rw [split, List.map_append, List.map_cons, List.nodup_append, List.nodup_cons] at nodup
  obtain ⟨-, ⟨notAfter, -⟩, disjoint⟩ := nodup
  refine ⟨before, after, split, ?_⟩
  have keptBefore : before.filter (·.id != id) = before := by
    refine List.filter_eq_self.mpr fun other member => ?_
    have := disjoint other.id (List.mem_map_of_mem member) e.id List.mem_cons_self
    simpa [same] using this
  have keptAfter : after.filter (·.id != id) = after := by
    refine List.filter_eq_self.mpr fun other member => ?_
    have : other.id ≠ e.id := fun eq => notAfter (eq ▸ List.mem_map_of_mem member)
    simpa [same] using this
  simp [split, List.filter_append, same, keptBefore, keptAfter]

end Backstage

/-- A task as it stands after some names were cancelled. -/
def Entry.givenUp (names : List TaskName) (e : Entry) : Entry :=
  if e.task.name ∈ names then { e with cancelled := true } else e

namespace Entry

@[simp] theorem givenUp_id (names : List TaskName) (e : Entry) : (e.givenUp names).id = e.id := by
  unfold givenUp; split <;> rfl

@[simp] theorem givenUp_task (names : List TaskName) (e : Entry) :
    (e.givenUp names).task = e.task := by
  unfold givenUp; split <;> rfl

theorem givenUp_cancelled {names : List TaskName} {e : Entry}
    (h : e.cancelled = true ∨ e.task.name ∈ names) : (e.givenUp names).cancelled = true := by
  unfold givenUp
  split
  · rfl
  · exact h.resolve_right ‹_›

theorem map_givenUp_nil (entries : List Entry) : entries.map (givenUp []) = entries :=
  (List.map_congr_left fun _ _ => by simp [givenUp]).trans (List.map_id entries)

theorem givenUp_cons (name : TaskName) (names : List TaskName) (e : Entry) :
    (e.givenUp [name]).givenUp names = e.givenUp (name :: names) := by
  by_cases first : e.task.name = name <;> by_cases rest : e.task.name ∈ names <;>
    simp [givenUp, first, rest]

end Entry

namespace Backstage

theorem wakes_eq (b : Backstage) (entries : List Entry) :
    ∃ ready, entries.foldl (fun b e => b.wake e.id) b = { b with ready } := by
  induction entries generalizing b with
  | nil => exact ⟨b.ready, rfl⟩
  | cons e entries ih =>
    obtain ⟨ready, woken⟩ : ∃ ready, b.wake e.id = { b with ready } := by
      unfold wake
      split
      · exact ⟨b.ready, rfl⟩
      · exact ⟨_, rfl⟩
    rw [List.foldl_cons, woken]
    obtain ⟨ready, all⟩ := ih { b with ready }
    exact ⟨ready, all⟩

theorem cancel_eq (b : Backstage) (name : TaskName) :
    ∃ ready, b.cancel name = { b with ready, tasks := b.tasks.map (Entry.givenUp [name]) } := by
  obtain ⟨ready, woken⟩ :=
    b.wakes_eq (b.tasks.filter fun e => e.task.name == name && !e.cancelled)
  refine ⟨ready, ?_⟩
  simp only [cancel, woken]
  congr 1
  apply List.map_congr_left
  rintro ⟨id, task, cancelled⟩ -
  by_cases named : task.name = name <;> cases cancelled <;> simp [Entry.givenUp, named]

theorem performAll_cancel (b : Backstage) (names : List TaskName) :
    ∃ ready, b.performAll (names.map .cancel) =
      { b with ready, tasks := b.tasks.map (Entry.givenUp names) } := by
  induction names generalizing b with
  | nil => exact ⟨b.ready, by simp [performAll, Entry.map_givenUp_nil]⟩
  | cons name names ih =>
    obtain ⟨ready, first⟩ := b.cancel_eq name
    obtain ⟨ready, rest⟩ := ih (b.cancel name)
    refine ⟨ready, ?_⟩
    rw [List.map_cons, performAll, List.foldl_cons]
    change (b.cancel name).performAll (names.map .cancel) = _
    rw [rest, first]
    simp [Function.comp_def, Entry.givenUp_cons]

theorem performAll_append (b : Backstage) (es fs : List Effect) :
    b.performAll (es ++ fs) = (b.performAll es).performAll fs :=
  List.foldl_append

/-- What a turn can do where tasks are numbered. A task that ends leaves its place. -/
inductive Turned (b : Backstage) : Backstage → Prop where
  | idle : Turned b b
  | replied {before after : List Entry} {e : Entry} {attempt : Nat}
      {progress : Progress (Except Fault String)} (reply : Except Fault String)
      (split : b.tasks = before ++ e :: after) (task : e.task = .request attempt progress) :
      Turned b { b with
        tasks := before ++ after, mailbox := b.mailbox ++ [.discovery (.response attempt reply)] }
  | rested {before after : List Entry} {e : Entry} {attempt : Nat} {progress : Progress Unit}
      (split : b.tasks = before ++ e :: after) (task : e.task = .pause attempt progress) :
      Turned b { b with
        tasks := before ++ after, mailbox := b.mailbox ++ [.discovery (.retryDue attempt)] }
  | opened {before after : List Entry} {e : Entry} {epoch : Nat} {endpoint : Endpoint}
      {progress : Progress (Except Fault Unit)}
      (split : b.tasks = before ++ e :: after) (task : e.task = .dial epoch endpoint progress) :
      Turned b { b with
        tasks := before ++ after, links := b.links ++ [.fresh]
        mailbox := b.mailbox ++ [.opened epoch b.links.length] }
  | failed {before after : List Entry} {e : Entry} {epoch : Nat} {endpoint : Endpoint}
      {progress : Progress (Except Fault Unit)} (fault : Fault)
      (split : b.tasks = before ++ e :: after) (task : e.task = .dial epoch endpoint progress) :
      Turned b { b with
        tasks := before ++ after, mailbox := b.mailbox ++ [.dialFailed epoch fault] }
  | forwarded {e : Entry} {epoch link : Nat} {l rest : Link} {event : LinkEvent}
      (member : e ∈ b.tasks) (task : e.task = .pump epoch link) (here : b.links[link]? = some l)
      (next : l.next? = some (event, rest)) (more : event ≠ .closed) :
      Turned b ((b.updateLink link fun _ => rest).post (.transport epoch event))
  | closed {before after : List Entry} {e : Entry} {epoch link : Nat} {l rest : Link}
      (split : b.tasks = before ++ e :: after) (task : e.task = .pump epoch link)
      (here : b.links[link]? = some l) (next : l.next? = some (.closed, rest)) :
      Turned b (({ b with tasks := before ++ after }.updateLink link fun _ => rest).post
        (.transport epoch .closed) |>.updateLink link Link.release)
  | dropped {before after : List Entry} {e : Entry} (split : b.tasks = before ++ e :: after)
      (cancelled : e.cancelled = true) (other : ∀ epoch link, e.task ≠ .pump epoch link) :
      Turned b { b with tasks := before ++ after }
  | released {before after : List Entry} {e : Entry} {epoch link : Nat}
      (split : b.tasks = before ++ e :: after) (cancelled : e.cancelled = true)
      (task : e.task = .pump epoch link) :
      Turned b ({ b with tasks := before ++ after }.updateLink link Link.release)

theorem Numbered.turned {b : Backstage} (h : b.Numbered) (turn : Turn) :
    b.Turned (b.turn turn) := by
  cases turn with
  | finish id reply answer =>
    simp only [Backstage.turn]
    cases found : b.tasks.find? (·.id = id) with
    | none => exact .idle
    | some e =>
      obtain ⟨before, after, split, removed⟩ := h.split found
      simp only [removeTask, removed]
      cases task : e.task with
      | request attempt progress => exact .replied reply split task
      | pause attempt progress => exact .rested split task
      | dial epoch endpoint progress =>
        cases answer with
        | ok => exact .opened split task
        | error fault => exact .failed fault split task
      | pump epoch link => exact .idle
  | forward id =>
    simp only [Backstage.turn]
    cases found : b.tasks.find? (·.id = id) with
    | none => exact .idle
    | some e =>
      obtain ⟨before, after, split, removed⟩ := h.split found
      obtain ⟨number, task, cancelled⟩ := e
      cases task with
      | pump epoch link =>
        simp only [forwardOnce, forward]
        cases here : b.links[link]? with
        | none => exact .idle
        | some l =>
          cases next : l.next? with
          | none => simpa [next] using .idle
          | some pair =>
            obtain ⟨event, rest⟩ := pair
            by_cases last : event = .closed
            · subst last
              have ended := Turned.closed split rfl here next
              simpa [here, next, updateLink, post, removeTask, removed] using ended
            · have more := Turned.forwarded (List.mem_of_find?_eq_some found) rfl here next last
              simpa [here, next, last] using more
      | request | pause | dial => exact .idle
  | discard id =>
    simp only [Backstage.turn]
    cases found : b.tasks.find? (·.id = id) with
    | none => exact .idle
    | some e =>
      obtain ⟨before, after, split, removed⟩ := h.split found
      have same : e.id = id := by simpa using List.find?_some found
      by_cases cancelled : e.cancelled
      · simp only [cancelled, if_true, discard, same, removeTask, removed]
        cases task : e.task with
        | pump epoch link => exact .released split cancelled task
        | request | pause | dial => exact .dropped split cancelled (by simp [task])
      · simpa [cancelled] using .idle

theorem Numbered.sublist {b c : Backstage} (h : b.Numbered) (tasks : c.tasks.Sublist b.tasks)
    (nextId : c.nextId = b.nextId) : c.Numbered :=
  ⟨h.nodup.sublist (tasks.map _), fun e member => nextId ▸ h.below e (tasks.subset member)⟩

theorem Numbered.spawn {b : Backstage} (h : b.Numbered) (task : Task) : (b.spawn task).Numbered := by
  constructor
  · simp only [Backstage.spawn, List.map_append, List.map_cons, List.map_nil]
    refine List.nodup_append.mpr ⟨h.nodup, by simp, ?_⟩
    intro id old new isNew
    obtain ⟨e, member, rfl⟩ := List.mem_map.mp old
    rw [List.mem_singleton.mp isNew]
    exact Nat.ne_of_lt (h.below e member)
  · intro e member
    rcases List.mem_append.mp member with old | new
    · exact Nat.lt_succ_of_lt (h.below e old)
    · rw [List.mem_singleton.mp new]
      exact Nat.lt_succ_self _

theorem Numbered.perform {b : Backstage} (h : b.Numbered) (effect : Effect) :
    (b.perform effect).Numbered := by
  cases effect with
  | request | pause | dial | pump => exact h.spawn _
  | release | transmit | publish => exact ⟨h.nodup, h.below⟩
  | cancel name =>
    obtain ⟨ready, cancelled⟩ := b.cancel_eq name
    rw [Backstage.perform, cancelled]
    refine ⟨by simpa [Function.comp_def] using h.nodup, ?_⟩
    intro e member
    obtain ⟨old, isOld, rfl⟩ := List.mem_map.mp member
    exact old.givenUp_id [name] ▸ h.below old isOld

theorem Numbered.performAll {b : Backstage} (h : b.Numbered) (effects : List Effect) :
    (b.performAll effects).Numbered := by
  induction effects generalizing b with
  | nil => exact h
  | cons effect effects ih => exact ih (h.perform effect)

theorem Turned.numbered {b c : Backstage} (t : b.Turned c) (h : b.Numbered) : c.Numbered := by
  cases t with
  | idle | forwarded => exact ⟨h.nodup, h.below⟩
  | replied _ split | rested split | opened split | failed _ split | closed split
    | dropped split | released split =>
    refine h.sublist ?_ rfl
    rw [split]
    exact (List.sublist_cons_self _ _).append_left _

end Backstage

end TileClient.Rehearsal
