import Mathlib.Data.List.Nodup
import TileClient.Proofs.Rehearsal.Turns

/-! The schedule of a rehearsal is one of many: whatever it runs, tasks take turns. Clocks, scripts
and the order of waking decide which turns they take, and nothing else. -/
namespace TileClient.Rehearsal

/-- A task that has made no progress. -/
def Task.anew : Task → Task
  | .request attempt _ => .request attempt .unbegun
  | .pause attempt _ => .pause attempt .unbegun
  | .dial epoch endpoint _ => .dial epoch endpoint .unbegun
  | .pump epoch link => .pump epoch link

theorem Task.name_anew (task : Task) : task.anew.name = task.name := by
  cases task <;> rfl

def Entry.anew (e : Entry) : Entry := { e with task := e.task.anew }

namespace Backstage

/-- What is left of a backstage without clock, script, turns, logs and progress. -/
def bare (b : Backstage) : Backstage :=
  { b with
    now := 0, script := .offline, ready := [], fetches := [], dialled := []
    tasks := b.tasks.map Entry.anew }

/-- One backstage comes from another if tasks take some turns. -/
def TakesTurns (b c : Backstage) : Prop := ∃ turns : List Turn, c.bare = turns.foldl turn b.bare

theorem TakesTurns.of_bare {b c : Backstage} (h : c.bare = b.bare) : b.TakesTurns c := ⟨[], h⟩

theorem TakesTurns.of_turn {b c : Backstage} (turn : Turn) (h : c.bare = b.bare.turn turn) :
    b.TakesTurns c := ⟨[turn], h⟩

theorem TakesTurns.trans {a b c : Backstage} (h : a.TakesTurns b) (k : b.TakesTurns c) :
    a.TakesTurns c := by
  obtain ⟨first, h⟩ := h
  obtain ⟨rest, k⟩ := k
  exact ⟨first ++ rest, by rw [k, h, List.foldl_append]⟩

theorem find?_bare (b : Backstage) (id : Nat) :
    b.bare.tasks.find? (·.id = id) = (b.tasks.find? (·.id = id)).map Entry.anew := by
  rw [bare, List.find?_map]
  rfl

theorem removeTask_bare (b : Backstage) (id : Nat) :
    (b.removeTask id).bare = b.bare.removeTask id := by
  simp [bare, removeTask, List.filter_map, Function.comp_def, Entry.anew]

theorem replaceTask_bare {b : Backstage} {e : Entry} {id : Nat} {task : Task} (h : b.Numbered)
    (found : b.tasks.find? (·.id = id) = some e) (same : task.anew = e.task.anew) :
    (b.replaceTask id task).bare = b.bare := by
  have own : e.id = id := by simpa using List.find?_some found
  have tasks : (b.replaceTask id task).tasks.map Entry.anew = b.tasks.map Entry.anew := by
    rw [replaceTask, List.map_map]
    refine List.map_congr_left fun other member => ?_
    by_cases eq : other.id = id
    · have one := List.inj_on_of_nodup_map h.nodup member (List.mem_of_find?_eq_some found)
        (eq.trans own.symm)
      simp [Entry.anew, same, one, own]
    · simp [eq]
  rw [bare, bare, tasks]
  rfl

theorem wake_bare (b : Backstage) (id : Nat) : (b.wake id).bare = b.bare := by
  unfold wake
  split <;> rfl

theorem turn_of_next {b : Backstage} {e : Entry} {id epoch link : Nat} {event : LinkEvent}
    {rest : Link} (found : b.tasks.find? (·.id = id) = some e) (pump : e.task = .pump epoch link)
    (next : b.links[link]?.bind Link.next? = some (event, rest)) :
    let c := (b.updateLink link fun _ => rest).post (.transport epoch event)
    b.bare.turn (.forward id) =
      if event = .closed then ((c.removeTask id).updateLink link Link.release).bare else c.bare := by
  intro c
  have bareFound : b.bare.tasks.find? (·.id = id) =
      some ⟨e.id, .pump epoch link, e.cancelled⟩ := by
    rw [find?_bare, found, Option.map_some, Entry.anew, pump]
    rfl
  have bareNext : b.bare.links[link]?.bind Link.next? = some (event, rest) := next
  rw [turn, bareFound]
  by_cases last : event = .closed
  · have removed := c.removeTask_bare id
    simp only [forwardOnce, forward, bareNext, if_pos last]
    exact congrArg (updateLink · link Link.release) removed.symm
  · simp only [forwardOnce, forward, bareNext, if_neg last]
    rfl

/-- A pump that forwards a number of events has so many turns. -/
theorem forward_turns {epoch link : Nat} (limit : Nat) {b : Backstage} {e : Entry} {id : Nat}
    (found : b.tasks.find? (·.id = id) = some e) (pump : e.task = .pump epoch link) :
    ∃ count, match forward epoch link limit b with
      | (c, .closed) => ((c.removeTask id).updateLink link Link.release).bare =
          (List.replicate count (Turn.forward id)).foldl turn b.bare
      | (c, _) => c.bare = (List.replicate count (Turn.forward id)).foldl turn b.bare := by
  induction limit generalizing b with
  | zero => exact ⟨0, rfl⟩
  | succ limit ih =>
    rw [forward]
    cases next : b.links[link]?.bind Link.next? with
    | none => exact ⟨0, rfl⟩
    | some pair =>
      obtain ⟨event, rest⟩ := pair
      have first := turn_of_next found pump next
      by_cases last : event = .closed
      · refine ⟨1, ?_⟩
        simp only [last, if_true] at first ⊢
        exact first.symm
      · obtain ⟨count, more⟩ :=
          ih (b := (b.updateLink link fun _ => rest).post (.transport epoch event)) found
        refine ⟨count + 1, ?_⟩
        simp only [last, if_false] at first ⊢
        rw [List.replicate_succ, List.foldl_cons, first]
        exact more

theorem report_bare (b : Backstage) (task : Task) : (b.report task).bare = b.bare.report task := by
  cases task with
  | request attempt progress | pause attempt progress => cases progress <;> rfl
  | dial epoch endpoint progress =>
    cases progress with
    | unbegun => rfl
    | waiting due outcome => cases outcome <;> rfl
  | pump => rfl

theorem begin_bare (b : Backstage) (task : Task) :
    (b.begin task).1.bare = b.bare ∧ (b.begin task).1.tasks = b.tasks ∧
      (b.begin task).1.nextId = b.nextId ∧ (b.begin task).2.anew = task.anew := by
  cases task with
  | request attempt progress | pause attempt progress | dial epoch endpoint progress =>
    cases progress <;> exact ⟨rfl, rfl, rfl, rfl⟩
  | pump => exact ⟨rfl, rfl, rfl, rfl⟩

/-- A task that waits for its outcome can end by it. -/
theorem ending_of_due {task : Task} {due : Nat} (h : task.due? = some due) :
    ∃ reply answer ended, task.anew.ending reply answer = some ended ∧
      ∀ b : Backstage, b.report ended = b.report task := by
  cases task with
  | request attempt progress =>
    cases progress with
    | unbegun => cases h
    | waiting _ outcome => exact ⟨outcome, .ok (), _, rfl, fun _ => rfl⟩
  | pause attempt progress =>
    cases progress with
    | unbegun => cases h
    | waiting => exact ⟨.ok "", .ok (), _, rfl, fun _ => rfl⟩
  | dial epoch endpoint progress =>
    cases progress with
    | unbegun => cases h
    | waiting _ outcome => exact ⟨.ok "", outcome, _, rfl, fun _ => by cases outcome <;> rfl⟩
  | pump => cases h

/-- A task that waits, or ends now if its time has come, has a turn or none. -/
theorem TakesTurns.of_waiting {b : Backstage} {e : Entry} {id : Nat} {task : Task} (h : b.Numbered)
    (found : b.tasks.find? (·.id = id) = some e) (same : task.anew = e.task.anew) :
    b.TakesTurns (match task.due? with
      | none => b.replaceTask id task
      | some due =>
        if due ≤ b.now then (b.removeTask id).report task else b.replaceTask id task) := by
  have stays : b.TakesTurns (b.replaceTask id task) := .of_bare (replaceTask_bare h found same)
  split
  · exact stays
  · rename_i due waits
    split
    · obtain ⟨reply, answer, ended, ends, reports⟩ := ending_of_due waits
      have bareFound : b.bare.tasks.find? (·.id = id) = some e.anew := by
        rw [find?_bare, found]
        rfl
      refine .of_turn (.finish id reply answer) ?_
      rw [report_bare, removeTask_bare, turn, bareFound, ← reports]
      simp only [Entry.anew, ← same, ends]
    · exact stays

private theorem of_begin {b : Backstage} {e : Entry} {id : Nat} (h : b.Numbered)
    (found : b.tasks.find? (·.id = id) = some e) :
    b.TakesTurns (let (b, task) := b.begin e.task
      match task.due? with
      | none => b.replaceTask id task
      | some due =>
        if due ≤ b.now then (b.removeTask id).report task else b.replaceTask id task) := by
  obtain ⟨bare, tasks, nextId, anew⟩ := b.begin_bare e.task
  have numbered : (b.begin e.task).1.Numbered := h.sublist (tasks ▸ List.Sublist.refl _) nextId
  have began : b.TakesTurns (b.begin e.task).1 := .of_bare bare
  exact began.trans (.of_waiting numbered (tasks ▸ found) anew)

private theorem of_pump {b : Backstage} {e : Entry} {id epoch link : Nat}
    (found : b.tasks.find? (·.id = id) = some e) (pump : e.task = .pump epoch link) :
    b.TakesTurns (b.runPump id epoch link) := by
  obtain ⟨count, forwarded⟩ := forward_turns share found pump
  refine ⟨List.replicate count (.forward id), ?_⟩
  unfold runPump
  split <;> rename_i eq <;> rw [eq] at forwarded
  · exact forwarded
  · exact forwarded
  · rw [wake_bare]
    exact forwarded

private theorem of_discard {b : Backstage} {e : Entry} {id : Nat}
    (found : b.tasks.find? (·.id = id) = some e) (cancelled : e.cancelled = true) :
    b.TakesTurns (b.discard e) := by
  refine .of_turn (.discard id) ?_
  rw [turn, find?_bare, found]
  simp only [Option.map_some, Entry.anew, cancelled, if_true, discard]
  cases e.task with
  | pump epoch link => exact congrArg (updateLink · link Link.release) (b.removeTask_bare e.id)
  | request | pause | dial => exact b.removeTask_bare e.id

/-- Running a task is a number of turns. -/
theorem run_takes_turns {b : Backstage} (h : b.Numbered) (id : Nat) : b.TakesTurns (b.run id) := by
  unfold run
  cases found : b.tasks.find? (·.id = id) with
  | none => exact .of_bare rfl
  | some e =>
    by_cases cancelled : e.cancelled = true
    · simp only [if_pos cancelled]
      exact of_discard found cancelled
    · simp only [if_neg cancelled]
      have begins := of_begin h found
      cases task : e.task with
      | pump epoch link => exact of_pump found task
      | request | pause | dial =>
        rw [task] at begins
        exact begins

theorem numbered_bare (b : Backstage) : b.bare.Numbered ↔ b.Numbered := by
  have ids : b.bare.tasks.map (·.id) = b.tasks.map (·.id) := by
    rw [bare, List.map_map]
    rfl
  constructor
  · intro h
    refine ⟨ids ▸ h.nodup, fun e member => ?_⟩
    exact h.below e.anew (List.mem_map_of_mem member)
  · intro h
    refine ⟨ids.symm ▸ h.nodup, fun e member => ?_⟩
    obtain ⟨old, isOld, rfl⟩ := List.mem_map.mp member
    exact h.below old isOld

theorem bare_bare (b : Backstage) : b.bare.bare = b.bare := by
  have anew : Entry.anew ∘ Entry.anew = Entry.anew := by
    funext e
    obtain ⟨id, task, cancelled⟩ := e
    cases task <;> rfl
  rw [bare, bare, List.map_map, anew]

theorem anew_of_bare {b c : Backstage} (same : c.bare = b.bare) {e : Entry} (member : e ∈ c.tasks) :
    ∃ old ∈ b.tasks, old.anew = e.anew := by
  have there : e.anew ∈ c.bare.tasks := List.mem_map_of_mem member
  rw [same] at there
  exact List.mem_map.mp there

/-- What turns keep, and no clock, script or progress has a part in, is kept. -/
theorem TakesTurns.keeps {P : Backstage → Prop}
    (bares : ∀ {b c : Backstage}, c.bare = b.bare → P b → P c)
    (turns : ∀ (b : Backstage) (turn : Turn), P b → P (b.turn turn)) {b c : Backstage}
    (h : b.TakesTurns c) (before : P b) : P c := by
  obtain ⟨taken, h⟩ := h
  have all (taken : List Turn) {b : Backstage} (before : P b) : P (taken.foldl turn b) := by
    induction taken generalizing b with
    | nil => exact before
    | cons turn taken ih => exact ih (turns b turn before)
  have after := all taken (bares b.bare_bare before)
  rw [← h] at after
  exact bares c.bare_bare.symm after

theorem reach_takes_turns (b : Backstage) (time : Nat) : b.TakesTurns (b.reach time) := by
  have wakes (entries : List Entry) (b : Backstage) :
      (entries.foldl (fun b e => b.wake e.id) b).bare = b.bare := by
    induction entries generalizing b with
    | nil => rfl
    | cons e entries ih => exact (ih (b.wake e.id)).trans (b.wake_bare e.id)
  exact .of_bare (wakes _ { b with now := time })

end Backstage

end TileClient.Rehearsal
