import TileClient.Proofs.Rehearsal.Schedule
import TileClient.Rehearsal.Stage

/-! A stage with one task behind it: what it takes to settle it, to serve it and to let time
pass. -/
namespace TileClient.Rehearsal

namespace Backstage

theorem settle_of_still {b : Backstage} (still : b.ready = []) : b.settle = b := by
  rw [settle, settleWithin, still]

theorem ready_begin (b : Backstage) (task : Task) : (b.begin task).1.ready = b.ready := by
  cases task with
  | request attempt progress | pause attempt progress | dial epoch endpoint progress =>
    cases progress <;> rfl
  | pump => rfl

theorem ready_report (b : Backstage) (task : Task) : (b.report task).ready = b.ready := by
  cases task with
  | request attempt progress | pause attempt progress => cases progress <;> rfl
  | dial epoch endpoint progress =>
    cases progress with
    | unbegun => rfl
    | waiting due outcome => cases outcome <;> rfl
  | pump => rfl

variable {b c : Backstage} {id due : Nat} {task next : Task}

theorem run_alone (alone : b.tasks = [⟨id, task, false⟩]) (begun : b.begin task = (c, next))
    (waits : next.due? = some due) :
    b.run id =
      if due ≤ c.now then { c with tasks := [] }.report next
      else { c with tasks := [⟨id, next, false⟩] } := by
  have same : c.tasks = b.tasks := by simpa [begun] using (b.begin_bare task).2.1
  cases task with
  | pump epoch link =>
    cases begun
    cases waits
  | request | pause | dial =>
    simp [run, alone, begun, waits, removeTask, replaceTask, same]

private theorem settle_alone (alone : b.tasks = [⟨id, task, false⟩]) (woken : b.ready = [id])
    (begun : { b with ready := [] }.begin task = (c, next)) (waits : next.due? = some due) :
    b.settle =
      if due ≤ c.now then { c with tasks := [] }.report next
      else { c with tasks := [⟨id, next, false⟩] } := by
  have quiet : c.ready = [] := by simpa [begun] using ready_begin { b with ready := [] } task
  have ran := run_alone (b := { b with ready := [] }) alone begun waits
  have still : (run { b with ready := [] } id).ready = [] := by
    rw [ran]
    split
    · rw [ready_report, quiet]
    · exact quiet
  rw [settle, settleWithin, woken]
  simp only [List.foldl_cons, List.foldl_nil]
  rw [settleWithin, still, ran]

theorem settle_ends (alone : b.tasks = [⟨id, task, false⟩]) (woken : b.ready = [id])
    (begun : { b with ready := [] }.begin task = (c, next)) (waits : next.due? = some due)
    (past : due ≤ c.now) : b.settle = { c with tasks := [] }.report next := by
  rw [settle_alone alone woken begun waits, if_pos past]

theorem settle_waits (alone : b.tasks = [⟨id, task, false⟩]) (woken : b.ready = [id])
    (begun : { b with ready := [] }.begin task = (c, next)) (waits : next.due? = some due)
    (later : c.now < due) : b.settle = { c with tasks := [⟨id, next, false⟩] } := by
  rw [settle_alone alone woken begun waits, if_neg (Nat.not_le_of_lt later)]

/-- Where the clock stops next on its way to a target. -/
def nextStop (b : Backstage) (target : Nat) : Nat :=
  (b.nextDue?.filter (· ≤ target)).getD target

theorem reach_alone (alone : b.tasks = [⟨id, task, false⟩]) (still : b.ready = [])
    (waits : task.due? = some due) (target : Nat) :
    (due ≤ target ∧ b.nextStop target = due ∧ b.reach due = { b with now := due, ready := [id] }) ∨
      (target < due ∧ b.nextStop target = target ∧ b.reach target = { b with now := target }) := by
  have first : b.nextDue? = some due := by simp [nextDue?, alone, waits]
  rcases Nat.lt_or_ge target due with early | inTime
  · have none : ¬ due ≤ target := Nat.not_le_of_lt early
    refine .inr ⟨early, ?_, ?_⟩
    · simp [nextStop, first, Option.filter, none]
    · simp [reach, alone, waits, none]
  · refine .inl ⟨inTime, ?_, ?_⟩
    · simp [nextStop, first, Option.filter, inTime]
    · simp [reach, alone, waits, wake, still]

theorem reach_of_nobody (nobody : b.tasks = []) (target : Nat) :
    b.nextStop target = target ∧ b.reach target = { b with now := target } := by
  simp [nextStop, nextDue?, nobody, reach]

end Backstage

namespace Stage

variable {σ : Type} {part : Part σ} {stage next : Stage σ}

theorem serveWithin_of_quiet (settled : stage.settle = next) (quiet : next.back.mailbox = [])
    (limit : Nat) : stage.serveWithin part limit = next := by
  cases limit with
  | zero => exact settled
  | succ limit => simp only [serveWithin, settled, quiet]

theorem serveWithin_of_report {m : Message} (settled : stage.settle = next)
    (report : next.back.mailbox = [m]) (limit : Nat) :
    stage.serveWithin part (limit + 1) = (next.handNext part).serveWithin part limit := by
  simp only [serveWithin, settled, report]

section Passing

variable {quiet : Stage σ → Stage σ} {target : Nat}

theorem passWithin_of_reached (reached : target ≤ stage.back.now) (instants : Nat) :
    stage.passWithin quiet target instants = stage := by
  cases instants with
  | zero => rfl
  | succ instants => rw [passWithin, if_neg (Nat.not_lt_of_le reached)]

theorem passWithin_of_before (before : stage.back.now < target) (instants : Nat) :
    stage.passWithin quiet target (instants + 1) =
      passWithin quiet target instants { quiet stage with
        back := (quiet stage).back.reach ((quiet stage).back.nextStop target) } := by
  rw [passWithin, if_pos before]
  rfl

end Passing

end Stage

end TileClient.Rehearsal
