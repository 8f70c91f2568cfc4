import TileClient.Rehearsal.Backstage

/-! A client on stage: reports are handed to it one at a time, and time passes when told to. -/
namespace TileClient.Rehearsal

/-- A client in the state `actor`, with everything behind it. -/
structure Stage (σ : Type) where
  back : Backstage
  actor : σ

/-- How a client takes a report: the time, its state, the report; then its new state and what it
asks for. -/
abbrev Part (σ : Type) := Nat → σ → Message → σ × List Effect

namespace Stage

variable {σ : Type}

def hand (part : Part σ) (stage : Stage σ) (m : Message) : Stage σ :=
  let (actor, effects) := part stage.back.now stage.actor m
  ⟨stage.back.performAll effects, actor⟩

/-- Hands over the oldest report, if there is one. -/
def handNext (part : Part σ) (stage : Stage σ) : Stage σ :=
  match stage.back.mailbox with
  | [] => stage
  | m :: rest => hand part { stage with back := { stage.back with mailbox := rest } } m

def settle (stage : Stage σ) : Stage σ := { stage with back := stage.back.settle }

/-- Settles and hands over reports in turn until all is quiet, at most so many reports. -/
def serveWithin (part : Part σ) : (limit : Nat) → Stage σ → Stage σ
  | 0, stage => stage.settle
  | limit + 1, stage =>
    let stage := stage.settle
    match stage.back.mailbox with
    | [] => stage
    | _ :: _ => serveWithin part limit (handNext part stage)

/-- More reports than can come without time passing, if the pause between attempts is not zero:
those that wait, one for each task and posted event, and three for each scripted answer. -/
def quietLimit (b : Backstage) : Nat :=
  b.mailbox.length + b.tasks.length + b.links.length + (b.links.flatMap (·.inbox)).length +
    3 * (b.script.replies.length + b.script.dials.length) + 16

/-- Settles and hands over reports in turn until all is quiet. -/
def serve (part : Part σ) (stage : Stage σ) : Stage σ :=
  serveWithin part (quietLimit stage.back) stage

/-- Lets time pass up to `target`, from one due time to the next, with `quiet` done at each of
them but the target. -/
def passWithin (quiet : Stage σ → Stage σ) (target : Nat) : (instants : Nat) → Stage σ → Stage σ
  | 0, stage => stage
  | instants + 1, stage =>
    if stage.back.now < target then
      let stage := quiet stage
      let next := (stage.back.nextDue?.filter (· ≤ target)).getD target
      passWithin quiet target instants { stage with back := stage.back.reach next }
    else stage

/-- Lets so many milliseconds pass. What is due at the end of them has been woken, but has not
run. Every instant but the last takes at least one millisecond. -/
def pass (quiet : Stage σ → Stage σ) (ms : Nat) (stage : Stage σ) : Stage σ :=
  passWithin quiet (stage.back.now + ms) ms stage

/-- Lets so many milliseconds pass, and all become quiet at the end of them. -/
def passThrough (quiet : Stage σ → Stage σ) (ms : Nat) (stage : Stage σ) : Stage σ :=
  quiet (stage.pass quiet ms)

end Stage

end TileClient.Rehearsal
