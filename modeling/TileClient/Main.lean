import TileClient.CommandLine.Launch
import TileClient.Input.Autoplay
import TileClient.Rehearsal.Acts

/-! The program. It has no network of its own: every request and every dial fails. -/
namespace TileClient.Program
open Rehearsal Input

/-- The variable that chooses how detailed the messages are. -/
def loggingVariable : String := "RUST_LOG"

def hint : String := "Set RUST_LOG=info for detailed logging"

def usage : String :=
  "Usage: tileclient [-d ADDRESS] [-s HOST:PORT] [-g SIZE] [--retry-ms MS] " ++
    "[--request-timeout-ms MS] [--path PATH] [-i MS] [-m MOVES] [--seed SEED]"

def version : String := "tileclient 0.1.0"

/-- The words for a refused command line. -/
def refusalText : CommandLine.Refusal → String
  | .unknownArgument => "error: unexpected argument"
  | .missingValue => "error: a value is required"
  | .unneededValue => "error: unexpected value"
  | .badNumber => "error: invalid value"
  | .repeated => "error: the argument cannot be used multiple times"
  | .inquiry .help => usage
  | .inquiry .version => version

/-- Shows the frames that have not been shown. -/
def showFrames (shown : Nat) (play : Play) : IO Unit := do
  for frame in play.controller.frames.drop shown do
    IO.print frame.text

/-- Gives commands to a run and lets it take them. -/
def giveAll (stage : Stage PlayAct) (commands : List (Nat × Command)) : Stage PlayAct :=
  PlayAct.quiet { stage with
    actor := commands.foldl (fun act (_, c) => (act.give (.command c)).1) stage.actor }

/-- Plays on, a period at a time, until the moves have run out. -/
partial def playOn (a : Autoplay) (stage : Stage PlayAct) (shown : Nat) : IO Unit := do
  let a := (a.pass Autoplay.drain (a.dispatcher.period * a.dispatcher.begun.toNat)).drain
  let stage := giveAll (stage.pass PlayAct.quiet (a.now - stage.back.now)) a.received.reverse
  showFrames shown stage.actor.play
  if stage.actor.running && !a.dispatcher.ended then
    IO.sleep (UInt32.ofNat (min a.dispatcher.period 4294967295))
    playOn { a with received := [] } stage stage.actor.play.controller.frames.length

def runClient (s : Settings) (source : MoveSource) : IO Unit := do
  let back := Backstage.opening s.retryDelay s.requestTimeout .offline
  let act := (PlayAct.fresh (.fresh s.gridSize s.server) true).call.1
  playOn (.played s.moveInterval 16 source) (PlayAct.quiet ⟨back, act⟩) 0

end TileClient.Program

open TileClient in
def main (args : List String) : IO UInt32 := do
  if CommandLine.Launch.hints (← IO.getEnv Program.loggingVariable) then
    IO.eprintln Program.hint
  let launch := CommandLine.Launch.ofWords args
  match launch with
  | .refused (.inquiry i) => IO.println (Program.refusalText (.inquiry i))
  | .refused r => IO.eprintln (Program.refusalText r)
  | .obstructed o => IO.eprintln ("Error: " ++ o.report)
  | .ready settings _ source =>
    let seed ← IO.rand 0 4294967295
    Program.runClient settings (source.getD (.seeded (UInt64.ofNat seed)))
  return UInt32.ofNat launch.exitCode
