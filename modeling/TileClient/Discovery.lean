import TileClient.Session.Message

/-! Discovery: the directory is asked again and again, a fixed pause apart, until it names a server. -/
namespace TileClient

/-- The state of discovery. Every request has an attempt of its own; what older attempts bring is
ignored. `request` and `pause` hold the tasks that are under way, as far as discovery still
wants them. -/
structure Discovery where
  attempt : Nat
  active : Bool
  request : Option Nat
  pause : Option Nat
  deriving DecidableEq, Repr

namespace Discovery

def idle : Discovery := ⟨0, false, none, none⟩

/-- Whether an attempt's outcome still matters. -/
def isCurrent (d : Discovery) (attempt : Nat) : Bool := d.active && attempt == d.attempt

/-- Gives up what is under way. -/
def abortTasks (d : Discovery) : Discovery × List Effect :=
  ({ d with request := none, pause := none },
    d.request.toList.map (fun attempt => .cancel (.request attempt)) ++
      d.pause.toList.map (fun attempt => .cancel (.pause attempt)))

/-- Asks the directory under a new attempt. -/
def issueRequest (d : Discovery) : Discovery × List Effect :=
  ({ d with attempt := d.attempt + 1, request := some (d.attempt + 1) },
    [.request (d.attempt + 1)])

/-- Pauses before the next attempt. -/
def schedulePause (d : Discovery) : Discovery × List Effect :=
  ({ d with pause := some d.attempt },
    d.pause.toList.map (fun attempt => .cancel (.pause attempt)) ++ [.pause d.attempt])

/-- Starts over, whatever was under way. -/
def discover (d : Discovery) : Discovery × List Effect :=
  let (d, aborted) := d.abortTasks
  let (d, issued) := { d with active := true }.issueRequest
  (d, aborted ++ issued)

/-- Stops. Nothing that is under way has a consequence any more. -/
def cancel (d : Discovery) : Discovery × List Effect := { d with active := false }.abortTasks

/-- Takes a report. The third part is the server, once the directory has named it, and then
discovery has stopped. -/
def handle (d : Discovery) : DiscoveryMessage → Discovery × List Effect × Option Endpoint
  | .response attempt body =>
    if d.isCurrent attempt then
      let d := { d with request := none }
      match body.bind Wire.Reply.assigned with
      | .ok endpoint =>
        let (d, effects) := d.cancel
        (d, effects, some endpoint)
      | .error _ =>
        let (d, effects) := d.schedulePause
        (d, effects, none)
    else (d, [], none)
  | .retryDue attempt =>
    if d.isCurrent attempt then
      let (d, effects) := { d with pause := none }.issueRequest
      (d, effects, none)
    else (d, [], none)

/-- A pause is held, even if its end is already reported. -/
def isRetryPending (d : Discovery) : Bool := d.pause.isSome

end Discovery

end TileClient
