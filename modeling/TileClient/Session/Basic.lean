import TileClient.Discovery
import TileClient.Wire.Move

/-! The session: discovery, one connection at a time, and the way back when it is lost. -/
namespace TileClient

/-- What a session is doing. -/
inductive Phase where
  | disconnected | discovering | connecting | connected
  deriving DecidableEq, Repr

/-- The connection in use: its link, and the epoch whose pump forwards what it brings. -/
structure Socket where
  link : Nat
  pump : Nat
  deriving DecidableEq, Repr

/-- The state of a session. The epoch numbers connections; `dial` holds the epoch of the dial
under way. After `shutdown` the session is torn down until it is started again. -/
structure Session where
  discovery : Discovery
  phase : Phase
  epoch : Nat
  socket : Option Socket
  dial : Option Nat
  tornDown : Bool
  deriving DecidableEq, Repr

namespace Session

def fresh : Session := ⟨.idle, .disconnected, 0, none, none, false⟩

/-- Goes looking for a server. A socket or a dial that is held stays held. -/
def enterDiscovery (s : Session) : Session × List Effect :=
  let (discovery, effects) := s.discovery.discover
  ({ s with phase := .discovering, discovery }, effects)

/-- Lets go of the socket and of a dial under way. -/
def detach (s : Session) : Session × List Effect :=
  ({ s with dial := none, socket := none },
    s.dial.toList.map (fun epoch => .cancel (.dial epoch)) ++
      s.socket.toList.map (fun socket => .cancel (.pump socket.pump)))

/-- Begins to discover a server, unless no connection can be opened here. -/
def start (s : Session) (available : Bool) : Except Fault (Session × List Effect) :=
  if available then .ok { s with tornDown := false }.enterDiscovery
  else .error .transportUnavailable

/-- Leaves whatever there is and dials a server under a new epoch. -/
def connect (s : Session) (available : Bool) (endpoint : Endpoint) :
    Except Fault (Session × List Effect) :=
  if available then
    let (discovery, cancelled) := s.discovery.cancel
    let (s, detached) := { s with discovery, tornDown := false }.detach
    .ok ({ s with epoch := s.epoch + 1, phase := .connecting, dial := some (s.epoch + 1) },
      cancelled ++ detached ++ [.dial (s.epoch + 1) endpoint])
  else .error .transportUnavailable

/-- Ends the session until it is started again. -/
def shutdown (s : Session) : Session × List Effect :=
  let (discovery, cancelled) := s.discovery.cancel
  let (s, detached) := { s with discovery, tornDown := true }.detach
  ({ s with epoch := s.epoch + 1, phase := .disconnected }, cancelled ++ detached)

/-- The connection is gone: the loss is told, and the search begins anew. -/
def handleClose (s : Session) : Session × List Effect :=
  let (s, detached) := s.detach
  let s := { s with phase := .disconnected }
  if s.tornDown then (s, detached ++ [.publish .connectionClosed])
  else
    let (s, effects) := s.enterDiscovery
    (s, detached ++ [.publish .connectionClosed] ++ effects)

/-- Takes a report of discovery. A named server is dialled; if no connection can be opened, the
session stays where it is, with discovery stopped. -/
def handleDiscovery (s : Session) (available : Bool) (m : DiscoveryMessage) :
    Session × List Effect :=
  let (discovery, effects, found) := s.discovery.handle m
  let s := { s with discovery }
  match found with
  | none => (s, effects)
  | some endpoint =>
    if s.phase = .discovering then
      match s.connect available endpoint with
      | .ok (s, more) => (s, effects ++ more)
      | .error _ => (s, effects)
    else (s, effects)

/-- Takes what the connection in use brings. A message that is no update is ignored. -/
def handleTransport (s : Session) : LinkEvent → Session × List Effect
  | .message text =>
    match Wire.Update.decode? text with
    | some u => (s, [.publish (.update u)])
    | none => (s, [])
  | .error reason => (s, [.publish (.connectionError reason)])
  | .closed => s.handleClose

/-- Takes a report. What belongs to another epoch, or comes in a phase that does not wait for
it, changes nothing; a connection that is not wanted is let go of. -/
def handle (s : Session) (available : Bool) : Message → Session × List Effect
  | .discovery m => s.handleDiscovery available m
  | .opened epoch link =>
    if epoch = s.epoch ∧ s.phase = .connecting then
      ({ s with dial := none, socket := some ⟨link, s.epoch⟩, phase := .connected },
        [.pump s.epoch link, .publish .connectionMade])
    else (s, [.release link])
  | .dialFailed epoch fault =>
    if epoch = s.epoch ∧ s.phase = .connecting then
      let (s, effects) := { s with dial := none }.handleClose
      (s, .publish (.connectionError fault.message) :: effects)
    else (s, [])
  | .transport epoch event =>
    if epoch = s.epoch ∧ s.phase = .connected then s.handleTransport event else (s, [])

/-- Sends a move on the connection in use, if the server still reads there. The session itself
does not change. -/
def send (s : Session) (listening : Nat → Bool) (m : Wire.Move) : Except Fault Effect :=
  match s.phase, s.socket with
  | .connected, some socket =>
    if listening socket.link then .ok (.transmit socket.link m.encode) else .error .notConnected
  | _, _ => .error .notConnected

/-- A pause of discovery is held. -/
def isRetryPending (s : Session) : Bool := s.discovery.isRetryPending

end Session

end TileClient
