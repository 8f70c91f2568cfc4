import TileClient.Session.Message

/-! Links: the two directions of a connection, with a server played by whoever rehearses. -/
namespace TileClient.Rehearsal

/-- A link between the client and a server. What the server posts waits in `inbox` until it is
forwarded; what the client sends is kept in `outbox`, oldest first. -/
structure Link where
  inbox : List LinkEvent
  outbox : List String
  /-- The client still takes what the server posts. -/
  reading : Bool
  /-- The server has not given up posting. -/
  posting : Bool
  /-- The server still takes what the client sends. -/
  listening : Bool
  deriving DecidableEq, Repr

namespace Link

def fresh : Link := ⟨[], [], true, true, true⟩

/-- The server posts an event; it is lost if either side has given up that direction. -/
def post (l : Link) (event : LinkEvent) : Link × Bool :=
  if l.reading && l.posting then ({ l with inbox := l.inbox ++ [event] }, true) else (l, false)

/-- The server gives up posting; the client will see the link closed after what is posted. -/
def stopPosting (l : Link) : Link × Bool := ({ l with posting := false }, l.posting)

def stopListening (l : Link) : Link × Bool := ({ l with listening := false }, l.listening)

def release (l : Link) : Link := { l with reading := false }

/-- Whether a link has something to forward that it had not before. -/
def isNews (l before : Link) : Bool :=
  l.inbox != before.inbox || l.posting != before.posting

def next? (l : Link) : Option (LinkEvent × Link) :=
  match l.inbox with
  | event :: rest => some (event, { l with inbox := rest })
  | [] => if l.posting then none else some (.closed, l)

end Link

end TileClient.Rehearsal
