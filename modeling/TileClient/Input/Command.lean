import TileClient.Board.Direction

/-! What a player may ask for, and the bounded way by which it reaches the client. -/
namespace TileClient

/-- A player's command. -/
inductive Command where
  | move (d : Board.Direction)
  | restart
  | quit
  deriving DecidableEq, Repr

namespace Input

/-- Commands on their way to the client, oldest first; no more than `capacity` of them. A closed
outlet takes no more, but those in it can still be received. -/
structure Outlet where
  capacity : Nat
  waiting : List Command
  closed : Bool
  deriving DecidableEq, Repr

namespace Outlet

def fresh (capacity : Nat) : Outlet := ⟨capacity, [], false⟩

def hasRoom (o : Outlet) : Bool := o.waiting.length < o.capacity

def push (o : Outlet) (c : Command) : Outlet := { o with waiting := o.waiting ++ [c] }

def receive (o : Outlet) : Option Command × Outlet :=
  (o.waiting.head?, { o with waiting := o.waiting.tail })

def close (o : Outlet) : Outlet := { o with closed := true }

end Outlet

end Input

end TileClient
