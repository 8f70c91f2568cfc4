import TileClient.Proofs.Session.Supersession

/-! Shutdown is final. A session that has been shut down is done with its tasks and its links, and
whatever is reported to it or sent through it, nothing comes of it before an order to start or to
connect succeeds. -/
namespace TileClient

/-- A session at its end holds nothing and waits for nothing. -/
structure Session.Over (s : Session) : Prop where
  phase : s.phase = .disconnected
  tornDown : s.tornDown = true
  socket : s.socket = none
  dial : s.dial = none
  idle : s.discovery.active = false
  request : s.discovery.request = none
  pause : s.discovery.pause = none

namespace Session

variable {s : Session}

theorem ended_over (s : Session) : s.ended.Over := by
  constructor <;> rfl

theorem Over.superseded (h : s.Over) (m : Message) : s.Superseded m := by
  cases m <;> simp [Superseded, Discovery.isCurrent, h.phase, h.idle]

theorem Over.holdings (h : s.Over) : s.holdings = [] := by
  simp [Session.holdings, Discovery.holdings, Discovery.pauses, lines, h.socket, h.dial, h.request,
    h.pause]

theorem Over.send (h : s.Over) (listening : Nat → Bool) (move : Wire.Move) :
    s.send listening move = .error .notConnected := by
  simp [Session.send, h.phase]

theorem Over.ended (h : s.Over) : s.ended = { s with epoch := s.epoch + 1 } := by
  obtain ⟨⟨attempt, active, request, pause⟩, phase, epoch, socket, dial, tornDown⟩ := s
  obtain ⟨rfl, rfl, rfl, rfl, rfl, rfl, rfl⟩ := h
  rfl

end Session

namespace Call

variable {ω : Type}

/-- An order that sets a session going, which takes that connections can be opened. -/
def revives (available : Bool) : Call ω → Bool
  | .order .start | .order (.connect _) => available
  | .order (.send _) | .order (.on _ _) | .order (.off _ _) | .order .shutdown | .handle _ => false

def isShutdown : Call ω → Bool
  | .order .shutdown => true
  | .order .start | .order (.connect _) | .order (.send _) | .order (.on _ _) | .order (.off _ _)
  | .handle _ => false

/-- What is left to do about a call of a session at its end. -/
def leftovers : Call ω → List Effect
  | .order _ => []
  | .handle m => m.leftovers

end Call

namespace Connection

variable {ω : Type} {c : Connection ω}

/-- A call of a connection at its end. -/
theorem call_of_over (h : c.session.Over) (outside : Outside) (call : Call ω)
    (stays : call.revives outside.available = false) :
    (c.call outside call).1.session =
        { c.session with epoch := c.session.epoch + if call.isShutdown then 1 else 0 } ∧
      (c.call outside call).2 = (call.leftovers, []) := by
  cases call with
  | handle m =>
    rw [c.call_of_superseded outside (h.superseded m)]
    exact ⟨rfl, rfl⟩
  | order order =>
    cases order with
    | start =>
      have unavailable : outside.available = false := stays
      simp [Connection.call, obey, start, Session.start, unavailable, attempt, Except.map,
        Call.isShutdown, Call.leftovers]
    | connect endpoint =>
      have unavailable : outside.available = false := stays
      simp [Connection.call, obey, connect, Session.connect, unavailable, attempt, Except.map,
        Call.isShutdown, Call.leftovers]
    | send move =>
      simp [Connection.call, obey, h.send, attempt, Except.map, Call.isShutdown, Call.leftovers]
    | on event react => exact ⟨rfl, rfl⟩
    | off event id => exact ⟨rfl, rfl⟩
    | shutdown =>
      simp [Connection.call, obey, shutdown, Session.shutdown_eq, h.holdings, h.ended, settle, tell,
        Call.isShutdown, Call.leftovers]

/-- Nothing comes of any calls of a connection, unless one of them sets it going: its session only
counts how often it is shut down, a link that is reported open is let go of, and nothing is asked
of the outside, told or sent. -/
structure Final (c : Connection ω) : Prop where
  ended : c.session.Over
  quiet : ∀ calls : List (Outside × Call ω), (∀ call ∈ calls, call.2.revives call.1.available = false) →
    (c.after calls).session =
        { c.session with epoch := c.session.epoch + calls.countP (·.2.isShutdown) } ∧
      (∀ episode ∈ c.history calls,
        episode.effects = episode.call.leftovers ∧ episode.outputs = []) ∧
      ∀ listening move, (c.after calls).session.send listening move = .error .notConnected

theorem final_of_over (h : c.session.Over) : c.Final := by
  refine ⟨h, fun calls stay => ?_⟩
  induction calls generalizing c with
  | nil => exact ⟨rfl, List.forall_mem_nil _, h.send⟩
  | cons call calls ih =>
    obtain ⟨stays, rest⟩ := List.forall_mem_cons.mp stay
    obtain ⟨session, left⟩ := call_of_over h call.1 call.2 stays
    have ended : (c.call call.1 call.2).1.session.Over := by
      rw [session]
      exact ⟨h.phase, h.tornDown, h.socket, h.dial, h.idle, h.request, h.pause⟩
    obtain ⟨last, silent, refused⟩ := ih ended rest
    refine ⟨?_, List.forall_mem_cons.mpr ⟨Prod.mk.inj left, silent⟩, refused⟩
    have counted : (c.call call.1 call.2).1.session.epoch + calls.countP (·.2.isShutdown) =
        c.session.epoch + (call :: calls).countP (·.2.isShutdown) := by
      rw [session, List.countP_cons, Nat.add_assoc, Nat.add_comm (calls.countP _)]
    rw [after, last, counted, session]

/-- A connection that is shut down gives up all that it holds, tells nothing, and is at its end. -/
theorem shutdown_final (c : Connection ω) (outside : Outside) :
    (c.call outside (.order .shutdown)).1.session = c.session.ended ∧
      (c.call outside (.order .shutdown)).2 = (c.session.holdings.map .cancel, []) ∧
      (c.call outside (.order .shutdown)).1.Final := by
  have session : (c.call outside (.order .shutdown)).1.session = c.session.ended := by
    simp [call, obey, shutdown, Session.shutdown_eq, settle, tell_session]
  refine ⟨session, ?_, final_of_over (session ▸ c.session.ended_over)⟩
  have silent (c : Connection ω) (names : List TaskName) : c.tell (names.map .cancel) = (c, []) := by
    induction names with
    | nil => rfl
    | cons name names ih => exact ih
  simp [call, obey, shutdown, Session.shutdown_eq, settle, silent]

end Connection

end TileClient
