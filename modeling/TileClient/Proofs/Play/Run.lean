import TileClient.Play
import TileClient.Proofs.Session.Coherence

/-! Runs of a client. A run begins, and its loop takes one thing after another until one of them
ends it; what comes, and in which order, is left open. -/
namespace TileClient.Play

abbrev session (p : Play) : Session := p.connection.session

/-- One thing that the loop is woken for, and what the outside answers meanwhile. -/
structure Wake where
  outside : Outside
  input : Input

/-- One step of a run: what was taken, if it is not the beginning, what was asked of the outside,
and the client before and after. -/
structure Scene where
  wake? : Option Wake
  before : Play
  effects : List Effect
  after : Play

def take (p : Play) (wake : Wake) : Play × List Effect × Bool :=
  p.turn wake.outside.available wake.outside.listening wake.input

def scene (p : Play) (wake : Wake) : Scene :=
  ⟨some wake, p, (p.take wake).2.1, (p.take wake).1⟩

/-- The steps of the loop, with the one that ends the run as the last. -/
def loop (p : Play) : List Wake → List Scene
  | [] => []
  | wake :: rest => p.scene wake :: if (p.take wake).2.2 then loop (p.take wake).1 rest else []

def afterLoop (p : Play) : List Wake → Play
  | [] => p
  | wake :: rest => if (p.take wake).2.2 then afterLoop (p.take wake).1 rest else (p.take wake).1

/-- What a run meets: whether connections can be opened when it begins, and what its loop is woken
for. -/
structure Engagement where
  available : Bool
  wakes : List Wake

/-- The steps of a run. One that cannot begin has none. -/
def run (p : Play) (e : Engagement) : List Scene :=
  match p.begin e.available with
  | .ok (next, effects) => ⟨none, p, effects, next⟩ :: next.loop e.wakes
  | .error _ => []

def afterRun (p : Play) (e : Engagement) : Play :=
  match p.begin e.available with
  | .ok (next, _) => next.afterLoop e.wakes
  | .error fault => p.excused fault

/-- The client after runs one after another. A run that is not brought to its end is abandoned. -/
def afterRuns (p : Play) (earlier : List Engagement) : Play := earlier.foldl afterRun p

def Input.ends : Input → Bool
  | .command .quit | .inputClosed | .interrupt => true
  | .message _ | .command (.move _) | .command .restart => false

theorem take_goesOn (p : Play) (wake : Wake) : (p.take wake).2.2 = !wake.input.ends := by
  obtain ⟨outside, input⟩ := wake
  cases input with
  | message | inputClosed | interrupt => rfl
  | command c => cases c <;> rfl

theorem loop_cons (p : Play) (wake : Wake) (rest : List Wake) :
    p.loop (wake :: rest) =
      p.scene wake :: if wake.input.ends then [] else (p.scene wake).after.loop rest := by
  rw [loop, take_goesOn]
  cases wake.input.ends <;> rfl

theorem afterLoop_cons (p : Play) (wake : Wake) (rest : List Wake) :
    p.afterLoop (wake :: rest) =
      if wake.input.ends then (p.scene wake).after else (p.scene wake).after.afterLoop rest := by
  rw [afterLoop, take_goesOn]
  cases wake.input.ends <;> rfl

/-- What is kept by the beginnings of runs, by every turn of their loops, and where a run cannot
begin. -/
structure Keeps (P : Play → Prop) : Prop where
  begins : ∀ {p next : Play} {available : Bool} {effects : List Effect},
    p.begin available = .ok (next, effects) → P p → P next
  turns : ∀ {p : Play} (wake : Wake), P p → P (p.scene wake).after
  excuses : ∀ {p : Play} (fault : Fault), P p → P (p.excused fault)

namespace Keeps

variable {P : Play → Prop} {p : Play}

theorem afterLoop (keeps : Keeps P) (h : P p) (wakes : List Wake) : P (p.afterLoop wakes) := by
  induction wakes generalizing p with
  | nil => exact h
  | cons wake wakes ih =>
    rw [afterLoop_cons]
    split
    · exact keeps.turns wake h
    · exact ih (keeps.turns wake h)

theorem afterRun (keeps : Keeps P) (h : P p) (e : Engagement) : P (p.afterRun e) := by
  unfold Play.afterRun
  split
  · exact keeps.afterLoop (keeps.begins ‹_› h) e.wakes
  · exact keeps.excuses _ h

theorem afterRuns (keeps : Keeps P) (h : P p) (earlier : List Engagement) :
    P (p.afterRuns earlier) := by
  induction earlier generalizing p with
  | nil => exact h
  | cons e earlier ih => exact ih (keeps.afterRun h e)

theorem turn_of_mem (keeps : Keeps P) (h : P p) {wakes : List Wake} {scene : Scene}
    (member : scene ∈ p.loop wakes) : ∃ (q : Play) (wake : Wake), scene = q.scene wake ∧ P q := by
  induction wakes generalizing p with
  | nil => cases member
  | cons wake wakes ih =>
    rw [loop_cons] at member
    rcases List.mem_cons.mp member with rfl | later
    · exact ⟨p, wake, rfl, h⟩
    · split at later
      · cases later
      · exact ih (keeps.turns wake h) later

end Keeps

/-- The call that an input makes of the client's connection. Only a restart makes none. -/
def Input.call? {ω : Type} : Input → Option (Call ω)
  | .message m => some (.handle m)
  | .command (.move d) => some (.order (.send (.ofDirection d)))
  | .command .restart => none
  | .command .quit | .inputClosed | .interrupt => some (.order .shutdown)

/-- The order with which a client begins a run. -/
def firstOrder {ω : Type} (p : Play) : Order ω :=
  match p.server with
  | some endpoint => .connect endpoint
  | none => .start

theorem take_of_call (p : Play) {wake : Wake} {call : Call Reaction}
    (one : wake.input.call? = some call) :
    p.take wake = ((p.follow (p.connection.call wake.outside call)).1,
      (p.connection.call wake.outside call).2.1, !wake.input.ends) := by
  obtain ⟨outside, input⟩ := wake
  cases input with
  | message | inputClosed | interrupt =>
    obtain rfl := Option.some.inj one
    rfl
  | command c =>
    cases c with
    | quit =>
      obtain rfl := Option.some.inj one
      rfl
    | restart => cases one
    | move d =>
      obtain rfl := Option.some.inj one
      simp only [take, turn, command, Game.Controller.move, Connection.call, Connection.obey]
      cases p.connection.session.send outside.listening (.ofDirection d) <;> rfl

theorem take_of_restart (p : Play) {wake : Wake}
    (none : (wake.input.call? : Option (Call Reaction)) = .none) :
    p.take wake = ({ p with controller := p.controller.restart.1 }, [], true) := by
  obtain ⟨outside, input⟩ := wake
  cases input with
  | message | inputClosed | interrupt => cases none
  | command c =>
    cases c with
    | quit | move => cases none
    | restart => rfl

/-- A run that can begin takes over what its first order does; one that cannot leaves the connection
as it is. -/
theorem begin_cases (p : Play) (outside : Outside) :
    (∃ next effects, p.begin outside.available = .ok (next, effects) ∧
      p.follow (p.connection.call outside (.order p.firstOrder)) = (next, effects)) ∨
    ∃ fault, p.begin outside.available = .error fault ∧
      p.connection.call outside (.order p.firstOrder) = (p.connection, [], []) := by
  have all (step : Except Fault (Connection Reaction × List Effect × List Reaction)) :
      (∃ next effects, step.map p.follow = .ok (next, effects) ∧
        p.follow (p.connection.attempt step) = (next, effects)) ∨
      ∃ fault, step.map p.follow = .error fault ∧
        p.connection.attempt step = (p.connection, [], []) := by
    cases step with
    | ok step => exact .inl ⟨_, _, rfl, rfl⟩
    | error fault => exact .inr ⟨fault, rfl, rfl⟩
  rw [Connection.call]
  unfold begin firstOrder
  cases p.server with
  | none => exact all _
  | some endpoint => exact all _

theorem follow_of_begin {p next : Play} {effects : List Effect} (outside : Outside)
    (began : p.begin outside.available = .ok (next, effects)) :
    p.follow (p.connection.call outside (.order p.firstOrder)) = (next, effects) := by
  rcases p.begin_cases outside with ⟨_, _, same, followed⟩ | ⟨_, failed, -⟩
  · exact followed.trans (Except.ok.inj (same.symm.trans began))
  · rw [failed] at began
    cases began

/-- What a beginning can be for the session: a search, or a dial. -/
inductive Beginning (s : Session) : List Effect → Session → Prop where
  | search : Beginning s
      (s.discovery.holdings.map .cancel ++ [.request (s.discovery.attempt + 1)]) s.searching
  | dial (endpoint : Endpoint) :
      Beginning s (s.holdings.map .cancel ++ [.dial (s.epoch + 1) endpoint]) s.dialling

/-- What a turn of the loop can be for the session. -/
inductive Turning (s : Session) : Input → List Effect → Session → Prop where
  | heard {m : Message} {effects : List Effect} {t : Session}
      (step : s.Transition (.handle m : Call Reaction) effects t) : Turning s (.message m) effects t
  | moved {d : Board.Direction} {effects : List Effect}
      (step : s.Transition (.order (.send (.ofDirection d)) : Call Reaction) effects s) :
      Turning s (.command (.move d)) effects s
  | refused : Turning s (.command .restart) [] s
  | left {input : Input} (ends : input.ends = true) :
      Turning s input (s.holdings.map .cancel) s.ended

variable {p : Play}

theorem beginning_of_begin {available : Bool} {next : Play} {effects : List Effect}
    (began : p.begin available = .ok (next, effects)) :
    Beginning p.session effects next.session := by
  unfold begin at began
  cases available with
  | false =>
    cases server : p.server <;>
      simp [server, Connection.connect, Connection.start, Session.connect, Session.start,
        Except.map] at began
  | true =>
    cases server : p.server with
    | none =>
      simp only [server, Connection.start, Session.start_eq, Except.map, follow, Connection.settle,
        Except.ok.injEq, Prod.mk.injEq] at began
      obtain ⟨rfl, rfl⟩ := began
      simpa [session, Connection.tell_session] using Beginning.search
    | some endpoint =>
      simp only [server, Connection.connect, Session.connect_eq, Except.map, follow,
        Connection.settle, Except.ok.injEq, Prod.mk.injEq] at began
      obtain ⟨rfl, rfl⟩ := began
      simpa [session, Connection.tell_session] using Beginning.dial endpoint

private theorem leave_eq (p : Play) :
    p.leave.1.session = p.session.ended ∧ p.leave.2 = p.session.holdings.map .cancel := by
  simp [leave, follow, session, Connection.shutdown, Session.shutdown_eq, Connection.settle,
    Connection.tell_session]

theorem turning_of_scene (h : p.session.tornDown = true → p.session.phase = .disconnected)
    (wake : Wake) :
    Turning p.session wake.input (p.scene wake).effects (p.scene wake).after.session := by
  obtain ⟨outside, input⟩ := wake
  have leaves {input : Input} (ends : input.ends = true) :
      Turning p.session input p.leave.2 p.leave.1.session := by
    obtain ⟨session, effects⟩ := p.leave_eq
    rw [session, effects]
    exact .left ends
  cases input with
  | message m => exact .heard (p.connection.transition_of_call outside (.handle m) h)
  | inputClosed | interrupt => exact leaves rfl
  | command c =>
    cases c with
    | quit => exact leaves rfl
    | restart => exact .refused
    | move d =>
      have step := p.connection.transition_of_call outside (.order (.send (.ofDirection d))) h
      simp only [Connection.call, Connection.obey] at step
      simp only [scene, take, turn, command, Game.Controller.move]
      cases sent : p.connection.session.send outside.listening (.ofDirection d) with
      | ok effect =>
        rw [sent] at step
        exact .moved step
      | error fault =>
        rw [sent] at step
        exact .moved step

theorem Beginning.transition {s t : Session} {effects : List Effect} (b : Beginning s effects t) :
    ∃ order : Order Reaction, s.Transition (.order order) effects t := by
  cases b with
  | search => exact ⟨.start, .started⟩
  | dial endpoint => exact ⟨.connect endpoint, .dialled⟩

theorem Turning.transition {s t : Session} {input : Input} {effects : List Effect}
    (turning : Turning s input effects t) :
    ∃ call : Call Reaction, s.Transition call effects t := by
  cases turning with
  | heard step => exact ⟨_, step⟩
  | moved step => exact ⟨_, step⟩
  | refused => exact ⟨.order .shutdown, .kept⟩
  | left => exact ⟨.order .shutdown, .ended⟩

theorem Beginning.coherent {s t : Session} {effects : List Effect} (b : Beginning s effects t)
    (h : s.Coherent) : t.Coherent := by
  obtain ⟨order, step⟩ := b.transition
  exact step.coherent h

theorem Turning.coherent {s t : Session} {input : Input} {effects : List Effect}
    (turning : Turning s input effects t) (h : s.Coherent) : t.Coherent := by
  obtain ⟨call, step⟩ := turning.transition
  exact step.coherent h

theorem keeps_coherent : Keeps fun p => p.session.Coherent where
  begins := fun began h => (beginning_of_begin began).coherent h
  turns := fun wake h => (turning_of_scene h.tornDown wake).coherent h
  excuses := fun {p} fault h => by
    unfold excused
    split <;> exact h

theorem coherent_afterRuns (gridSize : Nat) (server : Option Endpoint) (earlier : List Engagement) :
    ((fresh gridSize server).afterRuns earlier).session.Coherent :=
  keeps_coherent.afterRuns Session.fresh_coherent earlier

end TileClient.Play
