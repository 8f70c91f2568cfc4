import TileClient.Proofs.Play.Run
import TileClient.Proofs.Rehearsal.World
import TileClient.Rehearsal.Acts

/-! A client on tour: one run after another, with its tasks, its reports and the servers taking
turns in any order. For all that its connection can tell, a tour is a world, act by act. -/
namespace TileClient.Rehearsal

/-- What the loop of a run may be woken by besides reports. -/
inductive Cue where
  | command (c : Command)
  | inputClosed
  | interrupt

namespace Cue

def input : Cue → Play.Input
  | .command c => .command c
  | .inputClosed => .inputClosed
  | .interrupt => .interrupt

def move? : Cue → Option Board.Direction
  | .command (.move d) => some d
  | .command .restart | .command .quit | .inputClosed | .interrupt => none

/-- A cue is an order to the connection, unless it is to restart. -/
def order? {ω : Type} : Cue → Option (Order ω)
  | .command (.move d) => some (.send (.ofDirection d))
  | .command .restart => none
  | .command .quit | .inputClosed | .interrupt => some .shutdown

theorem call?_input {ω : Type} (cue : Cue) :
    (cue.input.call? : Option (Call ω)) = cue.order?.map .order := by
  cases cue with
  | inputClosed | interrupt => rfl
  | command c => cases c <;> rfl

end Cue

/-- A client on stage, whose runs, reports, tasks and servers take turns. -/
abbrev Tour := Stage PlayAct

/-- What can happen next: a run begins, its loop takes what it is given or the oldest report,
connections can or cannot be opened any more, a task has its turn, or a server acts. -/
inductive TourAct where
  | begin
  | give (cue : Cue)
  | take
  | connectivity (available : Bool)
  | turn (turn : Turn)
  | serve (link : Nat) (serving : Serving)

namespace Tour

abbrev connection (t : Tour) : Connection Reaction := t.actor.play.connection

abbrev session (t : Tour) : Session := t.connection.session

def opening (retryDelay timeout : Nat) (script : Script) (play : Play) (available : Bool) : Tour :=
  ⟨.opening retryDelay timeout script, .fresh play available⟩

def act (t : Tour) : TourAct → Tour
  | .begin =>
    if t.actor.running then t
    else PlayAct.begin { t with actor := { t.actor with run? := some ⟨true, []⟩ } }
  | .give cue => PlayAct.take t cue.input
  | .take => if t.actor.running then t.handNext PlayAct.part else t
  | .connectivity available => { t with actor := { t.actor with available } }
  | .turn turn => { t with back := t.back.turn turn }
  | .serve link serving =>
    match t.back.server link serving.act with
    | none => t
    | some (back, _) => { t with back }

def run (t : Tour) (acts : List TourAct) : Tour := acts.foldl act t

/-- What an act is for the connection. -/
def echo (t : Tour) : TourAct → List (WorldAct Reaction)
  | .begin =>
    if t.actor.running then [] else [.order t.actor.available t.actor.play.firstOrder]
  | .give cue =>
    if t.actor.running then cue.order?.toList.map (.order t.actor.available) else []
  | .take => if t.actor.running then [.take t.actor.available] else []
  | .connectivity _ => []
  | .turn turn => [.turn turn]
  | .serve link serving => [.serve link serving]

def echoes (t : Tour) : List TourAct → List (WorldAct Reaction)
  | [] => []
  | act :: rest => t.echo act ++ (t.act act).echoes rest

/-- A world has the same behind its connection, and the same connection, as a tour. -/
structure Follows (w : World Reaction) (t : Tour) : Prop where
  back : w.back = t.back
  connection : w.connection = t.connection

namespace Follows

variable {w : World Reaction} {t : Tour}

theorem ordered (h : Follows w t) {u : Tour} (order : Order Reaction)
    (back : u.back = t.back.performAll
      (t.connection.call ⟨t.actor.available, t.back.listening⟩ (.order order)).2.1)
    (connection : u.connection =
      (t.connection.call ⟨t.actor.available, t.back.listening⟩ (.order order)).1) :
    Follows (w.act (.order t.actor.available order)) u := by
  constructor
  · rw [back, ← h.back, ← h.connection]
    rfl
  · rw [connection, ← h.back, ← h.connection]
    rfl

theorem begin (h : Follows w t) : Follows (w.run (t.echo .begin)) (t.act .begin) := by
  simp only [Tour.act, echo]
  cases t.actor.running with
  | true => exact h
  | false =>
    let outside : Outside := ⟨t.actor.available, t.back.listening⟩
    let called : Tour := { t with actor := { t.actor with run? := some ⟨true, []⟩ } }
    let step := t.connection.call outside (.order t.actor.play.firstOrder)
    have outcome : (PlayAct.begin called).back = t.back.performAll step.2.1 ∧
        Tour.connection (PlayAct.begin called) = step.1 := by
      unfold PlayAct.begin
      rcases t.actor.play.begin_cases outside with
        ⟨next, effects, began, followed⟩ | ⟨fault, failed, rest⟩
      · have began : called.actor.play.begin called.actor.available = .ok (next, effects) := began
        rw [began]
        exact ⟨congrArg (fun followed => t.back.performAll followed.2) followed.symm,
          congrArg (·.1.connection) followed.symm⟩
      · -- a run that cannot begin ends at once, and its order would have failed as well
        have failed : called.actor.play.begin called.actor.available = .error fault := failed
        rw [failed]
        have idle : step = (t.connection, [], []) := rest
        rw [idle]
        refine ⟨rfl, ?_⟩
        simp only [PlayAct.finish, Play.excused]
        split <;> rfl
    exact h.ordered t.actor.play.firstOrder outcome.1 outcome.2

theorem give (h : Follows w t) (cue : Cue) :
    Follows (w.run (t.echo (.give cue))) (t.act (.give cue)) := by
  simp only [Tour.act, echo, PlayAct.take]
  cases t.actor.running with
  | false => exact h
  | true =>
    let wake : Play.Wake := ⟨⟨t.actor.available, t.back.listening⟩, cue.input⟩
    have calls : (wake.input.call? : Option (Call Reaction)) = cue.order?.map .order :=
      cue.call?_input
    cases found : (cue.order? : Option (Order Reaction)) with
    | none =>
      rw [found] at calls
      have taken := t.actor.play.take_of_restart calls
      simp only [Play.take, wake] at taken
      simp only [if_true, taken]
      exact ⟨h.back, h.connection⟩
    | some order =>
      rw [found] at calls
      have taken := t.actor.play.take_of_call calls
      simp only [Play.take, wake] at taken
      simp only [if_true, taken]
      apply h.ordered order rfl
      split <;> rfl

theorem take (h : Follows w t) : Follows (w.run (t.echo .take)) (t.act .take) := by
  simp only [Tour.act, echo]
  cases t.actor.running with
  | false => exact h
  | true =>
    simp only [if_true, World.run, List.foldl_cons, List.foldl_nil, World.act, Stage.handNext,
      h.back]
    cases t.back.mailbox with
    | nil => exact h
    | cons m rest =>
      constructor
      · simp only [World.call, h.connection]
        rfl
      · simp only [World.call, h.connection]
        rfl

theorem act (h : Follows w t) (act : TourAct) : Follows (w.run (t.echo act)) (t.act act) := by
  cases act with
  | begin => exact h.begin
  | give cue => exact h.give cue
  | take => exact h.take
  | connectivity available => exact ⟨h.back, h.connection⟩
  | turn turn => exact ⟨congrArg (·.turn turn) h.back, h.connection⟩
  | serve link serving =>
    simp only [echo, World.run, List.foldl_cons, List.foldl_nil, World.act, Tour.act, h.back]
    cases t.back.server link serving.act with
    | none => exact h
    | some served => exact ⟨rfl, h.connection⟩

theorem run (h : Follows w t) (acts : List TourAct) :
    Follows (w.run (t.echoes acts)) (t.run acts) := by
  induction acts generalizing w t with
  | nil => exact h
  | cons act acts ih =>
    have rest := ih (h.act act)
    rw [echoes, World.run, List.foldl_append]
    exact rest

end Follows

/-- The orders by which a client takes up the events of its connection. -/
def wiring (available : Bool) : List (WorldAct Reaction) :=
  [.order available (.on "connectionMade" fun _ => [.setup]),
    .order available (.on "update" fun | .update u => [.update u] | _ => []),
    .order available (.on "connectionError" fun _ => []),
    .order available (.on "connectionClosed" fun _ => [])]

/-- The world that a tour of a fresh client follows. -/
def world (retryDelay timeout : Nat) (script : Script) (gridSize : Nat) (server : Option Endpoint)
    (available : Bool) (acts : List TourAct) : World Reaction :=
  (World.opening retryDelay timeout script).run (wiring available ++
    (opening retryDelay timeout script (.fresh gridSize server) available).echoes acts)

theorem follows_wiring (retryDelay timeout : Nat) (script : Script) (gridSize : Nat)
    (server : Option Endpoint) (available : Bool) :
    Follows ((World.opening retryDelay timeout script).run (wiring available))
      (opening retryDelay timeout script (.fresh gridSize server) available) := ⟨rfl, rfl⟩

/-- For all that its connection can tell, a client on tour is in a world. -/
theorem follows_run (retryDelay timeout : Nat) (script : Script) (gridSize : Nat)
    (server : Option Endpoint) (available : Bool) (acts : List TourAct) :
    Follows (world retryDelay timeout script gridSize server available acts)
      ((opening retryDelay timeout script (.fresh gridSize server) available).run acts) := by
  have followed := (follows_wiring retryDelay timeout script gridSize server available).run acts
  rw [World.run, World.run, ← List.foldl_append] at followed
  exact followed

end Tour

end TileClient.Rehearsal
