import TileClient.Proofs.Game.History
import TileClient.Proofs.Play.Run

/-! Moves are never predicted. What a player asks for, and when, makes no difference to the game,
the session and what they tell; a move only leaves a payload, and a restart only a notice. -/
namespace TileClient

namespace Game

def Frame.isBoard : Frame → Bool
  | .board _ _ => true
  | .notice _ => false

namespace Controller

/-- A controller as if it had never shown a notice. -/
def unnoticed (c : Controller) : Controller := { c with frames := c.frames.filter Frame.isBoard }

theorem unnoticed_notify (c : Controller) (text : String) :
    (c.notify text).unnoticed = c.unnoticed := by
  simp [unnoticed, notify, Frame.isBoard]

theorem unnoticed_setup (c : Controller) : c.setup.unnoticed = c.unnoticed.setup := by
  simp [unnoticed, setup, draw, Frame.isBoard]

theorem filter_shows (r : Replica) (grid : Board.Grid) (u : Wire.Update) :
    (r.shows grid u).filter Frame.isBoard = r.shows grid u := by
  unfold Replica.shows
  dsimp only
  split
  · rfl
  · split <;> rfl

theorem unnoticed_applyUpdate (c : Controller) (u : Wire.Update) :
    (c.applyUpdate u).unnoticed = c.unnoticed.applyUpdate u := by
  by_cases square : u.grid.IsSquare c.size
  · have read := Board.Grid.ofSnapshot_of_isSquare square
    rw [applyUpdate_of_grid read, applyUpdate_of_grid (c := c.unnoticed) read]
    simp [unnoticed, filter_shows]
  · rw [applyUpdate_of_misshapen square, applyUpdate_of_misshapen (c := c.unnoticed) square]

end Controller

end Game

/-- A text to send. -/
def Effect.isPayload : Effect → Bool
  | .transmit _ _ => true
  | _ => false

namespace Play

/-- A client as if its player had never been told anything. -/
def unnoticed (p : Play) : Play := { p with controller := p.controller.unnoticed }

theorem unnoticed_follow (p : Play) (step : Connection Reaction × List Effect × List Reaction) :
    (p.follow step).1.unnoticed = (p.unnoticed.follow step).1 := by
  have all (reactions : List Reaction) (c : Game.Controller) :
      (reactions.foldl react c).unnoticed = reactions.foldl react c.unnoticed := by
    induction reactions generalizing c with
    | nil => rfl
    | cons reaction reactions ih =>
      rw [List.foldl_cons, List.foldl_cons, ih]
      cases reaction with
      | setup => rw [react, react, Game.Controller.unnoticed_setup]
      | update u => rw [react, react, Game.Controller.unnoticed_applyUpdate]
  simp [follow, unnoticed, all]

/-- What a client answers to, its player aside: a report, with what the outside answers meanwhile,
or the end of the run. -/
inductive Stimulus where
  | report (available : Bool) (m : Message)
  | farewell

def Wake.stimulus? (wake : Wake) : Option Stimulus :=
  match wake.input with
  | .message m => some (.report wake.outside.available m)
  | .command .quit | .inputClosed | .interrupt => some .farewell
  | .command (.move _) | .command .restart => none

/-- A step in which a player's move or restart is taken. -/
def Scene.isPlayed (scene : Scene) : Bool :=
  match scene.wake? with
  | some ⟨_, .command (.move _)⟩ | some ⟨_, .command .restart⟩ => true
  | _ => false

def respond (p : Play) : Stimulus → Play × List Effect
  | .report available m => p.handle available m
  | .farewell => p.leave

/-- Whether a run ends with it. -/
def Stimulus.ends : Stimulus → Bool
  | .report _ _ => false
  | .farewell => true

/-- What is asked of the outside, step by step, by a client without a player, and the client in
the end. -/
def attend (p : Play) : List Stimulus → List (List Effect) × Play
  | [] => ([], p)
  | stimulus :: rest =>
    if stimulus.ends then ([(p.respond stimulus).2], (p.respond stimulus).1)
    else
      let (effects, last) := attend (p.respond stimulus).1 rest
      ((p.respond stimulus).2 :: effects, last)

theorem Wake.ends_eq (wake : Wake) : wake.input.ends = wake.stimulus?.any Stimulus.ends := by
  obtain ⟨outside, input⟩ := wake
  cases input with
  | message | inputClosed | interrupt => rfl
  | command c => cases c <;> rfl

theorem unnoticed_respond (p : Play) (stimulus : Stimulus) :
    (p.respond stimulus).1.unnoticed = (p.unnoticed.respond stimulus).1 ∧
      (p.respond stimulus).2 = (p.unnoticed.respond stimulus).2 := by
  cases stimulus with
  | report available m => exact ⟨p.unnoticed_follow _, rfl⟩
  | farewell => exact ⟨p.unnoticed_follow _, rfl⟩

/-- What a step adds in which a player's move or restart is taken: a move no more than its payload
on the connection in use, and a restart no more than its notice. -/
inductive Scene.Played : Scene → Prop where
  | dropped {outside : Outside} {d : Board.Direction} {p : Play} :
      Played ⟨some ⟨outside, .command (.move d)⟩, p, [], p⟩
  | sent {outside : Outside} {d : Board.Direction} {p : Play} {socket : Socket}
      (connected : p.session.phase = .connected) (held : p.session.socket = some socket) :
      Played ⟨some ⟨outside, .command (.move d)⟩, p,
        [.transmit socket.link (Wire.Move.ofDirection d).encode], p⟩
  | refused {outside : Outside} {p : Play} :
      Played ⟨some ⟨outside, .command .restart⟩, p, [],
        { p with controller := p.controller.notify Game.restartNotice }⟩

variable {p q : Play} {wake : Wake} {scene : Scene}

theorem played_of_scene (none : wake.stimulus? = none) : (p.scene wake).Played := by
  obtain ⟨outside, input⟩ := wake
  cases input with
  | message | inputClosed | interrupt => cases none
  | command c =>
    cases c with
    | quit => cases none
    | restart => exact .refused
    | move d =>
      simp only [Play.scene, take, turn, command, Game.Controller.move, Session.send]
      split
      · rename_i effect sent
        split at sent
        · split at sent
          · cases sent
            exact .sent ‹_› ‹_›
          · cases sent
        · cases sent
      · exact .dropped

namespace Scene.Played

theorem isPlayed (h : scene.Played) : scene.isPlayed = true := by
  cases h <;> rfl

theorem unnoticed (h : scene.Played) : scene.after.unnoticed = scene.before.unnoticed := by
  cases h with
  | dropped | sent => rfl
  | refused => simp [Play.unnoticed, Game.Controller.unnoticed_notify]

theorem payloads (h : scene.Played) : scene.effects.filter (!·.isPayload) = [] := by
  cases h <;> rfl

end Scene.Played

/-- A step in which something else is taken than a player's move or restart is the answer to it. -/
theorem scene_of_stimulus {stimulus : Stimulus} (one : wake.stimulus? = some stimulus) :
    (p.scene wake).after = (p.respond stimulus).1 ∧
      (p.scene wake).effects = (p.respond stimulus).2 ∧ (p.scene wake).isPlayed = false := by
  obtain ⟨outside, input⟩ := wake
  cases input with
  | message | inputClosed | interrupt => cases one; exact ⟨rfl, rfl, rfl⟩
  | command c =>
    cases c with
    | move | restart => cases one
    | quit => cases one; exact ⟨rfl, rfl, rfl⟩

/-- The loop, but for what a player adds, is what a client without a player does. -/
theorem attend_of_loop (p : Play) (wakes : List Wake) :
    ((p.loop wakes).filter (!·.isPlayed)).map (·.effects) =
        (p.unnoticed.attend (wakes.filterMap Wake.stimulus?)).1 ∧
      (p.afterLoop wakes).unnoticed =
        (p.unnoticed.attend (wakes.filterMap Wake.stimulus?)).2 := by
  induction wakes generalizing p with
  | nil => exact ⟨rfl, rfl⟩
  | cons wake wakes ih =>
    rw [loop_cons, afterLoop_cons]
    cases one : wake.stimulus? with
    | none =>
      have played := played_of_scene (p := p) one
      have goesOn : wake.input.ends = false := by rw [wake.ends_eq, one]; rfl
      have kept : (p.scene wake).after.unnoticed = p.unnoticed := played.unnoticed
      rw [List.filterMap_cons_none one, ← kept, goesOn]
      simpa [played.isPlayed] using ih (p.scene wake).after
    | some stimulus =>
      obtain ⟨after, effects, isPlayed⟩ := scene_of_stimulus (p := p) one
      obtain ⟨later, same⟩ := p.unnoticed_respond stimulus
      have ends : wake.input.ends = stimulus.ends := by rw [wake.ends_eq, one]; rfl
      rw [List.filterMap_cons_some one, attend, ← later, ← same, ends, after]
      cases stimulus.ends with
      | true => simp [isPlayed, effects]
      | false => simpa [isPlayed, effects] using ih (p.respond stimulus).1

theorem played_of_loop {wakes : List Wake} (member : scene ∈ p.loop wakes)
    (isPlayed : scene.isPlayed = true) : scene.Played := by
  have keeps : Keeps fun _ => True := ⟨fun _ _ => trivial, fun _ _ => trivial, fun _ _ => trivial⟩
  obtain ⟨q, wake, rfl, -⟩ := keeps.turn_of_mem trivial member
  cases one : wake.stimulus? with
  | none => exact played_of_scene one
  | some stimulus =>
    rw [(scene_of_stimulus one).2.2] at isPlayed
    cases isPlayed

/-- A run of a client without a player. One that cannot begin leaves the client as it is. -/
def converse (p : Play) (available : Bool) (stimuli : List Stimulus) : List (List Effect) × Play :=
  match p.begin available with
  | .ok (next, effects) =>
    let (further, last) := next.attend stimuli
    (effects :: further, last)
  | .error _ => ([], p)

theorem unnoticed_begin (p : Play) (available : Bool) :
    p.unnoticed.begin available =
      (p.begin available).map fun (next, effects) => (next.unnoticed, effects) := by
  have all (call : Except Fault (Connection Reaction × List Effect × List Reaction)) :
      call.map p.unnoticed.follow =
        (call.map p.follow).map fun (next, effects) => (next.unnoticed, effects) := by
    cases call with
    | error fault => rfl
    | ok step =>
      change Except.ok (p.unnoticed.follow step) = .ok ((p.follow step).1.unnoticed, step.2.1)
      rw [p.unnoticed_follow]
      rfl
  unfold begin
  rw [show p.unnoticed.server = p.server from rfl]
  cases p.server <;> exact all _

/-- A run, but for what a player adds, is what a client without a player does. -/
theorem converse_of_run (p : Play) (e : Engagement) :
    ((p.run e).filter (!·.isPlayed)).map (·.effects) =
        (p.unnoticed.converse e.available (e.wakes.filterMap Wake.stimulus?)).1 ∧
      (p.afterRun e).unnoticed =
        (p.unnoticed.converse e.available (e.wakes.filterMap Wake.stimulus?)).2 := by
  unfold run afterRun converse
  rw [unnoticed_begin]
  cases p.begin e.available with
  | error fault =>
    refine ⟨rfl, ?_⟩
    simp only [excused, Except.map]
    split
    · simp [unnoticed, Game.Controller.unnoticed_notify]
    · rfl
  | ok begun =>
    obtain ⟨further, last⟩ := begun.1.attend_of_loop e.wakes
    exact ⟨congrArg (begun.2 :: ·) further, last⟩

theorem played_of_run {e : Engagement} (member : scene ∈ p.run e)
    (isPlayed : scene.isPlayed = true) : scene.Played := by
  unfold run at member
  split at member
  · rcases List.mem_cons.mp member with rfl | later
    · cases isPlayed
    · exact played_of_loop later isPlayed
  · cases member

theorem asked_of_run (p : Play) (e : Engagement) :
    ((p.run e).flatMap (·.effects)).filter (!·.isPayload) =
      ((((p.run e).filter (!·.isPlayed)).map (·.effects)).flatten).filter (!·.isPayload) := by
  have all (scenes : List Scene) (h : ∀ scene ∈ scenes, scene.isPlayed = true → scene.Played) :
      (scenes.flatMap (·.effects)).filter (!·.isPayload) =
        (((scenes.filter (!·.isPlayed)).map (·.effects)).flatten).filter (!·.isPayload) := by
    induction scenes with
    | nil => rfl
    | cons scene scenes ih =>
      have rest := ih fun other member => h other (List.mem_cons_of_mem _ member)
      rw [List.flatMap_cons, List.filter_append, rest]
      cases isPlayed : scene.isPlayed with
      | true => simp [isPlayed, (h scene List.mem_cons_self isPlayed).payloads]
      | false => simp [isPlayed]
  exact all _ fun scene member => played_of_run member

/-- Nothing tells two runs apart but what their players added: payloads on the connection in use,
and notices. -/
structure Indistinct (p : Play) (e : Engagement) (q : Play) (f : Engagement) : Prop where
  alike : (p.afterRun e).unnoticed = (q.afterRun f).unnoticed
  replica : (p.afterRun e).controller.replica = (q.afterRun f).controller.replica
  boards : (p.afterRun e).controller.frames.filter Game.Frame.isBoard =
    (q.afterRun f).controller.frames.filter Game.Frame.isBoard
  session : (p.afterRun e).session = (q.afterRun f).session
  asked : ((p.run e).flatMap (·.effects)).filter (!·.isPayload) =
    ((q.run f).flatMap (·.effects)).filter (!·.isPayload)
  steps : ((p.run e).filter (!·.isPlayed)).map (·.effects) =
    ((q.run f).filter (!·.isPlayed)).map (·.effects)
  played : ∀ scene ∈ p.run e ++ q.run f, scene.isPlayed = true → scene.Played

/-- Two runs that meet the same, but for what their players do and when, have the same game, the
same boards shown and the same session, and ask for the same but for payloads. They leave the
clients so alike that the next two runs can be compared in their turn. -/
theorem moves_are_never_predicted {p q : Play} (alike : p.unnoticed = q.unnoticed)
    (available : Bool) {xs ys : List Wake}
    (same : xs.filterMap Wake.stimulus? = ys.filterMap Wake.stimulus?) :
    Indistinct p ⟨available, xs⟩ q ⟨available, ys⟩ := by
  obtain ⟨steps, last⟩ := p.converse_of_run ⟨available, xs⟩
  obtain ⟨steps', last'⟩ := q.converse_of_run ⟨available, ys⟩
  simp only [alike, same] at steps last
  have steps := steps.trans steps'.symm
  have last := last.trans last'.symm
  constructor
  case alike => exact last
  case replica => exact congrArg (·.controller.replica) last
  case boards => exact congrArg (·.controller.frames) last
  case session => exact congrArg (·.connection.session) last
  case asked => rw [asked_of_run, asked_of_run, steps]
  case steps => exact steps
  case played =>
    intro scene member
    rcases List.mem_append.mp member with one | other
    · exact played_of_run one
    · exact played_of_run other

/-- A player who asks for a restart before there is a connection, and for a move on it, is one
more case of a player who asks for nothing. -/
theorem moves_are_never_predicted_busy_player :
    let p := fresh 4 (some ⟨"localhost", 8080⟩)
    let outside : Outside := ⟨true, fun _ => true⟩
    let opened : Wake := ⟨outside, .message (.opened 1 0)⟩
    let xs := [⟨outside, .command .restart⟩, opened, ⟨outside, .command (.move .up)⟩]
    p.unnoticed = p.unnoticed ∧ xs.filterMap Wake.stimulus? = [opened].filterMap Wake.stimulus? ∧
      (p.run ⟨true, xs⟩).length = 4 ∧ Indistinct p ⟨true, xs⟩ p ⟨true, [opened]⟩ :=
  ⟨rfl, rfl, rfl, moves_are_never_predicted rfl true rfl⟩

end Play

end TileClient
