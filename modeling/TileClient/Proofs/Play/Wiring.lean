import TileClient.Proofs.Play.Run
import TileClient.Proofs.Session.Audience

/-! How the events of a session reach the game. Every step of a run but a restart is a call of the
client's connection, what its events bring about there is done to the game in their order, and any
other handlers on the bus would have heard the same events. -/
namespace TileClient

/-- What the handlers of a client make of an event. -/
def SessionEvent.reactions : SessionEvent → List Reaction
  | .connectionMade => [.setup]
  | .update u => [.update u]
  | .connectionError _ | .connectionClosed => []

namespace Play

theorem response_wired : wired.response = SessionEvent.reactions := by
  have silent (event : SessionEvent) :
      (Connection.fresh : Connection Reaction).response event = [] := by
    simp [Connection.response, Connection.fresh, EventBus.empty, EventBus.emit]
  funext event
  simp only [wired, Connection.response_on, silent]
  cases event <;> simp [SessionEvent.name, SessionEvent.reactions]

theorem spares_of_input {ω : Type} {input : Input} {call : Call ω} (one : input.call? = some call) :
    call.spares = true := by
  cases input with
  | message | inputClosed | interrupt =>
    obtain rfl := Option.some.inj one
    rfl
  | command c =>
    cases c with
    | move | quit =>
      obtain rfl := Option.some.inj one
      rfl
    | restart => cases one

theorem spares_firstOrder {ω : Type} (p : Play) :
    (Call.order p.firstOrder : Call ω).spares = true := by
  unfold firstOrder
  split <;> rfl

/-- The handlers of a client are the same all the time. -/
theorem keeps_response : Keeps fun p => p.connection.response = SessionEvent.reactions where
  begins := fun {p next available effects} began h => by
    let outside : Outside := ⟨available, fun _ => true⟩
    have followed := follow_of_begin outside began
    have emits := p.connection.emits_call outside p.spares_firstOrder
    rw [← congrArg (·.1.connection) followed]
    exact (Connection.response_congr emits.topics).trans h
  turns := fun {p} wake h => by
    cases one : (wake.input.call? : Option (Call Reaction)) with
    | none =>
      rw [scene, p.take_of_restart one]
      exact h
    | some call =>
      rw [scene, p.take_of_call one]
      have emits := p.connection.emits_call wake.outside (spares_of_input one)
      exact (Connection.response_congr emits.topics).trans h
  excuses := fun {p} fault h => by
    unfold excused
    split <;> exact h

namespace Scene

/-- The call that a step makes of the client's connection, with what the outside answers. -/
def call? {ω : Type} (scene : Scene) : Option (Outside × Call ω) :=
  match scene.wake? with
  | none => some (⟨true, fun _ => true⟩, .order scene.before.firstOrder)
  | some wake => wake.input.call?.map (wake.outside, ·)

def reactions (scene : Scene) : List Reaction :=
  (Effect.collect Effect.event? scene.effects).flatMap SessionEvent.reactions

/-- What a step is for the connection and for the game: a call, with the reactions to its events done
to the game in their order, or a restart. -/
inductive Conveyed (scene : Scene) : Prop where
  | called {outside : Outside} {call : Call Reaction} (one : scene.call? = some (outside, call))
      (connection : scene.before.connection.call outside call =
        (scene.after.connection, scene.effects, scene.reactions))
      (game : scene.after.controller = scene.reactions.foldl react scene.before.controller)
  | restarted (none : (scene.call? : Option (Outside × Call Reaction)) = none)
      (connection : scene.after.connection = scene.before.connection) (silent : scene.effects = [])

end Scene

variable {p : Play}

theorem conveyed_of_follow {scene : Scene} (outside : Outside) (call : Call Reaction)
    (one : scene.call? = some (outside, call))
    (wired : scene.before.connection.response = SessionEvent.reactions)
    (followed : scene.before.follow (scene.before.connection.call outside call) =
      (scene.after, scene.effects)) : scene.Conveyed := by
  obtain ⟨after, effects⟩ := Prod.mk.inj followed
  have outputs := scene.before.connection.outputs_of_call outside call
  rw [wired, effects] at outputs
  refine .called one ?_ ?_
  · exact Prod.ext (congrArg (·.connection) after) (Prod.ext effects outputs)
  · rw [← after, outputs]
    rfl

theorem conveyed_of_turn (wired : p.connection.response = SessionEvent.reactions) (wake : Wake) :
    (p.scene wake).Conveyed := by
  cases one : (wake.input.call? : Option (Call Reaction)) with
  | none =>
    refine .restarted (by simp [Scene.call?, scene, one]) ?_ ?_
    · simp only [scene, p.take_of_restart one]
    · simp only [scene, p.take_of_restart one]
  | some call =>
    refine conveyed_of_follow wake.outside call ?_ wired ?_
    · simp [Scene.call?, scene, one]
    · simp only [scene, p.take_of_call one]
      rfl

theorem available_of_begin {available : Bool} {next : Play} {effects : List Effect}
    (began : p.begin available = .ok (next, effects)) : available = true := by
  cases available with
  | true => rfl
  | false =>
    unfold begin at began
    cases server : p.server <;>
      simp [server, Connection.connect, Connection.start, Session.connect, Session.start,
        Except.map] at began

theorem conveyed_of_run (wired : p.connection.response = SessionEvent.reactions) {e : Engagement}
    {scene : Scene} (member : scene ∈ p.run e) : scene.Conveyed := by
  unfold run at member
  split at member
  · rename_i next effects began
    rcases List.mem_cons.mp member with rfl | later
    · obtain available := available_of_begin began
      rw [available] at began
      let outside : Outside := ⟨true, fun _ => true⟩
      exact conveyed_of_follow outside _ rfl wired (follow_of_begin outside began)
    · obtain ⟨q, wake, rfl, kept⟩ :=
        keeps_response.turn_of_mem (keeps_response.begins began wired) later
      exact conveyed_of_turn kept wake
  · cases member

/-- What the handlers of a bus leave that stands behind the session of a client in the course of some
steps. -/
def overheard {ω : Type} (p : Play) (bus : EventBus SessionEvent Unit ω) (scenes : List Scene) :
    List ω :=
  ((⟨p.session, bus⟩ : Connection ω).history (scenes.filterMap Scene.call?)).flatMap (·.outputs)

/-- The session is handed on from step to step. -/
def Chained : Session → List Scene → Prop
  | _, [] => True
  | s, scene :: rest => scene.before.session = s ∧ Chained scene.after.session rest

theorem chained_loop (p : Play) (wakes : List Wake) : Chained p.session (p.loop wakes) := by
  induction wakes generalizing p with
  | nil => trivial
  | cons wake wakes ih =>
    rw [loop_cons]
    refine ⟨rfl, ?_⟩
    split
    · trivial
    · exact ih _

theorem chained_run (p : Play) (e : Engagement) : Chained p.session (p.run e) := by
  unfold run
  split
  · exact ⟨rfl, chained_loop _ e.wakes⟩
  · trivial

namespace Scene

variable {ω : Type} {scene : Scene}

theorem answer_of_call? {ξ : Type} (scene : Scene) (s : Session) :
    (scene.call? : Option (Outside × Call ω)).map (fun asked => s.answer asked.1 asked.2) =
      (scene.call? : Option (Outside × Call ξ)).map fun asked => s.answer asked.1 asked.2 := by
  obtain ⟨wake?, before, effects, after⟩ := scene
  cases wake? with
  | none =>
    simp only [call?, firstOrder]
    cases before.server <;> rfl
  | some wake =>
    obtain ⟨outside, input⟩ := wake
    cases input with
    | message | inputClosed | interrupt => rfl
    | command c => cases c <;> rfl

theorem spares_of_call? {outside : Outside} {call : Call ω}
    (one : scene.call? = some (outside, call)) :
    call.spares = true := by
  unfold call? at one
  split at one
  · obtain ⟨-, rfl⟩ := Prod.mk.inj (Option.some.inj one)
    exact spares_firstOrder _
  · obtain ⟨own, input, same⟩ := Option.map_eq_some_iff.mp one
    obtain ⟨-, rfl⟩ := Prod.mk.inj same
    exact spares_of_input input

theorem Conveyed.answer (h : scene.Conveyed) {outside : Outside} {call : Call ω}
    (one : scene.call? = some (outside, call)) :
    scene.before.session.answer outside call = (scene.after.session, scene.effects) := by
  have alike := scene.answer_of_call? (ω := ω) (ξ := Reaction) scene.before.session
  cases h with
  | @called there own two connection game =>
    rw [one, two] at alike
    have same := scene.before.connection.call_eq_answer there own
    rw [connection] at same
    exact (Option.some.inj alike).trans same.symm
  | restarted none =>
    rw [one, none] at alike
    cases alike

theorem Conveyed.rests (h : scene.Conveyed)
    (none : (scene.call? : Option (Outside × Call ω)) = .none) :
    scene.after.session = scene.before.session ∧ scene.effects = [] := by
  have alike := scene.answer_of_call? (ω := ω) (ξ := Reaction) scene.before.session
  cases h with
  | called two =>
    rw [none, two] at alike
    cases alike
  | restarted _ connection silent => exact ⟨congrArg (·.session) connection, silent⟩

end Scene

/-- Whoever listens hears every event of a run once and in its order. -/
theorem outputs_of_chained {ω : Type} {scenes : List Scene}
    (conveyed : ∀ scene ∈ scenes, scene.Conveyed) (c : Connection ω)
    (chained : Chained c.session scenes) :
    (c.history (scenes.filterMap Scene.call?)).flatMap (·.outputs) =
      (scenes.flatMap fun scene => Effect.collect Effect.event? scene.effects).flatMap c.response := by
  induction scenes generalizing c with
  | nil => rfl
  | cons scene scenes ih =>
    obtain ⟨before, rest⟩ := chained
    have here := conveyed scene List.mem_cons_self
    have later := fun other member => conveyed other (List.mem_cons_of_mem scene member)
    cases one : (scene.call? : Option (Outside × Call ω)) with
    | none =>
      -- a step without a call leaves the session, and nobody hears anything
      obtain ⟨session, silent⟩ := here.rests one
      rw [List.filterMap_cons_none one, List.flatMap_cons, silent]
      exact ih later c (before ▸ session ▸ rest)
    | some asked =>
      obtain ⟨outside, call⟩ := asked
      have answer := (c.call_eq_answer outside call).trans (before ▸ here.answer one)
      obtain ⟨session, effects⟩ := Prod.mk.inj answer
      have emits := c.emits_call outside (Scene.spares_of_call? one)
      have next := ih later (c.call outside call).1 (session.symm ▸ rest)
      rw [Connection.response_congr emits.topics] at next
      rw [List.filterMap_cons_some one, List.flatMap_cons, List.flatMap_append, ← next, ← effects,
        ← emits.outputs]
      rfl

theorem overheard_of_run {ω : Type} (wired : p.connection.response = SessionEvent.reactions)
    (e : Engagement) (bus : EventBus SessionEvent Unit ω) :
    p.overheard bus (p.run e) =
      ((p.run e).flatMap fun scene => Effect.collect Effect.event? scene.effects).flatMap
        fun event => (bus.emit event.name event).2 :=
  outputs_of_chained (fun _ => conveyed_of_run wired) ⟨p.session, bus⟩ (p.chained_run e)

end Play

end TileClient
