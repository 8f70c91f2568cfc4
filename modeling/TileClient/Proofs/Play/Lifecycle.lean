import TileClient.Proofs.Play.Wiring

/-! The events of a run follow a grammar. Every dial has its tale, which is told to the end before
the next one begins: either the dial failed, or a connection was made, was heard and was closed.
With the end of a tale a search begins. -/
namespace TileClient

/-- What is heard on a connection while it is open. -/
inductive Talk where
  | update (u : Wire.Update)
  | error (reason : String)
  deriving DecidableEq, Repr

def Talk.event : Talk → SessionEvent
  | .update u => .update u
  | .error reason => .connectionError reason

/-- What is heard with an event of a link. A message that is no update says nothing. -/
def LinkEvent.talk : LinkEvent → List Talk
  | .message text => (Wire.Update.decode? text).toList.map .update
  | .error reason => [.error reason]
  | .closed => []

theorem LinkEvent.told_eq_talk {event : LinkEvent} (more : event ≠ .closed) :
    event.told = event.talk.map Talk.event := by
  cases event with
  | message text => cases h : Wire.Update.decode? text <;> simp [told, talk, h, Talk.event]
  | error reason => rfl
  | closed => exact absurd rfl more

/-- What is told of a dial from the first event to the last: that it failed, or that the connection
was made, what was heard on it, and that it was closed. -/
inductive Tale where
  | failed (reason : String)
  | served (talk : List Talk)
  deriving DecidableEq, Repr

namespace Tale

def events : Tale → List SessionEvent
  | .failed reason => [.connectionError reason, .connectionClosed]
  | .served talk => .connectionMade :: talk.map Talk.event ++ [.connectionClosed]

theorem events_served (talk : List Talk) : (served talk).events =
    .connectionMade :: (talk.map Talk.event ++ [.connectionClosed]) :=
  rfl

/-- The epoch and the reason of a dial that failed. -/
def failure? : Nat × Tale → Option (Nat × String)
  | (epoch, .failed reason) => some (epoch, reason)
  | (_, .served _) => none

/-- The tales of epochs one after another, every event with its epoch. -/
def recite (word : List (Nat × Tale)) : List (Nat × SessionEvent) :=
  word.flatMap fun (epoch, tale) => tale.events.map (epoch, ·)

theorem recite_concat (word : List (Nat × Tale)) (epoch : Nat) (tale : Tale) :
    recite (word ++ [(epoch, tale)]) = recite word ++ tale.events.map (epoch, ·) := by
  simp [recite]

/-- An event that is told belongs to one of the tales. -/
theorem split_recite {word : List (Nat × Tale)} {before after : List (Nat × SessionEvent)}
    {epoch : Nat} {event : SessionEvent} (h : recite word = before ++ (epoch, event) :: after) :
    ∃ sooner tale later front back, word = sooner ++ (epoch, tale) :: later ∧
      tale.events = front ++ event :: back ∧
      before = recite sooner ++ front.map (epoch, ·) ∧
      after = back.map (epoch, ·) ++ recite later := by
  induction word generalizing before with
  | nil => simp [recite] at h
  | cons first word ih =>
    obtain ⟨own, tale⟩ := first
    have further (rest : List (Nat × SessionEvent))
        (begins : before = tale.events.map (own, ·) ++ rest)
        (h : recite word = rest ++ (epoch, event) :: after) :
        ∃ sooner other later front back, (own, tale) :: word = sooner ++ (epoch, other) :: later ∧
          other.events = front ++ event :: back ∧
          before = recite sooner ++ front.map (epoch, ·) ∧
          after = back.map (epoch, ·) ++ recite later := by
      obtain ⟨sooner, other, later, front, back, rfl, events, rfl, ends⟩ := ih h
      refine ⟨(own, tale) :: sooner, other, later, front, back, rfl, events, ?_, ends⟩
      simp [begins, recite]
    change tale.events.map (own, ·) ++ recite word = _ at h
    rcases List.append_eq_append_iff.mp h with ⟨rest, begins, ends⟩ | ⟨rest, begins, ends⟩
    · exact further rest begins ends
    · cases rest with
      | nil => exact further [] (by simpa using begins.symm) ends.symm
      | cons x rest =>
        obtain ⟨rfl, rfl⟩ : (epoch, event) = x ∧ after = rest ++ recite word := by simpa using ends
        obtain ⟨front, others, events, rfl, others_eq⟩ := List.map_eq_append_iff.mp begins
        obtain ⟨_, back, rfl, same, rfl⟩ := List.map_eq_cons_iff.mp others_eq
        obtain ⟨rfl, rfl⟩ := Prod.mk.inj same
        exact ⟨[], tale, word, front, back, rfl, events, rfl, rfl⟩

/-- Between two connections the first one is closed. -/
theorem closed_between {word : List (Nat × Tale)} {before between after : List (Nat × SessionEvent)}
    {first second : Nat}
    (h : recite word = before ++ (first, .connectionMade) ::
      (between ++ (second, .connectionMade) :: after)) :
    (first, .connectionClosed) ∈ between := by
  obtain ⟨sooner, tale, later, front, back, -, events, -, rest⟩ := split_recite h
  obtain ⟨talk, rfl⟩ : ∃ talk : List Talk, back = talk.map Talk.event ++ [.connectionClosed] := by
    cases tale with
    | failed reason =>
      have made : SessionEvent.connectionMade ∈ (failed reason).events := by simp [events]
      simp [Tale.events] at made
    | served talk =>
      rw [events_served] at events
      cases front with
      | nil => exact ⟨talk, (List.cons.inj events).2.symm⟩
      | cons x front =>
        have made : SessionEvent.connectionMade ∈ talk.map Talk.event ++ [.connectionClosed] := by
          rw [(List.cons.inj events).2]
          simp
        simp only [List.mem_append, List.mem_map, List.mem_singleton, reduceCtorEq, or_false]
          at made
        obtain ⟨said, -, same⟩ := made
        cases said <;> cases same
  -- The second connection is made after all that is told of the first one, its closing included.
  rw [List.map_append, List.append_assoc] at rest
  rcases List.append_eq_append_iff.mp rest with ⟨gap, ends, begins⟩ | ⟨gap, ends, begins⟩
  · cases gap with
    | nil => simp at begins
    | cons x gap =>
      have made : (second, SessionEvent.connectionMade) ∈ (talk.map Talk.event).map (first, ·) := by
        rw [ends, (List.cons.inj begins).1]
        simp
      simp only [List.mem_map, Prod.mk.injEq, exists_eq_right_right] at made
      obtain ⟨⟨said, -, same⟩, -⟩ := made
      cases said <;> cases same
  · cases gap with
    | nil => simp at begins
    | cons x gap =>
      rw [ends, ← (List.cons.inj begins).1]
      simp

theorem made_before {word : List (Nat × Tale)} {before after : List (Nat × SessionEvent)}
    {epoch : Nat} {u : Wire.Update} (h : recite word = before ++ (epoch, .update u) :: after) :
    (epoch, .connectionMade) ∈ before := by
  obtain ⟨sooner, tale, later, front, back, -, events, rfl, -⟩ := split_recite h
  cases tale with
  | failed reason =>
    have told : SessionEvent.update u ∈ (failed reason).events := by simp [events]
    simp [Tale.events] at told
  | served talk =>
    cases front with
    | nil => cases (List.cons.inj events).1
    | cons x front =>
      rw [← (List.cons.inj events).1]
      simp

end Tale

namespace Play.Scene

/-- The events that are told in a step, with the epoch that they are about. -/
def told (scene : Scene) : List (Nat × SessionEvent) :=
  (Effect.collect Effect.event? scene.effects).map (scene.before.session.epoch, ·)

def dials (scene : Scene) : List Nat := Effect.collect Effect.dial? scene.effects

/-- The dial that is found to have failed in a step, if it was waited for. -/
def dialFailure? (scene : Scene) : Option (Nat × String) :=
  match scene.wake? with
  | some ⟨_, .message (.dialFailed epoch fault)⟩ =>
    if scene.before.session.Superseded (.dialFailed epoch fault) then none
    else some (epoch, fault.message)
  | _ => none

end Play.Scene

/-- How far the tale of the latest dial is told. -/
inductive Standing where
  | finished
  | dialling (epoch : Nat)
  | talking (epoch : Nat) (talk : List Talk)

namespace Standing

def told : Standing → List (Nat × SessionEvent)
  | .finished | .dialling _ => []
  | .talking epoch talk => (.connectionMade :: talk.map Talk.event).map (epoch, ·)

def epoch? : Standing → Option Nat
  | .finished => none
  | .dialling epoch | .talking epoch _ => some epoch

/-- The standing of a session that has heard something on the connection in use, if there is one. -/
def of (s : Session) (talk : List Talk) : Standing :=
  match s.phase with
  | .disconnected | .discovering => .finished
  | .connecting => .dialling s.epoch
  | .connected => .talking s.epoch talk

variable {s : Session} {talk : List Talk}

theorem of_discovering (looking : s.phase = .discovering) : of s talk = .finished := by
  simp [of, looking]

theorem of_connecting (waiting : s.phase = .connecting) : of s talk = .dialling s.epoch := by
  simp [of, waiting]

theorem of_connected (used : s.phase = .connected) : of s talk = .talking s.epoch talk := by
  simp [of, used]

end Standing

/-- What some steps of a run have told: whole tales, and one as far as it stands. -/
structure Recital (scenes : List Play.Scene) (word : List (Nat × Tale)) (standing : Standing) :
    Prop where
  told : scenes.flatMap Play.Scene.told = Tale.recite word ++ standing.told
  dials : scenes.flatMap Play.Scene.dials = word.map Prod.fst ++ standing.epoch?.toList
  ordered : (scenes.flatMap Play.Scene.dials).Pairwise (· < ·)
  failures : scenes.filterMap Play.Scene.dialFailure? = word.filterMap Tale.failure?

namespace Recital
open Play

variable {scenes : List Scene} {word : List (Nat × Tale)} {standing : Standing} {scene : Scene}

theorem concat (h : Recital scenes word standing) {more : List (Nat × Tale)} {next : Standing}
    (told : standing.told ++ scene.told = Tale.recite more ++ next.told) (dials : scene.dials = [])
    (epochs : standing.epoch?.toList = more.map Prod.fst ++ next.epoch?.toList)
    (failure : scene.dialFailure?.toList = more.filterMap Tale.failure?) :
    Recital (scenes ++ [scene]) (word ++ more) next := by
  have same : (scenes ++ [scene]).flatMap Scene.dials = scenes.flatMap Scene.dials := by
    simp [dials]
  constructor
  · rw [List.flatMap_append, h.told, List.flatMap_singleton, List.append_assoc, told,
      ← List.append_assoc]
    simp [Tale.recite]
  · rw [same, h.dials, epochs, List.map_append, List.append_assoc]
  · rw [same]
    exact h.ordered
  · rw [List.filterMap_append, List.filterMap_append, h.failures, ← failure]
    cases found : scene.dialFailure? <;> simp [found]

theorem dial (h : Recital scenes word .finished) {epoch : Nat} (told : scene.told = [])
    (dials : scene.dials = [epoch]) (failure : scene.dialFailure? = none)
    (later : ∀ earlier ∈ scenes.flatMap Scene.dials, earlier < epoch) :
    Recital (scenes ++ [scene]) word (.dialling epoch) := by
  constructor
  · simp [h.told, told, Standing.told]
  · simp [h.dials, dials, Standing.epoch?]
  · rw [List.flatMap_append, List.flatMap_singleton, dials]
    refine List.pairwise_append.mpr ⟨h.ordered, List.pairwise_singleton _ _, ?_⟩
    intro earlier member new isNew
    exact List.mem_singleton.mp isNew ▸ later earlier member
  · simp [h.failures, failure]

theorem further (h : Recital scenes word standing) {next : Standing}
    (told : standing.told ++ scene.told = next.told) (dials : scene.dials = [])
    (epochs : standing.epoch? = next.epoch?) (failure : scene.dialFailure? = none) :
    Recital (scenes ++ [scene]) word next := by
  have longer : Recital (scenes ++ [scene]) (word ++ []) next :=
    h.concat told dials (congrArg Option.toList epochs) (by simp [failure])
  rwa [List.append_nil] at longer

theorem ending (h : Recital scenes word standing) {epoch : Nat} {tale : Tale}
    (told : standing.told ++ scene.told = tale.events.map (epoch, ·)) (dials : scene.dials = [])
    (epochs : standing.epoch? = some epoch)
    (failure : scene.dialFailure? = Tale.failure? (epoch, tale)) :
    Recital (scenes ++ [scene]) (word ++ [(epoch, tale)]) .finished := by
  refine h.concat ?_ dials ?_ ?_
  · rw [told]
    simp [Tale.recite, Standing.told]
  · rw [epochs]
    rfl
  · rw [failure]
    cases found : Tale.failure? (epoch, tale) <;> simp [found]

/-- What a report adds to the recital. -/
theorem heard {s t : Session} {m : Message} {effects : List Effect} {talk : List Talk}
    (h : Recital scenes word (.of s talk))
    (past : ∀ epoch ∈ scenes.flatMap Scene.dials, epoch ≤ s.epoch)
    (step : s.Transition (.handle m : Call Reaction) effects t) (outside : Outside)
    {before after : Play} (session : before.session = s) :
    ∃ word talk, Recital (scenes ++ [⟨some ⟨outside, .message m⟩, before, effects, after⟩]) word
      (.of t talk) := by
  subst session
  cases step with
  | superseded old =>
    refine ⟨word, talk, h.further ?_ (by simp [Scene.dials]) rfl ?_⟩
    · simp [Scene.told]
    · cases m with
      | dialFailed => exact if_pos old
      | discovery | opened | transport => rfl
  | refused | retried | stranded =>
    exact ⟨word, talk,
      h.further (by simp [Scene.told, Standing.of]) (by simp [Scene.dials]) rfl rfl⟩
  | found current named looking =>
    rw [Standing.of_discovering looking] at h
    refine ⟨word, [], h.dial (by simp [Scene.told]) ?_ rfl ?_⟩
    · simp [Scene.dials, Session.dialling]
    · exact fun earlier member => Nat.lt_succ_of_le (past earlier member)
  | opened waiting =>
    rw [Standing.of_connecting waiting] at h
    exact ⟨word, [], h.further rfl rfl rfl rfl⟩
  | @failed fault waiting =>
    rw [Standing.of_connecting waiting] at h
    refine ⟨word ++ [(before.session.epoch, .failed fault.message)], [],
      h.ending ?_ (by simp [Scene.dials]) rfl ?_⟩
    · simp [Standing.told, Scene.told, Tale.events]
    · exact if_neg fun old => old ⟨rfl, waiting⟩
  | @told event used more =>
    rw [Standing.of_connected used] at h
    refine ⟨word, talk ++ event.talk,
      Standing.of_connected used ▸ h.further ?_ (by simp [Scene.dials]) rfl rfl⟩
    simp only [Scene.told, Effect.collect_event_publish, LinkEvent.told_eq_talk more]
    simp [Standing.told]
  | closed used =>
    rw [Standing.of_connected used] at h
    refine ⟨word ++ [(before.session.epoch, .served talk)], [],
      h.ending ?_ (by simp [Scene.dials]) rfl rfl⟩
    simp [Standing.told, Scene.told, Tale.events]

/-- What a turn of the loop adds to the recital. -/
theorem turned {talk : List Talk} {before after : Play} {wake : Wake} {effects : List Effect}
    (h : Recital scenes word (.of before.session talk))
    (past : ∀ epoch ∈ scenes.flatMap Scene.dials, epoch ≤ before.session.epoch)
    (turning : Turning before.session wake.input effects after.session) :
    ∃ word standing, Recital (scenes ++ [⟨some wake, before, effects, after⟩]) word standing ∧
      (wake.input.ends = false → ∃ talk, standing = .of after.session talk) := by
  obtain ⟨outside, input⟩ := wake
  simp only at turning
  generalize after.session = t at turning
  cases turning with
  | heard step =>
    obtain ⟨word, talk, next⟩ := h.heard past step outside rfl
    exact ⟨word, _, next, fun _ => ⟨talk, rfl⟩⟩
  | moved step =>
    have quiet : Effect.collect Effect.event? effects = [] ∧
        Effect.collect Effect.dial? effects = [] := by
      cases step <;> simp
    refine ⟨word, _, h.further ?_ quiet.2 rfl rfl, fun _ => ⟨talk, rfl⟩⟩
    simp [Scene.told, quiet.1]
  | refused =>
    exact ⟨word, _, h.further (by simp [Scene.told]) rfl rfl rfl, fun _ => ⟨talk, rfl⟩⟩
  | left ends =>
    refine ⟨word, _, h.further (by simp [Scene.told]) (by simp [Scene.dials]) rfl ?_, ?_⟩
    · cases input with
      | message => cases ends
      | command | inputClosed | interrupt => rfl
    · simp [ends]

/-- A recital that breaks off is one of whole tales, but for a closing that is not told yet. Every
dial but perhaps the latest has its tale. -/
theorem completed (h : Recital scenes word standing) :
    ∃ word, scenes.flatMap Scene.told <+: Tale.recite word ∧
      (Tale.recite word).length ≤ (scenes.flatMap Scene.told).length + 1 ∧
      (word.map Prod.fst).Pairwise (· < ·) ∧
      word.map Prod.fst <+: scenes.flatMap Scene.dials ∧
      (scenes.flatMap Scene.dials).length ≤ word.length + 1 ∧
      scenes.filterMap Scene.dialFailure? = word.filterMap Tale.failure? := by
  have epochs : (word.map Prod.fst).Sublist (scenes.flatMap Scene.dials) := by
    rw [h.dials]
    exact List.sublist_append_left _ _
  cases standing with
  | finished | dialling epoch =>
    have told : scenes.flatMap Scene.told = Tale.recite word := by
      rw [h.told]
      exact List.append_nil _
    refine ⟨word, told ▸ List.prefix_rfl, told ▸ Nat.le_succ _, h.ordered.sublist epochs, ?_, ?_,
      h.failures⟩
    · rw [h.dials]
      exact List.prefix_append _ _
    · simp [h.dials, Standing.epoch?]
  | talking epoch talk =>
    have dials : scenes.flatMap Scene.dials =
        (word ++ [(epoch, Tale.served talk)]).map Prod.fst := by
      rw [h.dials, List.map_append]
      rfl
    have told : Tale.recite (word ++ [(epoch, Tale.served talk)]) =
        scenes.flatMap Scene.told ++ [(epoch, .connectionClosed)] := by
      rw [Tale.recite_concat, h.told, List.append_assoc]
      simp [Standing.told, Tale.events]
    refine ⟨word ++ [(epoch, .served talk)], ?_, ?_, dials ▸ h.ordered, dials ▸ List.prefix_rfl, ?_,
      ?_⟩
    · rw [told]
      exact List.prefix_append _ _
    · simp [told]
    · simp [dials]
    · simp [h.failures, Tale.failure?]

end Recital

namespace Play

/-- A search begins with a step in which something is told to be closed. -/
structure Scene.Searches (scene : Scene) : Prop where
  once : (Effect.collect Effect.event? scene.effects).count .connectionClosed = 1
  asks : Effect.collect Effect.request? scene.effects = [scene.before.session.discovery.attempt + 1]
  phase : scene.after.session.phase = .discovering
  active : scene.after.session.discovery.active = true
  request : scene.after.session.discovery.request =
    some (scene.before.session.discovery.attempt + 1)

theorem Turning.searches {before after : Play} {wake : Wake} {effects : List Effect}
    (turning : Turning before.session wake.input effects after.session)
    (closed : .connectionClosed ∈ Effect.collect Effect.event? effects) :
    Scene.Searches ⟨some wake, before, effects, after⟩ := by
  obtain ⟨outside, input⟩ := wake
  simp only at turning
  generalize same : after.session = t at turning
  cases turning with
  | heard step =>
    cases step with
    | failed waiting | closed used =>
      constructor <;> simp [same, Session.lost, Discovery.asked]
    | @told event used more =>
      rw [Effect.collect_event_publish, LinkEvent.told_eq_talk more, List.mem_map] at closed
      obtain ⟨said, -, same⟩ := closed
      cases said <;> cases same
    | _ => simp at closed
  | moved step => cases step <;> simp at closed
  | refused | left => simp at closed

variable {p : Play}

theorem searches_of_loop (coherent : p.session.Coherent) {wakes : List Wake} {scene : Scene}
    (member : scene ∈ p.loop wakes)
    (closed : .connectionClosed ∈ Effect.collect Effect.event? scene.effects) : scene.Searches := by
  obtain ⟨q, wake, rfl, kept⟩ := keeps_coherent.turn_of_mem coherent member
  exact (turning_of_scene kept.tornDown wake).searches closed

private theorem reached_step {s t : Session} {call : Call Reaction} {effects : List Effect}
    {earlier : List Nat} (step : s.Transition call effects t)
    (h : ∀ epoch ∈ earlier, epoch ≤ s.epoch) :
    ∀ epoch ∈ earlier ++ Effect.collect Effect.dial? effects, epoch ≤ t.epoch := by
  intro epoch member
  rcases List.mem_append.mp member with old | new
  · have before := h epoch old
    rcases step.epoch with ⟨-, rises, -⟩ | ⟨-, moved⟩ <;> omega
  · rcases step.epoch with ⟨none, -⟩ | ⟨one, moved⟩
    · rw [none] at new
      cases new
    · rw [one] at new
      exact Nat.le_of_eq ((List.mem_singleton.mp new).trans moved.symm)

theorem recital_of_loop (coherent : p.session.Coherent) {past : List Scene}
    {word : List (Nat × Tale)} {talk : List Talk} (h : Recital past word (.of p.session talk))
    (reached : ∀ epoch ∈ past.flatMap Scene.dials, epoch ≤ p.session.epoch) (wakes : List Wake) :
    ∃ word standing, Recital (past ++ p.loop wakes) word standing := by
  induction wakes generalizing p past word talk with
  | nil => exact ⟨word, _, by rw [loop, List.append_nil]; exact h⟩
  | cons wake wakes ih =>
    have turning := turning_of_scene coherent.tornDown wake
    obtain ⟨word, standing, next, stands⟩ := h.turned reached turning
    rw [loop_cons]
    cases ends : wake.input.ends with
    | true => exact ⟨word, standing, next⟩
    | false =>
      obtain ⟨talk, rfl⟩ := stands ends
      obtain ⟨call, step⟩ := turning.transition
      have further : ∀ epoch ∈ (past ++ [p.scene wake]).flatMap Scene.dials,
          epoch ≤ (p.scene wake).after.session.epoch := by
        rw [List.flatMap_append, List.flatMap_singleton]
        exact reached_step step reached
      obtain ⟨word, standing, rest⟩ := ih (turning.coherent coherent) next further
      refine ⟨word, standing, ?_⟩
      rw [if_neg Bool.false_ne_true, List.append_cons]
      exact rest

theorem recital_of_beginning {before after : Play} {effects : List Effect}
    (beginning : Beginning before.session effects after.session) :
    Recital [⟨none, before, effects, after⟩] [] (.of after.session []) := by
  have begun : Recital [] [] .finished := by
    constructor <;> simp [Tale.recite, Standing.told, Standing.epoch?]
  generalize same : after.session = t at beginning
  cases beginning with
  | search => exact begun.further (by simp [Scene.told]; rfl) (by simp [Scene.dials]) rfl rfl
  | dial endpoint =>
    refine begun.dial (by simp [Scene.told]) ?_ rfl (by simp)
    simp [Scene.dials, Session.dialling]

theorem recital_of_run (coherent : p.session.Coherent) (e : Engagement) :
    ∃ word standing, Recital (p.run e) word standing := by
  unfold run
  split
  · rename_i next effects began
    have beginning := beginning_of_begin began
    obtain ⟨order, step⟩ := beginning.transition
    refine recital_of_loop (beginning.coherent coherent) (recital_of_beginning beginning) ?_ e.wakes
    have none : ∀ epoch ∈ ([] : List Nat), epoch ≤ p.session.epoch := by simp
    simpa [Scene.dials] using reached_step step none
  · exact ⟨[], .finished, by constructor <;> simp [Tale.recite, Standing.told, Standing.epoch?]⟩

theorem searches_of_run (coherent : p.session.Coherent) {e : Engagement} {scene : Scene}
    (member : scene ∈ p.run e)
    (closed : .connectionClosed ∈ Effect.collect Effect.event? scene.effects) : scene.Searches := by
  unfold run at member
  split at member
  · rename_i next effects began
    have beginning := beginning_of_begin began
    rcases List.mem_cons.mp member with rfl | later
    · generalize next.session = t at beginning
      cases beginning <;> simp at closed
    · exact searches_of_loop (beginning.coherent coherent) later closed
  · cases member

/-- Whatever comes to a client, the events of a run are the beginning of a row of whole tales, one
for every dial and in the order of the dials, with no more than the last closing left out. A tale
tells of a failure if the dial was found to have failed, and of nothing else. In every step in
which something is told to be closed, once, a new search begins. Between two connections the first
is closed, and no update comes before the connection of its epoch. All these events are emitted on
the bus, once each and in this order: whatever handlers stand there leave their answers to just
them, and those of the client pass on to the game what it is to be told. -/
theorem events_follow_the_grammar (gridSize : Nat) (server : Option Endpoint)
    (earlier : List Engagement) (e : Engagement) :
    let p := (fresh gridSize server).afterRuns earlier
    let scenes := p.run e
    let told := scenes.flatMap Scene.told
    let dials := scenes.flatMap Scene.dials
    (∃ word : List (Nat × Tale),
      told <+: Tale.recite word ∧ (Tale.recite word).length ≤ told.length + 1 ∧
      (word.map Prod.fst).Pairwise (· < ·) ∧
      word.map Prod.fst <+: dials ∧ dials.length ≤ word.length + 1 ∧
      scenes.filterMap Scene.dialFailure? = word.filterMap Tale.failure?) ∧
    (∀ scene ∈ scenes, .connectionClosed ∈ Effect.collect Effect.event? scene.effects →
      scene.Searches) ∧
    (∀ before first between second after, told = before ++ (first, .connectionMade) ::
        (between ++ (second, .connectionMade) :: after) →
      (first, .connectionClosed) ∈ between) ∧
    (∀ before epoch u after, told = before ++ (epoch, .update u) :: after →
      (epoch, .connectionMade) ∈ before) ∧
    (∀ (ω : Type) (bus : EventBus SessionEvent Unit ω), p.overheard bus scenes =
      (told.map Prod.snd).flatMap fun event => (bus.emit event.name event).2) ∧
    ∀ scene ∈ scenes, scene.Conveyed := by
  intro p scenes told dials
  have coherent := coherent_afterRuns gridSize server earlier
  have wired : p.connection.response = SessionEvent.reactions :=
    keeps_response.afterRuns response_wired earlier
  obtain ⟨_, _, recital⟩ := recital_of_run coherent e
  obtain ⟨word, part, whole⟩ := recital.completed
  obtain ⟨more, rest⟩ := part
  refine ⟨⟨word, ⟨more, rest⟩, whole⟩, fun scene member => searches_of_run coherent member, ?_, ?_,
    fun ω bus => ?_, fun scene => conveyed_of_run wired⟩
  · intro before first between second after split
    change told ++ more = Tale.recite word at rest
    have whole : Tale.recite word = before ++ (first, .connectionMade) ::
        (between ++ (second, .connectionMade) :: (after ++ more)) := by
      simpa [split] using rest.symm
    exact Tale.closed_between whole
  · intro before epoch u after split
    change told ++ more = Tale.recite word at rest
    have whole : Tale.recite word = before ++ (epoch, .update u) :: (after ++ more) := by
      simpa [split] using rest.symm
    exact Tale.made_before whole
  · have events : told.map Prod.snd =
        scenes.flatMap fun scene => Effect.collect Effect.event? scene.effects := by
      simp [told, List.map_flatMap, Scene.told, Function.comp_def]
    rw [events]
    exact overheard_of_run wired e bus

end Play

end TileClient
