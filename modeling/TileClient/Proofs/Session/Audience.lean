import TileClient.Proofs.EventBus.Roll
import TileClient.Proofs.Session.Records

/-! Who hears what a session tells. Every event that a call tells is emitted on the bus once and in
its order. The handlers under its name answer it, and they are those that the owner has registered
and not removed. -/
namespace TileClient

namespace EventBus

variable {α ω : Type} {bus other : EventBus α Unit ω} {event : String}

theorem topics_emit_of_unit (bus : EventBus α Unit ω) (event : String) (data : α) (name : String) :
    (bus.emit event data).1.topics[name]? = bus.topics[name]? := by
  unfold emit
  split
  · rfl
  · rename_i subscriptions topic
    have same : (subscriptions.map (·.run data)).map (·.1) = subscriptions := by
      rw [List.map_map]
      exact List.map_id _
    simp only [same, Std.HashMap.getElem?_insert]
    split
    · rename_i own
      rw [← beq_iff_eq.mp own, topic]
    · rfl

theorem emit_congr (same : bus.topics[event]? = other.topics[event]?) (data : α) :
    (bus.emit event data).2 = (other.emit event data).2 := by
  simp only [emit, same]
  split <;> rfl

theorem nextId_emit (bus : EventBus α Unit ω) (event : String) (data : α) :
    (bus.emit event data).1.nextId = bus.nextId := by
  unfold emit
  split <;> rfl

theorem outputs_emit (bus : EventBus α Unit ω) (event : String) (data : α) :
    (bus.emit event data).2 = (bus.handlers event).flatMap fun s => (s.run data).2 := by
  unfold emit handlers
  cases bus.topics[event]? with
  | none => rfl
  | some subscriptions => exact List.flatMap_map ..

theorem handlers_on (bus : EventBus α Unit ω) (event : String) (react : Unit → α → Unit × List ω)
    (name : String) : (bus.on event () react).1.handlers name =
      bus.handlers name ++ if event = name then [⟨bus.nextId, (), react⟩] else [] := by
  unfold handlers
  rw [topics_on]
  by_cases same : event = name
  · subst same
    simp [handlers]
  · simp [same]

end EventBus

variable {ω : Type}

namespace Connection

/-- What the handlers of a connection leave when an event is emitted. -/
def response (c : Connection ω) (event : SessionEvent) : List ω := (c.bus.emit event.name event).2

theorem response_congr {c d : Connection ω}
    (same : ∀ event : String, c.bus.topics[event]? = d.bus.topics[event]?) :
    c.response = d.response := by
  funext event
  exact EventBus.emit_congr (same _) event

theorem response_on (c : Connection ω) (name : String) (react : SessionEvent → List ω)
    (event : SessionEvent) : (c.on name react).1.response event =
      c.response event ++ if name = event.name then react event else [] := by
  rw [response, EventBus.outputs_emit, response, EventBus.outputs_emit]
  change (EventBus.handlers (c.bus.on name () _).1 event.name).flatMap _ = _
  rw [EventBus.handlers_on, List.flatMap_append]
  split <;> simp [Subscription.run]

/-- A step whose events are emitted on the bus: once each and in their order, with the handlers of
the connection to answer them before and after. -/
structure Emits (c : Connection ω) (step : Connection ω × List Effect × List ω) : Prop where
  topics : ∀ event : String, step.1.bus.topics[event]? = c.bus.topics[event]?
  nextId : step.1.bus.nextId = c.bus.nextId
  outputs : step.2.2 = (Effect.collect Effect.event? step.2.1).flatMap c.response

theorem emits_tell (c : Connection ω) (effects : List Effect) :
    c.Emits ((c.tell effects).1, effects, (c.tell effects).2) := by
  induction effects generalizing c with
  | nil => exact ⟨fun _ => rfl, rfl, rfl⟩
  | cons effect effects ih =>
    cases effect with
    | publish event =>
      let emitted : Connection ω := { c with bus := (c.bus.emit event.name event).1 }
      have topics (name : String) : emitted.bus.topics[name]? = c.bus.topics[name]? :=
        c.bus.topics_emit_of_unit event.name event name
      obtain ⟨kept, nextId, outputs⟩ := ih emitted
      refine ⟨fun name => (kept name).trans (topics name),
        nextId.trans (c.bus.nextId_emit event.name event), ?_⟩
      rw [response_congr topics] at outputs
      rw [Effect.collect_cons, List.flatMap_append, ← outputs]
      simp [tell, response, emitted]
    | request | pause | dial | pump | cancel | release | transmit =>
      obtain ⟨kept, nextId, outputs⟩ := ih c
      exact ⟨kept, nextId, outputs⟩

theorem emits_settle (c : Connection ω) (step : Session × List Effect) :
    c.Emits (c.settle step) := by
  obtain ⟨topics, nextId, outputs⟩ := emits_tell { c with session := step.1 } step.2
  exact ⟨topics, nextId, outputs⟩

theorem emits_nothing (c : Connection ω) : c.Emits (c, [], []) := ⟨fun _ => rfl, rfl, rfl⟩

theorem emits_attempt (c : Connection ω) (step : Except Fault (Session × List Effect)) :
    c.Emits (c.attempt (step.map c.settle)) := by
  cases step with
  | ok step => exact c.emits_settle step
  | error => exact c.emits_nothing

end Connection

/-- What the handlers on a roll leave when a session tells an event. -/
def Roll.response (roll : Roll SessionEvent Unit ω) (event : SessionEvent) : List ω :=
  (roll.emit event.name event).2

/-- The handlers that are left after a call, if those before it stand on a roll. -/
def Call.enrol (roll : Roll SessionEvent Unit ω) : Call ω → Roll SessionEvent Unit ω
  | .order (.on event react) => (roll.on event () fun _ data => ((), react data)).1
  | .order (.off event id) => (roll.off event id).1
  | .order .start | .order (.connect _) | .order (.send _) | .order .shutdown | .handle _ => roll

/-- A call that leaves the handlers as they are. -/
def Call.spares : Call ω → Bool
  | .order (.on _ _) | .order (.off _ _) => false
  | .order .start | .order (.connect _) | .order (.send _) | .order .shutdown | .handle _ => true

namespace Call

variable {call : Call ω}

theorem enrol_of_spares (spares : call.spares = true) (roll : Roll SessionEvent Unit ω) :
    call.enrol roll = roll := by
  cases call with
  | handle => rfl
  | order order =>
    cases order with
    | start | connect | send | shutdown => rfl
    | on | off => cases spares

theorem order_of_not_spares (spares : call.spares = false) :
    (∃ event react, call = .order (.on event react)) ∨
      ∃ event id, call = .order (.off event id) := by
  cases call with
  | handle => cases spares
  | order order =>
    cases order with
    | start | connect | send | shutdown => cases spares
    | on event react => exact .inl ⟨event, react, rfl⟩
    | off event id => exact .inr ⟨event, id, rfl⟩

end Call

namespace Connection

variable {c : Connection ω} {roll : Roll SessionEvent Unit ω} {call : Call ω}

theorem emits_call (c : Connection ω) (outside : Outside) (spares : call.spares = true) :
    c.Emits (c.call outside call) := by
  cases call with
  | handle m => exact c.emits_settle _
  | order order =>
    cases order with
    | start | connect => exact c.emits_attempt _
    | shutdown => exact c.emits_settle _
    | send move =>
      simp only [Connection.call, obey, Session.send]
      split
      · split
        · exact ⟨fun _ => rfl, rfl, rfl⟩
        · exact c.emits_nothing
      · exact c.emits_nothing
    | on | off => cases spares

theorem response_of_shows (shown : roll.Shows c.bus) : c.response = roll.response := by
  funext event
  exact BusAnswer.left.inj (shown.call (.emit event.name event)).2

theorem shows_call (shown : roll.Shows c.bus) (outside : Outside) (call : Call ω) :
    (call.enrol roll).Shows (c.call outside call).1.bus := by
  cases spares : call.spares with
  | true =>
    have emits := c.emits_call outside spares
    rw [Call.enrol_of_spares spares]
    exact ⟨fun event => (emits.topics event).trans (shown.topics event),
      emits.nextId.trans shown.nextId, shown.numbered⟩
  | false =>
    rcases Call.order_of_not_spares spares with ⟨event, react, rfl⟩ | ⟨event, id, rfl⟩
    · exact (shown.call (.on event () fun _ data => ((), react data))).1
    · exact (shown.call (.off event id)).1

/-- What the handlers leave at a call are their answers to its events. -/
theorem outputs_of_call (c : Connection ω) (outside : Outside) (call : Call ω) :
    (c.call outside call).2.2 =
      (Effect.collect Effect.event? (c.call outside call).2.1).flatMap c.response := by
  cases spares : call.spares with
  | true => exact (c.emits_call outside spares).outputs
  | false =>
    rcases Call.order_of_not_spares spares with ⟨event, react, rfl⟩ | ⟨event, id, rfl⟩ <;> rfl

end Connection

/-- What a call does to a session by itself, and what it asks of the outside. -/
def Session.answer (s : Session) (outside : Outside) : Call ω → Session × List Effect
  | .handle m => s.handle outside.available m
  | .order .start => ((s.start outside.available).toOption).getD (s, [])
  | .order (.connect endpoint) => ((s.connect outside.available endpoint).toOption).getD (s, [])
  | .order (.send move) => (s, (s.send outside.listening move).toOption.toList)
  | .order (.on _ _) | .order (.off _ _) => (s, [])
  | .order .shutdown => s.shutdown

/-- Handlers have no part in what a call does to the session and asks of the outside. -/
theorem Connection.call_eq_answer (c : Connection ω) (outside : Outside) (call : Call ω) :
    ((c.call outside call).1.session, (c.call outside call).2.1) =
      c.session.answer outside call := by
  have attempted (step : Except Fault (Session × List Effect)) :
      ((c.attempt (step.map c.settle)).1.session, (c.attempt (step.map c.settle)).2.1) =
        step.toOption.getD (c.session, []) := by
    cases step with
    | ok step => exact Prod.ext (tell_session _ _) rfl
    | error => rfl
  cases call with
  | handle m => exact Prod.ext (tell_session _ _) rfl
  | order order =>
    cases order with
    | start | connect => exact attempted _
    | shutdown => exact Prod.ext (tell_session _ _) rfl
    | on | off => rfl
    | send move =>
      simp only [Connection.call, obey, Session.answer]
      cases c.session.send outside.listening move <;> rfl

/-- What the handlers leave at a report of an epoch. -/
def Episode.responses (epoch : Nat) (episode : Episode ω) : List ω :=
  if episode.call.message?.bind Message.epoch? = some epoch then episode.outputs else []

namespace Journal

/-- The handlers that the owner has registered and not removed. -/
def roll (journal : Journal ω) : Roll SessionEvent Unit ω :=
  journal.foldl (fun roll episode => episode.call.enrol roll) .empty

/-- What the handlers have left at the reports of an epoch. -/
def responses (journal : Journal ω) (epoch : Nat) : List ω :=
  journal.flatMap (Episode.responses epoch)

/-- Whenever something is told about an epoch, the handlers answer alike. -/
def AnsweredBy (journal : Journal ω) (epoch : Nat) (response : SessionEvent → List ω) : Prop :=
  ∀ (earlier : Journal ω) episode later, journal = earlier ++ episode :: later →
    episode.told epoch ≠ [] → earlier.roll.response = response

/-- At every call the handlers that stood registered then answered its events, each of them once for
every event under its name. -/
def Attended (journal : Journal ω) : Prop :=
  ∀ (earlier : Journal ω) episode later, journal = earlier ++ episode :: later →
    episode.outputs = (Effect.collect Effect.event? episode.effects).flatMap earlier.roll.response

/-- Handlers that always answer alike have answered what was told about an epoch, in its order. -/
theorem Attended.responses {journal : Journal ω} (h : journal.Attended) {epoch : Nat}
    {response : SessionEvent → List ω} (steady : journal.AnsweredBy epoch response) :
    journal.responses epoch = (journal.told epoch).flatMap response := by
  -- by induction on what is left of the journal; what came before it gives the roll
  have rest (later earlier : Journal ω) (split : journal = earlier ++ later) :
      later.responses epoch = (later.told epoch).flatMap response := by
    induction later generalizing earlier with
    | nil => rfl
    | cons episode later ih =>
      have next := ih (earlier ++ [episode]) (by simpa using split)
      have one : episode.responses epoch = (episode.told epoch).flatMap response := by
        by_cases own : episode.call.message?.bind Message.epoch? = some epoch
        · by_cases silent : episode.told epoch = []
          · simp only [Episode.told, own, if_true] at silent
            simp [Episode.responses, Episode.told, own, h _ _ _ split, silent]
          · rw [Episode.responses, if_pos own, h _ _ _ split, steady _ _ _ split silent,
              Episode.told, if_pos own]
        · simp [Episode.responses, Episode.told, own]
      rw [Journal.responses, List.flatMap_cons, one, Journal.told, List.flatMap_cons,
        List.flatMap_append]
      exact congrArg _ next
  exact rest journal [] rfl

namespace Records

variable {journal : Journal ω} {c : Connection ω}

theorem shows_roll (h : journal.Records c) : journal.roll.Shows c.bus := by
  induction h with
  | fresh => exact Roll.shows_empty
  | @call journal c h outside call ih =>
    rw [roll, List.foldl_append]
    exact Connection.shows_call ih outside call

theorem attended (h : journal.Records c) : journal.Attended := by
  induction h with
  | fresh =>
    intro earlier episode later split
    simp at split
  | @call journal c h outside call ih =>
    intro earlier episode later split
    rcases List.eq_nil_or_concat later with rfl | ⟨before, last, rfl⟩
    · obtain ⟨rfl, same⟩ := List.append_inj' split rfl
      obtain rfl := List.singleton_inj.mp same
      rw [← Connection.response_of_shows h.shows_roll]
      exact c.outputs_of_call outside call
    · rw [List.concat_eq_append, ← List.cons_append, ← List.append_assoc] at split
      exact ih earlier episode before (List.append_inj' split rfl).1

end Records

end Journal

end TileClient
