import TileClient.Session.Connection

/-! What one call does to a session, said once for all calls. The answers that a call gets from
outside are given with it, and they may be different each time. -/
namespace TileClient

/-- What the outside answers during a call: whether connections can be opened here, and which
servers still take what is sent. -/
structure Outside where
  available : Bool
  listening : Nat → Bool

/-- What the owner of a connection can ask of it. -/
inductive Order (ω : Type) where
  | start
  | connect (endpoint : Endpoint)
  | send (move : Wire.Move)
  | on (event : String) (react : SessionEvent → List ω)
  | off (event : String) (id : Nat)
  | shutdown

/-- A call of a connection: an order of its owner, or a report to be handled. -/
inductive Call (ω : Type) where
  | order (order : Order ω)
  | handle (m : Message)

namespace Connection

variable {ω : Type}

def attempt (c : Connection ω) (step : Except Fault (Connection ω × List Effect × List ω)) :
    Connection ω × List Effect × List ω :=
  match step with
  | .ok step => step
  | .error _ => (c, [], [])

def obey (c : Connection ω) (outside : Outside) : Order ω → Connection ω × List Effect × List ω
  | .start => c.attempt (c.start outside.available)
  | .connect endpoint => c.attempt (c.connect outside.available endpoint)
  | .send move =>
    c.attempt ((c.session.send outside.listening move).map fun effect => (c, [effect], []))
  | .on event react => ((c.on event react).1, [], [])
  | .off event id => ((c.off event id).1, [], [])
  | .shutdown => c.shutdown

/-- One call: the connection after it, what it asks of the outside and what the handlers leave. -/
def call (c : Connection ω) (outside : Outside) : Call ω → Connection ω × List Effect × List ω
  | .order order => c.obey outside order
  | .handle m => c.handle outside.available m

end Connection

/-- The attempt that a report of discovery belongs to. -/
def DiscoveryMessage.attempt : DiscoveryMessage → Nat
  | .response attempt _ => attempt
  | .retryDue attempt => attempt

/-- Nothing waits for a report any more, or nothing waits for it yet. -/
def Session.Superseded (s : Session) : Message → Prop
  | .discovery m => s.discovery.isCurrent m.attempt = false
  | .opened epoch _ => ¬ (epoch = s.epoch ∧ s.phase = .connecting)
  | .dialFailed epoch _ => ¬ (epoch = s.epoch ∧ s.phase = .connecting)
  | .transport epoch _ => ¬ (epoch = s.epoch ∧ s.phase = .connected)

instance (s : Session) : (m : Message) → Decidable (s.Superseded m)
  | .discovery m => inferInstanceAs (Decidable (s.discovery.isCurrent m.attempt = false))
  | .opened epoch _ => inferInstanceAs (Decidable (¬ (epoch = s.epoch ∧ s.phase = .connecting)))
  | .dialFailed epoch _ =>
    inferInstanceAs (Decidable (¬ (epoch = s.epoch ∧ s.phase = .connecting)))
  | .transport epoch _ => inferInstanceAs (Decidable (¬ (epoch = s.epoch ∧ s.phase = .connected)))

/-- What is left to do about a report that nothing waits for. -/
def Message.leftovers : Message → List Effect
  | .opened _ link => [.release link]
  | _ => []

def Discovery.pauses (d : Discovery) : List TaskName := d.pause.toList.map .pause

def Discovery.holdings (d : Discovery) : List TaskName :=
  d.request.toList.map .request ++ d.pauses

/-- The tasks of connections that a session holds. -/
def Session.lines (s : Session) : List TaskName :=
  s.dial.toList.map .dial ++ s.socket.toList.map fun socket => .pump socket.pump

def Session.holdings (s : Session) : List TaskName := s.discovery.holdings ++ s.lines

namespace Effect

@[simp] def dial? : Effect → Option Nat
  | .dial epoch _ => some epoch
  | _ => none

@[simp] def pump? : Effect → Option (Nat × Nat)
  | .pump epoch link => some (epoch, link)
  | _ => none

@[simp] def request? : Effect → Option Nat
  | .request attempt => some attempt
  | _ => none

@[simp] def event? : Effect → Option SessionEvent
  | .publish event => some event
  | _ => none

/-- A reading of effects that passes over tasks given up and links let go of. -/
class Passing {α : Type} (read : Effect → Option α) : Prop where
  cancel (name : TaskName) : read (.cancel name) = none
  release (link : Nat) : read (.release link) = none

/-- A reading that passes over events as well. -/
class Deaf {α : Type} (read : Effect → Option α) : Prop extends Passing read where
  publish (event : SessionEvent) : read (.publish event) = none

instance : Passing dial? := ⟨fun _ => rfl, fun _ => rfl⟩
instance : Deaf dial? := ⟨fun _ => rfl⟩
instance : Passing pump? := ⟨fun _ => rfl, fun _ => rfl⟩
instance : Deaf pump? := ⟨fun _ => rfl⟩
instance : Passing request? := ⟨fun _ => rfl, fun _ => rfl⟩
instance : Deaf request? := ⟨fun _ => rfl⟩
instance : Passing event? := ⟨fun _ => rfl, fun _ => rfl⟩

/-- What a reading finds among some effects. -/
def collect {α : Type} (read : Effect → Option α) (effects : List Effect) : List α :=
  effects.filterMap read

variable {α : Type} (read : Effect → Option α)

@[simp] theorem collect_nil : collect read [] = [] := rfl

@[simp] theorem collect_cons (effect : Effect) (effects : List Effect) :
    collect read (effect :: effects) = (read effect).toList ++ collect read effects := by
  cases h : read effect <;> simp [collect, h]

@[simp] theorem collect_append (es fs : List Effect) :
    collect read (es ++ fs) = collect read es ++ collect read fs :=
  List.filterMap_append

@[simp] theorem collect_cancel [Passing read] (names : List TaskName) :
    collect read (names.map .cancel) = [] := by
  simp [collect, Passing.cancel]

@[simp] theorem collect_leftovers [Passing read] (m : Message) : collect read m.leftovers = [] := by
  cases m <;> simp [Message.leftovers, Passing.release]

@[simp] theorem collect_publish [Deaf read] (events : List SessionEvent) :
    collect read (events.map .publish) = [] := by
  simp [collect, Deaf.publish]

@[simp] theorem collect_event_publish (events : List SessionEvent) :
    collect event? (events.map .publish) = events := by
  simp [collect, Function.comp_def]

end Effect

namespace Discovery

/-- A discovery that has given up what was under way and waits for nothing. -/
def stopped (d : Discovery) : Discovery := { d with active := false, request := none, pause := none }

/-- A discovery that has just asked under a new attempt. -/
def asked (d : Discovery) : Discovery :=
  { d with attempt := d.attempt + 1, active := true, request := some (d.attempt + 1), pause := none }

/-- A discovery that pauses after an answer without a server. -/
def paused (d : Discovery) : Discovery := { d with request := none, pause := some d.attempt }

theorem cancel_eq (d : Discovery) : d.cancel = (d.stopped, d.holdings.map .cancel) := by
  simp [cancel, abortTasks, stopped, holdings, pauses, Function.comp_def]

theorem discover_eq (d : Discovery) :
    d.discover = (d.asked, d.holdings.map .cancel ++ [.request (d.attempt + 1)]) := by
  simp [discover, abortTasks, issueRequest, asked, holdings, pauses, Function.comp_def]

theorem active_of_isCurrent {d : Discovery} {attempt : Nat} (h : d.isCurrent attempt) :
    d.active = true := by
  simp only [isCurrent, Bool.and_eq_true] at h
  exact h.1

/-- What a discovery can do with a report. -/
inductive Handling (d : Discovery) :
    DiscoveryMessage → Discovery × List Effect × Option Endpoint → Prop where
  | ignored {m : DiscoveryMessage} (old : d.isCurrent m.attempt = false) : Handling d m (d, [], none)
  | refused {attempt : Nat} {body : Except Fault String} {fault : Fault}
      (current : d.isCurrent attempt) (unusable : body.bind Wire.Reply.assigned = .error fault) :
      Handling d (.response attempt body)
        (d.paused, d.pauses.map .cancel ++ [.pause d.attempt], none)
  | assigned {attempt : Nat} {body : Except Fault String} {endpoint : Endpoint}
      (current : d.isCurrent attempt) (usable : body.bind Wire.Reply.assigned = .ok endpoint) :
      Handling d (.response attempt body)
        (d.stopped, d.pauses.map .cancel, some endpoint)
  | retried {attempt : Nat} (current : d.isCurrent attempt) :
      Handling d (.retryDue attempt) (d.asked, [.request (d.attempt + 1)], none)

theorem handling (d : Discovery) (m : DiscoveryMessage) : Handling d m (d.handle m) := by
  cases m with
  | response attempt body =>
    by_cases h : d.isCurrent attempt
    · cases hb : body.bind Wire.Reply.assigned with
      | ok endpoint =>
        have := Handling.assigned h hb
        simpa [handle, h, hb, cancel_eq, stopped, holdings, pauses] using this
      | error fault =>
        have := Handling.refused h hb
        simpa [handle, h, hb, schedulePause, paused, pauses, Function.comp_def] using this
    · have old : d.isCurrent attempt = false := by simpa using h
      simpa [handle, old] using Handling.ignored (m := .response attempt body) old
  | retryDue attempt =>
    by_cases h : d.isCurrent attempt
    · have := Handling.retried h
      simpa [handle, h, issueRequest, asked, active_of_isCurrent h] using this
    · have old : d.isCurrent attempt = false := by simpa using h
      simpa [handle, old] using Handling.ignored (m := .retryDue attempt) old

theorem handle_of_old {d : Discovery} {m : DiscoveryMessage} (h : d.isCurrent m.attempt = false) :
    d.handle m = (d, [], none) := by
  cases m <;> exact if_neg (by simpa [DiscoveryMessage.attempt] using h)

/-- A discovery acts on every report of the current attempt, whatever it says, and on no other. -/
theorem acts_iff (d : Discovery) (m : DiscoveryMessage) :
    d.handle m ≠ (d, [], none) ↔ d.isCurrent m.attempt = true := by
  have h := d.handling m
  generalize d.handle m = outcome at h
  cases h with
  | ignored old => simp [old]
  | refused current | assigned current | retried current =>
    simp [DiscoveryMessage.attempt, current]

end Discovery

namespace Session

/-- A session that looks for a server, whatever it holds. -/
def searching (s : Session) : Session :=
  { s with discovery := s.discovery.asked, phase := .discovering, tornDown := false }

/-- A session that dials under a new epoch and has let go of all else. -/
def dialling (s : Session) : Session :=
  ⟨s.discovery.stopped, .connecting, s.epoch + 1, none, some (s.epoch + 1), false⟩

/-- A session whose connection or dial is gone and that looks for a server again. -/
def lost (s : Session) : Session :=
  ⟨s.discovery.asked, .discovering, s.epoch, none, none, false⟩

def ended (s : Session) : Session :=
  ⟨s.discovery.stopped, .disconnected, s.epoch + 1, none, none, true⟩

def joined (s : Session) (link : Nat) : Session :=
  { s with dial := none, socket := some ⟨link, s.epoch⟩, phase := .connected }

theorem detach_eq (s : Session) :
    s.detach = ({ s with dial := none, socket := none }, s.lines.map .cancel) := by
  simp [detach, lines, Function.comp_def]

theorem start_eq (s : Session) : s.start true =
    .ok (s.searching, s.discovery.holdings.map .cancel ++ [.request (s.discovery.attempt + 1)]) := by
  simp [start, enterDiscovery, Discovery.discover_eq, searching]

theorem connect_eq (s : Session) (endpoint : Endpoint) : s.connect true endpoint =
    .ok (s.dialling, s.holdings.map .cancel ++ [.dial (s.epoch + 1) endpoint]) := by
  simp [connect, Discovery.cancel_eq, detach_eq, dialling, holdings, lines]

theorem shutdown_eq (s : Session) : s.shutdown = (s.ended, s.holdings.map .cancel) := by
  simp [shutdown, Discovery.cancel_eq, detach_eq, ended, holdings, lines]

theorem handleClose_eq {s : Session} (h : s.tornDown = false) : s.handleClose =
    (s.lost, s.lines.map .cancel ++ [.publish .connectionClosed] ++
      (s.discovery.holdings.map .cancel ++ [.request (s.discovery.attempt + 1)])) := by
  simp [handleClose, detach_eq, h, enterDiscovery, Discovery.discover_eq, lost]

end Session

/-- What a session tells about an event of the connection in use. -/
def LinkEvent.told : LinkEvent → List SessionEvent
  | .message text => (Wire.Update.decode? text).toList.map .update
  | .error reason => [.connectionError reason]
  | .closed => [.connectionClosed]

/-- What a call can do to a session that is torn down only while it is disconnected: the call,
what it asks of the outside, and the session after it. -/
inductive Session.Transition {ω : Type} (s : Session) :
    Call ω → List Effect → Session → Prop where
  | kept {order : Order ω} : Transition s (.order order) [] s
  | sent {move : Wire.Move} {socket : Socket} (used : s.phase = .connected)
      (held : s.socket = some socket) :
      Transition s (.order (.send move)) [.transmit socket.link move.encode] s
  | started : Transition s (.order .start)
      (s.discovery.holdings.map .cancel ++ [.request (s.discovery.attempt + 1)]) s.searching
  | dialled {endpoint : Endpoint} : Transition s (.order (.connect endpoint))
      (s.holdings.map .cancel ++ [.dial (s.epoch + 1) endpoint]) s.dialling
  | ended : Transition s (.order .shutdown) (s.holdings.map .cancel) s.ended
  | superseded {m : Message} (old : s.Superseded m) : Transition s (.handle m) m.leftovers s
  | refused {attempt : Nat} {body : Except Fault String} (current : s.discovery.isCurrent attempt) :
      Transition s (.handle (.discovery (.response attempt body)))
        (s.discovery.pauses.map .cancel ++ [.pause s.discovery.attempt])
        { s with discovery := s.discovery.paused }
  | retried {attempt : Nat} (current : s.discovery.isCurrent attempt) :
      Transition s (.handle (.discovery (.retryDue attempt)))
        [.request (s.discovery.attempt + 1)] { s with discovery := s.discovery.asked }
  | found {attempt : Nat} {body : Except Fault String} {endpoint : Endpoint}
      (current : s.discovery.isCurrent attempt)
      (named : body.bind Wire.Reply.assigned = .ok endpoint) (looking : s.phase = .discovering) :
      Transition s (.handle (.discovery (.response attempt body)))
        ((s.discovery.pauses ++ s.lines).map .cancel ++ [.dial (s.epoch + 1) endpoint]) s.dialling
  | stranded {attempt : Nat} {body : Except Fault String}
      (current : s.discovery.isCurrent attempt) :
      Transition s (.handle (.discovery (.response attempt body)))
        (s.discovery.pauses.map .cancel)
        { s with discovery := s.discovery.stopped }
  | opened {link : Nat} (waiting : s.phase = .connecting) :
      Transition s (.handle (.opened s.epoch link))
        [.pump s.epoch link, .publish .connectionMade] (s.joined link)
  | failed {fault : Fault} (waiting : s.phase = .connecting) :
      Transition s (.handle (.dialFailed s.epoch fault))
        (.publish (.connectionError fault.message) :: ({ s with dial := none }.lines.map .cancel ++
          [.publish .connectionClosed] ++
          (s.discovery.holdings.map .cancel ++ [.request (s.discovery.attempt + 1)]))) s.lost
  | told {event : LinkEvent} (used : s.phase = .connected) (more : event ≠ .closed) :
      Transition s (.handle (.transport s.epoch event)) (event.told.map .publish) s
  | closed (used : s.phase = .connected) :
      Transition s (.handle (.transport s.epoch .closed))
        (s.lines.map .cancel ++ [.publish .connectionClosed] ++
          (s.discovery.holdings.map .cancel ++ [.request (s.discovery.attempt + 1)])) s.lost

namespace Session

variable {ω : Type}

private theorem transition_of_discovery (s : Session) (available : Bool) (m : DiscoveryMessage) :
    Transition s (.handle (.discovery m) : Call ω) (s.handleDiscovery available m).2
      (s.handleDiscovery available m).1 := by
  have h := s.discovery.handling m
  unfold handleDiscovery
  generalize s.discovery.handle m = outcome at h
  cases h with
  | ignored old => exact .superseded (m := .discovery m) old
  | refused current unusable => exact .refused current
  | retried current => exact .retried current
  | assigned current usable =>
    by_cases looking : s.phase = .discovering
    · cases available with
      | true =>
        have step : Transition s (.handle (.discovery _) : Call ω) _ _ :=
          .found current usable looking
        simpa [looking, connect_eq, dialling, holdings, lines, Discovery.stopped,
          Discovery.holdings, Discovery.pauses] using step
      | false => simpa [looking, connect] using Transition.stranded (s := s) current
    · simpa [looking] using Transition.stranded (s := s) current

theorem up_of_phase {s : Session} (h : s.tornDown = true → s.phase = .disconnected)
    (busy : s.phase ≠ .disconnected) : s.tornDown = false :=
  Bool.eq_false_iff.mpr fun down => busy (h down)

private theorem transition_of_transport {s : Session}
    (h : s.tornDown = true → s.phase = .disconnected) (used : s.phase = .connected) (event : LinkEvent) :
    Transition s (.handle (.transport s.epoch event) : Call ω) (s.handleTransport event).2
      (s.handleTransport event).1 := by
  have up := up_of_phase h (by simp [used])
  cases event with
  | message text =>
    have step : Transition s (.handle (.transport s.epoch (.message text)) : Call ω) _ _ :=
      .told used (by simp)
    cases hd : Wire.Update.decode? text <;> simpa [handleTransport, LinkEvent.told, hd] using step
  | error reason => exact .told used (by simp)
  | closed => simpa [handleTransport, handleClose_eq up] using Transition.closed used

private theorem transition_of_report {s : Session}
    (h : s.tornDown = true → s.phase = .disconnected) (available : Bool) (m : Message) :
    Transition s (.handle m : Call ω) (s.handle available m).2 (s.handle available m).1 := by
  by_cases old : s.Superseded m
  · cases m with
    | discovery m => exact transition_of_discovery s available m
    | opened | dialFailed | transport =>
      have step : Transition s (.handle _ : Call ω) _ _ := .superseded old
      simp only [Superseded] at old
      simpa [handle, old, Message.leftovers] using step
  · cases m with
    | discovery m => exact transition_of_discovery s available m
    | opened epoch link =>
      obtain ⟨rfl, waiting⟩ := Decidable.not_not.mp old
      simpa [handle, waiting, joined] using
        (Transition.opened waiting : Transition s (.handle (.opened _ link) : Call ω) _ _)
    | dialFailed epoch fault =>
      obtain ⟨rfl, waiting⟩ := Decidable.not_not.mp old
      have up : { s with dial := none }.tornDown = false := up_of_phase h (by simp [waiting])
      rw [handle, if_pos ⟨rfl, waiting⟩, handleClose_eq up]
      exact .failed waiting
    | transport epoch event =>
      obtain ⟨rfl, used⟩ := Decidable.not_not.mp old
      simpa [handle, used] using transition_of_transport h used event

end Session

namespace Connection

variable {ω : Type}

theorem tell_session (c : Connection ω) (effects : List Effect) :
    (c.tell effects).1.session = c.session := by
  fun_induction tell c effects <;> simp_all

/-- Every call is a transition of the session. Handlers have no part in it. -/
theorem transition_of_call (c : Connection ω) (outside : Outside) (call : Call ω)
    (h : c.session.tornDown = true → c.session.phase = .disconnected) :
    c.session.Transition call (c.call outside call).2.1 (c.call outside call).1.session := by
  cases call with
  | handle m =>
    simpa [Connection.call, handle, settle, tell_session] using
      c.session.transition_of_report h outside.available m
  | order order =>
    cases order with
    | start =>
      cases ha : outside.available with
      | true =>
        simpa [Connection.call, obey, start, ha, Session.start_eq, attempt, settle, tell_session,
          Except.map] using Session.Transition.started
      | false =>
        simpa [Connection.call, obey, start, ha, Session.start, attempt, Except.map] using .kept
    | connect endpoint =>
      cases ha : outside.available with
      | true =>
        simpa [Connection.call, obey, connect, ha, Session.connect_eq, attempt, settle, tell_session,
          Except.map] using Session.Transition.dialled
      | false =>
        simpa [Connection.call, obey, connect, ha, Session.connect, attempt, Except.map] using .kept
    | shutdown =>
      simpa [Connection.call, obey, shutdown, Session.shutdown_eq, settle, tell_session] using
        Session.Transition.ended
    | send move =>
      simp only [Connection.call, obey, Session.send]
      split
      · split
        · exact .sent ‹_› ‹_›
        · exact .kept
      · exact .kept
    | on event react => exact .kept
    | off event id => exact .kept

end Connection

end TileClient
