import TileClient.EventBus

/-! A bus is one list of all its handlers. It keeps them by event, but whatever is called, it answers
like a roll on which they stand in the order of registration, whatever they wait for. -/
namespace TileClient

variable {α σ ω : Type}

/-- A handler with the event that it waits for. -/
structure Registration (α σ ω : Type) where
  event : String
  subscription : Subscription α σ ω

/-- The registration under an event that has an id. -/
def Registration.goesBy (event : String) (id : Nat) (r : Registration α σ ω) : Bool :=
  r.event == event && r.subscription.id == id

/-- All handlers in the order of registration, and how many there have been. -/
structure Roll (α σ ω : Type) where
  entries : List (Registration α σ ω)
  registered : Nat

namespace Roll

def empty : Roll α σ ω := ⟨[], 0⟩

def under (roll : Roll α σ ω) (event : String) : List (Subscription α σ ω) :=
  (roll.entries.filter (·.event = event)).map (·.subscription)

/-- A handler is entered at the end. The number of those before it, gone or not, is its id. -/
def on (roll : Roll α σ ω) (event : String) (state : σ) (react : σ → α → σ × List ω) :
    Roll α σ ω × Nat :=
  (⟨roll.entries ++ [⟨event, roll.registered, state, react⟩], roll.registered + 1⟩, roll.registered)

/-- One entry is struck off, if it is there. -/
def off (roll : Roll α σ ω) (event : String) (id : Nat) : Roll α σ ω × Bool :=
  ({ roll with entries := roll.entries.eraseP (Registration.goesBy event id) },
    roll.entries.any (Registration.goesBy event id))

/-- All entries are struck off. -/
def clear (roll : Roll α σ ω) : Roll α σ ω := { roll with entries := [] }

/-- Goes through the entries and runs those of an event. -/
def visit (event : String) (data : α) :
    List (Registration α σ ω) → List (Registration α σ ω) × List ω
  | [] => ([], [])
  | r :: rest =>
    let (others, more) := visit event data rest
    if r.event = event then
      let (state, outputs) := r.subscription.react r.subscription.state data
      ({ r with subscription := { r.subscription with state } } :: others, outputs ++ more)
    else (r :: others, more)

def emit (roll : Roll α σ ω) (event : String) (data : α) : Roll α σ ω × List ω :=
  let (entries, outputs) := visit event data roll.entries
  ({ roll with entries }, outputs)

def count (roll : Roll α σ ω) (event : String) : Nat := roll.entries.countP (·.event = event)

end Roll

/-- What can be asked of a bus. -/
inductive BusCall (α σ ω : Type) where
  | on (event : String) (state : σ) (react : σ → α → σ × List ω)
  | off (event : String) (id : Nat)
  | emit (event : String) (data : α)
  | clear
  | count (event : String)

/-- What is answered: the id of a new handler, whether one was removed, what the handlers left, and
how many there are. -/
inductive BusAnswer (ω : Type) where
  | registered (id : Nat)
  | removed (found : Bool)
  | left (outputs : List ω)
  | cleared
  | counted (number : Nat)

def BusAnswer.id? : BusAnswer ω → Option Nat
  | .registered id => some id
  | .removed _ | .left _ | .cleared | .counted _ => none

namespace EventBus

def call (bus : EventBus α σ ω) : BusCall α σ ω → EventBus α σ ω × BusAnswer ω
  | .on event state react => (bus.on event state react).map id .registered
  | .off event handler => (bus.off event handler).map id .removed
  | .emit event data => (bus.emit event data).map id .left
  | .clear => (bus.clear, .cleared)
  | .count event => (bus, .counted (bus.handlerCount event))

def run (bus : EventBus α σ ω) : List (BusCall α σ ω) → EventBus α σ ω × List (BusAnswer ω)
  | [] => (bus, [])
  | call :: rest =>
    let (next, answer) := bus.call call
    (run next rest).map id (answer :: ·)

end EventBus

namespace Roll

def call (roll : Roll α σ ω) : BusCall α σ ω → Roll α σ ω × BusAnswer ω
  | .on event state react => (roll.on event state react).map id .registered
  | .off event handler => (roll.off event handler).map id .removed
  | .emit event data => (roll.emit event data).map id .left
  | .clear => (roll.clear, .cleared)
  | .count event => (roll, .counted (roll.count event))

def run (roll : Roll α σ ω) : List (BusCall α σ ω) → Roll α σ ω × List (BusAnswer ω)
  | [] => (roll, [])
  | call :: rest =>
    let (next, answer) := roll.call call
    (run next rest).map id (answer :: ·)

end Roll

/-- What a bus keeps of the handlers of an event: nothing, if there is none. -/
def topicOf (handlers : List (Subscription α σ ω)) : Option (List (Subscription α σ ω)) :=
  if handlers = [] then none else some handlers

@[simp] theorem topicOf_nil : topicOf ([] : List (Subscription α σ ω)) = none := if_pos rfl

@[simp] theorem topicOf_concat (handlers : List (Subscription α σ ω)) (s : Subscription α σ ω) :
    topicOf (handlers ++ [s]) = some (handlers ++ [s]) := if_neg (by simp)

theorem topicOf_of_ne_nil {handlers : List (Subscription α σ ω)} (some : handlers ≠ []) :
    topicOf handlers = .some handlers := if_neg some

theorem Subscription.length_filter_ne (id : Nat) (handlers : List (Subscription α σ ω)) :
    ((handlers.filter (·.id != id)).length != handlers.length) = handlers.any (·.id == id) := by
  induction handlers with
  | nil => rfl
  | cons s handlers ih =>
    by_cases own : s.id = id
    · have fewer : (handlers.filter (·.id != id)).length ≤ handlers.length :=
        List.length_filter_le _ _
      have less : (handlers.filter (·.id != id)).length ≠ handlers.length + 1 := by omega
      simpa [own] using less
    · have away : (s.id == id) = false := beq_eq_false_iff_ne.mpr own
      simpa [away, own] using ih

namespace EventBus

variable {bus : EventBus α σ ω} {event : String} {handlers : List (Subscription α σ ω)}

theorem handlers_of_topic (topic : bus.topics[event]? = topicOf handlers) :
    bus.handlers event = handlers := by
  rw [EventBus.handlers, topic, topicOf]
  split
  · rename_i empty
    rw [empty, Option.getD_none]
  · rfl

theorem topics_on (state : σ) (react : σ → α → σ × List ω) (other : String) :
    (bus.on event state react).1.topics[other]? =
      if event = other then topicOf (bus.handlers event ++ [⟨bus.nextId, state, react⟩])
      else bus.topics[other]? := by
  simp [on, Std.HashMap.getElem?_insert]

theorem topics_off (id : Nat) (topic : bus.topics[event]? = topicOf handlers) (other : String) :
    (bus.off event id).1.topics[other]? =
        (if event = other then topicOf (handlers.filter (·.id != id)) else bus.topics[other]?) ∧
      (bus.off event id).2 = handlers.any (·.id == id) := by
  by_cases empty : handlers = []
  · subst empty
    rw [topicOf_nil] at topic
    refine ⟨?_, by simp [off, topic]⟩
    by_cases same : event = other
    · subst same
      simp [off, topic]
    · simp [off, topic, same]
  · rw [topicOf_of_ne_nil empty] at topic
    refine ⟨?_, by simpa [off, topic] using Subscription.length_filter_ne id handlers⟩
    by_cases gone : handlers.filter (·.id != id) = []
    · simp [off, topic, gone, Std.HashMap.getElem?_erase]
    · simp [off, topic, gone, topicOf, Std.HashMap.getElem?_insert]

theorem topics_emit (data : α) (topic : bus.topics[event]? = topicOf handlers) (other : String) :
    (bus.emit event data).1.topics[other]? =
        (if event = other then topicOf (handlers.map fun s => (s.run data).1)
        else bus.topics[other]?) ∧
      (bus.emit event data).2 = handlers.flatMap fun s => (s.run data).2 := by
  by_cases empty : handlers = []
  · subst empty
    rw [topicOf_nil] at topic
    refine ⟨?_, by simp [emit, topic]⟩
    by_cases same : event = other
    · subst same
      simp [emit, topic]
    · simp [emit, topic, same]
  · rw [topicOf_of_ne_nil empty] at topic
    refine ⟨?_, by simp [emit, topic, List.flatMap_map]⟩
    simp [emit, topic, topicOf, empty, Std.HashMap.getElem?_insert, Function.comp_def]

end EventBus

namespace Roll

variable {roll : Roll α σ ω} {event : String}

theorem under_on (state : σ) (react : σ → α → σ × List ω) (other : String) :
    (roll.on event state react).1.under other =
      if event = other then roll.under event ++ [⟨roll.registered, state, react⟩]
      else roll.under other := by
  by_cases same : event = other <;> simp [on, under, same]

theorem under_emit (roll : Roll α σ ω) (event : String) (data : α) (other : String) :
    (roll.emit event data).1.under other =
        (if event = other then (roll.under event).map fun s => (s.run data).1
        else roll.under other) ∧
      (roll.emit event data).2 = (roll.under event).flatMap fun s => (s.run data).2 := by
  obtain ⟨entries, registered⟩ := roll
  simp only [emit, under]
  induction entries with
  | nil => simp [visit]
  | cons r entries ih =>
    obtain ⟨rest, outputs⟩ := ih
    by_cases own : r.event = event
    · by_cases same : event = other <;> simp_all [visit, Subscription.run]
    · by_cases same : event = other <;> by_cases wanted : r.event = other <;> simp_all [visit]

/-- The ids on the roll rise, and none of them is given out again. -/
structure Numbered (roll : Roll α σ ω) : Prop where
  rising : (roll.entries.map (·.subscription.id)).Pairwise (· < ·)
  below : ∀ id ∈ roll.entries.map (·.subscription.id), id < roll.registered

theorem goesBy_of_id {entries : List (Registration α σ ω)} {id : Nat}
    (other : ∀ own ∈ entries.map (·.subscription.id), id < own) (event : String) :
    ∀ r ∈ entries, r.goesBy event id = false := by
  intro r member
  have later := other _ (List.mem_map_of_mem member)
  simp [Registration.goesBy, Nat.ne_of_gt later]

/-- Ids are not shared, so the one entry that is struck off is all that goes by the id. -/
theorem eraseP_goesBy {entries : List (Registration α σ ω)}
    (rising : (entries.map (·.subscription.id)).Pairwise (· < ·)) (event : String) (id : Nat) :
    entries.eraseP (Registration.goesBy event id) =
      entries.filter (!·.goesBy event id) := by
  induction entries with
  | nil => rfl
  | cons r entries ih =>
    rw [List.map_cons, List.pairwise_cons] at rising
    obtain ⟨later, rest⟩ := rising
    by_cases own : r.goesBy event id = true
    · have same : r.subscription.id = id := by
        simp only [Registration.goesBy, Bool.and_eq_true, beq_iff_eq] at own
        exact own.2
      have others := goesBy_of_id (same ▸ later) event
      rw [List.eraseP_cons_of_pos own, List.filter_cons_of_neg (by simp [own])]
      exact (List.filter_eq_self.mpr fun r member => by simp [others r member]).symm
    · rw [List.eraseP_cons_of_neg own, List.filter_cons_of_pos (by simp [own]), ih rest]

theorem under_off (numbered : roll.Numbered) (event : String) (id : Nat) (other : String) :
    (roll.off event id).1.under other =
        (if event = other then (roll.under event).filter (·.id != id) else roll.under other) ∧
      (roll.off event id).2 = (roll.under event).any (·.id == id) := by
  refine ⟨?_, ?_⟩
  · simp only [off, under, eraseP_goesBy numbered.rising]
    by_cases same : event = other
    · subst same
      rw [if_pos rfl, List.filter_map, List.filter_filter, List.filter_filter]
      refine congrArg _ (List.filter_congr fun r _ => ?_)
      by_cases own : r.event = event <;> simp [Registration.goesBy, own, bne]
    · rw [if_neg same, List.filter_filter]
      refine congrArg _ (List.filter_congr fun r _ => ?_)
      by_cases own : r.event = other
      · simp [Registration.goesBy, own, Ne.symm same]
      · simp [own]
  · simp only [off, under, List.any_map, List.any_filter]
    rfl

/-- A bus keeps what stands on a roll. -/
structure Shows (roll : Roll α σ ω) (bus : EventBus α σ ω) : Prop where
  topics : ∀ event : String, bus.topics[event]? = topicOf (roll.under event)
  nextId : bus.nextId = roll.registered
  numbered : roll.Numbered

theorem visit_ids (event : String) (data : α) (entries : List (Registration α σ ω)) :
    (visit event data entries).1.map (·.subscription.id) = entries.map (·.subscription.id) := by
  induction entries with
  | nil => rfl
  | cons r entries ih =>
    simp only [visit]
    split <;> simp [ih]

theorem numbered_call (numbered : roll.Numbered) (call : BusCall α σ ω) :
    (roll.call call).1.Numbered := by
  obtain ⟨rising, below⟩ := numbered
  cases call with
  | on event state react =>
    constructor
    · simp only [Roll.call, on, Prod.map_fst, List.map_append, List.map_cons, List.map_nil, id_eq]
      refine List.pairwise_append.mpr ⟨rising, List.pairwise_singleton _ _, fun id old new isNew => ?_⟩
      exact List.mem_singleton.mp isNew ▸ below id old
    · intro id member
      simp only [Roll.call, on, Prod.map_fst, List.map_append, List.mem_append, id_eq] at member ⊢
      rcases member with old | new
      · exact Nat.lt_succ_of_lt (below id old)
      · rw [List.mem_singleton.mp new]
        exact Nat.lt_succ_self _
  | off event handler =>
    have fewer := (List.eraseP_sublist (p := Registration.goesBy event handler)
      (l := roll.entries)).map (·.subscription.id)
    exact ⟨rising.sublist fewer, fun id member => below id (fewer.subset member)⟩
  | emit event data =>
    have same := visit_ids event data roll.entries
    exact ⟨same.symm ▸ rising, same.symm ▸ below⟩
  | clear => exact ⟨List.Pairwise.nil, nofun⟩
  | count => exact ⟨rising, below⟩

variable {bus : EventBus α σ ω}

/-- A call is answered alike, and the bus goes on to keep what stands on the roll. -/
theorem Shows.call (h : roll.Shows bus) (call : BusCall α σ ω) :
    (roll.call call).1.Shows (bus.call call).1 ∧ (bus.call call).2 = (roll.call call).2 := by
  have numbered := numbered_call h.numbered call
  have handlers (event : String) : bus.handlers event = roll.under event :=
    EventBus.handlers_of_topic (h.topics event)
  cases call with
  | on event state react =>
    refine ⟨⟨fun other => ?_, congrArg (· + 1) h.nextId, numbered⟩, congrArg _ h.nextId⟩
    refine (EventBus.topics_on state react other).trans ?_
    rw [handlers, h.nextId, h.topics]
    refine (apply_ite topicOf _ _ _).symm.trans (congrArg _ ?_)
    exact (under_on state react other).symm
  | off event handler =>
    have topics := EventBus.topics_off handler (h.topics event)
    have under := under_off h.numbered event handler
    refine ⟨⟨fun other => ?_, ?_, numbered⟩, ?_⟩
    · refine (topics other).1.trans ?_
      rw [h.topics]
      exact (apply_ite topicOf _ _ _).symm.trans (congrArg _ (under other).1.symm)
    · refine Eq.trans ?_ h.nextId
      simp only [EventBus.call, EventBus.off]
      split <;> rfl
    · exact congrArg _ ((topics event).2.trans (under event).2.symm)
  | emit event data =>
    have topics := EventBus.topics_emit data (h.topics event)
    have under := roll.under_emit event data
    refine ⟨⟨fun other => ?_, ?_, numbered⟩, ?_⟩
    · refine (topics other).1.trans ?_
      rw [h.topics]
      exact (apply_ite topicOf _ _ _).symm.trans (congrArg _ (under other).1.symm)
    · refine Eq.trans ?_ h.nextId
      simp only [EventBus.call, EventBus.emit]
      split <;> rfl
    · exact congrArg _ ((topics event).2.trans (under event).2.symm)
  | clear =>
    refine ⟨⟨fun other => ?_, h.nextId, numbered⟩, rfl⟩
    simp [EventBus.call, EventBus.clear, Roll.call, clear, under]
  | count event =>
    refine ⟨h, congrArg BusAnswer.counted ?_⟩
    rw [EventBus.handlerCount, handlers, under, count, List.length_map, List.countP_eq_length_filter]

theorem Shows.run (h : roll.Shows bus) (calls : List (BusCall α σ ω)) :
    (roll.run calls).1.Shows (bus.run calls).1 ∧ (bus.run calls).2 = (roll.run calls).2 := by
  induction calls generalizing roll bus with
  | nil => exact ⟨h, rfl⟩
  | cons call calls ih =>
    obtain ⟨next, answer⟩ := h.call call
    obtain ⟨last, answers⟩ := ih next
    refine ⟨last, ?_⟩
    simp only [EventBus.run, Roll.run, Prod.map_snd, answer, answers]

theorem shows_empty : (empty : Roll α σ ω).Shows .empty :=
  ⟨fun event => by simp [EventBus.empty, empty, under], rfl, List.Pairwise.nil, nofun⟩

theorem range_ids (roll : Roll α σ ω) (calls : List (BusCall α σ ω)) :
    List.range roll.registered ++ (roll.run calls).2.filterMap BusAnswer.id? =
      List.range (roll.run calls).1.registered := by
  induction calls generalizing roll with
  | nil => exact List.append_nil _
  | cons call calls ih =>
    have rest := ih (roll.call call).1
    simp only [Roll.run, Prod.map_fst, Prod.map_snd, id_eq]
    cases call with
    | on event state react =>
      have next : ((roll.call (.on event state react)).1).registered = roll.registered + 1 := rfl
      rw [next, List.range_succ, List.append_assoc] at rest
      exact rest
    | off | emit | clear | count => exact rest

end Roll

/-- Whatever is asked of a bus, in whatever order and with whatever handlers, it answers like one
roll of all of them. The ids that it gives out are the numbers from zero on, those of the handlers
that are left rise, and it keeps the handlers of each event in the order of the roll and none for an
event without any. -/
theorem EventBus.answers_like_its_roll (calls : List (BusCall α σ ω)) :
    let bus := (EventBus.empty.run calls).1
    let roll := (Roll.empty.run calls).1
    (EventBus.empty.run calls).2 = (Roll.empty.run calls).2 ∧
    (EventBus.empty.run calls).2.filterMap BusAnswer.id? = List.range bus.nextId ∧
    (roll.entries.map (·.subscription.id)).Pairwise (· < ·) ∧
    (∀ r ∈ roll.entries, r.subscription.id < bus.nextId) ∧
    (∀ event, bus.handlers event = roll.under event) ∧
    ∀ event : String, bus.topics[event]? ≠ some [] := by
  intro bus roll
  obtain ⟨shows', answers⟩ := (Roll.shows_empty : (Roll.empty : Roll α σ ω).Shows _).run calls
  refine ⟨answers, ?_, shows'.numbered.rising, fun r member => ?_, fun event => ?_, fun event => ?_⟩
  · rw [answers, shows'.nextId]
    exact (Roll.empty : Roll α σ ω).range_ids calls
  · rw [shows'.nextId]
    exact shows'.numbered.below _ (List.mem_map_of_mem member)
  · exact EventBus.handlers_of_topic (shows'.topics event)
  · rw [shows'.topics, topicOf]
    split
    · nofun
    · rename_i filled
      exact fun same => filled (Option.some.inj same)

end TileClient
