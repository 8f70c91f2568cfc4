import TileClient.Proofs.Session.Transition

/-! Sessions stay coherent: a session holds what its phase needs and nothing else, and the
connection that it uses is that of its latest dial. Reports may be forged or stale. -/
namespace TileClient

/-- What belongs together in a session. -/
structure Session.Coherent (s : Session) : Prop where
  connected : s.phase = .connected →
    s.socket.isSome ∧ s.dial = none ∧ s.discovery.active = false
  connecting : s.phase = .connecting →
    s.dial.isSome ∧ s.socket = none ∧ s.discovery.active = false
  exclusive : s.socket = none ∨ s.dial = none
  searching : s.discovery.active = true → s.phase = .discovering
  tornDown : s.tornDown = true → s.phase = .disconnected
  disconnected : s.phase = .disconnected → s.socket = none ∧ s.dial = none ∧
    s.discovery.request = none ∧ s.discovery.pause = none ∧ s.discovery.active = false

namespace Session
open Effect

variable {ω : Type} {s t : Session} {call : Call ω} {effects : List Effect}

theorem fresh_coherent : fresh.Coherent := by
  constructor <;> simp [fresh, Discovery.idle]

private theorem coherent_of_discovery (h : s.Coherent) {attempt : Nat}
    (current : s.discovery.isCurrent attempt) (d : Discovery) :
    Coherent { s with discovery := d } := by
  have looking := h.searching (Discovery.active_of_isCurrent current)
  exact ⟨by simp [looking], by simp [looking], h.exclusive, fun _ => looking, h.tornDown,
    by simp [looking]⟩

theorem Transition.coherent (step : s.Transition call effects t) (h : s.Coherent) :
    t.Coherent := by
  cases step with
  | kept | sent | superseded | told => exact h
  | started => exact ⟨by simp [searching], by simp [searching], h.exclusive,
      fun _ => rfl, by simp [searching], by simp [searching]⟩
  | dialled | found => constructor <;> simp [dialling, Discovery.stopped]
  | ended => constructor <;> simp [Session.ended, Discovery.stopped]
  | refused current | retried current | stranded current => exact coherent_of_discovery h current _
  | opened waiting =>
    have quiet := (h.connecting waiting).2.2
    have up := up_of_phase h.tornDown (by simp [waiting])
    constructor <;> simp [joined, quiet, up]
  | failed | closed => constructor <;> simp [lost]

theorem Transition.epoch (step : s.Transition call effects t) :
    collect dial? effects = [] ∧ s.epoch ≤ t.epoch ∧
      (t.phase = .connecting → s.phase = .connecting ∧ t.epoch = s.epoch) ∨
    collect dial? effects = [s.epoch + 1] ∧ t.epoch = s.epoch + 1 := by
  cases step with
  | kept | sent | superseded | refused | retried | stranded | told => simp
  | started => simp [searching]
  | dialled | found => simp [dialling]
  | ended => simp [Session.ended]
  | opened => simp [joined]
  | failed | closed => simp [lost]

theorem Transition.socket (step : s.Transition call effects t) :
    t.socket = none ∨ t.socket = s.socket ∧ collect dial? effects = [] ∨
      ∃ link, call = .handle (.opened s.epoch link) ∧ s.phase = .connecting ∧
        t.socket = some ⟨link, s.epoch⟩ ∧ collect dial? effects = [] := by
  cases step with
  | kept | sent | superseded | refused | retried | stranded | told => simp
  | started => simp [searching]
  | dialled | found => simp [dialling]
  | ended => simp [Session.ended]
  | opened waiting => simp [joined, waiting]
  | failed | closed => simp [lost]

theorem Transition.socket_of_pump (step : s.Transition call effects t) (h : s.Coherent)
    (started : collect pump? effects ≠ []) : s.socket = none := by
  cases step with
  | opened waiting => exact (h.connecting waiting).2.1
  | _ => simp at started

end Session

/-- One call of a history: the answers that it got, the session before and after it, what it
asked of the outside and what the handlers left. -/
structure Episode (ω : Type) where
  outside : Outside
  call : Call ω
  before : Session
  effects : List Effect
  outputs : List ω
  after : Session

def Episode.dials {ω : Type} (episode : Episode ω) : List Nat :=
  Effect.collect Effect.dial? episode.effects

namespace Connection

variable {ω : Type}

def episode (c : Connection ω) (outside : Outside) (call : Call ω) : Episode ω :=
  let (next, effects, outputs) := c.call outside call
  ⟨outside, call, c.session, effects, outputs, next.session⟩

def history (c : Connection ω) : List (Outside × Call ω) → List (Episode ω)
  | [] => []
  | (outside, call) :: rest => c.episode outside call :: history (c.call outside call).1 rest

def after (c : Connection ω) : List (Outside × Call ω) → Connection ω
  | [] => c
  | (outside, call) :: rest => after (c.call outside call).1 rest

end Connection

/-- The socket was reported open under the epoch of the last dial of a history. -/
def Socket.Sourced {ω : Type} (socket : Socket) (history : List (Episode ω)) : Prop :=
  ∃ earlier opening later, history = earlier ++ opening :: later ∧
    opening.call = .handle (.opened socket.pump socket.link) ∧
    (earlier.flatMap Episode.dials).getLast? = some socket.pump ∧
    (opening :: later).flatMap Episode.dials = []

/-- What a history says about the session at its end. -/
structure Session.Chronicled {ω : Type} (s : Session) (history : List (Episode ω)) : Prop where
  coherent : s.Coherent
  bounded : ∀ episode ∈ history, episode.after.epoch ≤ s.epoch
  ordered : history.Pairwise fun earlier later => earlier.after.epoch ≤ later.before.epoch
  stepwise : ∀ episode ∈ history, episode.before.epoch ≤ episode.after.epoch ∧
    (∀ epoch ∈ episode.dials, episode.before.epoch < epoch ∧ episode.after.epoch = epoch) ∧
    (Effect.collect Effect.pump? episode.effects ≠ [] → episode.before.socket = none)
  waiting : s.phase = .connecting → (history.flatMap Episode.dials).getLast? = some s.epoch
  sourced : ∀ socket, s.socket = some socket → socket.Sourced history

namespace Session.Chronicled

variable {ω : Type} {s t : Session} {history : List (Episode ω)} {episode : Episode ω}

private theorem waiting_step (h : s.Chronicled history)
    (step : s.Transition episode.call episode.effects t) :
    t.phase = .connecting →
      ((history ++ [episode]).flatMap Episode.dials).getLast? = some t.epoch := by
  intro waiting
  rcases step.epoch with ⟨none, -, still⟩ | ⟨one, moved⟩
  · obtain ⟨before, same⟩ := still waiting
    have last := h.waiting before
    simpa [Episode.dials, none, same] using last
  · simp [Episode.dials, one, moved]

private theorem sourced_step (h : s.Chronicled history)
    (step : s.Transition episode.call episode.effects t) (socket : Socket)
    (held : t.socket = some socket) : socket.Sourced (history ++ [episode]) := by
  rcases step.socket with gone | ⟨same, none⟩ | ⟨link, call, waiting, new, none⟩
  · simp [gone] at held
  · obtain ⟨earlier, opening, later, rfl, call, last, quiet⟩ := h.sourced socket (same ▸ held)
    refine ⟨earlier, opening, later ++ [episode], by simp, call, last, ?_⟩
    rw [← List.cons_append, List.flatMap_append, quiet]
    simpa [Episode.dials] using none
  · obtain rfl : Socket.mk link s.epoch = socket := Option.some.inj (new ▸ held)
    exact ⟨history, episode, [], rfl, call, h.waiting waiting, by simpa [Episode.dials] using none⟩

/-- One more call, chronicled. -/
theorem concat (h : s.Chronicled history) (before : episode.before = s) (after : episode.after = t)
    (step : s.Transition episode.call episode.effects t) : t.Chronicled (history ++ [episode]) := by
  subst before after
  have rises : episode.before.epoch ≤ episode.after.epoch := by
    rcases step.epoch with ⟨-, rises, -⟩ | ⟨-, moved⟩ <;> omega
  constructor
  · exact step.coherent h.coherent
  · intro other member
    rcases List.mem_append.mp member with old | new
    · exact Nat.le_trans (h.bounded other old) rises
    · exact List.mem_singleton.mp new ▸ Nat.le_refl _
  · refine List.pairwise_append.mpr ⟨h.ordered, List.pairwise_singleton _ _, ?_⟩
    intro other member new isNew
    rw [List.mem_singleton.mp isNew]
    exact h.bounded other member
  · intro other member
    rcases List.mem_append.mp member with old | new
    · exact h.stepwise other old
    · rw [List.mem_singleton.mp new]
      refine ⟨rises, ?_, step.socket_of_pump h.coherent⟩
      intro epoch dialled
      rcases step.epoch with ⟨none, -⟩ | ⟨one, moved⟩
      · simp [Episode.dials, none] at dialled
      · obtain rfl : epoch = episode.before.epoch + 1 := by simpa [Episode.dials, one] using dialled
        exact ⟨Nat.lt_succ_self _, moved⟩
  · exact h.waiting_step step
  · exact h.sourced_step step

end Session.Chronicled

namespace Connection

variable {ω : Type}

theorem chronicled_after (c : Connection ω) (past : List (Episode ω))
    (calls : List (Outside × Call ω)) (h : c.session.Chronicled past) :
    (c.after calls).session.Chronicled (past ++ c.history calls) := by
  induction calls generalizing c past with
  | nil => simpa [after, history] using h
  | cons call calls ih =>
    have step := c.transition_of_call call.1 call.2 h.coherent.tornDown
    have next := ih (c.call call.1 call.2).1 (past ++ [c.episode call.1 call.2])
      (h.concat rfl rfl step)
    simpa [after, history] using next

theorem keeps_after {P : Session → Prop} (keeps : ∀ {s t : Session} {call : Call ω}
      {effects : List Effect}, s.Transition call effects t → P s → P t)
    (c : Connection ω) (coherent : c.session.Coherent) (calls : List (Outside × Call ω))
    (h : P c.session) : P (c.after calls).session := by
  induction calls generalizing c with
  | nil => exact h
  | cons call calls ih =>
    have step := c.transition_of_call call.1 call.2 coherent.tornDown
    exact ih (c.call call.1 call.2).1 (step.coherent coherent) (keeps step h)

theorem chronicled_fresh : (fresh : Connection ω).session.Chronicled ([] : List (Episode ω)) :=
  ⟨Session.fresh_coherent, by simp, List.Pairwise.nil, by simp, by simp [fresh, Session.fresh],
    by simp [fresh, Session.fresh]⟩

/-- Where connections can be opened, an order to connect starts a dial under the new epoch. -/
private theorem dials_of_connect (c : Connection ω) (outside : Outside) (endpoint : Endpoint)
    (h : outside.available = true) :
    (c.episode outside (.order (.connect endpoint))).dials =
      [(c.episode outside (.order (.connect endpoint))).after.epoch] := by
  simp [episode, Episode.dials, call, obey, connect, h, Session.connect_eq, attempt, settle,
    tell_session, Except.map, Session.dialling]

private theorem episode_of_mem {c : Connection ω} {calls : List (Outside × Call ω)} {e : Episode ω}
    (h : e ∈ c.history calls) : ∃ c' : Connection ω, e = c'.episode e.outside e.call := by
  induction calls generalizing c with
  | nil => simp [history] at h
  | cons call calls ih =>
    rcases List.mem_cons.mp h with rfl | rest
    · exact ⟨c, rfl⟩
    · exact ih rest

/-- Whatever is called, in any order and with any reports, a session holds what its phase needs:
epochs never fall, every dial has an epoch above all before it, a pump starts only where no socket
is held, and a socket that is held was reported open under the epoch of the latest dial. -/
theorem coherent_after_calls (calls : List (Outside × Call ω)) :
    let c : Connection ω := fresh
    (c.after calls).session.Coherent ∧
    ((c.history calls).Pairwise fun earlier later => earlier.after.epoch ≤ later.before.epoch) ∧
    (∀ episode ∈ c.history calls, episode.before.epoch ≤ episode.after.epoch ∧
      (∀ epoch ∈ episode.dials, episode.before.epoch < epoch ∧ episode.after.epoch = epoch) ∧
      (∀ endpoint, episode.call = .order (.connect endpoint) → episode.outside.available = true →
        episode.dials = [episode.after.epoch]) ∧
      (Effect.collect Effect.pump? episode.effects ≠ [] → episode.before.socket = none)) ∧
    ∀ socket, (c.after calls).session.socket = some socket →
      socket.Sourced (c.history calls) := by
  intro c
  have h := c.chronicled_after [] calls chronicled_fresh
  rw [List.nil_append] at h
  refine ⟨h.coherent, h.ordered, ?_, h.sourced⟩
  intro episode member
  obtain ⟨rises, dialled, pumped⟩ := h.stepwise episode member
  refine ⟨rises, dialled, ?_, pumped⟩
  intro endpoint connects available
  obtain ⟨c', made⟩ := episode_of_mem member
  rw [made, connects]
  exact c'.dials_of_connect episode.outside endpoint available

end Connection

end TileClient
