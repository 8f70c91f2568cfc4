import TileClient.Proofs.Session.Records

/-! The hand-off from directory to dialer. Where connections can be opened, the dials that start are
those of the orders to connect and of the replies that discovery accepts: one for each, in their
order, under epochs of their own. Reports may be forged or stale. -/
namespace TileClient

@[simp] def Effect.dialling? : Effect → Option (Nat × Endpoint)
  | .dial epoch endpoint => some (epoch, endpoint)
  | _ => none

instance : Effect.Passing Effect.dialling? := ⟨fun _ => rfl, fun _ => rfl⟩
instance : Effect.Deaf Effect.dialling? := ⟨fun _ => rfl⟩

open Effect

/-- The server that a report brings: that of the reply to the current request, if it assigns one. -/
def Discovery.accepts? (d : Discovery) : DiscoveryMessage → Option Endpoint
  | .response attempt body =>
    if d.isCurrent attempt then (body.bind Wire.Reply.assigned).toOption else none
  | .retryDue _ => none

theorem Discovery.finds_eq_accepts? (d : Discovery) (m : DiscoveryMessage) :
    d.finds m = d.accepts? m := by
  have handling := d.handling m
  unfold finds
  generalize d.handle m = outcome at handling
  cases handling with
  | assigned current usable => simp [accepts?, current, usable, Except.toOption]
  | refused current unusable => simp [accepts?, current, unusable, Except.toOption]
  | retried => rfl
  | ignored old =>
    cases m with
    | response attempt body => exact (if_neg (by simpa [DiscoveryMessage.attempt] using old)).symm
    | retryDue => rfl

theorem Discovery.accepts?_eq_some_iff {d : Discovery} {m : DiscoveryMessage} {endpoint : Endpoint} :
    d.accepts? m = some endpoint ↔ ∃ body, m = .response d.attempt body ∧ d.active = true ∧
      body.bind Wire.Reply.assigned = .ok endpoint := by
  constructor
  · intro accepted
    cases m with
    | retryDue => cases accepted
    | response attempt body =>
      rw [accepts?] at accepted
      split at accepted
      · rename_i current
        simp only [isCurrent, Bool.and_eq_true, beq_iff_eq] at current
        cases usable : body.bind Wire.Reply.assigned with
        | error => simp [usable, Except.toOption] at accepted
        | ok server =>
          obtain rfl : server = endpoint := by simpa [usable, Except.toOption] using accepted
          exact ⟨body, by rw [current.2], current.1, usable⟩
      · cases accepted
  · rintro ⟨body, rfl, active, usable⟩
    simp [accepts?, isCurrent, active, usable, Except.toOption]

theorem Discovery.dialling_handle (d : Discovery) (m : DiscoveryMessage) :
    collect dialling? (d.handle m).2.1 = [] := by
  have handling := d.handling m
  generalize d.handle m = outcome at handling
  cases handling <;> simp

/-- A reply of an attempt can no longer be accepted. -/
def Discovery.Spent (d : Discovery) (attempt : Nat) : Prop :=
  attempt < d.attempt ∨ attempt = d.attempt ∧ d.active = false

namespace Session.Transition

variable {ω : Type} {s t : Session} {call : Call ω} {effects : List Effect}

/-- A call starts no dial, or one under the new epoch once all that is held has been given up. -/
theorem dials (step : s.Transition call effects t) :
    collect dialling? effects = [] ∨ t = s.dialling ∧
      ∃ (names : List TaskName) (endpoint : Endpoint),
        effects = names.map .cancel ++ [.dial (s.epoch + 1) endpoint] := by
  cases step with
  | dialled | found => exact .inr ⟨rfl, _, _, rfl⟩
  | _ => exact .inl (by simp)

theorem dialling_eq_nil (step : s.Transition call effects t)
    (orders : ∀ endpoint, call ≠ .order (.connect endpoint))
    (reports : ∀ m, call ≠ .handle (.discovery m)) : collect dialling? effects = [] := by
  cases step with
  | dialled => exact absurd rfl (orders _)
  | found => exact absurd rfl (reports _)
  | _ => simp

theorem server_of_report {m : Message} (step : s.Transition (.handle m : Call ω) effects t)
    {dial : Nat × Endpoint} (new : dial ∈ collect dialling? effects) :
    ∃ reply, m = .discovery reply ∧ s.discovery.accepts? reply = some dial.2 := by
  cases step with
  | @found attempt body endpoint current named =>
    obtain rfl : dial = (s.epoch + 1, endpoint) := by simpa using new
    refine ⟨_, rfl, ?_⟩
    simp [Discovery.accepts?, current, named, Except.toOption]
  | _ => simp at new

theorem epoch_eq (step : s.Transition call effects t) (h : call ≠ .order .shutdown) :
    t.epoch = s.epoch + (collect dialling? effects).length := by
  cases step with
  | ended => exact absurd rfl h
  | started => simp [searching]
  | dialled | found => simp [dialling]
  | opened => simp [joined]
  | failed | closed => simp [lost]
  | _ => simp

theorem spent (step : s.Transition call effects t) {attempt : Nat}
    (h : s.discovery.Spent attempt) : t.discovery.Spent attempt := by
  rcases step.attempt with later | ⟨same, still⟩
  · rcases h with less | ⟨now, -⟩
    · exact .inl (Nat.lt_trans less later)
    · exact .inl (now ▸ later)
  · rcases h with less | ⟨now, idle⟩
    · exact .inl (same ▸ less)
    · refine .inr ⟨same ▸ now, Bool.eq_false_iff.mpr fun active => ?_⟩
      simp [still active] at idle

end Session.Transition

namespace Episode

variable {ω : Type}

def dialled (episode : Episode ω) : List (Nat × Endpoint) := collect dialling? episode.effects

/-- The server that a call asks for: the one that its owner names, or that of the reply that discovery
accepts. -/
def server? (episode : Episode ω) : Option Endpoint :=
  match episode.call with
  | .order (.connect endpoint) => some endpoint
  | .handle (.discovery m) => episode.before.discovery.accepts? m
  | _ => none

/-- The attempt of a reply that is accepted. -/
def reply? (episode : Episode ω) : Option Nat :=
  match episode.call with
  | .handle (.discovery m) => (episode.before.discovery.accepts? m).map fun _ => m.attempt
  | _ => none

def ends (episode : Episode ω) : Bool :=
  match episode.call with
  | .order .shutdown => true
  | _ => false

end Episode

/-- What a call does about the server that it asks for, if it asks for one: it starts one dial, with
that server, and stops the search. A task of the search was cancelled, or it has just reported. -/
structure Episode.HandsOver {ω : Type} (episode : Episode ω) : Prop where
  dialled : episode.dialled = episode.server?.toList.map (episode.after.epoch, ·)
  stops : episode.server?.isSome → episode.after.discovery.active = false ∧
    episode.after.discovery.request = none ∧ episode.after.discovery.pause = none
  cancels : episode.server?.isSome → ∀ name ∈ episode.before.discovery.holdings,
    .cancel name ∈ episode.effects ∨ ∃ m, episode.call = .handle m ∧ m.source = name

namespace Connection

variable {ω : Type} {c : Connection ω}

private theorem call_connect (c : Connection ω) {outside : Outside}
    (available : outside.available = true) (endpoint : Endpoint) :
    (c.call outside (.order (.connect endpoint))).1.session = c.session.dialling ∧
      (c.call outside (.order (.connect endpoint))).2.1 =
        c.session.holdings.map .cancel ++ [.dial (c.session.epoch + 1) endpoint] := by
  simp [call, obey, connect, available, Session.connect_eq, attempt, settle, tell_session,
    Except.map]

private theorem handsOver_of_none {episode : Episode ω} (none : episode.server? = none)
    (silent : episode.dialled = []) : episode.HandsOver :=
  ⟨by rw [silent, none]; rfl, by simp [none], by simp [none]⟩

/-- Where connections can be opened, a call starts the dial that it asks for, and no other. -/
theorem handsOver_episode (h : c.session.Coherent) (numbered : c.session.Numbered)
    {outside : Outside} (available : outside.available = true) (call : Call ω) :
    (c.episode outside call).HandsOver := by
  have step := c.transition_of_call outside call h.tornDown
  cases call with
  | order order =>
    cases order with
    | connect endpoint =>
      obtain ⟨after, effects⟩ := c.call_connect available endpoint
      refine ⟨?_, fun _ => ?_, fun _ name held => .inl ?_⟩
      · simp [episode, Episode.dialled, Episode.server?, effects, after, Session.dialling]
      · simp [episode, after, Session.dialling, Discovery.stopped]
      · simpa [episode, effects, Session.holdings] using .inl held
    | start | send | on | off | shutdown =>
      exact handsOver_of_none rfl (step.dialling_eq_nil (by simp) (by simp))
  | handle m =>
    cases m with
    | discovery m =>
      have finds := c.session.discovery.finds_eq_accepts? m
      cases accepted : c.session.discovery.accepts? m with
      | none =>
        have effects := (c.call_of_not_finds (finds.trans accepted) outside).2
        refine handsOver_of_none accepted ?_
        simp [episode, Episode.dialled, effects, c.session.discovery.dialling_handle]
      | some endpoint =>
        obtain ⟨after, effects⟩ := call_of_finds h (finds.trans accepted) available
        obtain ⟨body, rfl, -, -⟩ := Discovery.accepts?_eq_some_iff.mp accepted
        refine ⟨?_, fun _ => ?_, fun _ name held => ?_⟩
        · simp [episode, Episode.dialled, Episode.server?, accepted, effects, after, Session.dialling]
        · simp [episode, after, Session.dialling, Discovery.stopped]
        · rcases List.mem_append.mp held with request | pause
          · obtain ⟨attempt, asked, rfl⟩ := List.mem_map.mp request
            have now := numbered.request attempt (Option.mem_toList.mp asked)
            exact .inr ⟨_, rfl, by rw [now]; rfl⟩
          · exact .inl (by simpa [episode, effects] using .inl pause)
    | opened | dialFailed | transport =>
      exact handsOver_of_none rfl (step.dialling_eq_nil (by simp) (by simp))

theorem dialling_of_dialled (h : c.session.Coherent) {outside : Outside} {call : Call ω}
    {dial : Nat × Endpoint} (new : dial ∈ (c.episode outside call).dialled) :
    (c.call outside call).1.session = c.session.dialling ∧ dial.1 = c.session.epoch + 1 := by
  rcases (c.transition_of_call outside call h.tornDown).dials with
    silent | ⟨after, names, endpoint, effects⟩
  · simp [Episode.dialled, episode, silent] at new
  · obtain rfl : dial = (c.session.epoch + 1, endpoint) := by
      simpa [Episode.dialled, episode, effects] using new
    exact ⟨after, rfl⟩

/-- Each dial takes the epoch on by one, and so does a shutdown. -/
theorem epoch_episode (h : c.session.Coherent) (outside : Outside) (call : Call ω) :
    (c.episode outside call).after.epoch = c.session.epoch +
      (c.episode outside call).dialled.length + if (c.episode outside call).ends then 1 else 0 := by
  have step := c.transition_of_call outside call h.tornDown
  by_cases shutdown : call = .order .shutdown
  · subst shutdown
    have silent : (c.episode outside (.order .shutdown)).dialled = [] :=
      step.dialling_eq_nil (by simp) (by simp)
    rw [silent]
    simp [episode, Episode.ends, Connection.call, obey, Connection.shutdown, Session.shutdown_eq,
      settle, tell_session, Session.ended]
  · have goes : (c.episode outside call).ends = false := by
      cases call with
      | order order => cases order <;> first | rfl | exact absurd rfl shutdown
      | handle => rfl
    rw [goes]
    exact step.epoch_eq shutdown

/-- A reply that is accepted is that of the current attempt, and the search is over after it. -/
theorem reply_episode (h : c.session.Coherent) {outside : Outside}
    (available : outside.available = true) {call : Call ω} {attempt : Nat}
    (replied : (c.episode outside call).reply? = some attempt) :
    attempt = c.session.discovery.attempt ∧ c.session.discovery.active = true ∧
      (c.call outside call).1.session.discovery = c.session.discovery.stopped := by
  cases call with
  | order => simp [episode, Episode.reply?] at replied
  | handle m =>
    cases m with
    | discovery m =>
      obtain ⟨endpoint, accepted, rfl⟩ : ∃ endpoint,
          c.session.discovery.accepts? m = some endpoint ∧ m.attempt = attempt := by
        simpa [episode, Episode.reply?] using replied
      have found := (c.session.discovery.finds_eq_accepts? m).trans accepted
      obtain ⟨body, rfl, active, -⟩ := Discovery.accepts?_eq_some_iff.mp accepted
      exact ⟨rfl, active, by rw [(call_of_finds h found available).1]; rfl⟩
    | opened | dialFailed | transport => simp [episode, Episode.reply?] at replied

end Connection

namespace Journal

variable {ω : Type}

/-- The dials that were started, oldest first. -/
def dialled (journal : Journal ω) : List (Nat × Endpoint) := journal.flatMap Episode.dialled

/-- The servers that were asked for, by orders and by replies as they came. -/
def servers (journal : Journal ω) : List Endpoint := journal.filterMap Episode.server?

def replies (journal : Journal ω) : List Nat := journal.filterMap Episode.reply?

/-- What a journal says of the servers that were asked for and of the dials that were started. The
dials are those of the servers, in order, and each call does its part. Their epochs rise up to that
of the session, which counts them and the shutdowns. A reply is accepted at most once: the attempts
rise, and none of them can be accepted again. -/
structure HandsOver (journal : Journal ω) (s : Session) : Prop where
  each : ∀ episode ∈ journal, episode.HandsOver
  merged : journal.dialled.map Prod.snd = journal.servers
  rising : journal.dialled.Pairwise fun sooner later => sooner.1 < later.1
  bounded : ∀ dial ∈ journal.dialled, dial.1 ≤ s.epoch
  counted : s.epoch = journal.dialled.length + journal.countP Episode.ends
  once : journal.replies.Pairwise (· < ·)
  spent : ∀ attempt ∈ journal.replies, s.discovery.Spent attempt

/-- Every call was made while connections could be opened. -/
def Open (journal : Journal ω) : Prop := ∀ episode ∈ journal, episode.outside.available = true

theorem open_history (c : Connection ω) {calls : List (Outside × Call ω)}
    (available : ∀ call ∈ calls, call.1.available = true) : Open (c.history calls) := by
  induction calls generalizing c with
  | nil => exact List.forall_mem_nil _
  | cons call calls ih =>
    obtain ⟨first, rest⟩ := List.forall_mem_cons.mp available
    exact List.forall_mem_cons.mpr ⟨first, ih _ rest⟩

theorem merged_of_each {journal : Journal ω} (each : ∀ episode ∈ journal, episode.HandsOver) :
    journal.dialled.map Prod.snd = journal.servers := by
  induction journal with
  | nil => rfl
  | cons episode journal ih =>
    obtain ⟨first, rest⟩ := List.forall_mem_cons.mp each
    have now : episode.dialled.map Prod.snd = episode.server?.toList := by
      rw [first.dialled]
      simp [Function.comp_def]
    rw [dialled, List.flatMap_cons, List.map_append, now, ← dialled, ih rest, servers, servers,
      List.filterMap_cons]
    cases episode.server? <;> rfl

theorem dialled_concat (journal : Journal ω) (episode : Episode ω) :
    dialled (journal ++ [episode]) = journal.dialled ++ episode.dialled := by
  simp [dialled]

theorem replies_concat (journal : Journal ω) (episode : Episode ω) :
    replies (journal ++ [episode]) = journal.replies ++ episode.reply?.toList := by
  rw [replies, List.filterMap_append]
  cases reply : episode.reply? <;> simp [replies, reply]

section

variable {journal : Journal ω} {c : Connection ω} {outside : Outside}

/-- The attempts of accepted replies rise: an attempt is current when its reply is accepted, and all
that were accepted before are spent. -/
theorem HandsOver.once_concat (h : journal.HandsOver c.session) (coherent : c.session.Coherent)
    (available : outside.available = true) (call : Call ω) :
    (replies (journal ++ [c.episode outside call])).Pairwise (· < ·) := by
  rw [replies_concat]
  cases reply : (c.episode outside call).reply? with
  | none => simpa using h.once
  | some attempt =>
    obtain ⟨now, active, -⟩ := Connection.reply_episode coherent available reply
    refine List.pairwise_append.mpr ⟨h.once, List.pairwise_singleton _ _, fun old member new same => ?_⟩
    rw [List.mem_singleton.mp same, now]
    rcases h.spent old member with less | ⟨-, idle⟩
    · exact less
    · simp [active] at idle

theorem HandsOver.spent_concat (h : journal.HandsOver c.session) (records : journal.Records c)
    (available : outside.available = true) (call : Call ω) {attempt : Nat}
    (member : attempt ∈ replies (journal ++ [c.episode outside call])) :
    (c.call outside call).1.session.discovery.Spent attempt := by
  rw [replies_concat] at member
  rcases List.mem_append.mp member with old | new
  · exact (records.step outside call).spent (h.spent attempt old)
  · obtain ⟨now, -, after⟩ := Connection.reply_episode records.coherent available
      (Option.mem_toList.mp new)
    exact .inr ⟨by rw [now, after]; rfl, by rw [after]; rfl⟩

theorem HandsOver.concat (h : journal.HandsOver c.session) (records : journal.Records c)
    (available : outside.available = true) (call : Call ω) :
    HandsOver (journal ++ [c.episode outside call]) (c.call outside call).1.session := by
  have epoch := c.epoch_episode records.coherent outside call
  have each : ∀ episode ∈ journal ++ [c.episode outside call], episode.HandsOver := by
    intro episode member
    rcases List.mem_append.mp member with old | new
    · exact h.each episode old
    · rw [List.mem_singleton.mp new]
      exact Connection.handsOver_episode records.coherent records.numbered available call
  have later : ∀ dial ∈ (c.episode outside call).dialled, c.session.epoch < dial.1 ∧
      dial.1 ≤ (c.call outside call).1.session.epoch := by
    intro dial new
    obtain ⟨after, next⟩ := Connection.dialling_of_dialled records.coherent new
    rw [after, next]
    exact ⟨Nat.lt_succ_self _, Nat.le_refl _⟩
  refine ⟨each, merged_of_each each, ?_, ?_, ?_, h.once_concat records.coherent available call,
    fun attempt => h.spent_concat records available call⟩
  · rw [dialled_concat]
    refine List.pairwise_append.mpr ⟨h.rising, ?_, fun sooner old dial new => ?_⟩
    · rw [(each _ (by simp)).dialled]
      cases (c.episode outside call).server? <;> simp
    · exact Nat.lt_of_le_of_lt (h.bounded sooner old) (later dial new).1
  · intro dial member
    rw [dialled_concat] at member
    rcases List.mem_append.mp member with old | new
    · have rises : c.session.epoch ≤ (c.call outside call).1.session.epoch := by
        simp only [Connection.episode] at epoch
        omega
      exact Nat.le_trans (h.bounded dial old) rises
    · exact (later dial new).2
  · rw [dialled_concat, List.length_append, List.countP_append, List.countP_singleton]
    have counted := h.counted
    simp only [Connection.episode] at epoch ⊢
    omega

end

theorem Records.handsOver {journal : Journal ω} {c : Connection ω} (h : journal.Records c)
    (always : journal.Open) : journal.HandsOver c.session := by
  induction h with
  | fresh => constructor <;> simp [dialled, servers, replies, Connection.fresh, Session.fresh]
  | call h outside call ih =>
    obtain ⟨before, now⟩ := List.forall_mem_append.mp always
    exact (ih before).concat h (now _ (List.mem_singleton.mpr rfl)) call

end Journal

end TileClient
