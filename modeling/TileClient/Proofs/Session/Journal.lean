import TileClient.Proofs.Session.Coherence

/-! What a journal of calls says about one epoch: the events that its pump brought, those that were
taken, and what was told about them. -/
namespace TileClient

def Session.InUse (s : Session) (epoch : Nat) : Prop := s.phase = .connected ∧ s.epoch = epoch

instance (s : Session) (epoch : Nat) : Decidable (s.InUse epoch) :=
  inferInstanceAs (Decidable (s.phase = .connected ∧ s.epoch = epoch))

def Message.event? (epoch : Nat) : Message → Option LinkEvent
  | .transport own event => if own = epoch then some event else none
  | .discovery _ | .opened _ _ | .dialFailed _ _ => none

def Message.epoch? : Message → Option Nat
  | .discovery _ => none
  | .opened epoch _ | .dialFailed epoch _ | .transport epoch _ => some epoch

def Call.message? {ω : Type} : Call ω → Option Message
  | .order _ => none
  | .handle m => some m

def Call.sent? {ω : Type} : Call ω → Option Wire.Move
  | .order (.send move) => some move
  | .order .start | .order (.connect _) | .order (.on _ _) | .order (.off _ _) | .order .shutdown
  | .handle _ => none

/-- An order to leave whatever connection there is. -/
def Order.leaves {ω : Type} : Order ω → Bool
  | .start | .connect _ | .shutdown => true
  | .send _ | .on _ _ | .off _ _ => false

namespace Episode

variable {ω : Type}

def brought (epoch : Nat) (episode : Episode ω) : Option LinkEvent :=
  episode.call.message?.bind (Message.event? epoch)

/-- The event that was brought while its epoch was in use. -/
def taken (epoch : Nat) (episode : Episode ω) : Option LinkEvent :=
  if episode.before.InUse epoch then episode.brought epoch else none

def told (epoch : Nat) (episode : Episode ω) : List SessionEvent :=
  if episode.call.message?.bind Message.epoch? = some epoch then
    Effect.collect Effect.event? episode.effects
  else []

/-- The owner left an epoch that was in use. -/
def Supersedes (episode : Episode ω) (epoch : Nat) : Prop :=
  episode.before.InUse epoch ∧ ¬ episode.after.InUse epoch ∧
    ∃ order : Order ω, episode.call = .order order ∧ order.leaves = true

/-- What a call can mean for an epoch that can no longer be joined. -/
inductive Passage (episode : Episode ω) (epoch : Nat) : Prop where
  | idle (told : episode.told epoch = []) (taken : episode.taken epoch = none)
      (used : episode.after.InUse epoch ↔ episode.before.InUse epoch)
      (brought : episode.before.InUse epoch → episode.brought epoch = none)
  | heard (event : LinkEvent) (used : episode.before.InUse epoch)
      (brought : episode.brought epoch = some event) (told : episode.told epoch = event.told)
      (stays : episode.after.InUse epoch ↔ event ≠ .closed)
  | left (told : episode.told epoch = []) (brought : episode.brought epoch = none)
      (leaves : episode.Supersedes epoch)

end Episode

/-- The connection of an epoch was attached, if ever, before. -/
def Session.Joined (s : Session) (epoch : Nat) : Prop :=
  epoch ≤ s.epoch ∧ (epoch = s.epoch → s.phase ≠ .connecting)

theorem Session.Superseded.event?_of_inUse {s : Session} {m : Message} {epoch : Nat}
    (old : s.Superseded m) (used : s.InUse epoch) : m.event? epoch = none := by
  cases m with
  | transport own event =>
    refine if_neg fun same => old ?_
    exact ⟨same.trans used.2.symm, used.1⟩
  | discovery | opened | dialFailed => rfl

namespace Episode

variable {ω : Type} {episode : Episode ω} {epoch : Nat}

/-- A call that tells nothing about an epoch that is in use neither before nor after. -/
private theorem Passage.aside (told : episode.told epoch = [])
    (before : ¬ episode.before.InUse epoch) (after : ¬ episode.after.InUse epoch) :
    episode.Passage epoch :=
  .idle told (if_neg before) (iff_of_false after before) fun used => absurd used before

private theorem Passage.ordered {order : Order ω} (call : episode.call = .order order)
    (leaves : order.leaves = true) (after : ¬ episode.after.InUse epoch) :
    episode.Passage epoch := by
  have told : episode.told epoch = [] := by simp [Episode.told, call, Call.message?]
  by_cases before : episode.before.InUse epoch
  · exact .left told (by simp [brought, call, Call.message?]) ⟨before, after, order, call, leaves⟩
  · exact .aside told before after

/-- What a call means for an epoch that can no longer be joined. -/
theorem passage (step : episode.before.Transition episode.call episode.effects episode.after)
    (coherent : episode.before.Coherent) (joined : episode.before.Joined epoch) :
    episode.Passage epoch := by
  obtain ⟨outside, call, s, effects, outputs, t⟩ := episode
  simp only at step coherent joined
  cases step with
  | kept | sent => exact .idle rfl (by simp [taken, brought, Call.message?]) Iff.rfl fun _ => rfl
  | started => exact .ordered rfl rfl (by simp [Session.InUse, Session.searching])
  | dialled => exact .ordered rfl rfl (by simp [Session.InUse, Session.dialling])
  | ended => exact .ordered rfl rfl (by simp [Session.InUse, Session.ended])
  | superseded old =>
    have nothing (used : s.InUse epoch) := old.event?_of_inUse used
    refine .idle (by simp [Episode.told]) ?_ Iff.rfl nothing
    by_cases used : s.InUse epoch
    · exact (if_pos used).trans (nothing used)
    · exact if_neg used
  | refused current | retried current | stranded current =>
    have looking := coherent.searching (Discovery.active_of_isCurrent current)
    exact .aside rfl (by simp [Session.InUse, looking]) (by simp [Session.InUse, looking])
  | found current named looking =>
    exact .aside rfl (by simp [Session.InUse, looking])
      (by simp [Session.InUse, Session.dialling])
  | opened waiting =>
    have other : epoch ≠ s.epoch := fun same => joined.2 same waiting
    refine .aside (if_neg ?_) ?_ ?_
    · simpa [Call.message?, Message.epoch?] using other.symm
    · simp [Session.InUse, waiting]
    · simpa [Session.InUse, Session.joined] using other.symm
  | failed waiting =>
    have other : epoch ≠ s.epoch := fun same => joined.2 same waiting
    refine .aside (if_neg ?_) ?_ ?_
    · simpa [Call.message?, Message.epoch?] using other.symm
    · simp [Session.InUse, waiting]
    · simp [Session.InUse, Session.lost]
  | @told event used more =>
    by_cases own : s.epoch = epoch
    · refine .heard event ⟨used, own⟩ ?_ ?_ ?_
      · simp [brought, Call.message?, Message.event?, own]
      · simp [Episode.told, Call.message?, Message.epoch?, own]
      · simp [Session.InUse, used, own, more]
    · refine .aside (if_neg ?_) ?_ ?_
      · simpa [Call.message?, Message.epoch?] using own
      · simp [Session.InUse, own]
      · simp [Session.InUse, own]
  | closed used =>
    by_cases own : s.epoch = epoch
    · refine .heard .closed ⟨used, own⟩ ?_ ?_ ?_
      · simp [brought, Call.message?, Message.event?, own]
      · simp [Episode.told, Call.message?, Message.epoch?, own, LinkEvent.told]
      · simp [Session.InUse, Session.lost]
    · refine .aside (if_neg ?_) ?_ ?_
      · simpa [Call.message?, Message.epoch?] using own
      · simp [Session.InUse, own]
      · simp [Session.InUse, Session.lost]

theorem epoch_of_told (told : episode.told epoch ≠ []) :
    episode.call.message?.bind Message.epoch? = some epoch :=
  Decidable.byContradiction fun other => told (if_neg other)

theorem joined_of_told (step : episode.before.Transition episode.call episode.effects episode.after)
    (told : episode.told epoch ≠ []) : episode.after.Joined epoch := by
  have own := epoch_of_told told
  obtain ⟨outside, call, s, effects, outputs, t⟩ := episode
  simp only at step own
  cases step with
  | opened waiting =>
    obtain rfl : s.epoch = epoch := Option.some.inj own
    exact ⟨Nat.le_refl _, by simp [Session.joined]⟩
  | told used more =>
    obtain rfl : s.epoch = epoch := Option.some.inj own
    exact ⟨Nat.le_refl _, by simp [used]⟩
  | failed | closed =>
    obtain rfl : s.epoch = epoch := Option.some.inj own
    exact ⟨Nat.le_refl _, by simp [Session.lost]⟩
  | _ => simp [Episode.told] at told

/-- Events are told for reports of an epoch only. -/
theorem silent_of_aside (step : episode.before.Transition episode.call episode.effects episode.after)
    (aside : episode.call.message?.bind Message.epoch? = none) :
    Effect.collect Effect.event? episode.effects = [] := by
  obtain ⟨outside, call, s, effects, outputs, t⟩ := episode
  simp only at step aside
  cases step with
  | opened | failed | told | closed => cases aside
  | _ => simp

/-- A call attaches the connection of the epoch that was waited for, or none. -/
theorem attaches (step : episode.before.Transition episode.call episode.effects episode.after)
    (coherent : episode.before.Coherent) :
    Effect.collect Effect.pump? episode.effects = [] ∧
        (∀ epoch, episode.after.InUse epoch → episode.before.InUse epoch ∧
          ∀ name, .cancel name ∉ episode.effects) ∨
      ∃ link, episode.call = .handle (.opened episode.before.epoch link) ∧
        episode.before.phase = .connecting ∧ episode.after = episode.before.joined link ∧
        episode.effects = [.pump episode.before.epoch link, .publish .connectionMade] := by
  obtain ⟨outside, call, s, effects, outputs, t⟩ := episode
  simp only at step coherent
  cases step with
  | opened waiting => exact .inr ⟨_, rfl, waiting, rfl, rfl⟩
  | kept | sent | told => exact .inl ⟨by simp, fun epoch used => ⟨used, by simp⟩⟩
  | @superseded m =>
    refine .inl ⟨by simp, fun epoch used => ⟨used, ?_⟩⟩
    cases m <;> simp [Message.leftovers]
  | started => exact .inl ⟨by simp, by simp [Session.InUse, Session.searching]⟩
  | dialled | found => exact .inl ⟨by simp, by simp [Session.InUse, Session.dialling]⟩
  | ended => exact .inl ⟨by simp, by simp [Session.InUse, Session.ended]⟩
  | failed | closed => exact .inl ⟨by simp, by simp [Session.InUse, Session.lost]⟩
  | refused current | retried current | stranded current =>
    have looking := coherent.searching (Discovery.active_of_isCurrent current)
    exact .inl ⟨by simp, by simp [Session.InUse, looking]⟩

end Episode

abbrev Journal (ω : Type) := List (Episode ω)

namespace Journal

variable {ω : Type}

def brought (journal : Journal ω) (epoch : Nat) : List LinkEvent :=
  journal.filterMap (Episode.brought epoch)

def taken (journal : Journal ω) (epoch : Nat) : List LinkEvent :=
  journal.filterMap (Episode.taken epoch)

def told (journal : Journal ω) (epoch : Nat) : List SessionEvent :=
  journal.flatMap (Episode.told epoch)

/-- The connections that were attached: their epochs and their links. -/
def attached (journal : Journal ω) : List (Nat × Nat) :=
  journal.flatMap fun episode => Effect.collect Effect.pump? episode.effects

/-- What a journal says about an epoch that was attached. -/
structure Heard (journal : Journal ω) (s : Session) (epoch : Nat) : Prop where
  joined : s.Joined epoch
  told : journal.told epoch = .connectionMade :: (journal.taken epoch).flatMap LinkEvent.told
  used : s.InUse epoch →
    journal.taken epoch = journal.brought epoch ∧ .closed ∉ journal.brought epoch
  ended : ¬ s.InUse epoch → journal.taken epoch <+: journal.brought epoch ∧
    (.closed ∈ journal.taken epoch ∨ ∃ episode ∈ journal, episode.Supersedes epoch)

private theorem joined_step {s t : Session} {call : Call ω} {effects : List Effect} {epoch : Nat}
    (joined : s.Joined epoch) (step : s.Transition call effects t) : t.Joined epoch := by
  obtain ⟨reached, past⟩ := joined
  rcases step.epoch with ⟨-, rises, still⟩ | ⟨-, moved⟩
  · refine ⟨Nat.le_trans reached rises, fun same waiting => ?_⟩
    obtain ⟨before, stays⟩ := still waiting
    exact past (same.trans stays) before
  · refine ⟨by omega, fun same => ?_⟩
    omega

theorem brought_concat (journal : Journal ω) (episode : Episode ω) (epoch : Nat) :
    brought (journal ++ [episode]) epoch =
      journal.brought epoch ++ (episode.brought epoch).toList := by
  simp only [brought, List.filterMap_append, List.append_cancel_left_eq]
  cases h : episode.brought epoch <;> simp [h]

theorem taken_concat (journal : Journal ω) (episode : Episode ω) (epoch : Nat) :
    taken (journal ++ [episode]) epoch = journal.taken epoch ++ (episode.taken epoch).toList := by
  simp only [taken, List.filterMap_append, List.append_cancel_left_eq]
  cases h : episode.taken epoch <;> simp [h]

theorem told_concat (journal : Journal ω) (episode : Episode ω) (epoch : Nat) :
    told (journal ++ [episode]) epoch = journal.told epoch ++ episode.told epoch := by
  simp [told]

theorem Heard.concat {journal : Journal ω} {episode : Episode ω} {epoch : Nat}
    (h : journal.Heard episode.before epoch)
    (step : episode.before.Transition episode.call episode.effects episode.after)
    (coherent : episode.before.Coherent) :
    Heard (journal ++ [episode]) episode.after epoch := by
  have joined := joined_step h.joined step
  have longer : journal.brought epoch <+: brought (journal ++ [episode]) epoch :=
    brought_concat journal episode epoch ▸ List.prefix_append _ _
  cases episode.passage step coherent h.joined with
  | idle told taken stays brought =>
    have sameTaken : Journal.taken (journal ++ [episode]) epoch = journal.taken epoch := by
      rw [taken_concat, taken, Option.toList_none, List.append_nil]
    refine ⟨joined, ?_, fun used => ?_, fun gone => ?_⟩
    · rw [told_concat, told, List.append_nil, sameTaken, h.told]
    · obtain ⟨all, closed⟩ := h.used (stays.mp used)
      rw [sameTaken, brought_concat, brought (stays.mp used), Option.toList_none, List.append_nil]
      exact ⟨all, closed⟩
    · obtain ⟨part, reason⟩ := h.ended fun used => gone (stays.mpr used)
      rw [sameTaken]
      refine ⟨part.trans longer, reason.imp id ?_⟩
      exact fun ⟨e, member, supersedes⟩ => ⟨e, List.mem_append_left _ member, supersedes⟩
  | heard event used brought told stays =>
    obtain ⟨all, closed⟩ := h.used used
    have taken : episode.taken epoch = some event := (if_pos used).trans brought
    refine ⟨joined, ?_, fun goes => ?_, fun gone => ?_⟩
    · rw [told_concat, told, taken_concat, taken, h.told]
      simp
    · rw [taken_concat, taken, brought_concat, brought, all]
      refine ⟨rfl, fun member => ?_⟩
      rcases List.mem_append.mp member with old | new
      · exact closed old
      · exact stays.mp goes (List.mem_singleton.mp new).symm
    · have last : event = .closed := Decidable.not_not.mp fun more => gone (stays.mpr more)
      rw [taken_concat, taken, brought_concat, brought, all]
      exact ⟨List.prefix_rfl, .inl (by simp [last])⟩
  | left told brought leaves =>
    obtain ⟨all, -⟩ := h.used leaves.1
    have taken : episode.taken epoch = none := (if_pos leaves.1).trans brought
    refine ⟨joined, ?_, fun used => absurd used leaves.2.1, fun _ => ?_⟩
    · rw [told_concat, told, taken_concat, taken, h.told]
      simp
    · rw [taken_concat, taken, brought_concat, brought, all]
      refine ⟨List.prefix_rfl, .inr ⟨episode, ?_, leaves⟩⟩
      exact List.mem_append_right _ (List.mem_singleton.mpr rfl)

theorem told_of_not_joined {journal : Journal ω} {episode : Episode ω}
    (silent : ∀ epoch, ¬ episode.before.Joined epoch → journal.told epoch = [])
    (step : episode.before.Transition episode.call episode.effects episode.after)
    {epoch : Nat} (future : ¬ episode.after.Joined epoch) :
    told (journal ++ [episode]) epoch = [] := by
  have before : ¬ episode.before.Joined epoch := fun joined => future (joined_step joined step)
  have now : episode.told epoch = [] := Decidable.byContradiction fun told =>
    future (episode.joined_of_told step told)
  rw [told_concat, silent epoch before, now, List.append_nil]

theorem taken_of_brought {journal : Journal ω} {epoch : Nat} (nothing : journal.brought epoch = []) :
    journal.taken epoch = [] := by
  refine List.filterMap_eq_nil_iff.mpr fun episode member => ?_
  have none := List.filterMap_eq_nil_iff.mp nothing episode member
  unfold Episode.taken
  rw [none, ite_self]

/-- The journal of an epoch that has just been joined. -/
theorem Heard.join {journal : Journal ω} {episode : Episode ω} {link : Nat}
    (opened : episode.call = .handle (.opened episode.before.epoch link))
    (effects : episode.effects = [.pump episode.before.epoch link, .publish .connectionMade])
    (after : episode.after = episode.before.joined link)
    (silent : journal.told episode.before.epoch = [])
    (nothing : journal.brought episode.before.epoch = []) :
    Heard (journal ++ [episode]) episode.after episode.before.epoch := by
  have brought : Journal.brought (journal ++ [episode]) episode.before.epoch = [] := by
    rw [brought_concat, nothing, Episode.brought, opened]
    rfl
  have taken := taken_of_brought brought
  have told : episode.told episode.before.epoch = [.connectionMade] := by
    simp [Episode.told, opened, effects, Call.message?, Message.epoch?]
  refine ⟨?_, ?_, fun _ => ?_, fun gone => ?_⟩
  · rw [after]
    exact ⟨Nat.le_refl _, by simp [Session.joined]⟩
  · rw [told_concat, silent, told, taken]
    rfl
  · rw [taken, brought]
    exact ⟨rfl, List.not_mem_nil⟩
  · rw [after] at gone
    exact absurd ⟨rfl, rfl⟩ gone

end Journal

end TileClient
