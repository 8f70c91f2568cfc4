import TileClient.Proofs.Session.Coherence

/-! Work that has been superseded is invisible. What its tasks still report, and when, makes no
difference to a connection. -/
namespace TileClient

def Message.source : Message → TaskName
  | .discovery (.response attempt _) => .request attempt
  | .discovery (.retryDue attempt) => .pause attempt
  | .opened epoch _ | .dialFailed epoch _ => .dial epoch
  | .transport epoch _ => .pump epoch

def Effect.started? : Effect → Option TaskName
  | .request attempt => some (.request attempt)
  | .pause attempt => some (.pause attempt)
  | .dial epoch _ => some (.dial epoch)
  | .pump epoch _ => some (.pump epoch)
  | .cancel _ | .release _ | .transmit _ _ | .publish _ => none

instance : Effect.Passing Effect.started? := ⟨fun _ => rfl, fun _ => rfl⟩
instance : Effect.Deaf Effect.started? := ⟨fun _ => rfl⟩

namespace Session
open Effect

/-- A report of an earlier attempt or an earlier epoch. -/
def Outran (s : Session) : Message → Prop
  | .discovery m => m.attempt < s.discovery.attempt
  | .opened epoch _ | .dialFailed epoch _ | .transport epoch _ => epoch < s.epoch

/-- A report that has been waited for, if ever, in vain: it comes too late, and will for ever. -/
def Past (s : Session) : Message → Prop
  | .discovery m => m.attempt < s.discovery.attempt ∨
      m.attempt = s.discovery.attempt ∧ s.discovery.active = false
  | .opened epoch _ | .dialFailed epoch _ =>
      epoch < s.epoch ∨ epoch = s.epoch ∧ s.phase ≠ .connecting
  | .transport epoch _ =>
      epoch < s.epoch ∨ epoch = s.epoch ∧ s.phase ≠ .connecting ∧ s.phase ≠ .connected

/-- What is held goes by the present attempt and the present epoch. -/
structure Numbered (s : Session) : Prop where
  request : ∀ attempt, s.discovery.request = some attempt → attempt = s.discovery.attempt
  pause : ∀ attempt, s.discovery.pause = some attempt → attempt = s.discovery.attempt
  dial : ∀ epoch, s.dial = some epoch → epoch = s.epoch
  socket : ∀ socket, s.socket = some socket → socket.pump = s.epoch

variable {ω : Type} {s t : Session} {call : Call ω} {effects : List Effect} {m : Message}

theorem Outran.past (h : s.Outran m) : s.Past m := by
  cases m <;> exact .inl h

theorem Past.superseded (h : s.Past m) : s.Superseded m := by
  cases m with
  | discovery m =>
    simp only [Past] at h
    simp only [Superseded, Discovery.isCurrent, Bool.and_eq_false_iff, beq_eq_false_iff_ne]
    rcases h with earlier | ⟨-, idle⟩
    · exact .inr (Nat.ne_of_lt earlier)
    · exact .inl idle
  | opened epoch | dialFailed epoch =>
    rintro ⟨same, waiting⟩
    rcases h with earlier | ⟨-, elsewhere⟩
    · omega
    · exact elsewhere waiting
  | transport epoch =>
    rintro ⟨same, used⟩
    rcases h with earlier | ⟨-, -, elsewhere⟩
    · omega
    · exact elsewhere used

theorem Transition.attempt (step : s.Transition call effects t) :
    s.discovery.attempt < t.discovery.attempt ∨
      t.discovery.attempt = s.discovery.attempt ∧
        (t.discovery.active = true → s.discovery.active = true) := by
  cases step with
  | kept | sent | superseded | told | opened => exact .inr ⟨rfl, id⟩
  | started | retried | failed | closed => exact .inl (Nat.lt_succ_self _)
  | dialled | found | ended | stranded =>
    exact .inr ⟨rfl, by simp [dialling, Session.ended, Discovery.stopped]⟩
  | refused => exact .inr ⟨rfl, id⟩

/-- The epoch moves on, or it stays and goes no way back from connected to connecting to the
rest. -/
theorem Transition.phase (step : s.Transition call effects t) :
    s.epoch < t.epoch ∨ t.epoch = s.epoch ∧ (t.phase = .connecting → s.phase = .connecting) ∧
      (t.phase = .connected → s.phase = .connecting ∨ s.phase = .connected) := by
  cases step with
  | kept | sent | superseded | told | refused | retried | stranded => exact .inr ⟨rfl, id, .inr⟩
  | dialled | found | ended => exact .inl (Nat.lt_succ_self _)
  | started | failed | closed =>
    exact .inr ⟨rfl, by simp [searching, lost], by simp [searching, lost]⟩
  | opened waiting => exact .inr ⟨rfl, by simp [joined], fun _ => .inl waiting⟩

/-- What is past stays past. -/
theorem Past.step (h : s.Past m) (step : s.Transition call effects t) : t.Past m := by
  cases m with
  | discovery m =>
    simp only [Past] at h ⊢
    rcases step.attempt with later | ⟨same, still⟩
    · rcases h with earlier | ⟨now, -⟩ <;> omega
    · rw [same]
      refine h.imp id fun ⟨now, idle⟩ => ⟨now, ?_⟩
      exact Bool.eq_false_iff.mpr fun active => by simp [still active] at idle
  | opened epoch | dialFailed epoch =>
    simp only [Past] at h ⊢
    rcases step.phase with later | ⟨same, still, -⟩
    · rcases h with earlier | ⟨now, -⟩ <;> omega
    · rw [same]
      exact h.imp id fun ⟨now, elsewhere⟩ => ⟨now, fun waiting => elsewhere (still waiting)⟩
  | transport epoch =>
    simp only [Past] at h ⊢
    rcases step.phase with later | ⟨same, waits, used⟩
    · rcases h with earlier | ⟨now, -⟩ <;> omega
    · rw [same]
      refine h.imp id fun ⟨now, notWaiting, notUsed⟩ =>
        ⟨now, fun waiting => ?_, fun using' => ?_⟩
      · exact notWaiting (waits waiting)
      · exact (used using').elim notWaiting notUsed

/-- A report that was waited for is still waited for after a step, or past. -/
theorem Transition.past (step : s.Transition call effects t) (now : ¬ s.Superseded m)
    (gone : t.Superseded m) : t.Past m := by
  cases m with
  | discovery m =>
    simp only [Superseded, Bool.not_eq_false, Discovery.isCurrent, Bool.and_eq_true,
      beq_iff_eq] at now
    simp only [Superseded, Discovery.isCurrent, Bool.and_eq_false_iff, beq_eq_false_iff_ne] at gone
    simp only [Past]
    rcases step.attempt with later | ⟨same, -⟩
    · exact .inl (by omega)
    · refine .inr ⟨by omega, gone.resolve_right ?_⟩
      omega
  | opened epoch | dialFailed epoch =>
    obtain ⟨same, -⟩ := Decidable.not_not.mp now
    simp only [Past]
    rcases step.phase with later | ⟨still, -⟩
    · exact .inl (by omega)
    · have here : epoch = t.epoch := by omega
      exact .inr ⟨here, fun waiting => gone ⟨here, waiting⟩⟩
  | transport epoch =>
    obtain ⟨same, used⟩ := Decidable.not_not.mp now
    simp only [Past]
    rcases step.phase with later | ⟨still, waits, -⟩
    · exact .inl (by omega)
    · have here : epoch = t.epoch := by omega
      refine .inr ⟨here, fun waiting => ?_, fun using' => gone ⟨here, using'⟩⟩
      have := waits waiting
      simp [used] at this

theorem fresh_numbered : fresh.Numbered := by
  constructor <;> simp [fresh, Discovery.idle]

theorem Transition.numbered (step : s.Transition call effects t) (h : s.Numbered) : t.Numbered := by
  obtain ⟨request, pause, dial, socket⟩ := h
  cases step with
  | kept | sent | superseded | told => exact ⟨request, pause, dial, socket⟩
  | started | retried =>
    constructor <;> simp_all [searching, Discovery.asked]
  | dialled | found | ended =>
    constructor <;> simp [dialling, Session.ended, Discovery.stopped]
  | refused | stranded =>
    constructor <;> simp_all [Discovery.paused, Discovery.stopped]
  | opened =>
    constructor <;> simp_all [joined]
  | failed | closed =>
    constructor <;> simp [lost, Discovery.asked]

private theorem attempt_of_source {attempt : Nat}
    (h : TaskName.request attempt = m.source ∨ TaskName.pause attempt = m.source) :
    ∃ report, m = .discovery report ∧ report.attempt = attempt := by
  cases m with
  | discovery report =>
    refine ⟨report, rfl, ?_⟩
    cases report <;> simp_all [Message.source, DiscoveryMessage.attempt]
  | opened | dialFailed | transport => simp [Message.source] at h

theorem Numbered.past_of_search (h : s.Numbered) (held : m.source ∈ s.discovery.holdings)
    (gone : s.discovery.attempt < t.discovery.attempt ∨
      t.discovery.attempt = s.discovery.attempt ∧ t.discovery.active = false) : t.Past m := by
  obtain ⟨attempt, now, name⟩ : ∃ attempt, attempt = s.discovery.attempt ∧
      (TaskName.request attempt = m.source ∨ TaskName.pause attempt = m.source) := by
    simp only [Discovery.holdings, Discovery.pauses, List.mem_append, List.mem_map,
      Option.mem_toList] at held
    rcases held with ⟨attempt, request, name⟩ | ⟨attempt, pause, name⟩
    · exact ⟨attempt, h.request attempt request, .inl name⟩
    · exact ⟨attempt, h.pause attempt pause, .inr name⟩
  obtain ⟨report, rfl, own⟩ := attempt_of_source name
  simp only [Past]
  rcases gone with later | ⟨same, idle⟩
  · exact .inl (by omega)
  · exact .inr ⟨by omega, idle⟩

private theorem past_of_dial {epoch : Nat} (name : TaskName.dial epoch = m.source)
    (gone : epoch < t.epoch ∨ epoch = t.epoch ∧ t.phase ≠ .connecting) : t.Past m := by
  cases m with
  | opened own | dialFailed own =>
    obtain rfl : epoch = own := by simpa [Message.source] using name
    exact gone
  | discovery report => cases report <;> simp [Message.source] at name
  | transport => simp [Message.source] at name

private theorem past_of_pump {epoch : Nat} (name : TaskName.pump epoch = m.source)
    (gone : epoch < t.epoch ∨
      epoch = t.epoch ∧ t.phase ≠ .connecting ∧ t.phase ≠ .connected) : t.Past m := by
  cases m with
  | transport own =>
    obtain rfl : epoch = own := by simpa [Message.source] using name
    exact gone
  | discovery report => cases report <;> simp [Message.source] at name
  | opened | dialFailed => simp [Message.source] at name

theorem Numbered.past_of_line (h : s.Numbered) (held : m.source ∈ s.lines)
    (gone : s.epoch < t.epoch ∨
      t.epoch = s.epoch ∧ t.phase ≠ .connecting ∧ t.phase ≠ .connected) : t.Past m := by
  simp only [lines, List.mem_append, List.mem_map, Option.mem_toList] at held
  rcases held with ⟨epoch, dial, name⟩ | ⟨socket, used, name⟩
  · have now := h.dial epoch dial
    refine past_of_dial name ?_
    rcases gone with later | ⟨same, idle, -⟩
    · exact .inl (by omega)
    · exact .inr ⟨by omega, idle⟩
  · have now := h.socket socket used
    refine past_of_pump name ?_
    rcases gone with later | ⟨same, idle⟩
    · exact .inl (by omega)
    · exact .inr ⟨by omega, idle⟩

/-- The reports of a task that is given up, and not started anew, are past. -/
theorem Transition.given_up (step : s.Transition call effects t) (h : s.Numbered)
    (cancelled : .cancel m.source ∈ effects) (gone : m.source ∉ collect started? effects) :
    t.Past m := by
  have pauses : s.discovery.pauses ⊆ s.discovery.holdings := List.subset_append_right _ _
  cases step with
  | kept | sent | retried | opened => simp at cancelled
  | @superseded m' => cases m' <;> simp [Message.leftovers] at cancelled
  | told => simp at cancelled
  | started =>
    have held : m.source ∈ s.discovery.holdings := by simpa using cancelled
    exact h.past_of_search held (.inl (Nat.lt_succ_self _))
  | dialled | ended =>
    have held : m.source ∈ s.holdings := by simpa using cancelled
    rcases List.mem_append.mp held with search | line
    · exact h.past_of_search search (.inr ⟨rfl, rfl⟩)
    · exact h.past_of_line line (.inl (Nat.lt_succ_self _))
  | refused current =>
    have held : m.source ∈ s.discovery.pauses := by simpa using cancelled
    obtain ⟨attempt, pause, name⟩ := List.mem_map.mp held
    have same := h.pause attempt (Option.mem_toList.mp pause)
    simp [started?, ← name, same] at gone
  | found current named looking =>
    have held : m.source ∈ s.discovery.pauses ∨ m.source ∈ s.lines := by simpa using cancelled
    rcases held with search | line
    · exact h.past_of_search (pauses search) (.inr ⟨rfl, rfl⟩)
    · exact h.past_of_line line (.inl (Nat.lt_succ_self _))
  | stranded current =>
    have held : m.source ∈ s.discovery.pauses := by simpa using cancelled
    exact h.past_of_search (pauses held) (.inr ⟨rfl, rfl⟩)
  | failed waiting =>
    have held : m.source ∈ { s with dial := none }.lines ∨ m.source ∈ s.discovery.holdings := by
      simpa using cancelled
    rcases held with line | search
    · have line : m.source ∈ s.lines := List.mem_append_right _ (by simpa [lines] using line)
      exact h.past_of_line line (.inr ⟨rfl, by simp [lost], by simp [lost]⟩)
    · exact h.past_of_search search (.inl (Nat.lt_succ_self _))
  | closed used =>
    have held : m.source ∈ s.lines ∨ m.source ∈ s.discovery.holdings := by simpa using cancelled
    rcases held with line | search
    · exact h.past_of_line line (.inr ⟨rfl, by simp [lost], by simp [lost]⟩)
    · exact h.past_of_search search (.inl (Nat.lt_succ_self _))

end Session

namespace Episode

variable {ω : Type}

def asked (episode : Episode ω) : Outside × Call ω := (episode.outside, episode.call)

/-- A report was handled that nothing waited for. -/
def unseen (episode : Episode ω) : Bool :=
  match episode.call with
  | .order _ => false
  | .handle m => decide (episode.before.Superseded m)

end Episode

namespace Connection

variable {ω : Type}

/-- The history of calls without the reports that nothing waited for. -/
def visible (c : Connection ω) (calls : List (Outside × Call ω)) : List (Episode ω) :=
  (c.history calls).filter fun episode => !episode.unseen

theorem call_of_superseded (c : Connection ω) (outside : Outside) {m : Message}
    (h : c.session.Superseded m) : c.call outside (.handle m) = (c, m.leftovers, []) := by
  have same : c.session.handle outside.available m = (c.session, m.leftovers) := by
    cases m with
    | discovery m =>
      rw [Session.handle, Session.handleDiscovery, Discovery.handle_of_old h]
      rfl
    | opened | dialFailed | transport => exact if_neg h
  have silent : c.tell m.leftovers = (c, []) := by
    cases m <;> simp [Message.leftovers, tell]
  rw [call, handle, settle, same, silent]

theorem numbered_after (calls : List (Outside × Call ω)) :
    ((fresh : Connection ω).after calls).session.Numbered :=
  keeps_after (fun step h => step.numbered h) fresh Session.fresh_coherent calls
    Session.fresh_numbered

theorem coherent_after (c : Connection ω) (coherent : c.session.Coherent)
    (calls : List (Outside × Call ω)) : (c.after calls).session.Coherent :=
  keeps_after (fun step h => step.coherent h) c coherent calls coherent

theorem past_after (c : Connection ω) (coherent : c.session.Coherent)
    (calls : List (Outside × Call ω)) {m : Message} (h : c.session.Past m) :
    (c.after calls).session.Past m :=
  keeps_after (P := fun s => s.Past m) (fun step past => past.step step) c coherent calls h

/-- What was waited for is waited for still, or past. -/
theorem past_after_current (c : Connection ω) (coherent : c.session.Coherent)
    (calls : List (Outside × Call ω)) {m : Message} (now : ¬ c.session.Superseded m)
    (gone : (c.after calls).session.Superseded m) : (c.after calls).session.Past m := by
  have kept := keeps_after (P := fun s => s.Superseded m → s.Past m) ?_ c coherent calls
    (fun old => absurd old now)
  · exact kept gone
  · intro s t call effects step h gone
    by_cases before : s.Superseded m
    · exact (h before).step step
    · exact step.past before gone

theorem call_of_unseen (c : Connection ω) (outside : Outside) (call : Call ω)
    (h : (c.episode outside call).unseen) : (c.call outside call).1 = c := by
  cases call with
  | order => simp [episode, Episode.unseen] at h
  | handle m =>
    have old : c.session.Superseded m := of_decide_eq_true h
    rw [c.call_of_superseded outside old]

/-- What is visible of a history is a history of its own. -/
theorem visible_eq_history (c : Connection ω) (calls : List (Outside × Call ω)) :
    c.visible calls = c.history ((c.visible calls).map Episode.asked) ∧
      c.after calls = c.after ((c.visible calls).map Episode.asked) := by
  induction calls generalizing c with
  | nil => exact ⟨rfl, rfl⟩
  | cons call calls ih =>
    obtain ⟨outside, call⟩ := call
    cases seen : (c.episode outside call).unseen with
    | true =>
      have same := c.call_of_unseen outside call seen
      simpa [visible, history, after, seen, same] using ih c
    | false =>
      obtain ⟨rest, last⟩ := ih (c.call outside call).1
      simp only [visible] at rest last
      simp only [visible, history, after, List.filter_cons, seen, Bool.not_false, if_true,
        List.map_cons]
      exact ⟨congrArg _ rest, last⟩

/-- Superseded work is invisible. Two histories that differ only in reports that nothing waited
for agree in everything else, step by step. Such a report changes nothing, and the link that it
may bring is let go of. Every report of an earlier attempt or epoch is one, so is every later
report of a task that was given up and not started anew at once, and what is one stays one. -/
theorem superseded_work_is_invisible :
    let c : Connection ω := fresh
    (∀ xs ys, (c.visible xs).map Episode.asked = (c.visible ys).map Episode.asked →
      c.visible xs = c.visible ys ∧ c.after xs = c.after ys) ∧
    ∀ calls, let d := c.after calls
      (∀ outside m, d.session.Superseded m →
        d.call outside (.handle m) = (d, m.leftovers, [])) ∧
      (∀ m, d.session.Outran m → d.session.Superseded m) ∧
      (∀ outside call m later, .cancel m.source ∈ (d.call outside call).2.1 →
        m.source ∉ Effect.collect Effect.started? (d.call outside call).2.1 →
        ((d.call outside call).1.after later).session.Superseded m) ∧
      ∀ m sooner later, ¬ d.session.Superseded m → (d.after sooner).session.Superseded m →
        ((d.after sooner).after later).session.Superseded m := by
  intro c
  refine ⟨fun xs ys agree => ?_, fun calls => ?_⟩
  · obtain ⟨left, leftEnd⟩ := c.visible_eq_history xs
    obtain ⟨right, rightEnd⟩ := c.visible_eq_history ys
    rw [left, leftEnd, right, rightEnd, agree]
    exact ⟨rfl, rfl⟩
  · intro d
    have coherent : d.session.Coherent := c.coherent_after Session.fresh_coherent calls
    refine ⟨fun outside m => d.call_of_superseded outside, fun m old => old.past.superseded,
      fun outside call m later cancelled gone => ?_, fun m sooner later now gone => ?_⟩
    · have step := d.transition_of_call outside call coherent.tornDown
      have past := step.given_up (numbered_after calls) cancelled gone
      exact (past_after _ (step.coherent coherent) later past).superseded
    · have past := d.past_after_current coherent sooner now gone
      exact (past_after _ (d.coherent_after coherent sooner) later past).superseded

example : ((fresh : Connection Unit).visible
    [(⟨true, fun _ => true⟩, .order .start), (⟨true, fun _ => true⟩, .handle (.opened 0 3)),
      (⟨false, fun _ => true⟩, .order .shutdown)]).map (·.effects) =
    [[.request 1], [.cancel (.request 1)]] := by
  decide

end Connection

end TileClient
