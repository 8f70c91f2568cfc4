import TileClient.Proofs.Rehearsal.Forwarding
import TileClient.Proofs.Session.Audience

/-! What a server puts on its link is told in order, whole and once, as far as the session stays
with the link. Turns, reports, orders and servers may follow each other in any way. -/
namespace TileClient.Rehearsal

namespace World

variable {ω : Type}

/-- What a call changes in a world. -/
structure Called (v w : World ω) (episode : Episode ω) : Prop where
  before : episode.before = v.session
  after : episode.after = w.session
  journal : w.journal = v.journal ++ [episode]
  step : episode.before.Transition episode.call episode.effects episode.after
  numbered : w.back.Numbered
  mailbox : v.back.mailbox = episode.call.message?.toList ++ w.back.mailbox
  links : w.back.links.length = v.back.links.length
  puts : ∀ link, w.puts link = v.puts link
  inbox : ∀ link, w.back.inbox link = v.back.inbox link
  hungUp : ∀ link, w.back.hungUp link = v.back.hungUp link
  pumps : w.back.pumps = v.back.pumps ++ Effect.collect Effect.pump? episode.effects
  cancelled : ∀ e ∈ w.back.tasks, e.cancelled = true →
    (∃ old ∈ v.back.tasks, old.task = e.task ∧ old.cancelled = true) ∨
      .cancel e.task.name ∈ episode.effects

theorem called (w : World ω) (h : w.Sound) (available : Bool) (call : Call ω) {rest : List Message}
    (mailbox : w.back.mailbox = call.message?.toList ++ rest) :
    Called w ({ w with back := { w.back with mailbox := rest } }.call available call)
      (w.connection.episode ⟨available, w.back.listening⟩ call) := by
  let b : Backstage := { w.back with mailbox := rest }
  let outside : Outside := ⟨available, w.back.listening⟩
  let episode := w.connection.episode outside call
  have lines := b.sameLines_performAll episode.effects
  have numbered : b.Numbered := ⟨h.numbered.nodup, h.numbered.below⟩
  refine ⟨rfl, rfl, rfl, ?_, numbered.performAll _, ?_, lines.links, fun _ => rfl,
    lines.inbox, lines.hungUp, b.pumps_performAll _, ?_⟩
  · exact w.connection.transition_of_call outside call h.coherent.tornDown
  · exact mailbox.trans (congrArg (_ ++ ·) lines.mailbox.symm)
  · exact fun e member => Backstage.cancelled_of_performAll (b := b) member

namespace Called

variable {v w : World ω} {episode : Episode ω}

theorem forwarded (c : Called v w episode) (epoch : Nat) : w.forwarded epoch = v.forwarded epoch := by
  have queued : v.back.queued epoch = (episode.brought epoch).toList ++ w.back.queued epoch := by
    rw [Backstage.queued, c.mailbox, List.filterMap_append, Episode.brought, Backstage.queued]
    cases episode.call.message? with
    | none => rfl
    | some m =>
      rw [Option.toList_some, Option.bind_some, List.filterMap_cons, List.filterMap_nil]
      cases m.event? epoch <;> rfl
  rw [World.forwarded, World.forwarded, c.journal, Journal.brought_concat, queued, List.append_assoc]

theorem line (c : Called v w episode) (link : Nat) : w.line link = v.line link := by
  rw [World.line, World.line, c.puts, c.hungUp]

theorem attached (c : Called v w episode) :
    w.journal.attached = v.journal.attached ++ Effect.collect Effect.pump? episode.effects := by
  simp [c.journal, Journal.attached]

theorem silent (c : Called v w episode) (h : v.Sound) {epoch : Nat}
    (future : ¬ w.session.Joined epoch) : w.journal.told epoch = [] := by
  rw [c.journal]
  refine Journal.told_of_not_joined ?_ c.step (c.after ▸ future)
  exact c.before ▸ h.silent

theorem heard (c : Called v w episode) (h : v.Sound) {p : Nat × Nat}
    (attached : p ∈ v.journal.attached) : w.journal.Heard w.session p.1 := by
  rw [c.journal, ← c.after]
  have before : v.journal.Heard episode.before p.1 := c.before ▸ h.heard p attached
  exact before.concat c.step (c.before ▸ h.coherent)

theorem aside (c : Called v w episode) (h : v.Sound) :
    ∀ episode ∈ w.journal, episode.call.message?.bind Message.epoch? = none →
      Effect.collect Effect.event? episode.effects = [] := by
  intro other member noEpoch
  rw [c.journal] at member
  rcases List.mem_append.mp member with old | new
  · exact h.aside other old noEpoch
  · rw [List.mem_singleton.mp new] at noEpoch ⊢
    exact episode.silent_of_aside c.step noEpoch

theorem sources (c : Called v w episode) (h : v.Sound) {epoch : Nat}
    (free : epoch ∉ w.journal.attached.map Prod.fst) : w.forwarded epoch = [] := by
  rw [c.forwarded]
  refine h.sources epoch fun old => free ?_
  rw [c.attached, List.map_append]
  exact List.mem_append_left _ old

theorem untouched (c : Called v w episode) (h : v.Sound) {link : Nat}
    (free : link ∉ w.journal.attached.map Prod.snd) : w.puts link = w.back.inbox link := by
  rw [c.puts, c.inbox]
  refine h.untouched link fun old => free ?_
  rw [c.attached, List.map_append]
  exact List.mem_append_left _ old

theorem new_epoch (c : Called v w episode) (h : v.Sound)
    (waiting : episode.before.phase = .connecting) :
    episode.before.epoch ∉ v.journal.attached.map Prod.fst := by
  intro member
  obtain ⟨p, old, same⟩ := List.mem_map.mp member
  have joined := c.before ▸ (h.heard p old).joined
  exact joined.2 same waiting

theorem new_link (c : Called v w episode) (h : v.Sound) {epoch link : Nat}
    (opened : episode.call = .handle (.opened epoch link)) :
    link ∉ v.journal.attached.map Prod.snd := by
  have reported : link ∈ v.back.mailbox.filterMap Message.link? := by
    simp [c.mailbox, opened, Call.message?, Message.link?]
  exact fun old => (List.nodup_append.mp h.links).2.2 link old link reported rfl

/-- A call that attaches nothing. -/
theorem sound_of_kept (c : Called v w episode) (h : v.Sound)
    (none : Effect.collect Effect.pump? episode.effects = [])
    (kept : ∀ epoch, episode.after.InUse epoch → episode.before.InUse epoch ∧
      ∀ name, .cancel name ∉ episode.effects) : w.Sound := by
  have attached : w.journal.attached = v.journal.attached := by
    rw [c.attached, none, List.append_nil]
  have pumps : w.back.pumps = v.back.pumps := by
    rw [c.pumps, none, List.append_nil]
  have fewer : (w.back.mailbox.filterMap Message.link?).Sublist
      (v.back.mailbox.filterMap Message.link?) := by
    rw [c.mailbox]
    exact (List.sublist_append_right _ _).filterMap _
  have links := (List.Sublist.refl (v.journal.attached.map Prod.snd)).append fewer
  have used {epoch : Nat} (now : w.session.InUse epoch) := kept epoch (c.after ▸ now)
  constructor
  · exact c.numbered
  · exact c.after ▸ c.step.coherent (c.before ▸ h.coherent)
  · exact fun epoch => c.silent h
  · exact fun p member => c.heard h (attached ▸ member)
  · exact c.aside h
  · exact attached ▸ h.epochs
  · exact attached ▸ links.nodup h.links
  · rw [attached, c.links]
    exact fun link member => h.made link (links.subset member)
  · exact attached ▸ pumps ▸ h.pumps
  · exact fun epoch => c.sources h
  · exact fun link => c.untouched h
  · intro p runs
    rw [c.puts, c.forwarded, c.inbox]
    exact h.running p (pumps ▸ runs)
  · intro p member rests
    obtain ⟨part, closed⟩ := h.stopped p (attached ▸ member) (pumps ▸ rests)
    rw [c.forwarded, c.line]
    exact ⟨part, fun now => closed (c.before ▸ (used now).1)⟩
  · intro e member epoch link task now
    obtain ⟨before, cancels⟩ := used now
    refine Bool.eq_false_iff.mpr fun cancelled => ?_
    rcases c.cancelled e member cancelled with ⟨old, isOld, same, was⟩ | named
    · have alive := h.alive old isOld epoch link (same.trans task) (c.before ▸ before)
      rw [alive] at was
      cases was
    · exact cancels _ named

/-- A call that attaches a link that was reported open. -/
theorem sound_of_joined (c : Called v w episode) (h : v.Sound) {link : Nat}
    (opened : episode.call = .handle (.opened episode.before.epoch link))
    (waiting : episode.before.phase = .connecting)
    (after : episode.after = episode.before.joined link)
    (effects : episode.effects = [.pump episode.before.epoch link, .publish .connectionMade]) :
    w.Sound := by
  have starts : Effect.collect Effect.pump? episode.effects = [(episode.before.epoch, link)] := by
    rw [effects]
    rfl
  have attached : w.journal.attached = v.journal.attached ++ [(episode.before.epoch, link)] := by
    rw [c.attached, starts]
  have pumps : w.back.pumps = v.back.pumps ++ [(episode.before.epoch, link)] := by
    rw [c.pumps, starts]
  have newEpoch := c.new_epoch h waiting
  have opening : v.journal.attached.map Prod.snd ++ v.back.mailbox.filterMap Message.link? =
      w.journal.attached.map Prod.snd ++ w.back.mailbox.filterMap Message.link? := by
    simp [attached, c.mailbox, opened, Call.message?, Message.link?]
  have nothing := h.sources episode.before.epoch newEpoch
  have used {epoch : Nat} (now : w.session.InUse epoch) : epoch = episode.before.epoch := by
    rw [← c.after, after] at now
    exact now.2.symm
  constructor
  · exact c.numbered
  · exact c.after ▸ c.step.coherent (c.before ▸ h.coherent)
  · exact fun epoch => c.silent h
  · intro p member
    rw [attached] at member
    rcases List.mem_append.mp member with old | new
    · exact c.heard h old
    · rw [List.mem_singleton.mp new, c.journal, ← c.after]
      refine .join opened effects after ?_ (List.append_eq_nil_iff.mp nothing).1
      refine h.silent _ fun joined => ?_
      have before : episode.before.Joined episode.before.epoch := c.before.symm ▸ joined
      exact before.2 rfl waiting
  · exact c.aside h
  · rw [attached, List.map_append]
    refine List.nodup_append.mpr ⟨h.epochs, List.nodup_singleton _, fun epoch old new isNew => ?_⟩
    rw [List.mem_singleton.mp isNew]
    exact fun same : epoch = episode.before.epoch => newEpoch (same ▸ old)
  · exact opening ▸ h.links
  · rw [← opening, c.links]
    exact h.made
  · rw [attached, pumps]
    exact h.pumps.append (List.Sublist.refl _)
  · exact fun epoch => c.sources h
  · exact fun other => c.untouched h
  · intro p runs
    rw [c.puts, c.forwarded, c.inbox]
    rw [pumps] at runs
    rcases List.mem_append.mp runs with old | new
    · exact h.running p old
    · rw [List.mem_singleton.mp new, nothing, h.untouched link (c.new_link h opened)]
      exact ⟨rfl, List.not_mem_nil⟩
  · intro p member rests
    rw [attached] at member
    rw [pumps, List.mem_append, not_or] at rests
    have old := (List.mem_append.mp member).resolve_right rests.2
    rw [c.forwarded, c.line]
    refine ⟨h.forwarded_begins old, fun now => absurd ?_ newEpoch⟩
    exact used now ▸ List.mem_map_of_mem old
  · intro e member epoch other task now
    refine Bool.eq_false_iff.mpr fun cancelled => ?_
    rcases c.cancelled e member cancelled with ⟨old, isOld, same, -⟩ | named
    · have ran : (epoch, other) ∈ v.back.pumps :=
        List.mem_filterMap.mpr ⟨old, isOld, by rw [same, task, Task.pump?]⟩
      exact newEpoch (used now ▸ List.mem_map_of_mem (h.pumps.subset ran))
    · simp [effects] at named

theorem sound (c : Called v w episode) (h : v.Sound) : w.Sound := by
  rcases episode.attaches c.step (c.before ▸ h.coherent) with
    ⟨none, kept⟩ | ⟨link, opened, waiting, after, effects⟩
  · exact c.sound_of_kept h none kept
  · exact c.sound_of_joined h opened waiting after effects

end Called

theorem sound_act {w : World ω} (h : w.Sound) (act : WorldAct ω) : (w.act act).Sound := by
  cases act with
  | order available order =>
    exact (w.called h available (.order order) (List.nil_append _).symm).sound h
  | take available =>
    simp only [World.act]
    split
    · exact h
    · rename_i m rest mailbox
      exact (w.called h available (.handle m) mailbox).sound h
  | turn turn => exact h.turn turn
  | serve link serving => exact h.serve link serving

theorem sound_run {w : World ω} (h : w.Sound) (acts : List (WorldAct ω)) : (w.run acts).Sound :=
  run_preserves (fun _ => sound_act) h acts

/-- The owner left an epoch while it was in use. -/
def Superseded (w : World ω) (epoch : Nat) : Prop :=
  ∃ episode ∈ w.journal, episode.Supersedes epoch

/-- No event of an epoch waits to be handled, and its pump, if it is still there, has nothing to
forward. -/
def HandledAll (w : World ω) (epoch link : Nat) : Prop :=
  w.back.queued epoch = [] ∧
    ((epoch, link) ∈ w.back.pumps → (w.back.links[link]?).bind Link.next? = none)

theorem Sound.taken_begins {w : World ω} (h : w.Sound) {p : Nat × Nat}
    (attached : p ∈ w.journal.attached) : w.journal.taken p.1 <+: w.line p.2 := by
  have heard := h.heard p attached
  have part : w.journal.taken p.1 <+: w.journal.brought p.1 := by
    by_cases used : w.session.InUse p.1
    · exact (heard.used used).1 ▸ List.prefix_rfl
    · exact (heard.ended used).1
  exact (part.trans (List.prefix_append _ _)).trans (h.forwarded_begins attached)

/-- Where all is handled and the owner has not left, nothing of the line is missing. -/
theorem Sound.taken_all {w : World ω} (h : w.Sound) {epoch link : Nat}
    (attached : (epoch, link) ∈ w.journal.attached) (kept : ¬ w.Superseded epoch)
    (handled : w.HandledAll epoch link) : w.journal.taken epoch = w.line link := by
  have heard := h.heard _ attached
  by_cases used : w.session.InUse epoch
  · obtain ⟨all, still⟩ := heard.used used
    have forwarded : w.forwarded epoch = w.journal.brought epoch := by
      rw [World.forwarded, handled.1, List.append_nil]
    have runs : (epoch, link) ∈ w.back.pumps := by
      refine Decidable.byContradiction fun rests => still ?_
      exact forwarded ▸ (h.stopped _ attached rests).2 used
    obtain ⟨empty, posting⟩ := w.back.empty_of_next (handled.2 runs)
    have puts := (h.running _ runs).1
    rw [forwarded, empty] at puts
    rw [all, line, puts, posting, if_neg Bool.false_ne_true, List.append_assoc,
      LinkEvent.upToClosed_of_not_mem _ still]
    exact (List.append_nil _).symm
  · obtain ⟨part, closed | left⟩ := heard.ended used
    · exact LinkEvent.eq_of_prefix_upToClosed (h.taken_begins attached) closed
    · exact absurd left kept

theorem records_run (retryDelay timeout : Nat) (script : Script) (acts : List (WorldAct ω)) :
    let w := (opening retryDelay timeout script : World ω).run acts
    w.journal.Records w.connection := by
  refine run_preserves (P := fun w => w.journal.Records w.connection) (fun w h act => ?_) .fresh acts
  rcases w.act_cases act with ⟨available, call, rest, -, acted, -⟩ | ⟨-, connection, journal⟩
  · rw [acted]
    exact h.call ⟨available, w.back.listening⟩ call
  · rw [connection, journal]
    exact h

/-- Whatever happens, the events that are told of a connection after it is made are those of the
beginning of what its server has put on the link, in order and each once. Every handler that stands
registered under the name of an event answers it once, as it is told, and handlers that answer alike
all along have left just their answers to that beginning. Once the link is closed its epoch is over.
Nothing is missing where the owner has not left and all is handled. -/
theorem told_in_order (retryDelay timeout : Nat) (script : Script) (acts : List (WorldAct ω)) :
    let w := (opening retryDelay timeout script : World ω).run acts
    (w.journal.attached.map Prod.fst).Nodup ∧ (w.journal.attached.map Prod.snd).Nodup ∧
    (∀ epoch link, (epoch, link) ∈ w.journal.attached → ∃ taken, taken <+: w.line link ∧
      w.journal.told epoch = .connectionMade :: taken.flatMap LinkEvent.told ∧
      (∀ response, w.journal.AnsweredBy epoch response → w.journal.responses epoch =
        response .connectionMade ++ (taken.flatMap LinkEvent.told).flatMap response) ∧
      (.closed ∈ taken → ¬ w.session.InUse epoch) ∧
      (¬ w.Superseded epoch → w.HandledAll epoch link → taken = w.line link)) ∧
    w.journal.Attended ∧
    (∀ episode ∈ w.journal, episode.call.message?.bind Message.epoch? = none →
      Effect.collect Effect.event? episode.effects = [] ∧ episode.outputs = []) ∧
    ∀ available epoch text, Wire.Update.decode? text = none →
      w.connection.handle available (.transport epoch (.message text)) = (w.connection, [], []) := by
  intro w
  have h : w.Sound := sound_run (sound_opening retryDelay timeout script) acts
  have attended := (records_run retryDelay timeout script acts).attended
  refine ⟨h.epochs, (List.nodup_append.mp h.links).1, fun epoch link attached => ?_, attended, ?_, ?_⟩
  · have heard := h.heard _ attached
    refine ⟨w.journal.taken epoch, h.taken_begins attached, heard.told, fun response steady => ?_,
      fun closed used => ?_, h.taken_all attached⟩
    · rw [attended.responses steady, heard.told, List.flatMap_cons]
    · obtain ⟨all, still⟩ := heard.used used
      exact still (all ▸ closed)
  · intro episode member aside
    have silent := h.aside episode member aside
    obtain ⟨earlier, later, split⟩ := List.append_of_mem member
    refine ⟨silent, ?_⟩
    rw [attended _ _ _ split, silent, List.flatMap_nil]
  · intro available epoch text unreadable
    have nothing : w.session.handle available (.transport epoch (.message text)) =
        (w.session, []) := by
      simp [Session.handle, Session.handleTransport, unreadable]
    rw [Connection.handle, Connection.settle, nothing]
    rfl

end World

end TileClient.Rehearsal
