import Mathlib.Data.List.Nodup
import TileClient.Proofs.Rehearsal.World

/-! Pumps forward what is put on their links, in order and as far as they come. This is kept up by
every turn of a task and by everything a server does. -/
namespace TileClient.Rehearsal

namespace World

variable {ω : Type}

abbrev session (w : World ω) : Session := w.connection.session

/-- What holds of a world at any time, for the connections that were attached and the links that
were not. -/
structure Sound (w : World ω) : Prop where
  numbered : w.back.Numbered
  coherent : w.session.Coherent
  silent : ∀ epoch, ¬ w.session.Joined epoch → w.journal.told epoch = []
  heard : ∀ p ∈ w.journal.attached, w.journal.Heard w.session p.1
  aside : ∀ episode ∈ w.journal, episode.call.message?.bind Message.epoch? = none →
    Effect.collect Effect.event? episode.effects = []
  epochs : (w.journal.attached.map Prod.fst).Nodup
  links : (w.journal.attached.map Prod.snd ++ w.back.mailbox.filterMap Message.link?).Nodup
  made : ∀ link ∈ w.journal.attached.map Prod.snd ++ w.back.mailbox.filterMap Message.link?,
    link < w.back.links.length
  pumps : w.back.pumps.Sublist w.journal.attached
  sources : ∀ epoch, epoch ∉ w.journal.attached.map Prod.fst → w.forwarded epoch = []
  untouched : ∀ link, link ∉ w.journal.attached.map Prod.snd → w.puts link = w.back.inbox link
  running : ∀ p ∈ w.back.pumps,
    w.puts p.2 = w.forwarded p.1 ++ w.back.inbox p.2 ∧ .closed ∉ w.forwarded p.1
  stopped : ∀ p ∈ w.journal.attached, p ∉ w.back.pumps →
    w.forwarded p.1 <+: w.line p.2 ∧ (w.session.InUse p.1 → .closed ∈ w.forwarded p.1)
  alive : ∀ e ∈ w.back.tasks, ∀ epoch link, e.task = .pump epoch link →
    w.session.InUse epoch → e.cancelled = false

theorem sound_opening (retryDelay timeout : Nat) (script : Script) :
    (opening retryDelay timeout script : World ω).Sound := by
  constructor
  · exact ⟨List.nodup_nil, by simp [opening, Backstage.opening]⟩
  · exact Session.fresh_coherent
  · exact fun _ _ => rfl
  · simp [opening, Journal.attached]
  · simp [opening]
  · exact List.nodup_nil
  · exact List.nodup_nil
  · simp [opening, Journal.attached, Backstage.opening]
  · exact List.Sublist.refl _
  · exact fun _ _ => rfl
  · exact fun _ _ => rfl
  · simp [opening, Backstage.opening, Backstage.pumps]
  · simp [opening, Journal.attached]
  · simp [opening, Backstage.opening]

namespace Sound

variable {w : World ω}

/-- The pump of an epoch, running or not, has forwarded the beginning of what its link has to
bring. -/
theorem forwarded_begins (h : w.Sound) {p : Nat × Nat} (attached : p ∈ w.journal.attached) :
    w.forwarded p.1 <+: w.line p.2 := by
  by_cases runs : p ∈ w.back.pumps
  · obtain ⟨puts, still⟩ := h.running p runs
    rw [line, puts, List.append_assoc, LinkEvent.upToClosed_of_not_mem _ still]
    exact List.prefix_append _ _
  · exact (h.stopped p attached runs).1

/-- A turn in which no event is forwarded. -/
theorem of_back (h : w.Sound) {b : Backstage} (numbered : b.Numbered)
    (pumps : b.pumps.Sublist w.back.pumps)
    (alive : ∀ e ∈ b.tasks, ∃ old ∈ w.back.tasks,
      old.task.pump? = e.task.pump? ∧ old.cancelled = e.cancelled)
    (lost : ∀ p ∈ w.back.pumps, p ∉ b.pumps → ¬ w.session.InUse p.1)
    (queued : ∀ epoch, b.queued epoch = w.back.queued epoch)
    (links : (w.journal.attached.map Prod.snd ++ b.mailbox.filterMap Message.link?).Nodup)
    (made : ∀ link ∈ w.journal.attached.map Prod.snd ++ b.mailbox.filterMap Message.link?,
      link < b.links.length)
    (inbox : ∀ link, b.inbox link = w.back.inbox link)
    (hungUp : ∀ link, b.hungUp link = w.back.hungUp link) : Sound { w with back := b } := by
  have forwarded (epoch : Nat) : forwarded { w with back := b } epoch = w.forwarded epoch := by
    rw [World.forwarded, World.forwarded, queued]
  have line (link : Nat) : line { w with back := b } link = w.line link := by
    simp only [World.line, hungUp]
    rfl
  constructor
  · exact numbered
  · exact h.coherent
  · exact h.silent
  · exact h.heard
  · exact h.aside
  · exact h.epochs
  · exact links
  · exact made
  · exact pumps.trans h.pumps
  · intro epoch free
    rw [forwarded]
    exact h.sources epoch free
  · intro link free
    exact (h.untouched link free).trans (inbox link).symm
  · intro p runs
    rw [forwarded, inbox]
    exact h.running p (pumps.subset runs)
  · intro p attached rests
    rw [forwarded, line]
    refine ⟨h.forwarded_begins attached, fun used => ?_⟩
    by_cases ran : p ∈ w.back.pumps
    · exact absurd used (lost p ran rests)
    · exact (h.stopped p attached ran).2 used
  · intro e member epoch link task used
    obtain ⟨old, isOld, same, cancelled⟩ := alive e member
    have pump : old.task.pump? = some (epoch, link) := by rw [same, task, Task.pump?]
    exact cancelled ▸ h.alive old isOld epoch link (Task.eq_of_pump? pump) used

theorem of_leaving (h : w.Sound) {b : Backstage} {before after : List Entry} {e : Entry}
    (numbered : b.Numbered) (split : w.back.tasks = before ++ e :: after)
    (tasks : b.tasks = before ++ after)
    (lost : ∀ p, e.task.pump? = some p → ¬ w.session.InUse p.1)
    (queued : ∀ epoch, b.queued epoch = w.back.queued epoch)
    (links : (w.journal.attached.map Prod.snd ++ b.mailbox.filterMap Message.link?).Nodup)
    (made : ∀ link ∈ w.journal.attached.map Prod.snd ++ b.mailbox.filterMap Message.link?,
      link < b.links.length)
    (inbox : ∀ link, b.inbox link = w.back.inbox link)
    (hungUp : ∀ link, b.hungUp link = w.back.hungUp link) : Sound { w with back := b } := by
  have leaves : b.tasks.Sublist w.back.tasks := by
    rw [tasks, split]
    exact (List.sublist_cons_self _ _).append_left _
  refine h.of_back numbered (leaves.filterMap _) ?_ ?_ queued links made inbox hungUp
  · exact fun e member => ⟨e, leaves.subset member, rfl, rfl⟩
  · exact fun p was gone => lost p (Backstage.pump_of_split split tasks was gone)

theorem eq_of_epoch (h : w.Sound) {p q : Nat × Nat} (one : p ∈ w.journal.attached)
    (other : q ∈ w.journal.attached) (same : p.1 = q.1) : p = q :=
  List.inj_on_of_nodup_map h.epochs one other same

theorem eq_of_link (h : w.Sound) {p q : Nat × Nat} (one : p ∈ w.journal.attached)
    (other : q ∈ w.journal.attached) (same : p.2 = q.2) : p = q :=
  List.inj_on_of_nodup_map (List.nodup_append.mp h.links).1 one other same

/-- A line ends with the event that says the link is closed. -/
theorem line_of_closed (h : w.Sound) {p : Nat × Nat} {l rest : Link} (ran : p ∈ w.back.pumps)
    (here : w.back.links[p.2]? = some l) (next : l.next? = some (.closed, rest)) :
    w.line p.2 = w.forwarded p.1 ++ [.closed] := by
  obtain ⟨puts, still⟩ := h.running p ran
  rw [World.line, puts, List.append_assoc, LinkEvent.upToClosed_of_not_mem _ still,
    w.back.inbox_of_link here, w.back.hungUp_of_link here]
  rcases (Link.cases_of_next next).2 with waits | ⟨empty, -, shut, -⟩
  · rw [waits]
    rfl
  · rw [empty, shut]
    rfl

/-- A turn in which a pump forwards an event. It ends if the event says the link is closed. -/
theorem of_forward (h : w.Sound) {b : Backstage} {p : Nat × Nat} {l rest : Link}
    {event : LinkEvent} (numbered : b.Numbered) (tasks : b.tasks.Sublist w.back.tasks)
    (ran : p ∈ w.back.pumps) (runs : p ∈ b.pumps ↔ event ≠ .closed)
    (others : ∀ q ∈ w.back.pumps, q ≠ p → q ∈ b.pumps)
    (here : w.back.links[p.2]? = some l) (next : l.next? = some (event, rest))
    (mailbox : b.mailbox = w.back.mailbox ++ [.transport p.1 event])
    (links : b.links.length = w.back.links.length)
    (inbox : ∀ link, b.inbox link = if p.2 = link then rest.inbox else w.back.inbox link)
    (hungUp : ∀ link, b.hungUp link = w.back.hungUp link) : Sound { w with back := b } := by
  have attached := h.pumps.subset ran
  obtain ⟨puts, still⟩ := h.running p ran
  have line (link : Nat) : line { w with back := b } link = w.line link := by
    simp only [World.line, hungUp]
    rfl
  have grown : forwarded { w with back := b } p.1 = w.forwarded p.1 ++ [event] := by
    simp [forwarded, Backstage.queued, mailbox, Message.event?]
  have same {epoch : Nat} (other : epoch ≠ p.1) :
      forwarded { w with back := b } epoch = w.forwarded epoch := by
    simp [forwarded, Backstage.queued, mailbox, Message.event?, other.symm]
  have pumps : b.pumps.Sublist w.back.pumps := tasks.filterMap _
  have opened : b.mailbox.filterMap Message.link? = w.back.mailbox.filterMap Message.link? := by
    simp [mailbox, Message.link?]
  constructor
  · exact numbered
  · exact h.coherent
  · exact h.silent
  · exact h.heard
  · exact h.aside
  · exact h.epochs
  · rw [opened]
    exact h.links
  · rw [opened, links]
    exact h.made
  · exact pumps.trans h.pumps
  · intro epoch free
    have other : epoch ≠ p.1 := fun eq => free (eq ▸ List.mem_map_of_mem attached)
    rw [same other]
    exact h.sources epoch free
  · intro link free
    have other : p.2 ≠ link := fun eq => free (eq ▸ List.mem_map_of_mem attached)
    rw [inbox, if_neg other]
    exact h.untouched link free
  · intro q member
    by_cases eq : q = p
    · subst eq
      rcases (Link.cases_of_next next).2 with waits | ⟨-, -, -, rfl⟩
      · refine ⟨?_, ?_⟩
        · rw [grown, inbox, if_pos rfl, List.append_assoc, List.singleton_append, ← waits,
            ← w.back.inbox_of_link here]
          exact puts
        · rw [grown, List.mem_append, List.mem_singleton]
          exact not_or.mpr ⟨still, (runs.mp member).symm⟩
      · exact absurd rfl (runs.mp member)
    · have was := pumps.subset member
      have epoch : q.1 ≠ p.1 := fun same => eq (h.eq_of_epoch (h.pumps.subset was) attached same)
      have link : p.2 ≠ q.2 := fun same => eq (h.eq_of_link (h.pumps.subset was) attached same.symm)
      rw [same epoch, inbox, if_neg link]
      exact h.running q was
  · intro q member rests
    by_cases eq : q = p
    · subst eq
      obtain rfl : event = .closed := Decidable.not_not.mp fun more => rests (runs.mpr more)
      rw [line, grown, h.line_of_closed ran here next]
      exact ⟨List.prefix_rfl, fun _ => List.mem_append_right _ List.mem_cons_self⟩
    · have epoch : q.1 ≠ p.1 := fun same => eq (h.eq_of_epoch member attached same)
      rw [line, same epoch]
      exact h.stopped q member fun was => rests (others q was eq)
  · exact fun e member => h.alive e (tasks.subset member)

theorem of_report (h : w.Sound) {b : Backstage} {m : Message} {before after : List Entry} {e : Entry}
    (numbered : b.Numbered) (split : w.back.tasks = before ++ e :: after)
    (tasks : b.tasks = before ++ after) (noPump : e.task.pump? = none)
    (mailbox : b.mailbox = w.back.mailbox ++ [m]) (noEvent : ∀ epoch, m.event? epoch = none)
    (links : (w.journal.attached.map Prod.snd ++ b.mailbox.filterMap Message.link?).Nodup)
    (made : ∀ link ∈ w.journal.attached.map Prod.snd ++ b.mailbox.filterMap Message.link?,
      link < b.links.length)
    (inbox : ∀ link, b.inbox link = w.back.inbox link)
    (hungUp : ∀ link, b.hungUp link = w.back.hungUp link) :
    Sound { w with back := b } := by
  refine h.of_leaving numbered split tasks ?_ ?_ links made inbox hungUp
  · intro p pump
    rw [noPump] at pump
    cases pump
  · intro epoch
    simp [Backstage.queued, mailbox, noEvent]

theorem of_silent (h : w.Sound) {b : Backstage} {m : Message} {before after : List Entry} {e : Entry}
    (numbered : b.Numbered) (split : w.back.tasks = before ++ e :: after)
    (tasks : b.tasks = before ++ after) (noPump : e.task.pump? = none)
    (mailbox : b.mailbox = w.back.mailbox ++ [m]) (noEvent : ∀ epoch, m.event? epoch = none)
    (noLink : m.link? = none) (links : b.links = w.back.links) : Sound { w with back := b } := by
  have opened : b.mailbox.filterMap Message.link? = w.back.mailbox.filterMap Message.link? := by
    simp [mailbox, noLink]
  refine h.of_report numbered split tasks noPump mailbox noEvent ?_ ?_ ?_ ?_
  · exact opened ▸ h.links
  · exact opened ▸ links ▸ h.made
  · intro link
    rw [Backstage.inbox, links, Backstage.inbox]
  · intro link
    rw [Backstage.hungUp, links, Backstage.hungUp]

theorem of_opened (h : w.Sound) {b : Backstage} {before after : List Entry} {e : Entry}
    {epoch : Nat} (numbered : b.Numbered) (split : w.back.tasks = before ++ e :: after)
    (tasks : b.tasks = before ++ after) (noPump : e.task.pump? = none)
    (mailbox : b.mailbox = w.back.mailbox ++ [.opened epoch w.back.links.length])
    (links : b.links = w.back.links ++ [.fresh]) : Sound { w with back := b } := by
  have opened : w.journal.attached.map Prod.snd ++ b.mailbox.filterMap Message.link? =
      (w.journal.attached.map Prod.snd ++ w.back.mailbox.filterMap Message.link?) ++
        [w.back.links.length] := by
    simp [mailbox, Message.link?]
  refine h.of_report numbered split tasks noPump mailbox (fun _ => rfl) ?_ ?_
    (Backstage.inbox_of_fresh links) (Backstage.hungUp_of_fresh links)
  · rw [opened]
    refine List.nodup_append.mpr ⟨h.links, List.nodup_singleton _, fun link member new isNew => ?_⟩
    rw [List.mem_singleton.mp isNew]
    exact Nat.ne_of_lt (h.made link member)
  · intro link member
    rw [opened] at member
    rw [links, List.length_append, List.length_singleton]
    rcases List.mem_append.mp member with old | new
    · exact Nat.lt_succ_of_lt (h.made link old)
    · exact List.mem_singleton.mp new ▸ Nat.lt_succ_self _

theorem of_discard (h : w.Sound) {b : Backstage} {before after : List Entry} {e : Entry}
    (numbered : b.Numbered) (split : w.back.tasks = before ++ e :: after)
    (tasks : b.tasks = before ++ after) (cancelled : e.cancelled = true)
    (same : w.back.SameLines b) : Sound { w with back := b } := by
  refine h.of_leaving numbered split tasks ?_ ?_ ?_ ?_ same.inbox same.hungUp
  · intro p pump used
    have alive := h.alive e (by simp [split]) p.1 p.2 (Task.eq_of_pump? pump) used
    simp [cancelled] at alive
  · intro epoch
    rw [Backstage.queued, same.mailbox, Backstage.queued]
  · exact same.mailbox ▸ h.links
  · exact same.mailbox ▸ same.links ▸ h.made

theorem not_mem_pumps_of_split (h : w.Sound) {b : Backstage} {before after : List Entry} {e : Entry}
    {p : Nat × Nat} (split : w.back.tasks = before ++ e :: after) (tasks : b.tasks = before ++ after)
    (pump : e.task.pump? = some p) : p ∉ b.pumps := by
  have nodup : w.back.pumps.Nodup := h.pumps.nodup (List.Nodup.of_map _ h.epochs)
  have was : w.back.pumps =
      before.filterMap (·.task.pump?) ++ p :: after.filterMap (·.task.pump?) := by
    simp [Backstage.pumps, split, pump]
  rw [was, List.nodup_middle, List.nodup_cons] at nodup
  rw [Backstage.pumps, tasks, List.filterMap_append]
  exact nodup.1

theorem turn (h : w.Sound) (turn : Turn) : (w.act (.turn turn)).Sound := by
  have turned := h.numbered.turned turn
  have numbered := turned.numbered h.numbered
  simp only [act]
  generalize w.back.turn turn = b at turned numbered
  cases turned with
  | idle => exact h
  | replied reply split task =>
    exact h.of_silent numbered split rfl (by rw [task, Task.pump?]) rfl (fun _ => rfl) rfl rfl
  | rested split task =>
    exact h.of_silent numbered split rfl (by rw [task, Task.pump?]) rfl (fun _ => rfl) rfl rfl
  | failed fault split task =>
    exact h.of_silent numbered split rfl (by rw [task, Task.pump?]) rfl (fun _ => rfl) rfl rfl
  | opened split task =>
    exact h.of_opened numbered split rfl (by rw [task, Task.pump?]) rfl rfl
  | dropped split cancelled =>
    exact h.of_discard numbered split rfl cancelled ⟨rfl, rfl, fun _ => rfl, fun _ => rfl⟩
  | @released before after e epoch link split cancelled task =>
    have left : w.back.SameLines { w.back with tasks := before ++ after } :=
      ⟨rfl, rfl, fun _ => rfl, fun _ => rfl⟩
    exact h.of_discard numbered split rfl cancelled
      (left.trans
        (Backstage.sameLines_updateLink _ link (f := Link.release) (fun _ => rfl) fun _ => rfl))
  | @forwarded e epoch link l rest event member task here next more =>
    have ran : (epoch, link) ∈ w.back.pumps :=
      List.mem_filterMap.mpr ⟨e, member, by rw [task, Task.pump?]⟩
    refine h.of_forward numbered (List.Sublist.refl _) ran ⟨fun _ => more, fun _ => ran⟩
      (fun q was _ => was) here next rfl (List.length_modify ..) ?_ ?_
    · exact w.back.inbox_of_next here
    · exact w.back.hungUp_of_next here next
  | @closed before after e epoch link l rest split task here next =>
    have pump : e.task.pump? = some (epoch, link) := by rw [task, Task.pump?]
    have ran : (epoch, link) ∈ w.back.pumps :=
      List.mem_filterMap.mpr ⟨e, by simp [split], pump⟩
    let base : Backstage := { w.back with tasks := before ++ after }
    let taken := (base.updateLink link fun _ => rest).post (.transport epoch .closed)
    have released := taken.sameLines_updateLink link (f := Link.release) (fun _ => rfl) fun _ => rfl
    have gone := h.not_mem_pumps_of_split (b := base) split rfl pump
    refine h.of_forward numbered ?_ ran ⟨fun runs => absurd runs gone, fun more => absurd rfl more⟩
      ?_ here next rfl ?_ ?_ ?_
    · rw [split]
      exact (List.sublist_cons_self _ _).append_left _
    · intro q was other
      refine Decidable.byContradiction fun gone => other ?_
      have same := Backstage.pump_of_split split rfl was gone
      exact Option.some.inj (same.symm.trans pump)
    · exact released.links.trans (List.length_modify ..)
    · intro other
      exact (released.inbox other).trans (base.inbox_of_next here other)
    · intro other
      exact (released.hungUp other).trans (base.hungUp_of_next here next other)

theorem line_grows {v w : World ω} {link : Nat} {more : List LinkEvent}
    (puts : w.puts link = v.puts link ++ more)
    (shut : v.back.hungUp link = true → w.back.hungUp link = true ∧ more = []) :
    v.line link <+: w.line link := by
  cases before : v.back.hungUp link with
  | true =>
    obtain ⟨after, rfl⟩ := shut before
    have same : w.line link = v.line link := by
      rw [line, line, puts, before, after, List.append_nil]
    exact same ▸ List.prefix_rfl
  | false =>
    rw [line, line, puts, before, if_neg Bool.false_ne_true, List.append_nil, List.append_assoc]
    exact LinkEvent.upToClosed_grows _ _

/-- What a server puts on a link stands behind the rest. -/
theorem of_serve (h : w.Sound) {v : World ω} (more : Nat → List LinkEvent)
    (same : v.connection = w.connection) (journal : v.journal = w.journal)
    (tasks : v.back.tasks = w.back.tasks) (nextId : v.back.nextId = w.back.nextId)
    (mailbox : v.back.mailbox = w.back.mailbox)
    (links : v.back.links.length = w.back.links.length)
    (puts : ∀ link, v.puts link = w.puts link ++ more link)
    (inbox : ∀ link, v.back.inbox link = w.back.inbox link ++ more link)
    (shut : ∀ link, w.back.hungUp link = true → v.back.hungUp link = true ∧ more link = []) :
    v.Sound := by
  have session : v.session = w.session := congrArg Connection.session same
  have pumps : v.back.pumps = w.back.pumps := congrArg (List.filterMap _) tasks
  have forwarded (epoch : Nat) : v.forwarded epoch = w.forwarded epoch := by
    rw [World.forwarded, World.forwarded, journal, Backstage.queued, Backstage.queued, mailbox]
  constructor
  · exact h.numbered.sublist (tasks ▸ List.Sublist.refl _) nextId
  · exact session ▸ h.coherent
  · exact session ▸ journal ▸ h.silent
  · exact session ▸ journal ▸ h.heard
  · exact journal ▸ h.aside
  · exact journal ▸ h.epochs
  · exact journal ▸ mailbox ▸ h.links
  · exact journal ▸ mailbox ▸ links ▸ h.made
  · exact journal ▸ pumps ▸ h.pumps
  · intro epoch free
    rw [forwarded]
    exact h.sources epoch (journal ▸ free)
  · intro link free
    rw [puts, inbox, h.untouched link (journal ▸ free)]
  · intro p runs
    obtain ⟨all, still⟩ := h.running p (pumps ▸ runs)
    rw [puts, inbox, forwarded, all, List.append_assoc]
    exact ⟨rfl, still⟩
  · intro p attached rests
    obtain ⟨part, closed⟩ := h.stopped p (journal ▸ attached) (pumps ▸ rests)
    rw [forwarded, session]
    exact ⟨part.trans (line_grows (puts p.2) (shut p.2)), closed⟩
  · exact session ▸ tasks ▸ h.alive

theorem serve (h : w.Sound) (link : Nat) (serving : Serving) :
    (w.act (.serve link serving)).Sound := by
  simp only [act]
  split
  · exact h
  · rename_i back done served
    obtain ⟨l, ready, here, rfl, rfl⟩ := Backstage.eq_of_server served
    obtain ⟨waits, shut⟩ := serving.accepted_waits l
    refine h.of_serve (fun other => if link = other then serving.accepted l else [])
      rfl rfl rfl rfl rfl (List.length_modify ..) ?_ ?_ ?_
    · intro other
      rw [puts, puts, List.filterMap_append, serving.filterMap_accepted]
    · intro other
      refine (w.back.inbox_of_next here other).trans ?_
      by_cases same : link = other
      · subst same
        rw [if_pos rfl, if_pos rfl, waits, w.back.inbox_of_link here]
      · rw [if_neg same, if_neg same, List.append_nil]
    · intro other before
      by_cases same : link = other
      · subst same
        rw [w.back.hungUp_of_link here, Bool.not_eq_true'] at before
        obtain ⟨after, none⟩ := shut before
        refine ⟨?_, by rw [if_pos rfl, none]⟩
        refine (w.back.hungUp_updateLink link link _).trans ?_
        rw [if_pos rfl, here]
        exact congrArg (!·) after
      · refine ⟨?_, if_neg same⟩
        refine (w.back.hungUp_updateLink link other _).trans ?_
        rw [if_neg same]
        exact before

end Sound

end World

end TileClient.Rehearsal
