import Mathlib.Data.List.Perm.Subperm
import TileClient.Proofs.Rehearsal.Adrift
import TileClient.Proofs.Rehearsal.Callers
import TileClient.Proofs.Session.Finality
import TileClient.Proofs.Session.Leftovers

/-! Nothing works for a session behind its back: a task that is not cancelled is one that the
session holds, and a link that is read is minded by a pump or waits in a report. At the end of a
session, then, all tasks are cancelled, and the links go with them. -/
namespace TileClient

theorem Session.Transition.minds {ω : Type} {s t : Session} {effects : List Effect} {epoch link : Nat}
    (step : s.Transition (.handle (.opened epoch link) : Call ω) effects t) :
    .release link ∈ effects ∨ link ∈ (Effect.collect Effect.pump? effects).map Prod.snd := by
  cases step with
  | superseded => exact .inl List.mem_cons_self
  | opened => exact .inr List.mem_cons_self

/-- What a call starts is held after it. -/
theorem Session.Transition.starts_held {ω : Type} {s t : Session} {call : Call ω}
    {effects : List Effect} (step : s.Transition call effects t) {name : TaskName}
    (started : name ∈ Effect.collect Effect.started? effects) : name ∈ t.holdings := by
  cases step with
  | kept | sent | superseded | told | ended | stranded => simp [Effect.started?] at started
  | started | retried | failed | closed =>
    have asked : name = .request (s.discovery.attempt + 1) := by simpa [Effect.started?] using started
    simp [asked, holdings, Discovery.holdings, searching, lost, Discovery.asked]
  | refused =>
    have rests : name = .pause s.discovery.attempt := by simpa [Effect.started?] using started
    simp [rests, holdings, Discovery.holdings, Discovery.pauses, Discovery.paused]
  | dialled | found =>
    have calls : name = .dial (s.epoch + 1) := by simpa [Effect.started?] using started
    simp [calls, holdings, lines, dialling]
  | opened =>
    have pumps : name = .pump s.epoch := by simpa [Effect.started?] using started
    simp [pumps, holdings, lines, joined]

namespace Rehearsal

def Task.dial? : Task → Option Nat
  | .dial epoch _ _ => some epoch
  | .request _ _ | .pause _ _ | .pump _ _ => none

namespace Backstage

/-- The epochs of the dials under way, and of those whose report waits. -/
def dialling (b : Backstage) : List Nat :=
  b.tasks.filterMap (·.task.dial?) ++ b.mailbox.filterMap Message.dial?

/-- The links that somebody minds: those of the pumps, and those whose report waits. -/
def minded (b : Backstage) : List Nat := b.pumps.map Prod.snd ++ b.mailbox.filterMap Message.link?

def reads (b : Backstage) (link : Nat) : Bool := ((b.links[link]?).map (·.reading)).getD false

/-- Nobody is at work: what tasks there are have been cancelled, and a link that is still read is
that of one of them, or of a report that nobody has taken. -/
structure Deserted (b : Backstage) : Prop where
  cancelled : ∀ e ∈ b.tasks, e.cancelled = true
  minded : ∀ link, b.reads link = true → link ∈ b.minded

theorem reads_of_release {b : Backstage} {own link : Nat}
    (reads : (b.updateLink own Link.release).reads link = true) :
    link ≠ own ∧ b.reads link = true := by
  rw [Backstage.reads, read_updateLink] at reads
  split at reads
  · cases here : b.links[link]? <;> simp [here, Link.release] at reads
  · rename_i other
    exact ⟨Ne.symm other, reads⟩

theorem reads_of_fresh {b c : Backstage} (links : c.links = b.links ++ [.fresh]) {link : Nat}
    (reads : c.reads link = true) : b.reads link = true ∨ link = b.links.length := by
  rw [Backstage.reads, links, List.getElem?_append] at reads
  split at reads
  · exact .inl reads
  · rename_i beyond
    rw [List.getElem?_singleton] at reads
    split at reads
    · exact .inr (by omega)
    · cases reads

theorem reads_of_next (b : Backstage) {link : Nat} {l rest : Link} {event : LinkEvent}
    (here : b.links[link]? = some l) (next : l.next? = some (event, rest)) (other : Nat) :
    (b.updateLink link fun _ => rest).reads other = b.reads other :=
  b.read_of_same here other (·.reading) false (congrArg (·.reading) (Link.eq_of_next next))

theorem Turned.subset {b c : Backstage} (turned : b.Turned c) : c.tasks ⊆ b.tasks := by
  cases turned with
  | idle | forwarded => exact List.Subset.refl _
  | replied _ split | rested split | opened split | failed _ split | closed split | dropped split
    | released split =>
    rw [split]
    exact ((List.sublist_cons_self _ _).append_left _).subset

private theorem dialling_of_left {b c : Backstage} {before after : List Entry} {e : Entry}
    {more : List Message} (split : b.tasks = before ++ e :: after)
    (tasks : c.tasks = before ++ after) (mailbox : c.mailbox = b.mailbox ++ more)
    (reports : (more.filterMap Message.dial?).Sublist e.task.dial?.toList) :
    c.dialling.Subperm b.dialling := by
  have were : b.dialling = before.filterMap (·.task.dial?) ++
      (e.task.dial?.toList ++ (after.filterMap (·.task.dial?) ++
        b.mailbox.filterMap Message.dial?)) := by
    rw [dialling, split, List.filterMap_append, List.append_assoc]
    cases dial : e.task.dial? <;> simp [dial]
  have now : c.dialling = before.filterMap (·.task.dial?) ++ ((after.filterMap (·.task.dial?) ++
      b.mailbox.filterMap Message.dial?) ++ more.filterMap Message.dial?) := by
    simp only [dialling, tasks, mailbox, List.filterMap_append, List.append_assoc]
  rw [were, now]
  refine (List.subperm_append_left _).mpr ?_
  exact (reports.append_left _).subperm.trans List.perm_append_comm.subperm

theorem Turned.dialling {b c : Backstage} (turned : b.Turned c) :
    c.dialling.Subperm b.dialling := by
  cases turned with
  | idle => exact List.Subperm.refl _
  | forwarded =>
    simpa [Backstage.dialling, post, updateLink, List.filterMap_cons, Message.dial?] using
      List.Subperm.refl b.dialling
  | replied _ split | rested split => exact dialling_of_left split rfl rfl (List.nil_sublist _)
  | closed split =>
    exact dialling_of_left split rfl rfl (List.nil_sublist _)
  | dropped split | released split =>
    exact dialling_of_left split rfl (List.append_nil _).symm (List.nil_sublist _)
  | opened split task | failed _ split task =>
    refine dialling_of_left split rfl rfl ?_
    rw [task]
    exact List.Sublist.refl _

private theorem minded_of_left {b c : Backstage} {before after : List Entry} {e : Entry}
    {more : List Message} (split : b.tasks = before ++ e :: after)
    (tasks : c.tasks = before ++ after) (mailbox : c.mailbox = b.mailbox ++ more) {link : Nat}
    (minded : link ∈ b.minded) : link ∈ c.minded ∨ ∃ epoch, e.task = .pump epoch link := by
  rcases List.mem_append.mp minded with pump | report
  · obtain ⟨p, was, rfl⟩ := List.mem_map.mp pump
    by_cases still : p ∈ c.pumps
    · exact .inl (List.mem_append_left _ (List.mem_map_of_mem still))
    · exact .inr ⟨p.1, Task.eq_of_pump? (pump_of_split split tasks was still)⟩
  · refine .inl (List.mem_append_right _ ?_)
    rw [mailbox, List.filterMap_append]
    exact List.mem_append_left _ report

/-- Whoever stops minding a link lets go of it. -/
theorem Turned.minds {b c : Backstage} (turned : b.Turned c)
    (h : ∀ link, b.reads link = true → link ∈ b.minded) :
    ∀ link, c.reads link = true → link ∈ c.minded := by
  intro link reads
  cases turned with
  | idle => exact h link reads
  | replied _ split task | rested split task | failed _ split task =>
    refine (minded_of_left split rfl rfl (h link reads)).resolve_right ?_
    simp [task]
  | opened split task =>
    rcases reads_of_fresh rfl reads with old | new
    · refine (minded_of_left split rfl rfl (h link old)).resolve_right ?_
      simp [task]
    · refine List.mem_append_right _ ?_
      simp [Message.link?, new]
  | forwarded member task here next =>
    have old : b.reads link = true :=
      (b.reads_of_next here next link).symm.trans reads
    simpa [Backstage.minded, post, updateLink, pumps, List.filterMap_cons, Message.link?] using
      h link old
  | @closed before after e epoch own l rest split task here next =>
    obtain ⟨other, reads⟩ := reads_of_release reads
    have same := reads_of_next { b with tasks := before ++ after } here next link
    have old : b.reads link = true := same.symm.trans reads
    refine (minded_of_left split rfl rfl (h link old)).resolve_right ?_
    simp [task, other.symm]
  | @dropped before after e split cancelled noPump =>
    have minded := minded_of_left (c := { b with tasks := before ++ after }) split rfl
      (List.append_nil _).symm (h link reads)
    refine minded.resolve_right ?_
    rintro ⟨epoch, pump⟩
    exact noPump epoch link pump
  | @released before after e epoch own split cancelled task =>
    obtain ⟨other, old⟩ := reads_of_release reads
    have minded := minded_of_left (c := { b with tasks := before ++ after }) split rfl
      (List.append_nil _).symm (h link old)
    refine minded.resolve_right ?_
    simp [task, other.symm]

theorem reads_perform {b : Backstage} {effect : Effect} {link : Nat}
    (reads : (b.perform effect).reads link = true) :
    b.reads link = true ∧ effect ≠ .release link := by
  cases effect with
  | request | pause | dial | pump | publish => exact ⟨reads, by simp⟩
  | release own =>
    obtain ⟨other, old⟩ := reads_of_release reads
    exact ⟨old, fun same => other (Effect.release.inj same).symm⟩
  | transmit own text =>
    have same : (b.perform (.transmit own text)).reads link = b.reads link :=
      b.read_of_kept own link (·.reading) false fun _ => rfl
    exact ⟨same.symm.trans reads, by simp⟩
  | cancel name =>
    obtain ⟨ready, cancelled⟩ := b.cancel_eq name
    rw [perform, cancelled] at reads
    exact ⟨reads, by simp⟩

theorem reads_performAll {b : Backstage} {effects : List Effect} {link : Nat}
    (reads : (b.performAll effects).reads link = true) :
    b.reads link = true ∧ .release link ∉ effects := by
  induction effects generalizing b with
  | nil => exact ⟨reads, List.not_mem_nil⟩
  | cons effect effects ih =>
    obtain ⟨first, rest⟩ := ih reads
    obtain ⟨old, kept⟩ := reads_perform first
    exact ⟨old, List.not_mem_cons_of_ne_of_not_mem kept.symm rest⟩

theorem dials_performAll (b : Backstage) (effects : List Effect) :
    (b.performAll effects).tasks.filterMap (·.task.dial?) =
      b.tasks.filterMap (·.task.dial?) ++ Effect.collect Effect.dial? effects := by
  induction effects generalizing b with
  | nil => simp [performAll]
  | cons effect effects ih =>
    have first : (b.perform effect).tasks.filterMap (·.task.dial?) =
        b.tasks.filterMap (·.task.dial?) ++ (Effect.dial? effect).toList := by
      cases effect with
      | request | pause | dial | pump => simp [perform, spawn, Task.dial?]
      | release | transmit | publish => simp [perform, updateLink]
      | cancel name =>
        obtain ⟨ready, cancelled⟩ := b.cancel_eq name
        simp [perform, cancelled, List.filterMap_map]
    rw [Effect.collect_cons, ← List.append_assoc, ← first]
    exact ih (b.perform effect)

private theorem alive_of_perform {b : Backstage} {effect : Effect} {e : Entry}
    (member : e ∈ (b.perform effect).tasks) (alive : e.cancelled = false) :
    (∃ old ∈ b.tasks, old.task = e.task ∧ old.cancelled = false ∧ effect ≠ .cancel e.task.name) ∨
      Effect.started? effect = some e.task.name := by
  cases effect with
  | request | pause | dial | pump =>
    rcases List.mem_append.mp member with old | new
    · exact .inl ⟨e, old, rfl, alive, nofun⟩
    · rw [List.mem_singleton.mp new]
      exact .inr rfl
  | release | transmit | publish => exact .inl ⟨e, member, rfl, alive, nofun⟩
  | cancel name =>
    obtain ⟨ready, cancelled⟩ := b.cancel_eq name
    rw [perform, cancelled] at member
    obtain ⟨old, isOld, rfl⟩ := List.mem_map.mp member
    by_cases named : old.task.name = name
    · simp [Entry.givenUp, named] at alive
    · refine .inl ⟨old, isOld, (Entry.givenUp_task _ _).symm, ?_, ?_⟩
      · simpa [Entry.givenUp, named] using alive
      · simpa using Ne.symm named

/-- A task that is not cancelled was there before, and has not been given up, or it was started. -/
theorem alive_of_performAll {b : Backstage} {effects : List Effect} {e : Entry}
    (member : e ∈ (b.performAll effects).tasks) (alive : e.cancelled = false) :
    (∃ old ∈ b.tasks, old.task = e.task ∧ old.cancelled = false ∧
        .cancel e.task.name ∉ effects) ∨
      e.task.name ∈ Effect.collect Effect.started? effects := by
  induction effects generalizing b with
  | nil => exact .inl ⟨e, member, rfl, alive, List.not_mem_nil⟩
  | cons effect effects ih =>
    rcases ih member with ⟨own, isOwn, same, running, kept⟩ | started
    · rcases alive_of_perform isOwn running with ⟨old, isOld, was, first, other⟩ | started
      · refine .inl ⟨old, isOld, was.trans same, first, ?_⟩
        exact List.not_mem_cons_of_ne_of_not_mem (same ▸ other).symm kept
      · refine .inr ?_
        rw [Effect.collect_cons, started, same]
        exact List.mem_cons_self
    · rw [Effect.collect_cons]
      exact .inr (List.mem_append_right _ started)

end Backstage

namespace World

variable {ω : Type} {w : World ω}

/-- What holds of a world and of those who work in it at any time. Search and lines are told apart
since a search has one piece of work at most. -/
structure Orderly (w : World ω) : Prop where
  seeks : w.Seeks
  once : w.back.dialling.Nodup
  known : ∀ epoch ∈ w.back.dialling, epoch ≤ w.connection.session.epoch
  held : ∀ e ∈ w.back.tasks, e.task.seeks = false → e.cancelled = false →
    e.task.name ∈ w.connection.session.lines
  minded : ∀ link, w.back.reads link = true → link ∈ w.back.minded

namespace Orderly

theorem turn (h : w.Orderly) (turn : Turn) : (w.act (.turn turn)).Orderly := by
  have turned := h.seeks.numbered.turned turn
  obtain ⟨dials, perm, among⟩ := turned.dialling
  exact ⟨h.seeks.turn turn, perm.nodup_iff.mp (h.once.sublist among),
    fun epoch member => h.known epoch (turned.dialling.subset member),
    fun e member => h.held e (turned.subset member), turned.minds h.minded⟩

theorem serve (h : w.Orderly) (link : Nat) (serving : Serving) :
    (w.act (.serve link serving)).Orderly := by
  have seeks := h.seeks.serve link serving
  simp only [World.act] at seeks ⊢
  split
  · exact h
  · rename_i back done acted
    rw [acted] at seeks
    obtain ⟨l, ready, here, -, rfl⟩ := Backstage.eq_of_server acted
    have reading : (serving.act l).1.reading = l.reading := by
      cases serving with
      | post event =>
        simp only [Serving.act, Link.post]
        split <;> rfl
      | stopPosting | stopListening => rfl
    refine ⟨seeks, h.once, h.known, h.held, fun other reads => h.minded other ?_⟩
    exact (w.back.read_of_same here other (·.reading) false reading).symm.trans reads

/-- Whatever works on a connection after a call is held by the session. -/
theorem held_call (h : w.Orderly) (outside : Outside) {call : Call ω} {rest : List Message}
    (mailbox : w.back.mailbox = call.message?.toList ++ rest) {e : Entry}
    (member : e ∈ (Backstage.performAll { w.back with mailbox := rest }
      (w.connection.call outside call).2.1).tasks)
    (line : e.task.seeks = false) (alive : e.cancelled = false) :
    e.task.name ∈ (w.connection.call outside call).1.session.lines := by
  have records := h.seeks.records
  have step := records.step outside call
  rcases Backstage.alive_of_performAll member alive with ⟨old, isOld, same, running, kept⟩ | started
  · have before : e.task.name ∈ w.connection.session.lines :=
      same ▸ h.held old isOld (same ▸ line) running
    refine Decidable.byContradiction fun gone => ?_
    rcases step.lets_go records.coherent records.numbered before gone with
      cancelled | ⟨dial, m, rfl, source⟩
    · exact kept cancelled
    · -- the dial of this epoch has reported, and cannot be under way
      have task : old.task.dial? = some w.connection.session.epoch := by
        rw [same]
        cases task : e.task <;> simp_all [Task.name, Task.dial?]
      have report : m.dial? = some w.connection.session.epoch :=
        Message.dial?_of_source (source.trans dial)
      have apart := (List.nodup_append.mp h.once).2.2
      refine apart _ (List.mem_filterMap.mpr ⟨old, isOld, task⟩) _ ?_ rfl
      rw [mailbox]
      exact List.mem_filterMap.mpr ⟨m, List.mem_cons_self, report⟩
  · refine (List.mem_append.mp (step.starts_held started)).resolve_left fun search => ?_
    cases task : e.task <;>
      simp_all [Task.name, Task.seeks, Discovery.holdings, Discovery.pauses]

/-- A call begins one dial at most, of an epoch of its own, and may take the report of another. -/
theorem dialling_call (h : w.Orderly) (outside : Outside) {call : Call ω} {rest : List Message}
    (mailbox : w.back.mailbox = call.message?.toList ++ rest) :
    let called := w.connection.call outside call
    let dials := (Backstage.performAll { w.back with mailbox := rest } called.2.1).dialling
    ∃ earlier, earlier.Sublist w.back.dialling ∧
      (dials = earlier ∧ w.connection.session.epoch ≤ called.1.session.epoch ∨
        dials.Perm ((w.connection.session.epoch + 1) :: earlier) ∧
          called.1.session.epoch = w.connection.session.epoch + 1) := by
  intro called dials
  let b : Backstage := { w.back with mailbox := rest }
  refine ⟨b.dialling, ?_, ?_⟩
  · rw [Backstage.dialling, Backstage.dialling, mailbox, List.filterMap_append]
    exact (List.sublist_append_right _ _).append_left _
  · have begun : dials = b.tasks.filterMap (·.task.dial?) ++
        Effect.collect Effect.dial? called.2.1 ++ rest.filterMap Message.dial? := by
      simp only [dials, Backstage.dialling, Backstage.dials_performAll,
        (Backstage.sameLines_performAll _ called.2.1).mailbox, b]
    rw [begun]
    rcases (h.seeks.records.step outside call).epoch with ⟨none, rises, -⟩ | ⟨one, moved⟩
    · rw [none, List.append_nil]
      exact .inl ⟨rfl, rises⟩
    · rw [one, List.append_assoc]
      exact .inr ⟨List.perm_middle, moved⟩

/-- Whoever minds a link still minds it after a call, or the link is let go of. -/
theorem minded_call (h : w.Orderly) (outside : Outside) {call : Call ω} {rest : List Message}
    (mailbox : w.back.mailbox = call.message?.toList ++ rest) {link : Nat}
    (reads : (Backstage.performAll { w.back with mailbox := rest }
      (w.connection.call outside call).2.1).reads link = true) :
    link ∈ (Backstage.performAll { w.back with mailbox := rest }
      (w.connection.call outside call).2.1).minded := by
  have step := h.seeks.records.step outside call
  obtain ⟨old, kept⟩ := Backstage.reads_performAll reads
  have minded := h.minded link old
  rw [Backstage.minded, mailbox, List.filterMap_append, List.mem_append, List.mem_append] at minded
  rw [Backstage.minded, Backstage.pumps_performAll, List.map_append,
    (Backstage.sameLines_performAll _ _).mailbox]
  rcases minded with pump | report | report
  · exact List.mem_append_left _ (List.mem_append_left _ pump)
  · obtain ⟨m, handled, brings⟩ := List.mem_filterMap.mp report
    obtain ⟨epoch, rfl⟩ : ∃ epoch, call = .handle (.opened epoch link) := by
      cases call with
      | order => cases handled
      | handle m' =>
        obtain rfl := List.mem_singleton.mp handled
        cases m <;> simp_all [Message.link?]
    exact List.mem_append_left _ (List.mem_append_right _ (step.minds.resolve_left kept))
  · exact List.mem_append_right _ report

theorem call (h : w.Orderly) (available : Bool) {call : Call ω} {rest : List Message}
    (mailbox : w.back.mailbox = call.message?.toList ++ rest)
    (seeks : Seeks ({ w with back := { w.back with mailbox := rest } }.call available call)) :
    Orderly ({ w with back := { w.back with mailbox := rest } }.call available call) := by
  let outside : Outside := ⟨available, w.back.listening⟩
  obtain ⟨earlier, among, dials⟩ := h.dialling_call outside mailbox
  have known : ∀ epoch ∈ earlier, epoch ≤ w.connection.session.epoch := fun epoch member =>
    h.known epoch (among.subset member)
  refine ⟨seeks, ?_, ?_, fun e => h.held_call outside mailbox,
    fun link => h.minded_call outside mailbox⟩
  · rcases dials with ⟨same, -⟩ | ⟨more, -⟩
    · exact same.symm ▸ h.once.sublist among
    · refine more.nodup_iff.mpr (List.nodup_cons.mpr ⟨fun old => ?_, h.once.sublist among⟩)
      exact absurd (known _ old) (Nat.not_succ_le_self _)
  · intro epoch member
    rcases dials with ⟨same, rises⟩ | ⟨more, moved⟩
    · exact Nat.le_trans (known epoch (same ▸ member)) rises
    · refine Nat.le_trans ?_ (Nat.le_of_eq moved.symm)
      rcases List.mem_cons.mp (more.subset member) with new | old
      · exact Nat.le_of_eq new
      · exact Nat.le_succ_of_le (known epoch old)

end Orderly

theorem orderly_act (h : w.Orderly) (act : WorldAct ω) : (w.act act).Orderly := by
  have seeks := seeks_act h.seeks act
  cases act with
  | order available order => exact h.call available (List.nil_append _).symm seeks
  | take available =>
    simp only [World.act] at seeks ⊢
    split at seeks
    · exact h
    · exact h.call available ‹_› seeks
  | turn turn => exact h.turn turn
  | serve link serving => exact h.serve link serving

theorem orderly_opening (retryDelay timeout : Nat) (script : Script) :
    (opening retryDelay timeout script : World ω).Orderly :=
  ⟨seeks_opening retryDelay timeout script, List.nodup_nil, nofun, nofun, nofun⟩

theorem orderly_run (h : w.Orderly) (acts : List (WorldAct ω)) : (w.run acts).Orderly :=
  run_preserves (fun _ => orderly_act) h acts

/-- At the end of a session nothing works for it any more. -/
theorem Orderly.deserted (h : w.Orderly) (ended : w.connection.session.Over) : w.back.Deserted := by
  refine ⟨fun e member => ?_, h.minded⟩
  cases seeks : e.task.seeks with
  | true => exact h.seeks.cancelled_of_idle ended.idle member seeks
  | false =>
    refine Bool.of_not_eq_false fun alive => ?_
    have held : e.task.name ∈ w.connection.session.holdings :=
      List.mem_append_right _ (h.held e member seeks alive)
    rw [ended.holdings] at held
    cases held

/-- Every task has a turn, and after that all reports that wait are taken. -/
def sweep (w : World ω) (available : Bool) : World ω :=
  w.run ((w.back.tasks.map fun e => .turn (.discard e.id)) ++
    List.replicate w.back.mailbox.length (.take available))

private theorem run_discards (numbered : w.back.Numbered)
    (cancelled : ∀ e ∈ w.back.tasks, e.cancelled = true) :
    let v := w.run (w.back.tasks.map fun e => .turn (.discard e.id))
    v.back.tasks = [] ∧ v.back.mailbox = w.back.mailbox ∧ v.connection = w.connection := by
  generalize all : w.back.tasks = tasks at cancelled
  induction tasks generalizing w with
  | nil => exact ⟨all, rfl, rfl⟩
  | cons e tasks ih =>
    have ids := numbered.nodup
    rw [all, List.map_cons, List.nodup_cons] at ids
    have others : (e :: tasks).filter (·.id != e.id) = tasks := by
      rw [List.filter_cons_of_neg (by simp)]
      refine List.filter_eq_self.mpr fun other member => ?_
      exact bne_iff_ne.mpr fun same => ids.1 (same ▸ List.mem_map_of_mem member)
    have first : (w.back.turn (.discard e.id)).tasks = tasks ∧
        (w.back.turn (.discard e.id)).mailbox = w.back.mailbox := by
      have found : w.back.tasks.find? (·.id = e.id) = some e := by simp [all]
      simp only [Backstage.turn, found, cancelled e List.mem_cons_self, if_true, Backstage.discard]
      split <;> exact ⟨(congrArg _ all).trans others, rfl⟩
    have next : (w.back.turn (.discard e.id)).Numbered := (numbered.turned _).numbered numbered
    obtain ⟨none, mailbox, connection⟩ := ih (w := w.act (.turn (.discard e.id))) next first.1
      fun other member => cancelled other (List.mem_cons_of_mem _ member)
    exact ⟨none, mailbox.trans first.2, connection⟩

private theorem run_takes (ended : w.connection.session.Over) (none : w.back.tasks = [])
    (available : Bool) :
    let v := w.run (List.replicate w.back.mailbox.length (.take available))
    v.back.tasks = [] ∧ v.back.mailbox = [] := by
  generalize all : w.back.mailbox = mailbox
  induction mailbox generalizing w with
  | nil => exact ⟨none, all⟩
  | cons m rest ih =>
    let v : World ω := { w with back := { w.back with mailbox := rest } }
    obtain ⟨session, left⟩ :=
      Connection.call_of_over ended ⟨available, v.back.listening⟩ (.handle m) rfl
    have taken : w.act (.take available) = v.call available (.handle m) := by
      simp only [World.act, all]
      rfl
    have back : (v.call available (.handle m)).back = v.back.performAll m.leftovers :=
      congrArg (fun effects => v.back.performAll effects) (congrArg Prod.fst left)
    have still : (v.call available (.handle m)).connection.session.Over := by
      rw [World.call, session]
      exact ended
    rw [List.length_cons, List.replicate_succ, World.run, List.foldl_cons, taken]
    refine ih still ?_ ?_
    · rw [back]
      cases m <;> exact none
    · rw [back]
      cases m <;> rfl

theorem Orderly.sweep (h : w.Orderly) (ended : w.connection.session.Over) (available : Bool) :
    (w.sweep available).back.tasks = [] ∧ (w.sweep available).back.mailbox = [] ∧
      ∀ link, (w.sweep available).back.reads link = false := by
  obtain ⟨none, mailbox, connection⟩ := run_discards h.seeks.numbered (h.deserted ended).cancelled
  obtain ⟨tasks, reports⟩ := run_takes (connection ▸ ended) none available
  rw [mailbox] at tasks reports
  have swept : w.sweep available = (w.run (w.back.tasks.map fun e => .turn (.discard e.id))).run
      (List.replicate w.back.mailbox.length (.take available)) := List.foldl_append
  rw [← swept] at tasks reports
  refine ⟨tasks, reports, fun link => Bool.eq_false_iff.mpr fun reads => ?_⟩
  have swept : (w.sweep available).Orderly := orderly_run h _
  have minded := swept.minded link reads
  rw [Backstage.minded, Backstage.pumps, tasks, reports] at minded
  cases minded

end World

/-- An act that sets a session going. -/
def WorldAct.revives {ω : Type} : WorldAct ω → Bool
  | .order available own => (Call.order own).revives available
  | .take _ | .turn _ | .serve _ _ => false

def WorldAct.isShutdown {ω : Type} : WorldAct ω → Bool
  | .order _ own => (Call.order own).isShutdown
  | .take _ | .turn _ | .serve _ _ => false

namespace World

variable {ω : Type}

/-- As far as a connection goes, what happens in its world are calls. -/
theorem calls_of_run (w : World ω) (acts : List (WorldAct ω)) :
    ∃ calls : List (Outside × Call ω), (w.run acts).connection = w.connection.after calls ∧
      (w.run acts).journal = w.journal ++ w.connection.history calls ∧
      acts.countP WorldAct.isShutdown = calls.countP (·.2.isShutdown) ∧
      ((∀ act ∈ acts, act.revives = false) →
        ∀ call ∈ calls, call.2.revives call.1.available = false) := by
  induction acts generalizing w with
  | nil => exact ⟨[], rfl, (List.append_nil _).symm, rfl, fun _ => List.forall_mem_nil _⟩
  | cons act acts ih =>
    obtain ⟨calls, connection, journal, counted, stay⟩ := ih (w.act act)
    rcases w.act_cases act with ⟨available, call, rest, -, acted, origin⟩ | ⟨unordered, same, quiet⟩
    · have called : act.isShutdown = call.isShutdown ∧ act.revives = call.revives available := by
        rcases origin with ⟨order, rfl, rfl⟩ | ⟨m, rfl, rfl⟩ <;> exact ⟨rfl, rfl⟩
      let outside : Outside := ⟨available, w.back.listening⟩
      have next : (w.act act).connection = (w.connection.call outside call).1 :=
        congrArg World.connection acted
      have longer : (w.act act).journal = w.journal ++ [w.connection.episode outside call] :=
        congrArg World.journal acted
      rw [next] at connection journal
      rw [longer, List.append_assoc] at journal
      refine ⟨(outside, call) :: calls, connection, journal, ?_, fun all => ?_⟩
      · rw [List.countP_cons, List.countP_cons, counted, called.1]
      · obtain ⟨first, others⟩ := List.forall_mem_cons.mp all
        exact List.forall_mem_cons.mpr ⟨called.2.symm.trans first, stay others⟩
    · have other : act.isShutdown = false := by
        cases act with
        | order available order => exact absurd rfl (unordered available order)
        | take | turn | serve => rfl
      rw [same] at connection journal
      rw [quiet] at journal
      refine ⟨calls, connection, journal, ?_, fun all => stay (List.forall_mem_cons.mp all).2⟩
      rw [List.countP_cons_of_neg (by simp [other]), counted]

end World

end Rehearsal

end TileClient
