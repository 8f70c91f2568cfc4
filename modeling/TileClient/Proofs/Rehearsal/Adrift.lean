import Mathlib.Data.List.Basic
import TileClient.Proofs.Rehearsal.Search
import TileClient.Proofs.Rehearsal.World
import TileClient.Proofs.Session.Records

/-! A session that looks for a server has one piece of work under way that will bring it on, unless
the directory has named a server while no connection could be opened. Then it is adrift: discovery
has stopped, and nothing that is ever reported gets the session out of its search. -/
namespace TileClient

/-- The session looks for a server, and its discovery does not. -/
def Session.Adrift (s : Session) : Prop := s.phase = .discovering ∧ s.discovery.active = false

namespace Session

variable {ω : Type} {s t : Session} {call : Call ω} {effects : List Effect}

theorem Adrift.superseded (h : s.Adrift) (m : Message) : s.Superseded m := by
  obtain ⟨looking, idle⟩ := h
  cases m <;> simp [Superseded, Discovery.isCurrent, looking, idle]

private theorem adrift_iff_of_transition (step : s.Transition call effects t)
    (aside : ∀ m, call ≠ .handle (.discovery m)) : t.Adrift ↔ s.Adrift ∧ t = s := by
  have never {u : Session} (gone : ¬ u.Adrift) : u.Adrift ↔ s.Adrift ∧ u = s :=
    iff_of_false gone fun ⟨before, same⟩ => gone (same ▸ before)
  cases step with
  | kept | sent | superseded | told => simp
  | started => exact never (by simp [Adrift, searching, Discovery.asked])
  | dialled => exact never (by simp [Adrift, dialling])
  | ended => exact never (by simp [Adrift, Session.ended])
  | opened => exact never (by simp [Adrift, joined])
  | failed | closed => exact never (by simp [Adrift, lost, Discovery.asked])
  | refused | retried | found | stranded => exact absurd rfl (aside _)

end Session

variable {ω : Type}

/-- The directory names a server, and no connection can be opened. -/
def Episode.Strands (episode : Episode ω) : Prop :=
  episode.outside.available = false ∧ ∃ m endpoint,
    episode.call = .handle (.discovery m) ∧ episode.before.discovery.finds m = some endpoint

/-- A server has been named in vain, and nothing has changed since. -/
def Journal.Stranded (journal : Journal ω) : Prop :=
  journal.Lasting Episode.Strands fun episode => episode.after = episode.before

theorem Connection.adrift_iff {c : Connection ω} (h : c.session.Coherent) (outside : Outside)
    (call : Call ω) : (c.call outside call).1.session.Adrift ↔
      (c.episode outside call).Strands ∨
        c.session.Adrift ∧ (c.call outside call).1.session = c.session := by
  have step := c.transition_of_call outside call h.tornDown
  -- a session is set adrift by a report of discovery or not at all
  by_cases report : ∃ m, call = .handle (.discovery m)
  · obtain ⟨m, rfl⟩ := report
    have strands : (c.episode outside (.handle (.discovery m))).Strands ↔
        outside.available = false ∧ ∃ endpoint, c.session.discovery.finds m = some endpoint := by
      refine and_congr_right fun _ => ⟨?_, fun ⟨endpoint, found⟩ => ⟨m, endpoint, rfl, found⟩⟩
      rintro ⟨own, endpoint, same, found⟩
      obtain rfl : m = own := by simpa [episode] using same
      exact ⟨endpoint, found⟩
    cases found : c.session.discovery.finds m with
    | none =>
      have same := (c.call_of_not_finds found outside).1
      have active := Discovery.active_of_not_finds found
      rw [strands, found]
      constructor
      · intro adrift
        have before : c.session.Adrift := by
          rw [same] at adrift
          exact ⟨adrift.1, active ▸ adrift.2⟩
        exact .inr ⟨before, by rw [c.call_of_superseded outside (before.superseded _)]⟩
      · rintro (⟨-, endpoint, absurd⟩ | ⟨before, still⟩)
        · cases absurd
        · rwa [still]
    | some endpoint =>
      obtain ⟨current, -⟩ := Discovery.handle_of_finds found
      have active := Discovery.active_of_isCurrent current
      have looking := h.searching active
      rw [strands, found]
      cases available : outside.available with
      | true =>
        rw [(call_of_finds h found available).1]
        simp [Session.Adrift, Session.dialling, active]
      | false =>
        rw [(call_of_finds_in_vain h found available).1]
        simp [Session.Adrift, Discovery.stopped, looking]
  · have never : ¬ (c.episode outside call).Strands := by
      rintro ⟨-, m, -, same, -⟩
      exact report ⟨m, same⟩
    rw [Session.adrift_iff_of_transition step fun m same => report ⟨m, same⟩]
    simp [never]

/-- A session is adrift if and only if it was stranded and nothing has happened since. -/
theorem Journal.Records.adrift_iff {journal : Journal ω} {c : Connection ω}
    (h : journal.Records c) : c.session.Adrift ↔ journal.Stranded := by
  induction h with
  | fresh =>
    refine iff_of_false ?_ not_lasting_nil
    simp [Session.Adrift, Connection.fresh, Session.fresh]
  | call h outside call ih =>
    rw [Connection.adrift_iff h.coherent, Stranded, lasting_concat, ← Stranded, ← ih]
    rfl

/-- An effect that starts and cancels nothing of a discovery. -/
def Effect.Aside : Effect → Prop
  | .request _ | .pause _ | .cancel (.request _) | .cancel (.pause _) => False
  | .dial _ _ | .pump _ _ | .cancel (.dial _) | .cancel (.pump _) | .release _ | .transmit _ _
    | .publish _ => True

theorem Effect.aside_of_line {s : Session} {effect : Effect} (h : effect ∈ s.lines.map .cancel) :
    effect.Aside := by
  obtain ⟨name, line, rfl⟩ := List.mem_map.mp h
  simp only [Session.lines, List.mem_append, List.mem_map] at line
  rcases line with ⟨_, -, rfl⟩ | ⟨_, -, rfl⟩ <;> trivial

theorem Effect.aside_of_lines (s : Session) (last : Effect) (own : last.Aside) :
    ∀ effect ∈ s.lines.map .cancel ++ [last], effect.Aside :=
  List.forall_mem_append.mpr ⟨fun _ => aside_of_line, List.forall_mem_singleton.mpr own⟩

theorem Effect.requests_of_aside {effects : List Effect} (aside : ∀ effect ∈ effects, effect.Aside) :
    Effect.collect Effect.request? effects = [] := by
  refine List.filterMap_eq_nil_iff.mpr fun effect member => ?_
  have := aside effect member
  cases effect <;> simp_all [Effect.Aside]

/-- What a call that brings discovery no report can mean for it: nothing, a new search, or the end
of one. -/
inductive Discovery.Ordered (d d' : Discovery) (effects : List Effect) : Prop
  | idle (same : d' = d) (aside : ∀ effect ∈ effects, effect.Aside)
  | anew {before : List Effect} (asked : d' = d.asked)
      (asks : effects = before ++ (d.holdings.map .cancel ++ [.request (d.attempt + 1)]))
      (aside : ∀ effect ∈ before, effect.Aside)
  | ended {after : List Effect} (stopped : d' = d.stopped)
      (stops : effects = d.holdings.map .cancel ++ after) (aside : ∀ effect ∈ after, effect.Aside)

theorem Session.Transition.ordered {s t : Session} {call : Call ω} {effects : List Effect}
    (step : s.Transition call effects t) (other : ∀ m, call ≠ .handle (.discovery m)) :
    s.discovery.Ordered t.discovery effects := by
  cases step with
  | kept => exact .idle rfl (by simp)
  | sent | told | opened => exact .idle rfl (by simp [Effect.Aside])
  | @superseded m => exact .idle rfl (by cases m <;> simp [Message.leftovers, Effect.Aside])
  | started => exact .anew rfl (List.nil_append _).symm (List.forall_mem_nil _)
  | @dialled endpoint =>
    refine .ended rfl ?_ (Effect.aside_of_lines s (.dial (s.epoch + 1) endpoint) trivial)
    rw [holdings, List.map_append, List.append_assoc]
  | ended => exact .ended rfl (by rw [holdings, List.map_append]) fun _ => Effect.aside_of_line
  | failed =>
    have lost := Effect.aside_of_lines { s with dial := none } (.publish .connectionClosed) trivial
    exact .anew rfl List.cons_append.symm (List.forall_mem_cons.mpr ⟨trivial, lost⟩)
  | closed => exact .anew rfl rfl (Effect.aside_of_lines s (.publish _) trivial)
  | refused | retried | found | stranded => exact absurd rfl (other _)

/-- What a report means for discovery, and what else it may lead to. -/
theorem Connection.heeded {c : Connection ω} (h : c.session.Coherent) (outside : Outside)
    (m : DiscoveryMessage) :
    (c.call outside (.handle (.discovery m))).1.session.discovery =
        (c.session.discovery.handle m).1 ∧
      ∃ after, (c.call outside (.handle (.discovery m))).2.1 =
        (c.session.discovery.handle m).2.1 ++ after ∧ ∀ effect ∈ after, effect.Aside := by
  cases found : c.session.discovery.finds m with
  | none =>
    obtain ⟨session, effects⟩ := c.call_of_not_finds found outside
    rw [session, effects]
    exact ⟨rfl, [], by simp, by simp⟩
  | some endpoint =>
    have handled := (Discovery.handle_of_finds found).2
    rw [handled]
    cases available : outside.available with
    | true =>
      obtain ⟨session, effects⟩ := call_of_finds h found available
      rw [session, effects, List.map_append, List.append_assoc]
      exact ⟨rfl, _, rfl, Effect.aside_of_lines c.session (.dial _ _) trivial⟩
    | false =>
      obtain ⟨session, effects⟩ := call_of_finds_in_vain h found available
      rw [session, effects]
      exact ⟨rfl, [], by simp, by simp⟩

namespace Rehearsal

def Task.seeks : Task → Bool
  | .request _ _ | .pause _ _ => true
  | .dial _ _ _ | .pump _ _ => false

theorem Work.ofEntry?_of_not_seeks {e : Entry} (h : e.task.seeks = false) :
    Work.ofEntry? e = none := by
  obtain ⟨id, task, cancelled⟩ := e
  cases task <;> simp_all [Task.seeks, Work.ofEntry?]

namespace Backstage

/-- What is backstage for a discovery: its tasks and its reports. -/
def quest (b : Backstage) : Backstage :=
  { opening 0 0 .offline with
    tasks := b.tasks.filter (·.task.seeks)
    nextId := b.nextId
    mailbox := b.mailbox.filter fun m => (Work.ofMessage? m).isSome }

@[simp] theorem works_quest (b : Backstage) : b.quest.works = b.works := by
  have tasks : (b.tasks.filter (·.task.seeks)).filterMap Work.ofEntry? =
      b.tasks.filterMap Work.ofEntry? := by
    rw [List.filterMap_filter]
    refine List.filterMap_congr fun e _ => ?_
    cases seeks : e.task.seeks
    · simp [Work.ofEntry?_of_not_seeks seeks]
    · rfl
  have reports : (b.mailbox.filter fun m => (Work.ofMessage? m).isSome).filterMap Work.ofMessage? =
      b.mailbox.filterMap Work.ofMessage? := by
    rw [List.filterMap_filter]
    refine List.filterMap_congr fun m _ => ?_
    cases h : Work.ofMessage? m <;> rfl
  rw [works, quest, works, tasks, reports]

theorem Numbered.quest {b : Backstage} (h : b.Numbered) : b.quest.Numbered :=
  h.sublist List.filter_sublist rfl

theorem quest_perform (b : Backstage) (effect : Effect) :
    (b.perform effect).quest = (b.quest.perform effect).quest := by
  cases effect with
  | request | pause | dial | pump =>
    simp [Backstage.quest, perform, spawn, Task.seeks, List.filter_append]
  | release | transmit | publish => simp [Backstage.quest, perform, updateLink]
  | cancel name =>
    obtain ⟨ready, cancelled⟩ := b.cancel_eq name
    obtain ⟨ready', questCancelled⟩ := b.quest.cancel_eq name
    rw [perform, perform, cancelled, questCancelled]
    simp [Backstage.quest, List.filter_map, Function.comp_def]

theorem quest_performAll (b : Backstage) (effects : List Effect) :
    (b.performAll effects).quest = (b.quest.performAll effects).quest := by
  induction effects generalizing b with
  | nil => simp [Backstage.quest, performAll]
  | cons effect effects ih =>
    change ((b.perform effect).performAll effects).quest =
      ((b.quest.perform effect).performAll effects).quest
    rw [ih, quest_perform, ← ih]

theorem tasks_quest_aside (b : Backstage) {effect : Effect} (aside : effect.Aside) :
    (b.perform effect).quest.tasks = b.quest.tasks := by
  cases effect with
  | request | pause => cases aside
  | dial | pump => simp [Backstage.quest, perform, spawn, Task.seeks]
  | release | transmit | publish => rfl
  | cancel name =>
    obtain ⟨ready, cancelled⟩ := b.cancel_eq name
    rw [perform, cancelled, Backstage.quest, Backstage.quest]
    simp only [List.filter_map, Function.comp_def, Entry.givenUp_task]
    refine (List.map_congr_left fun e member => ?_).trans (List.map_id _)
    have seeks := (List.mem_filter.mp member).2
    refine if_neg ?_
    obtain ⟨id, task, cancelled⟩ := e
    cases name <;> cases task <;> simp_all [Task.name, Task.seeks, Effect.Aside]

theorem split_quest {b : Backstage} {before after : List Entry} {e : Entry}
    (split : b.tasks = before ++ e :: after) (seeks : e.task.seeks = true) :
    b.quest.tasks = before.filter (·.task.seeks) ++ e :: after.filter (·.task.seeks) := by
  simp [Backstage.quest, split, List.filter_append, seeks]

/-- A turn of any task is a turn of the discovery's tasks, or none at all. -/
theorem Turned.quest {b c : Backstage} (h : b.Turned c) : b.quest.Turned c.quest := by
  cases h with
  | idle => exact .idle
  | replied reply split task =>
    have turned := Turned.replied reply (split_quest split (by simp [task, Task.seeks])) task
    simpa [Backstage.quest, List.filter_append, Work.ofMessage?] using turned
  | rested split task =>
    have turned := Turned.rested (split_quest split (by simp [task, Task.seeks])) task
    simpa [Backstage.quest, List.filter_append, Work.ofMessage?] using turned
  | opened split task | failed fault split task | closed split task | released split _ task =>
    have other : Task.seeks _ = false := congrArg Task.seeks task
    simpa [Backstage.quest, split, List.filter_append, other, Work.ofMessage?, post, updateLink] using
      Turned.idle (b := b.quest)
  | forwarded =>
    simpa [Backstage.quest, List.filter_append, Work.ofMessage?, post, updateLink] using
      Turned.idle (b := b.quest)
  | @dropped before after e split cancelled other =>
    cases seeks : e.task.seeks with
    | true =>
      have turned := Turned.dropped (split_quest split seeks) cancelled other
      simpa [Backstage.quest, List.filter_append] using turned
    | false =>
      simpa [Backstage.quest, split, List.filter_append, seeks] using Turned.idle (b := b.quest)

theorem works_perform_aside (b : Backstage) {effect : Effect} (aside : effect.Aside) :
    (b.perform effect).quest.works = b.quest.works := by
  have mailbox := (b.sameLines_perform effect).mailbox
  rw [works, works, tasks_quest_aside b aside, Backstage.quest, Backstage.quest]
  simp only [mailbox]

end Backstage

namespace Search.Kept

variable {b : Backstage} {d : Discovery} {issued : List Nat}

theorem quest (h : Kept ⟨b, d, issued⟩) : Kept ⟨b.quest, d, issued⟩ :=
  h.of_back h.numbered.quest List.filter_sublist b.works_quest

theorem performed {effects : List Effect} (h : Kept ⟨b.quest.performAll effects, d, issued⟩) :
    Kept ⟨(b.performAll effects).quest, d, issued⟩ :=
  b.quest_performAll effects ▸ h.quest

theorem aside (h : Kept ⟨b.quest, d, issued⟩) (numbered : b.Numbered) {effects : List Effect}
    (aside : ∀ effect ∈ effects, effect.Aside) :
    Kept ⟨(b.performAll effects).quest, d, issued⟩ := by
  induction effects generalizing b with
  | nil => exact h
  | cons effect effects ih =>
    obtain ⟨first, rest⟩ := List.forall_mem_cons.mp aside
    have next : Kept ⟨(b.perform effect).quest, d, issued⟩ :=
      h.of_back (numbered.perform effect).quest (b.tasks_quest_aside first ▸ List.Sublist.refl _)
        (b.works_perform_aside first)
    exact ih next (numbered.perform effect) rest

/-- A call that brings discovery no report keeps the search. -/
theorem ordered (h : Kept ⟨b.quest, d, issued⟩) (numbered : b.Numbered) {d' : Discovery}
    {effects : List Effect} (ordered : d.Ordered d' effects) :
    Kept ⟨(b.performAll effects).quest, d', issued ++ Effect.collect Effect.request? effects⟩ := by
  cases ordered with
  | idle same aside =>
    rw [same, Effect.requests_of_aside aside, List.append_nil]
    exact h.aside numbered aside
  | anew asked asks aside =>
    have kept := h.aside numbered aside
    have next := of_ask kept.numbered kept.past kept.alive kept.issued
    rw [asked, asks, Backstage.performAll_append, Effect.collect_append,
      Effect.requests_of_aside aside]
    simpa using next.performed
  | ended stopped stops aside =>
    have next := of_stop h.numbered h.past h.alive (d := d.stopped) rfl ⟨rfl, rfl⟩ h.issued
    rw [stopped, stops, Backstage.performAll_append, Effect.collect_append,
      Effect.requests_of_aside aside]
    simpa using next.performed.aside (numbered.performAll _) aside

theorem heeded {rest : List Message} {m : DiscoveryMessage}
    (h : Kept ⟨{ b with mailbox := .discovery m :: rest }.quest, d, issued⟩) (numbered : b.Numbered)
    {after : List Effect} (aside : ∀ effect ∈ after, effect.Aside) :
    let effects := (d.handle m).2.1 ++ after
    Kept ⟨({ b with mailbox := rest }.performAll effects).quest, (d.handle m).1,
      issued ++ Effect.collect Effect.request? effects⟩ := by
  intro effects
  have numbered : Backstage.Numbered { b with mailbox := rest } := ⟨numbered.nodup, numbered.below⟩
  have handled := h.handle 0
  have first : (Backstage.quest { b with mailbox := .discovery m :: rest }).mailbox =
      .discovery m :: (Backstage.quest { b with mailbox := rest }).mailbox := rfl
  simp only [Search.act, Search.follow, Search.pull, first, List.getElem?_cons_zero,
    List.eraseIdx_cons_zero] at handled
  rw [Backstage.performAll_append, Effect.collect_append, Effect.requests_of_aside aside,
    List.append_nil]
  exact (performed (b := { b with mailbox := rest }) handled).aside (numbered.performAll _) aside

end Search.Kept

namespace World

variable {w : World ω}

/-- The search of a world: the discovery of its session, with what is backstage for it. -/
def search (w : World ω) : Search where
  back := w.back.quest
  discovery := w.connection.session.discovery
  issued := w.journal.flatMap fun episode => Effect.collect Effect.request? episode.effects

/-- What holds of a world with its search at any time. -/
structure Seeks (w : World ω) : Prop where
  numbered : w.back.Numbered
  records : w.journal.Records w.connection
  kept : w.search.Kept

theorem search_call (w : World ω) (available : Bool) (call : Call ω) :
    let called := w.connection.call ⟨available, w.back.listening⟩ call
    (w.call available call).search = ⟨(w.back.performAll called.2.1).quest,
      called.1.session.discovery,
      w.search.issued ++ Effect.collect Effect.request? called.2.1⟩ := by
  simp [search, World.call, Connection.episode]

namespace Seeks

theorem cancelled_of_idle (h : w.Seeks) (idle : w.connection.session.discovery.active = false)
    {e : Entry} (member : e ∈ w.back.tasks) (seeks : e.task.seeks = true) : e.cancelled = true := by
  refine Bool.of_not_eq_false fun running => ?_
  have held := h.kept.alive e (List.mem_filter.mpr ⟨member, seeks⟩) running
  have none : w.search.discovery.holdings = [] := by
    simp [Discovery.holdings, Discovery.pauses, h.kept.quiet idle]
  simp [none] at held

theorem other (h : w.Seeks) (available : Bool) {call : Call ω}
    (other : ∀ m, call ≠ .handle (.discovery m)) : (w.call available call).Seeks := by
  have ordered := (h.records.step ⟨available, w.back.listening⟩ call).ordered other
  refine ⟨h.numbered.performAll _, h.records.call _ call, ?_⟩
  rw [search_call]
  exact h.kept.ordered h.numbered ordered

theorem take (h : w.Seeks) (available : Bool) : (w.act (.take available)).Seeks := by
  simp only [World.act]
  split
  · exact h
  · rename_i m rest mailbox
    let v : World ω := { w with back := { w.back with mailbox := rest } }
    have numbered : v.back.Numbered := ⟨h.numbered.nodup, h.numbered.below⟩
    cases m with
    | discovery m =>
      obtain ⟨discovery, after, heard, aside⟩ :=
        Connection.heeded h.records.coherent ⟨available, v.back.listening⟩ m
      refine ⟨numbered.performAll _, h.records.call _ _, ?_⟩
      rw [search_call, discovery, heard]
      refine Search.Kept.heeded (b := w.back) ?_ h.numbered aside
      rw [← mailbox]
      exact h.kept
    | opened | dialFailed | transport =>
      have same : v.search = w.search := by
        simp [v, search, Backstage.quest, mailbox, Work.ofMessage?]
      exact other (w := v) ⟨numbered, h.records, same ▸ h.kept⟩ available (by simp)

theorem turn (h : w.Seeks) (turn : Turn) : (w.act (.turn turn)).Seeks := by
  have turned := h.numbered.turned turn
  exact ⟨turned.numbered h.numbered, h.records, h.kept.of_turned turned.quest⟩

theorem serve (h : w.Seeks) (link : Nat) (serving : Serving) : (w.act (.serve link serving)).Seeks := by
  simp only [World.act]
  split
  · exact h
  · rename_i back done acted
    obtain ⟨l, ready, -, -, rfl⟩ := Backstage.eq_of_server acted
    exact ⟨⟨h.numbered.nodup, h.numbered.below⟩, h.records, h.kept⟩

end Seeks

theorem seeks_act (h : w.Seeks) (act : WorldAct ω) : (w.act act).Seeks := by
  cases act with
  | order available order => exact h.other available (by simp)
  | take available => exact h.take available
  | turn turn => exact h.turn turn
  | serve link serving => exact h.serve link serving

theorem seeks_opening (retryDelay timeout : Nat) (script : Script) :
    (opening retryDelay timeout script : World ω).Seeks :=
  ⟨⟨List.nodup_nil, nofun⟩, .fresh, (Search.kept_opening retryDelay timeout script).quest⟩

theorem seeks_run (h : w.Seeks) (acts : List (WorldAct ω)) : (w.run acts).Seeks :=
  run_preserves (fun _ => seeks_act) h acts

/-- A session that looks for a server has one piece of work under way, of the current attempt, that
is sure to be reported, unless it is stranded: a server was named while no connection could be
opened, and nothing has changed since. A stranded session looks for a server without any work that
its discovery would act on, and whatever is reported changes nothing. -/
theorem searches_unless_stranded (retryDelay timeout : Nat) (script : Script)
    (acts : List (WorldAct ω)) :
    let w := (opening retryDelay timeout script).run acts
    let s := w.connection.session
    (s.phase = .discovering → ¬ w.journal.Stranded → s.discovery.active = true ∧
      ∃ work, w.search.outstanding = [work] ∧ work.attempt = s.discovery.attempt ∧
        work.isAlive = true ∧ work.HeldBy s.discovery) ∧
    (w.journal.Stranded → s.phase = .discovering ∧ s.discovery.active = false ∧
      w.search.outstanding = [] ∧
      ∀ outside m, (w.connection.call outside (.handle m)).1 = w.connection) := by
  intro w s
  have h : w.Seeks := seeks_run (seeks_opening retryDelay timeout script) acts
  refine ⟨fun looking going => ?_, fun stranded => ?_⟩
  · have active : s.discovery.active = true := by
      refine Bool.not_eq_false _ ▸ fun idle => going ?_
      exact h.records.adrift_iff.mp ⟨looking, idle⟩
    obtain ⟨work, single, alive, held⟩ := h.kept.single active
    refine ⟨active, work, single, ?_, alive, held⟩
    have current : w.search.discovery.isCurrent work.attempt = true :=
      (List.mem_filter.mp (single ▸ List.mem_singleton.mpr rfl : work ∈ w.search.outstanding)).2
    simp only [Discovery.isCurrent, Bool.and_eq_true, beq_iff_eq] at current
    exact current.2
  · obtain ⟨looking, idle⟩ : s.Adrift := h.records.adrift_iff.mpr stranded
    refine ⟨looking, idle, ?_, fun outside m => ?_⟩
    · exact List.filter_eq_nil_iff.mpr fun work _ => by simp [Discovery.isCurrent, search, s, idle]
    · rw [w.connection.call_of_superseded outside (Session.Adrift.superseded ⟨looking, idle⟩ m)]

/-- A server that is named in vain leaves a search without work. -/
theorem stranded_by_reply :
    let reply : Except Fault String := .ok (Wire.Reply.encode ⟨"OK", "game:1"⟩)
    let w : World Unit := (opening 10 10 (.given [] [])).run
      [.order true .start, .turn (.finish 0 reply (.ok ())), .take false]
    let s := w.connection.session
    s.phase = .discovering ∧ s.discovery.active = false ∧ w.search.outstanding = [] ∧
      w.back.tasks.length = 0 ∧ w.back.mailbox.length = 0 := by
  decide +kernel

end World

end Rehearsal

end TileClient
