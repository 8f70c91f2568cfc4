import TileClient.Proofs.Session.Records

/-! What outlives its phase. A session holds a socket only while it is connected and a dial only
while it is connecting, unless an order to start takes it back to the search over the head of
either. What it lets go of it gives up. -/
namespace TileClient

/-- What is held fits the phase. -/
structure Session.Tidy (s : Session) : Prop where
  socket : s.socket.isSome = true → s.phase = .connected
  dial : s.dial.isSome = true → s.phase = .connecting

/-- A session that looks for a server holds a socket or a dial. -/
def Session.Lingers (s : Session) : Prop :=
  s.phase = .discovering ∧ (s.socket.isSome = true ∨ s.dial.isSome = true)

namespace Session

variable {ω : Type} {s t : Session} {call : Call ω} {effects : List Effect}

/-- In a coherent session the search is the only phase in which something can be out of place. -/
theorem Coherent.tidy_iff (h : s.Coherent) : s.Tidy ↔ ¬ s.Lingers := by
  constructor
  · rintro ⟨socket, dial⟩ ⟨looking, held | held⟩
    · exact absurd (socket held) (by simp [looking])
    · exact absurd (dial held) (by simp [looking])
  · intro clean
    cases phase : s.phase with
    | disconnected =>
      obtain ⟨noSocket, noDial, -⟩ := h.disconnected phase
      exact ⟨by simp [noSocket], by simp [noDial]⟩
    | discovering =>
      exact ⟨fun held => absurd ⟨phase, .inl held⟩ clean, fun held => absurd ⟨phase, .inr held⟩ clean⟩
    | connecting =>
      obtain ⟨-, noSocket, -⟩ := h.connecting phase
      exact ⟨by simp [noSocket], fun _ => phase⟩
    | connected =>
      obtain ⟨-, noDial, -⟩ := h.connected phase
      exact ⟨fun _ => phase, by simp [noDial]⟩

theorem Coherent.holds (h : s.Coherent) (busy : s.phase = .connecting ∨ s.phase = .connected) :
    s.socket.isSome = true ∨ s.dial.isSome = true :=
  busy.elim (fun waiting => .inr (h.connecting waiting).1) fun used => .inl (h.connected used).1

theorem Coherent.line_of_connecting (h : s.Coherent) (numbered : s.Numbered)
    (waiting : s.phase = .connecting) {name : TaskName} (held : name ∈ s.lines) :
    name = .dial s.epoch := by
  obtain ⟨-, noSocket, -⟩ := h.connecting waiting
  obtain ⟨epoch, dial, rfl⟩ : ∃ epoch, s.dial = some epoch ∧ TaskName.dial epoch = name := by
    simpa [lines, noSocket] using held
  rw [numbered.dial epoch dial]

/-- A task of a connection that is no longer held was cancelled, or it is the dial of this epoch,
which has ended by its report. -/
theorem Transition.lets_go (step : s.Transition call effects t) (h : s.Coherent) (numbered : s.Numbered)
    {name : TaskName} (held : name ∈ s.lines) (gone : name ∉ t.lines) :
    .cancel name ∈ effects ∨
      name = .dial s.epoch ∧ ∃ m, call = .handle m ∧ m.source = name := by
  cases step with
  | kept | sent | superseded | told | started | refused | retried | stranded =>
    exact absurd held gone
  | dialled | ended | found | closed => exact .inl (by simp [holdings, held])
  | opened waiting | failed waiting =>
    have own := h.line_of_connecting numbered waiting held
    exact .inr ⟨own, _, rfl, own.symm⟩

theorem Transition.gives_up (step : s.Transition call effects t) (h : s.Coherent) (numbered : s.Numbered)
    {name : TaskName} (held : name ∈ s.lines) (gone : name ∉ t.lines) :
    .cancel name ∈ effects ∨ ∃ m, call = .handle m ∧ m.source = name :=
  (step.lets_go h numbered held gone).imp_right And.right

end Session

variable {ω : Type}

/-- An order to start takes a session away from its dial or its connection. -/
def Episode.Abandons (episode : Episode ω) : Prop :=
  episode.call = .order .start ∧ episode.after.phase = .discovering ∧
    (episode.before.phase = .connecting ∨ episode.before.phase = .connected)

/-- A dial or a connection has been abandoned, and the search that began then is not over. -/
def Journal.Abandoned (journal : Journal ω) : Prop :=
  journal.Lasting Episode.Abandons fun episode => episode.after.phase = .discovering

namespace Episode

variable {episode : Episode ω}

/-- Something comes to be out of place when it is abandoned, and stays so for as long as the search
goes on. -/
theorem lingers_iff (step : episode.before.Transition episode.call episode.effects episode.after)
    (h : episode.before.Coherent) : episode.after.Lingers ↔
      episode.Abandons ∨ episode.before.Lingers ∧ episode.after.phase = .discovering := by
  obtain ⟨outside, call, s, effects, outputs, t⟩ := episode
  simp only [Abandons] at step h ⊢
  cases step with
  | kept =>
    have same (looking : s.phase = .discovering) :
        ¬ (s.phase = .connecting ∨ s.phase = .connected) := by simp [looking]
    constructor
    · exact fun lingers => .inr ⟨lingers, lingers.1⟩
    · rintro (⟨-, looking, busy⟩ | ⟨lingers, -⟩)
      · exact absurd busy (same looking)
      · exact lingers
  | sent | superseded | told | refused | retried | stranded =>
    simp only [Session.Lingers, reduceCtorEq, Call.order.injEq, false_and, false_or]
    exact ⟨fun lingers => ⟨lingers, lingers.1⟩, fun both => both.1⟩
  | started =>
    simp only [Session.Lingers, Session.searching, true_and, and_true]
    constructor
    · intro held
      cases phase : s.phase with
      | disconnected =>
        obtain ⟨noSocket, noDial, -⟩ := h.disconnected phase
        simp [noSocket, noDial] at held
      | discovering => exact .inr ⟨rfl, held⟩
      | connecting => exact .inl (.inl rfl)
      | connected => exact .inl (.inr rfl)
    · exact fun either => either.elim h.holds And.right
  | dialled | found => simp [Session.Lingers, Session.dialling]
  | ended => simp [Session.Lingers, Session.ended]
  | opened => simp [Session.Lingers, Session.joined]
  | failed waiting => simp [Session.Lingers, Session.lost, waiting]
  | closed used => simp [Session.Lingers, Session.lost, used]

end Episode

theorem Journal.Records.lingers_iff {journal : Journal ω} {c : Connection ω}
    (h : journal.Records c) : c.session.Lingers ↔ journal.Abandoned := by
  induction h with
  | fresh =>
    refine iff_of_false ?_ not_lasting_nil
    simp [Session.Lingers, Connection.fresh, Session.fresh]
  | @call journal c h outside call ih =>
    have now := (c.episode outside call).lingers_iff (h.step outside call) h.coherent
    rw [Abandoned, lasting_concat, ← Abandoned, ← ih]
    exact now

namespace Connection

/-- Whatever is called, a session holds a socket only while it is connected and a dial only while
it is connecting, unless an order to start has come upon either and the search is not over. What a
call lets go of is given up with it, but for a dial that has just reported. -/
theorem tidy_unless_abandoned (calls : List (Outside × Call ω)) :
    let c : Connection ω := fresh
    ((c.after calls).session.Tidy ↔ ¬ Journal.Abandoned (c.history calls)) ∧
    ∀ episode ∈ c.history calls, ∀ name ∈ episode.before.lines, name ∉ episode.after.lines →
      .cancel name ∈ episode.effects ∨ ∃ m, episode.call = .handle m ∧ m.source = name := by
  intro c
  have records := Journal.Records.of_history (ω := ω) calls
  refine ⟨?_, fun episode member name held gone => ?_⟩
  · rw [records.coherent.tidy_iff, records.lingers_iff]
  · obtain ⟨earlier, d, before, made⟩ := records.of_mem member
    rw [made] at held gone ⊢
    exact (before.step _ _).gives_up before.coherent before.numbered held gone

/-- A connection outlives an order to start, and so does a dial. -/
theorem outlives_start :
    let reachable : Outside := ⟨true, fun _ => true⟩
    let connect : Outside × Call Unit := (reachable, .order (.connect ⟨"game", 1⟩))
    let opened : Outside × Call Unit := (reachable, .handle (.opened 1 0))
    let start : Outside × Call Unit := (reachable, .order .start)
    let used := (fresh.after [connect, opened, start]).session
    let waiting := (fresh.after [connect, start]).session
    (used.phase = .discovering ∧ used.socket = some ⟨0, 1⟩ ∧ ¬ used.Tidy) ∧
      waiting.phase = .discovering ∧ waiting.dial = some 1 ∧ ¬ waiting.Tidy := by
  intro reachable connect opened start used waiting
  refine ⟨⟨by decide, by decide, fun tidy => ?_⟩, by decide, by decide, fun tidy => ?_⟩
  · exact absurd (tidy.socket (by decide)) (by decide)
  · exact absurd (tidy.dial (by decide)) (by decide)

end Connection

end TileClient
