import TileClient.Proofs.Play.Tour
import TileClient.Proofs.Rehearsal.Custody

/-! Shutdown is final: for a connection, for all that works behind it, and for a client once a run
of it has ended well. -/
namespace TileClient.Rehearsal
namespace Tour

variable {t : Tour}

/-- Between runs the session is at its end, if the last run has ended well. -/
def Rests (t : Tour) : Prop :=
  t.actor.running = false → t.actor.outcomes.head? = some (.ok ()) → t.connection.session.Over

/-- The loop of a run ends with a shutdown. -/
theorem over_of_turn (cue : Cue) (p : Play) (available : Bool) (listening : Nat → Bool)
    (ends : (p.turn available listening cue.input).2.2 = false) :
    (p.turn available listening cue.input).1.connection.session.Over := by
  have left : p.leave.1.connection.session.Over :=
    (p.connection.shutdown_final ⟨available, listening⟩).2.2.ended
  cases cue with
  | inputClosed | interrupt => exact left
  | command c =>
    cases c with
    | quit => exact left
    | restart | move => cases ends

theorem Rests.begin (h : t.Rests) : (t.act .begin).Rests := by
  simp only [Tour.act]
  split
  · exact h
  · unfold PlayAct.begin
    split
    · intro idle
      cases idle
    · intro _ well
      cases well

theorem Rests.give (h : t.Rests) (cue : Cue) : (t.act (.give cue)).Rests := by
  cases running : t.actor.running with
  | false =>
    intro _ well
    simp only [Tour.act, PlayAct.take, running, Bool.false_eq_true, if_false] at well ⊢
    exact h running well
  | true =>
    have ended := over_of_turn cue t.actor.play t.actor.available t.back.listening
    intro idle _
    simp only [Tour.act, PlayAct.take, running, if_true] at idle ⊢
    cases goesOn : (t.actor.play.turn t.actor.available t.back.listening cue.input).2.2 with
    | true =>
      simp only [goesOn, if_true] at idle
      exact absurd running (Bool.eq_false_iff.mp idle)
    | false =>
      simp only [Bool.false_eq_true, if_false]
      exact ended goesOn

theorem Rests.act (h : t.Rests) (act : TourAct) : (t.act act).Rests := by
  cases act with
  | begin => exact h.begin
  | give cue => exact h.give cue
  | take =>
    simp only [Tour.act]
    split
    · rename_i running
      intro idle
      unfold Stage.handNext at idle
      split at idle <;> exact absurd running (Bool.eq_false_iff.mp idle)
    · exact h
  | connectivity | turn => exact h
  | serve link serving =>
    simp only [Tour.act]
    split <;> exact h

theorem rests_run (h : t.Rests) (acts : List TourAct) : (t.run acts).Rests := by
  induction acts generalizing t with
  | nil => exact h
  | cons act acts ih => exact ih (h.act act)

/-- Shutdown is final. A connection that is shut down gives up all that it holds and tells nothing,
and nothing comes of any later call but an order to start or to connect that succeeds: its session
stays as it is and only counts further shutdowns, what is reported open is let go of, nothing is
asked of the outside, told or sent. Whatever else happens behind it, all its tasks are cancelled,
and once each has had a turn and all reports are taken no link is read. The same holds of a client
whenever its last run has ended well. -/
theorem shutdown_is_final {ω : Type} :
    (∀ (c : Connection ω) (outside : Outside),
      let called := c.call outside (.order .shutdown)
      called.1.session = c.session.ended ∧ called.2 = (c.session.holdings.map .cancel, []) ∧
        called.1.Final) ∧
    (∀ (retryDelay timeout : Nat) (script : Script) (earlier later : List (WorldAct ω))
        (available : Bool), (∀ act ∈ later, act.revives = false) →
      let w := (World.opening retryDelay timeout script).run earlier
      let v := (w.act (.order available .shutdown)).run later
      v.connection.session = { w.connection.session.ended with
        epoch := w.connection.session.epoch + 1 + later.countP WorldAct.isShutdown } ∧
      (∃ farewell rest, v.journal = w.journal ++ farewell :: rest ∧
        farewell.effects = w.connection.session.holdings.map .cancel ∧ farewell.outputs = [] ∧
        ∀ episode ∈ rest, episode.effects = episode.call.leftovers ∧ episode.outputs = []) ∧
      v.connection.Final ∧ v.back.Deserted ∧
      ((v.sweep available).back.tasks = [] ∧ (v.sweep available).back.mailbox = [] ∧
        ∀ link, (v.sweep available).back.reads link = false)) ∧
    ∀ (retryDelay timeout : Nat) (script : Script) (gridSize : Nat) (server : Option Endpoint)
        (available : Bool) (acts : List TourAct),
      let t := (opening retryDelay timeout script (.fresh gridSize server) available).run acts
      t.actor.running = false → t.actor.outcomes.head? = some (.ok ()) →
        t.connection.Final ∧ t.back.Deserted := by
  refine ⟨fun c outside => c.shutdown_final outside, ?_, ?_⟩
  · intro retryDelay timeout script earlier later available stays w v
    let d := w.act (.order available .shutdown)
    let farewell := w.connection.episode ⟨available, w.back.listening⟩ (.order .shutdown)
    obtain ⟨ended, left, final⟩ := w.connection.shutdown_final ⟨available, w.back.listening⟩
    obtain ⟨calls, connection, journal, counted, stay⟩ := d.calls_of_run later
    obtain ⟨session, quiet, -⟩ := final.quiet calls (stay stays)
    have now : v.connection.session = { w.connection.session.ended with
        epoch := w.connection.session.epoch + 1 + later.countP WorldAct.isShutdown } := by
      rw [ended] at session
      rw [connection, counted]
      exact session
    have finished : v.connection.session.Over := by
      rw [now]
      constructor <;> rfl
    have orderly : v.Orderly := World.orderly_run (World.orderly_act
      (World.orderly_run (World.orderly_opening retryDelay timeout script) earlier) _) later
    refine ⟨now, ⟨farewell, d.connection.history calls, ?_, congrArg Prod.fst left,
      congrArg Prod.snd left, quiet⟩, Connection.final_of_over finished, orderly.deserted finished,
      orderly.sweep finished available⟩
    exact journal.trans (List.append_assoc ..)
  · intro retryDelay timeout script gridSize server available acts t idle well
    have follows := follows_run retryDelay timeout script gridSize server available acts
    have ended : t.connection.session.Over := rests_run (fun _ well => by cases well) acts idle well
    have orderly : (world retryDelay timeout script gridSize server available acts).Orderly :=
      World.orderly_run (World.orderly_opening retryDelay timeout script) _
    refine ⟨Connection.final_of_over ended, ?_⟩
    have deserted := orderly.deserted (follows.connection ▸ ended)
    exact follows.back ▸ deserted

end Tour

end TileClient.Rehearsal
