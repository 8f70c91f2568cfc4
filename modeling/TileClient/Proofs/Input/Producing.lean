import TileClient.Proofs.Input.Recital
import TileClient.Proofs.Input.Waking

/-! A script on the way. In each turn the dispatcher takes the tick that is due and the producer
passes on the move whose time has come, and both stand as the account of the script says. -/
namespace TileClient.Input
open Board

theorem Account.length_news (c : Account) : c.news.length ≤ 1 := by
  unfold news
  split
  · exact c.tick.length_commands
  · exact Nat.zero_le _

namespace Autoplay

/-- A script that is played from some time on, with room for so many commands. -/
def playing (start period capacity : Nat) (moves : List Direction) : Autoplay :=
  { played period capacity (.script moves) with now := start }

section

variable {a : Autoplay} {p : Producer}

theorem runProducer_of_ended (produces : a.producer = some p) (ended : p.ended = true) :
    a.runProducer = a := by
  simp [runProducer, produces, ended]

theorem runProducer_first (produces : a.producer = some p) (alive : p.ended = false)
    (period : 0 < a.dispatcher.period) (unbegun : p.begun = false) :
    a.runProducer = setAlarm { a with producer := some { p with
      begun := true
      due := a.now + half a.dispatcher.period } } .producer
        (some (a.now + half a.dispatcher.period)) := by
  simp [runProducer, produces, alive, Nat.ne_of_gt period, unbegun]

theorem runProducer_early (produces : a.producer = some p) (alive : p.ended = false)
    (period : 0 < a.dispatcher.period) (begun : p.begun = true) (early : a.now < p.due) :
    a.runProducer = a := by
  simp [runProducer, produces, alive, Nat.ne_of_gt period, begun, early]

theorem runProducer_move (produces : a.producer = some p) (alive : p.ended = false)
    (period : 0 < a.dispatcher.period) (begun : p.begun = true) (due : p.due ≤ a.now)
    {move : Direction} {source : MoveSource} (next : p.source.next = (some move, source))
    (taken : a.dispatcher.ended = false) :
    a.runProducer = setAlarm { a with
      dispatcher := { a.dispatcher with arrived := a.dispatcher.arrived ++ [move] }
      producer := some { p with source, due := p.due + a.dispatcher.period }
      ready := (a.wake .dispatcher).ready } .producer (some (p.due + a.dispatcher.period)) := by
  have queued : a.queue move = ({ a with
      dispatcher := { a.dispatcher with arrived := a.dispatcher.arrived ++ [move] }
      ready := (a.wake .dispatcher).ready }, true) := by
    rw [queue, Dispatcher.queue, if_neg (Bool.eq_false_iff.mp taken)]
    dsimp only
    rw [wake_eq, ready_wake (a := a) (by rfl)]
  simp [runProducer, produces, alive, Nat.ne_of_gt period, begun, Nat.not_lt.mpr due, next, queued]

theorem runProducer_last (produces : a.producer = some p) (alive : p.ended = false)
    (period : 0 < a.dispatcher.period) (begun : p.begun = true) (due : p.due ≤ a.now)
    {source : MoveSource} (next : p.source.next = (none, source)) :
    a.runProducer = { a with
      dispatcher := a.dispatcher.dropHandle
      producer := some { p with source, ended := true }
      ready := (a.wake .dispatcher).ready } := by
  simp only [runProducer, produces, alive, Nat.ne_of_gt period, begun, Nat.not_lt.mpr due, next,
    endProducer, dropHandle, Bool.false_eq_true, if_false, Bool.not_true]
  rw [wake_eq, ready_wake (a := a) (by rfl)]

end

/-- A dispatcher, its outlet and the producer of a script stand as an account says. -/
structure Plays (start period : Nat) (moves : List Direction) (a : Autoplay) (c : Account) : Prop where
  now : a.now = c.now
  recites : Recites start period moves c
  attends : a.dispatcher.Attends c
  opened : a.outlet.closed = false
  size : 0 < a.outlet.capacity
  fits : a.outlet.waiting.length ≤ a.outlet.capacity
  sent : a.sent = c.commands
  producer : ∃ p, a.producer = some p ∧ Cue start period moves c p

/-- An autoplay that keeps to the account of its script, and forgets no task. -/
structure Performs (start period : Nat) (moves : List Direction) (a : Autoplay) (c : Account) : Prop
    extends a.Wakeful, Plays start period moves a c

variable {start period : Nat} {moves : List Direction} {a : Autoplay} {c : Account}

theorem Plays.setAlarm (h : Plays start period moves a c) (role : Role) (due : Option Nat) :
    Plays start period moves (a.setAlarm role due) c := by
  rw [setAlarm_eq]
  exact ⟨h.now, h.recites, h.attends, h.opened, h.size, h.fits, h.sent, h.producer⟩

theorem apart_from_producer {b : Autoplay} (waits : b.dispatcher.waitsFor? = a.dispatcher.waitsFor?)
    (begun : b.dispatcher.begun = a.dispatcher.begun) (r : Role) (other : r ≠ .producer) :
    b.waits? r = a.waits? r ∧ b.hasRun r = a.hasRun r := by
  cases r with
  | dispatcher => exact ⟨waits, begun⟩
  | producer => exact absurd rfl other

namespace Performs

theorem period_eq (h : Performs start period moves a c) : a.dispatcher.period = period :=
  h.attends.period.trans h.recites.spaced

theorem positive (h : Performs start period moves a c) (enough : 2 ≤ period) : 0 < c.period := by
  rw [h.recites.spaced]
  omega

theorem period_pos (h : Performs start period moves a c) (enough : 2 ≤ period) :
    0 < a.dispatcher.period := by
  rw [h.period_eq]
  omega

/-- The dispatcher takes the tick that is due, if one is. -/
theorem dispatcher_turn (h : Performs start period moves a c) (enough : 2 ≤ period)
    {rest : List Role} (next : a.ready = .dispatcher :: rest)
    (room : c.Ticking → a.outlet.hasRoom = true) :
    Performs start period moves ({ a with ready := rest }.run .dispatcher) c.settle := by
  obtain ⟨p, produces, cue⟩ := h.producer
  have positive := h.positive enough
  obtain ⟨d, run, attends, begun⟩ := h.attends.run h.recites.lawful positive h.opened room
  have waits := attends.waitsFor? begun
  have now := h.now.trans c.now_settle.symm
  rw [← h.now] at run
  have fits : (a.outlet.waiting ++ c.news).length ≤ a.outlet.capacity := by
    by_cases ticking : c.Ticking
    · have free := of_decide_eq_true (room ticking)
      have few := c.length_news
      rw [List.length_append]
      omega
    · rw [Account.news, if_neg ticking, List.append_nil]
      exact h.fits
  have sent : (a.received.map (·.2)).reverse ++ (a.outlet.waiting ++ c.news) = c.settle.commands := by
    rw [c.commands_settle, ← List.append_assoc]
    exact congrArg (· ++ c.news) h.sent
  have plays : Plays start period moves { a with
      dispatcher := d
      outlet := { a.outlet with waiting := a.outlet.waiting ++ c.news }
      ready := rest } c.settle :=
    ⟨now, h.recites.settle enough cue, attends, h.opened, h.size, fits, sent, p, produces, cue.settle⟩
  simp only [Autoplay.run, runDispatcher, run]
  refine ⟨h.toWakeful.turn next rfl rfl (h.once_rest next) (fun _ => id) ?_ begun ?_,
    plays.setAlarm _ _⟩
  · intro t wait
    have wait : d.waitsFor? = some t := wait
    rw [waits] at wait
    split at wait
    · cases wait
    · rename_i going
      rw [now, ← Option.some.inj wait]
      exact h.recites.lawful.early positive (Bool.eq_false_iff.mpr going)
  · rintro (_ | _) other
    · exact absurd rfl other
    · exact ⟨rfl, rfl⟩

section

variable {rest : List Role}

theorem idle_turn (h : Performs start period moves a c) (next : a.ready = .producer :: rest)
    (ahead : ∀ t, a.waits? .producer = some t → a.now < t) (run : a.hasRun .producer = true) :
    Performs start period moves { a with ready := rest } c := by
  have turn := h.toWakeful.turn (b := { a with ready := rest }) next rfl rfl
    (h.once_rest next) (fun _ => id) ahead run fun _ _ => ⟨rfl, rfl⟩
  have known (t : Nat) : (.producer, t) ∈ a.alarms ↔ a.waits? .producer = some t :=
    ⟨fun alarm => (h.alarms _ t alarm).1, fun waits => (h.waiting _ t waits).resolve_right fun due =>
      Nat.not_lt.mpr due.2 (ahead t waits)⟩
  rw [setAlarm_of_known (by exact known)] at turn
  exact ⟨turn, h.now, h.recites, h.attends, h.opened, h.size, h.fits, h.sent, h.producer⟩

/-- The first turn sets the alarm for the first move. -/
theorem first_turn (h : Performs start period moves a c) (enough : 2 ≤ period)
    (next : a.ready = .producer :: rest)
    (produces : a.producer = some ⟨.script moves, false, 0, false⟩) (handles : c.handles = 1)
    (queued : c.queued = []) (first : c.now = start) :
    Performs start period moves (runProducer { a with ready := rest }) c := by
  have positive := half_pos enough
  have below := half_lt enough
  have due : a.now + half a.dispatcher.period = start + half period + 0 * period := by
    rw [h.now, first, h.period_eq, Nat.zero_mul, Nat.add_zero]
  have cue : Cue start period moves c
      ⟨.script moves, true, a.now + half a.dispatcher.period, false⟩ := by
    rw [due]
    exact .waiting 0 (Nat.zero_le _) handles queued (by omega) (by omega)
  have plays : Plays start period moves { a with
      producer := some ⟨.script moves, true, a.now + half a.dispatcher.period, false⟩
      ready := rest } c :=
    ⟨h.now, h.recites, h.attends, h.opened, h.size, h.fits, h.sent, _, rfl, cue⟩
  rw [runProducer_first (a := { a with ready := rest }) produces rfl
    (h.period_pos enough) rfl]
  refine ⟨h.toWakeful.turn next rfl rfl (h.once_rest next) (fun _ => id) ?_ rfl
    (apart_from_producer rfl rfl), plays.setAlarm _ _⟩
  rintro _ ⟨⟩
  rw [h.period_eq]
  exact Nat.lt_add_of_pos_right positive

/-- A move is passed on, and the alarm set for the next. -/
theorem move_turn (h : Performs start period moves a c) (enough : 2 ≤ period)
    (next : a.ready = .producer :: rest) {k : Nat} (within : k < moves.length)
    (produces : a.producer =
      some ⟨.script (moves.drop k), true, start + half period + k * period, false⟩)
    (handles : c.handles = 1) (queued : c.queued = moves.take k)
    (due : c.now = start + half period + k * period) :
    Performs start period moves (runProducer { a with ready := rest })
      { c with queued := c.queued ++ [moves[k]], window := c.window ++ [moves[k]] } := by
  have more : c.handles ≠ 0 := by omega
  have going : c.finished = false :=
    Bool.eq_false_iff.mpr fun finished => more (h.recites.lawful.farewell finished).1
  have positive := h.period_pos enough
  have source : (MoveSource.script (moves.drop k)).next =
      (some moves[k], .script (moves.drop (k + 1))) := by
    rw [List.drop_eq_getElem_cons within]
    rfl
  have spread : (k + 1) * period = k * period + period := Nat.succ_mul k period
  have later : start + half period + k * period + a.dispatcher.period =
      start + half period + (k + 1) * period := by
    rw [h.period_eq, spread, ← Nat.add_assoc]
  have cue : Cue start period moves
      { c with queued := c.queued ++ [moves[k]], window := c.window ++ [moves[k]] }
      ⟨.script (moves.drop (k + 1)), true, start + half period + k * period + a.dispatcher.period,
        false⟩ := by
    rw [later]
    refine .waiting (k + 1) within handles ?_ ?_ ?_
    · change c.queued ++ [moves[k]] = _
      rw [queued, List.take_append_getElem]
    · change _ ≤ c.now + period
      omega
    · change c.now ≤ _
      omega
  have plays : Plays start period moves { a with
      dispatcher := { a.dispatcher with arrived := a.dispatcher.arrived ++ [moves[k]] }
      producer := some ⟨.script (moves.drop (k + 1)), true,
        start + half period + k * period + a.dispatcher.period, false⟩
      ready := (wake { a with ready := rest } .dispatcher).ready }
      { c with queued := c.queued ++ [moves[k]], window := c.window ++ [moves[k]] } :=
    ⟨h.now, h.recites.queue more _, h.attends.queue _, h.opened, h.size, h.fits, h.sent, _, rfl, cue⟩
  rw [runProducer_move (a := { a with ready := rest }) produces rfl positive rfl
    (Nat.le_of_eq (h.now.trans due).symm) source (h.attends.ended.trans going)]
  refine ⟨h.toWakeful.turn next rfl rfl (nodup_wake (h.once_rest next))
    (fun r known => mem_wake.mpr (.inl known)) ?_ rfl (apart_from_producer rfl rfl),
    plays.setAlarm _ _⟩
  rintro _ ⟨⟩
  rw [h.now, due]
  exact Nat.lt_add_of_pos_right positive

/-- After the last move the handle is given up, and no alarm is set. -/
theorem last_turn (h : Performs start period moves a c) (enough : 2 ≤ period)
    (next : a.ready = .producer :: rest)
    (produces : a.producer =
      some ⟨.script [], true, start + half period + moves.length * period, false⟩)
    (handles : c.handles = 1) (queued : c.queued = moves)
    (due : c.now = start + half period + moves.length * period) :
    Performs start period moves (runProducer { a with ready := rest })
      { c with handles := c.handles - 1 } := by
  have more : c.handles ≠ 0 := by omega
  have positive := h.period_pos enough
  have cue : Cue start period moves { c with handles := c.handles - 1 }
      ⟨.script [], true, start + half period + moves.length * period, true⟩ := by
    refine .exit rfl rfl ?_ queued (Nat.le_of_eq due.symm)
    change c.handles - 1 = 0
    omega
  have plays : Plays start period moves { a with
      dispatcher := a.dispatcher.dropHandle
      producer := some ⟨.script [], true, start + half period + moves.length * period, true⟩
      ready := (wake { a with ready := rest } .dispatcher).ready }
      { c with handles := c.handles - 1 } :=
    ⟨h.now, h.recites.drop more, h.attends.drop more, h.opened, h.size, h.fits, h.sent, _, rfl, cue⟩
  have turn : (Autoplay.setAlarm { a with
      dispatcher := a.dispatcher.dropHandle
      producer := some ⟨.script [], true, start + half period + moves.length * period, true⟩
      ready := (wake { a with ready := rest } .dispatcher).ready } .producer none).Wakeful :=
    h.toWakeful.turn next rfl rfl (nodup_wake (h.once_rest next))
      (fun r known => mem_wake.mpr (.inl known)) nofun rfl (apart_from_producer rfl rfl)
  -- The alarm has just gone off.
  have silent (t : Nat) : (.producer, t) ∈ a.alarms ↔ none = some t := by
    refine ⟨fun alarm => ?_, nofun⟩
    obtain ⟨waits, ahead⟩ := h.alarms _ t alarm
    rw [waits?, produces] at waits
    obtain rfl := Option.some.inj waits
    exact absurd (h.now.trans due) (Nat.ne_of_lt ahead)
  rw [setAlarm_of_known (by exact silent)] at turn
  rw [runProducer_last (a := { a with ready := rest }) produces rfl positive rfl
    (Nat.le_of_eq (h.now.trans due).symm) rfl]
  exact ⟨turn, plays⟩

end

/-- The producer passes a move on, or what else is its turn. -/
theorem producer_turn (h : Performs start period moves a c) (enough : 2 ≤ period)
    {rest : List Role} (next : a.ready = .producer :: rest) :
    ∃ handles queued window, Performs start period moves ({ a with ready := rest }.run .producer)
      { c with handles, queued, window } := by
  obtain ⟨p, produces, cue⟩ := h.producer
  have positive := h.period_pos enough
  have waits (t : Nat) (waits : a.waits? .producer = some t) : p.waitsFor? = some t := by
    rw [waits?, produces] at waits
    exact waits
  have run : a.hasRun .producer = p.begun := by
    rw [hasRun, produces]
    rfl
  rw [Autoplay.run]
  cases cue with
  | entrance handles queued first =>
    exact ⟨_, _, _, h.first_turn enough next produces handles queued first⟩
  | waiting k within handles queued passed ahead =>
    rcases Nat.lt_or_eq_of_le ahead with early | due
    · rw [runProducer_early (a := { a with ready := rest }) produces rfl positive rfl
        (by rw [h.now]; exact early)]
      refine ⟨_, _, _, h.idle_turn next (fun t wait => ?_) run⟩
      rw [h.now, ← Option.some.inj (waits t wait)]
      exact early
    · rcases Nat.lt_or_eq_of_le within with more | rfl
      · exact ⟨_, _, _, h.move_turn enough next more produces handles queued due⟩
      · rw [List.drop_length] at produces
        rw [List.take_length] at queued
        exact ⟨_, _, _, h.last_turn enough next produces handles queued due⟩
  | exit begun ended handles queued passed =>
    rw [runProducer_of_ended (a := { a with ready := rest }) produces ended]
    refine ⟨_, _, _, h.idle_turn next (fun t wait => ?_) (run.trans begun)⟩
    have none := waits t wait
    rw [Producer.waitsFor?, ended, begun] at none
    cases none

end Performs

end Autoplay

end TileClient.Input
