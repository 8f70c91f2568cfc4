import TileClient.Proofs.Input.Producing

/-! A script that is played arrives whole: the producer passes one move on between any two ticks,
so that none is given up, and the farewell comes a period after the last. -/
namespace TileClient.Input
open Board

/-- Whether it is something that is done to the moves by hand. -/
def Occurrence.byHand : Occurrence → Bool
  | .queue _ | .clone | .drop => true
  | .receive | .settle | .wait _ => false

namespace Autoplay

variable {start period : Nat} {moves : List Direction} {a : Autoplay} {c : Account}

namespace Performs

theorem settle (h : Performs start period moves a c) (enough : 2 ≤ period)
    (room : a.outlet.hasRoom = true) : ∃ c', Performs start period moves a.settle c' ∧ c.Leads c' ∧
      a.settle.ready = [] ∧ a.settle.received = a.received := by
  have settled := settle_of_turn (a := a)
    (P := fun b => ∃ c', Performs start period moves b c' ∧ c.Leads c' ∧
      (c'.Ticking → b.outlet.hasRoom = true) ∧ b.received = a.received)
    (fun b ⟨c', performs, _⟩ => performs.once) ?_ ⟨c, h, .refl c, fun _ => room, rfl⟩
  · obtain ⟨⟨c', performs, leads, -, received⟩, idle⟩ := settled
    exact ⟨c', performs, leads, idle, received⟩
  · rintro b role rest ⟨c', performs, leads, room, received⟩ next
    cases role with
    | dispatcher =>
      have ticked := Account.Leads.settle performs.recites.lawful (performs.positive enough)
      have still := performs.recites.lawful.still (performs.positive enough)
      exact ⟨_, performs.dispatcher_turn enough next room, leads.trans ticked,
        fun again => absurd again still, (received_runDispatcher _).trans received⟩
    | producer =>
      obtain ⟨handles, queued, window, turned⟩ := performs.producer_turn enough next
      have spares := Spares.runProducer { b with ready := rest }
      refine ⟨_, turned, leads.trans ⟨rfl, .inl ⟨rfl, Iff.rfl⟩⟩, fun ticking => ?_,
        spares.received.trans received⟩
      rw [Autoplay.run, spares.outlet]
      exact room ticking

theorem alarm_of_idle (h : Performs start period moves a c) (idle : a.ready = [])
    (going : c.finished = false) : (.dispatcher, c.due) ∈ a.alarms := by
  have rests := h.toWakeful.idle idle
  refine rests.1 _ _ ?_
  rw [waits?, h.attends.waitsFor? (rests.2 .dispatcher), going]
  rfl

theorem still (h : Performs start period moves a c) (idle : a.ready = []) : ¬ c.Ticking := by
  intro ticking
  have ahead := (h.alarms _ _ (h.alarm_of_idle idle ticking.1)).2
  exact Nat.ne_of_lt ahead (h.now.trans ticking.2)

/-- A command that is received has been sent all the same. -/
theorem receive (h : Performs start period moves a c) : Performs start period moves a.receive c := by
  unfold Autoplay.receive Outlet.receive
  cases waiting : a.outlet.waiting with
  | nil => exact h
  | cons command commands =>
    have sent : (((a.now, command) :: a.received).map (·.2)).reverse ++ commands = c.commands := by
      rw [← h.sent, sent, waiting]
      simp
    have fits := h.fits
    rw [waiting] at fits
    simp only [List.head?_cons, List.tail_cons]
    have woken (r : Role) (known : r ∈ a.ready) : r ∈ (wake { a with
        outlet := { a.outlet with waiting := commands }
        received := (a.now, command) :: a.received } .dispatcher).ready := mem_wake.mpr (.inl known)
    rw [wake_eq] at woken ⊢
    exact ⟨h.toWakeful.woken rfl rfl rfl rfl (nodup_wake h.once) woken, h.now, h.recites, h.attends,
      h.opened, h.size, Nat.le_of_succ_le fits, sent, h.producer⟩

/-- Time passes no further than to the next alarm. -/
theorem reach (h : Performs start period moves a c) (idle : a.ready = []) {time : Nat}
    (later : a.now ≤ time) (stops : ∀ r t, (r, t) ∈ a.alarms → time ≤ t) :
    Performs start period moves (a.reach time) { c with now := time } := by
  have rests := h.toWakeful.idle idle
  have begun : a.dispatcher.begun = true := rests.2 .dispatcher
  have later' : c.now ≤ time := h.now ▸ later
  obtain ⟨p, produces, cue⟩ := h.producer
  have recites : Recites start period moves { c with now := time } := by
    have lawful := h.recites.lawful
    have clock (going : c.finished = false) :
        c.spawned + c.ticks.length * c.period ≤ time ∧ time ≤ c.due :=
      ⟨Nat.le_trans (lawful.clock going).1 later', stops _ _ (h.alarm_of_idle idle going)⟩
    exact ⟨⟨lawful.times, clock, lawful.windows, lawful.farewell, lawful.last⟩, h.recites.spawned,
      h.recites.spaced, Nat.le_trans h.recites.reached later', h.recites.ticks⟩
  have cue : Cue start period moves { c with now := time } p := by
    cases cue with
    | entrance =>
      have run := rests.2 .producer
      rw [hasRun, produces] at run
      cases run
    | waiting k within handles queued passed ahead =>
      have waits : a.waits? .producer = some (start + half period + k * period) := by
        rw [waits?, produces]
        rfl
      exact .waiting k within handles queued (Nat.le_trans passed (Nat.add_le_add_right later' _))
        (stops _ _ (rests.1 _ _ waits))
    | exit begun ended handles queued passed =>
      exact .exit begun ended handles queued (Nat.le_trans passed later')
  have wakeful := h.toWakeful.reach later
  rw [reach_eq] at wakeful ⊢
  exact ⟨wakeful, rfl, recites, h.attends.later begun time, h.opened, h.size, h.fits, h.sent, p,
    produces, cue⟩

theorem occur (h : Performs start period moves a c) (enough : 2 ≤ period) {occurrence : Occurrence}
    (apart : occurrence.byHand = false) {rest : List Occurrence}
    (room : a.roomy (occurrence :: rest) = true) :
    ∃ c', Performs start period moves (a.occur occurrence) c' := by
  cases occurrence with
  | queue | clone | drop => cases apart
  | receive => exact ⟨c, h.receive⟩
  | settle =>
    obtain ⟨c', settled, -⟩ := h.settle enough (hasRoom_of_roomy room rfl)
    exact ⟨c', settled⟩
  | wait ms =>
    obtain ⟨c', settled, leads, idle, -⟩ := h.settle enough (hasRoom_of_roomy room rfl)
    have now : a.settle.now = a.now := settled.now.trans (leads.now.trans h.now.symm)
    refine ⟨_, settled.reach idle ?_ fun r t alarm => nextStop_le_alarm alarm⟩
    exact le_nextStop (now ▸ Nat.le_add_right _ _) fun r t alarm =>
      Nat.le_of_lt (settled.alarms r t alarm).2

theorem after (h : Performs start period moves a c) (enough : 2 ≤ period)
    {occurrences : List Occurrence} (apart : ∀ o ∈ occurrences, o.byHand = false)
    (room : a.roomy occurrences = true) :
    ∃ c', Performs start period moves (a.after occurrences) c' := by
  induction occurrences generalizing a c with
  | nil => exact ⟨c, h⟩
  | cons occurrence rest ih =>
    obtain ⟨first, later⟩ := List.forall_mem_cons.mp apart
    obtain ⟨c', occurred⟩ := h.occur enough first room
    rw [roomy, Bool.and_eq_true] at room
    exact ih occurred later room.2

end Performs

theorem performs_playing {capacity : Nat} (size : 0 < capacity) :
    Performs start period moves (playing start period capacity moves) (.opening start period) := by
  have once : [Role.dispatcher, Role.producer].Nodup := by decide
  have all (r : Role) : r ∈ [Role.dispatcher, Role.producer] := by cases r <;> decide
  refine ⟨⟨once, nofun, ?_, fun r _ => all r⟩, rfl, .opening, ?_, rfl, size, Nat.zero_le _, rfl, _,
    rfl, .entrance rfl rfl rfl⟩
  · rintro (_ | _) t ⟨⟩
  · exact ⟨rfl, rfl, rfl, rfl, nofun, rfl, .inr ⟨rfl, rfl, rfl⟩⟩

theorem outlet_receive (a : Autoplay) :
    a.receive.outlet = { a.outlet with waiting := a.outlet.waiting.tail } := by
  unfold Autoplay.receive Outlet.receive
  cases waiting : a.outlet.waiting with
  | nil =>
    simp only [List.head?_nil, List.tail_nil]
    rw [← waiting]
  | cons command commands =>
    simp only [List.head?_cons, List.tail_cons]
    rw [wake_eq]

theorem roomy_append (a : Autoplay) (first later : List Occurrence) :
    a.roomy (first ++ later) = (a.roomy first && (a.after first).roomy later) := by
  induction first generalizing a with
  | nil => rfl
  | cons occurrence first ih =>
    rw [List.cons_append, roomy, roomy, ih, Bool.and_assoc]
    rfl

/-- The commands that were received have the times of their ticks, and those that wait come now. -/
structure Drains (start period : Nat) (moves : List Direction) (a : Autoplay) (c : Account) : Prop
    extends Performs start period moves a c where
  stamped : a.received.reverse ++ a.outlet.waiting.map (a.now, ·) = c.log

namespace Drains

theorem settle (h : Drains start period moves a c) (enough : 2 ≤ period)
    (room : a.outlet.hasRoom = true) : ∃ c', Drains start period moves a.settle c' ∧ c.Leads c' ∧
      a.settle.ready = [] ∧ a.settle.outlet.waiting.length ≤
        a.outlet.waiting.length + if c.Ticking then 1 else 0 := by
  obtain ⟨c', settled, leads, idle, received⟩ := h.toPerforms.settle enough room
  obtain ⟨news, commands, log, few⟩ := leads.commands
  have waiting : a.settle.outlet.waiting = a.outlet.waiting ++ news := by
    have sent := settled.sent
    rw [commands, ← h.sent, Autoplay.sent, Autoplay.sent, received, List.append_assoc] at sent
    exact List.append_cancel_left sent
  have now : a.settle.now = a.now := settled.now.trans (leads.now.trans h.now.symm)
  refine ⟨c', ⟨settled, ?_⟩, leads, idle, ?_⟩
  · rw [log, ← h.stamped, received, waiting, now, List.map_append, List.append_assoc, h.now]
  · rw [waiting, List.length_append]
    exact Nat.add_le_add_left few _

theorem receive (h : Drains start period moves a c) : Drains start period moves a.receive c := by
  refine ⟨h.toPerforms.receive, ?_⟩
  have stamped := h.stamped
  unfold Autoplay.receive Outlet.receive
  cases waiting : a.outlet.waiting with
  | nil => exact stamped
  | cons command commands =>
    simp only [List.head?_cons, List.tail_cons]
    rw [wake_eq]
    simpa [waiting] using stamped

theorem reach (h : Drains start period moves a c) (idle : a.ready = [])
    (none : a.outlet.waiting = []) {time : Nat} (later : a.now ≤ time)
    (stops : ∀ r t, (r, t) ∈ a.alarms → time ≤ t) :
    Drains start period moves (a.reach time) { c with now := time } ∧
      (a.reach time).outlet.waiting = [] := by
  have reached := h.toPerforms.reach idle later stops
  have stamped := h.stamped
  rw [reach_eq] at reached ⊢
  refine ⟨⟨reached, ?_⟩, none⟩
  rw [none] at stamped ⊢
  exact stamped

/-- All that comes at one time is received at that time. -/
theorem drainWithin (h : Drains start period moves a c) (enough : 2 ≤ period) {limit : Nat}
    (room : a.outlet.hasRoom = true)
    (few : a.outlet.waiting.length + (if c.Ticking then 1 else 0) ≤ limit) :
    ∃ c', Drains start period moves (drainWithin limit a) c' ∧
      (Autoplay.drainWithin limit a).ready = [] ∧ (Autoplay.drainWithin limit a).outlet.waiting = [] ∧
      c'.now = c.now := by
  induction limit generalizing a c with
  | zero =>
    obtain ⟨c', settled, leads, idle, more⟩ := h.settle enough room
    rw [Autoplay.drainWithin]
    exact ⟨c', settled, idle, List.eq_nil_of_length_eq_zero (by omega), leads.now⟩
  | succ limit ih =>
    obtain ⟨c', settled, leads, idle, more⟩ := h.settle enough room
    rw [Autoplay.drainWithin]
    split
    · rename_i empty
      exact ⟨c', settled, idle, List.isEmpty_iff.mp empty, leads.now⟩
    · rename_i full
      have fits := settled.fits
      have some : 0 < a.settle.outlet.waiting.length :=
        List.length_pos_iff.mpr fun empty => full (List.isEmpty_iff.mpr empty)
      have room' : a.settle.receive.outlet.hasRoom = true := by
        have free : a.settle.outlet.waiting.tail.length < a.settle.outlet.capacity := by
          rw [List.length_tail]
          omega
        rw [outlet_receive]
        exact decide_eq_true free
      have fewer : a.settle.receive.outlet.waiting.length + (if c'.Ticking then 1 else 0) ≤ limit := by
        rw [outlet_receive, if_neg (settled.still idle), List.length_tail]
        omega
      obtain ⟨c'', drained, idle', none, now⟩ := ih settled.receive room' fewer
      exact ⟨c'', drained, idle', none, now.trans leads.now⟩

theorem drain (h : Drains start period moves a c) (enough : 2 ≤ period)
    (none : a.outlet.waiting = []) : ∃ c', Drains start period moves a.drain c' ∧
      a.drain.ready = [] ∧ a.drain.outlet.waiting = [] ∧ c'.now = c.now := by
  have room : a.outlet.hasRoom = true := by
    rw [Outlet.hasRoom, none]
    exact decide_eq_true h.size
  refine h.drainWithin enough room ?_
  split <;> omega

/-- Time passes to its target, and everything that comes is received on the way. -/
theorem passWithin (h : Drains start period moves a c) (enough : 2 ≤ period)
    (none : a.outlet.waiting = []) {target instants : Nat} (ahead : a.now ≤ target)
    (near : target ≤ a.now + instants) :
    ∃ c', Drains start period moves (passWithin Autoplay.drain target instants a) c' ∧
      (Autoplay.passWithin Autoplay.drain target instants a).outlet.waiting = [] ∧
      c'.now = target := by
  induction instants generalizing a c with
  | zero => exact ⟨c, h, none, h.now.symm.trans (by omega)⟩
  | succ instants ih =>
    rw [Autoplay.passWithin]
    split
    · rename_i early
      obtain ⟨c', drained, idle, empty, now⟩ := h.drain enough none
      have now : a.drain.now = a.now := drained.now.trans (now.trans h.now.symm)
      have onward : a.now + 1 ≤ a.drain.nextStop target :=
        le_nextStop early fun r t alarm => now ▸ (drained.alarms r t alarm).2
      obtain ⟨reached, empty'⟩ := drained.reach idle empty
        (now ▸ Nat.le_of_succ_le onward) fun r t alarm => nextStop_le_alarm alarm
      have reaches : (a.drain.reach (a.drain.nextStop target)).now = a.drain.nextStop target := by
        rw [reach_eq]
      have near' : target ≤ (a.drain.reach (a.drain.nextStop target)).now + instants := by omega
      exact ih reached empty' (reaches ▸ nextStop_le _ _) near'
    · exact ⟨c, h, none, h.now.symm.trans (by omega)⟩

end Drains

/-- A script is played whole. To a receiver that always has room each move of the script goes, in
order and once, a period after the one before it, and a period after the last the farewell, with
which it all ends; and a receiver that takes commands as they come receives them at those times. -/
theorem script_is_played_whole (start period capacity : Nat) (moves : List Direction)
    (enough : 2 ≤ period) (size : 0 < capacity) :
    (∀ occurrences, (∀ o ∈ occurrences, o.byHand = false) →
      (playing start period capacity moves).roomy (occurrences ++ [.settle]) = true →
      let a := (playing start period capacity moves).after (occurrences ++ [.settle])
      a.sent = ((performance start period moves).filter (·.1 ≤ a.now)).map (·.2) ∧
      a.dispatcher.ended = decide (start + (moves.length + 1) * period ≤ a.now) ∧
      (start + (moves.length + 1) * period ≤ a.now →
        a.sent = moves.map Command.move ++ [Command.quit])) ∧
    ∀ ms, let a := ((playing start period capacity moves).pass drain ms).drain
      a.now = start + ms ∧ a.outlet.waiting = [] ∧
      a.received.reverse = (performance start period moves).filter (·.1 ≤ start + ms) ∧
      a.dispatcher.ended = decide (start + (moves.length + 1) * period ≤ start + ms) := by
  have first : Performs start period moves (playing start period capacity moves)
      (.opening start period) := performs_playing size
  constructor
  · intro occurrences apart room a
    rw [roomy_append, Bool.and_eq_true] at room
    obtain ⟨c, played⟩ := first.after enough apart room.1
    obtain ⟨c', settled, -, idle, -⟩ := played.settle enough (hasRoom_of_roomy room.2 rfl)
    have last : a = ((playing start period capacity moves).after occurrences).settle :=
      List.foldl_append ..
    obtain ⟨log, finished⟩ := settled.recites.log_of_still (settled.still idle)
    rw [last, settled.sent, settled.attends.ended, settled.now, ← log, c'.map_log]
    refine ⟨rfl, finished, fun past => ?_⟩
    rw [← c'.map_log, log, filter_performance_of_le past, commands_performance]
  · intro ms a
    have drains : Drains start period moves (playing start period capacity moves)
        (.opening start period) := ⟨first, rfl⟩
    have soon : start ≤ start + ms := Nat.le_add_right _ _
    have near : start + ms ≤ (playing start period capacity moves).now + ms := Nat.le_refl _
    obtain ⟨c, passed, none, arrived⟩ := drains.passWithin enough rfl soon near
    obtain ⟨c', drained, idle, empty, now⟩ := passed.drain enough none
    obtain ⟨log, finished⟩ := drained.recites.log_of_still (drained.still idle)
    have stamped := drained.stamped
    rw [empty, List.map_nil, List.append_nil, log, now, arrived] at stamped
    rw [now, arrived] at finished
    exact ⟨drained.now.trans (now.trans arrived), empty, stamped, drained.attends.ended.trans finished⟩

/-- Two moves with an odd period, received as they come, or left to wait but for the first. -/
theorem two_moves_are_played_whole :
    let a := ((playing 10 3 1 [.right, .left]).pass drain 9).drain
    let b := (playing 10 3 2 [.right, .left]).after [.wait 5, .wait 5, .settle, .receive, .wait 5,
      .wait 5, .wait 5, .wait 1, .settle]
    a.received.reverse = [(13, .move .right), (16, .move .left), (19, .quit)] ∧
      a.dispatcher.ended = true ∧ b.now = 19 ∧ b.sent = [.move .right, .move .left, .quit] := by
  intro a b
  have attended := (script_is_played_whole 10 3 1 [.right, .left] (by decide) (by decide)).2 9
  have left := (script_is_played_whole 10 3 2 [.right, .left] (by decide) (by decide)).1
    [.wait 5, .wait 5, .settle, .receive, .wait 5, .wait 5, .wait 5, .wait 1] (by decide)
    (by decide +kernel)
  have now : b.now = 19 := by decide +kernel
  exact ⟨attended.2.2.1.trans (by decide), attended.2.2.2.trans (by decide), now,
    left.2.2 (by decide +kernel)⟩

end Autoplay

end TileClient.Input
