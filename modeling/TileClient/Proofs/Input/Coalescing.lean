import TileClient.Input.Autoplay
import TileClient.Proofs.Input.Account

/-! A dispatcher to which moves are queued by hand keeps to its account: whatever happens, what it
has sent is what its ticks ask for. -/
namespace TileClient.Input
open Board

theorem Pending.moves_foldl_queue (moves : List Direction) (p : Pending) :
    (moves.foldl queue p).moves = p.moves ++ moves := by
  induction moves generalizing p with
  | nil => exact (List.append_nil _).symm
  | cons move moves ih => rw [List.foldl_cons, ih, queue, List.append_assoc, List.singleton_append]

def Account.news (c : Account) : List Command := if c.Ticking then c.tick.commands else []

theorem Account.commands_settle (c : Account) : c.settle.commands = c.commands ++ c.news := by
  unfold settle news
  split
  · simp [commands]
  · exact (List.append_nil _).symm

namespace Dispatcher

variable {d : Dispatcher} {o : Outlet} {c : Account}

/-- A dispatcher has all that its account says, and holds no command back. -/
structure Attends (d : Dispatcher) (c : Account) : Prop where
  period : d.period = c.period
  handles : d.handles = c.handles
  ended : d.ended = c.finished
  held : d.held = none
  drained : d.drained = true → c.handles = 0
  window : d.pending.moves ++ d.arrived = c.window
  clock : d.begun = true ∧ d.due = c.due ∨ d.begun = false ∧ c.now = c.spawned ∧ c.ticks = []

/-- A dispatcher that has looked at everything. -/
structure Ready (d : Dispatcher) (c : Account) : Prop extends d.Attends c where
  arrived : d.arrived = []
  looked : d.drained = (c.handles == 0)
  begun : d.begun = true

theorem Attends.collect (h : d.Attends c) (begun : d.begun = true) : d.collect.Ready c := by
  have drained : (d.drained || d.handles == 0) = (c.handles == 0) := by
    rw [h.handles]
    cases seen : d.drained with
    | false => rfl
    | true => simp [h.drained seen]
  refine ⟨⟨h.period, h.handles, h.ended, h.held, fun seen => ?_, ?_, h.clock⟩, rfl, drained, begun⟩
  · exact beq_iff_eq.mp (drained.symm.trans seen)
  · rw [Dispatcher.collect, Pending.moves_foldl_queue, List.append_nil]
    exact h.window

theorem Attends.queue (h : d.Attends c) (move : Direction) :
    Attends { d with arrived := d.arrived ++ [move] }
      { c with queued := c.queued ++ [move], window := c.window ++ [move] } :=
  ⟨h.period, h.handles, h.ended, h.held, h.drained, by rw [← List.append_assoc, h.window], h.clock⟩

theorem Attends.drop (h : d.Attends c) (more : c.handles ≠ 0) :
    d.dropHandle.Attends { c with handles := c.handles - 1 } :=
  ⟨h.period, congrArg (· - 1) h.handles, h.ended, h.held,
    fun drained => absurd (h.drained drained) more, h.window, h.clock⟩

theorem Attends.due (h : d.Attends c) (begun : d.begun = true) : d.due = c.due := by
  rcases h.clock with ⟨-, due⟩ | ⟨unbegun, -⟩
  · exact due
  · rw [begun] at unbegun
    cases unbegun

theorem Attends.begun_of_finished (h : d.Attends c) (finished : c.finished = true) :
    d.begun = true := by
  rcases h.clock with ⟨begun, -⟩ | ⟨-, -, none⟩
  · exact begun
  · rw [Account.finished, none] at finished
    cases finished

theorem Attends.waitsFor? (h : d.Attends c) (begun : d.begun = true) :
    d.waitsFor? = if c.finished then none else some c.due := by
  rw [Dispatcher.waitsFor?, h.ended, h.held, begun, h.due begun]
  cases c.finished <;> rfl

/-- Once it has run, a dispatcher does not look at the time of its account. -/
theorem Attends.later (h : d.Attends c) (begun : d.begun = true) (now : Nat) :
    d.Attends { c with now } :=
  ⟨h.period, h.handles, h.ended, h.held, h.drained, h.window, .inl ⟨begun, h.due begun⟩⟩

/-- What a dispatcher keeps of a tick that it takes in time. -/
def ticked (d : Dispatcher) (c : Account) : Dispatcher :=
  { d with due := d.due + d.period, pending := .empty, held := none, ended := c.tick.isLast }

theorem Ready.ticked (h : d.Ready c) (ticking : c.Ticking) : (d.ticked c).Attends c.settle := by
  have due : d.due + d.period = c.settle.due := by
    rw [h.due h.begun, h.period, Account.due_settle ticking]
  rw [Account.settle_of_ticking ticking] at due ⊢
  refine ⟨h.period, h.handles, ?_, rfl, h.drained, h.arrived, .inl ⟨h.begun, due⟩⟩
  have none : c.ticks.any Tick.isLast = false := ticking.1
  simp [Dispatcher.ticked, Account.finished, none]

/-- A tick that comes in time sends what it asks for, as there is room. -/
theorem Ready.tick (h : d.Ready c) (ticking : c.Ticking) (opened : o.closed = false)
    (room : o.hasRoom = true) : d.tick c.now o =
      (d.ticked c, { o with waiting := o.waiting ++ c.tick.commands }) := by
  have intime : ¬ d.due + tolerance < c.now := by
    rw [h.due h.begun, ticking.2]
    exact Nat.not_lt.mpr (Nat.le_add_right _ _)
  have window : d.pending.moves = c.window := by
    rw [← h.window, h.arrived, List.append_nil]
  unfold Dispatcher.tick Pending.takeLatest
  simp only [intime, if_false, window]
  rcases List.eq_nil_or_concat c.window with empty | ⟨earlier, move, full⟩
  · have none : d.pending = .empty := congrArg Pending.mk (window.trans empty)
    by_cases more : c.handles = 0
    · simp [empty, more, h.looked, send, opened, room, Dispatcher.ticked, Tick.commands, Tick.isLast,
        Account.tick, Outlet.push, none]
    · simp [empty, more, h.looked, Dispatcher.ticked, Tick.commands, Tick.isLast, Account.tick, none,
        h.held, h.ended, ticking.1]
  · simp [full, send, opened, room, Dispatcher.ticked, Tick.commands, Tick.isLast, Account.tick,
      Outlet.push]

theorem runTicks_early (alive : d.ended = false) (free : d.held = none) {now : Nat}
    (early : now < d.due) (limit : Nat) : runTicks now limit d o = (d.collect, o) := by
  cases limit <;> simp [runTicks, alive, free, early]

/-- The time of the first run counts as a tick. -/
def started (d : Dispatcher) (now : Nat) : Dispatcher :=
  if d.begun then d else { d with begun := true, due := now + d.period }

theorem Attends.started (h : d.Attends c) :
    (d.started c.now).Attends c ∧ (d.started c.now).begun = true := by
  unfold Dispatcher.started
  split
  · rename_i begun
    exact ⟨h, begun⟩
  · rename_i unbegun
    rcases h.clock with ⟨begun, -⟩ | ⟨-, now, none⟩
    · exact absurd begun unbegun
    · have due : c.now + d.period = c.due := by simp [Account.due, now, none, h.period]
      exact ⟨⟨h.period, h.handles, h.ended, h.held, h.drained, h.window, .inl ⟨rfl, due⟩⟩, rfl⟩

theorem run_eq (alive : d.ended = false) (free : d.held = none) (period : 0 < d.period) (now : Nat)
    (o : Outlet) :
    d.run now o = runTicks now (now + 2 - (d.started now).due) (d.started now) o := by
  have alive : ¬ d.ended = true := Bool.eq_false_iff.mp alive
  unfold run started
  rw [if_neg alive, if_neg (Nat.ne_of_gt period)]
  split <;> simp only [free]

theorem runTicks_ended (ended : d.ended = true) (now limit : Nat) :
    runTicks now limit d o = (d, o) := by
  cases limit <;> simp [runTicks, ended]

theorem runTicks_due (alive : d.ended = false) (free : d.held = none) {now : Nat}
    (due : d.due = now) {d' : Dispatcher} {o' : Outlet} (tick : d.collect.tick now o = (d', o'))
    (limit : Nat) : runTicks now (limit + 1) d o = runTicks now limit d' o' := by
  simp [runTicks, alive, free, due, tick]

/-- A dispatcher that runs takes the tick that is due, if one is, and sends what it asks for. -/
theorem Attends.run (h : d.Attends c) (lawful : c.Lawful) (period : 0 < c.period)
    (opened : o.closed = false) (room : c.Ticking → o.hasRoom = true) : ∃ d' : Dispatcher,
      d.run c.now o = (d', { o with waiting := o.waiting ++ c.news }) ∧ d'.Attends c.settle ∧
        d'.begun = true := by
  cases finished : c.finished with
  | true =>
    have idle : ¬ c.Ticking := fun ticking => nomatch finished.symm.trans ticking.1
    have ended : d.ended = true := h.ended.trans finished
    have begun := h.begun_of_finished finished
    rw [Account.news, if_neg idle, Account.settle_of_still idle, List.append_nil,
      Dispatcher.run, if_pos ended]
    exact ⟨d, rfl, h, begun⟩
  | false =>
    have alive : d.ended = false := h.ended.trans finished
    obtain ⟨started, begun⟩ := h.started
    have due := started.due begun
    rw [run_eq alive h.held (h.period ▸ period), due]
    generalize d.started c.now = e at started begun due
    have going : e.ended = false := started.ended.trans finished
    have ahead := (lawful.clock finished).2
    rcases Nat.lt_or_eq_of_le ahead with early | now
    · have idle : ¬ c.Ticking := fun ticking => Nat.ne_of_lt early ticking.2
      rw [Account.news, if_neg idle, Account.settle_of_still idle, List.append_nil,
        runTicks_early going started.held (due ▸ early)]
      exact ⟨e.collect, rfl, (started.collect begun).toAttends, begun⟩
    · have ticking : c.Ticking := ⟨finished, now⟩
      have ready := started.collect begun
      have ticked := ready.ticked ticking
      have limit : c.now + 2 - c.due = 1 + 1 := by omega
      rw [Account.news, if_pos ticking, limit,
        runTicks_due going started.held (due.trans now.symm) (ready.tick ticking opened (room ticking))]
      cases last : c.settle.finished with
      | true =>
        rw [runTicks_ended (ticked.ended.trans last)]
        exact ⟨_, rfl, ticked, ready.begun⟩
      | false =>
        have later : c.now < (e.collect.ticked c).due := by
          change c.now < e.due + e.period
          rw [due, started.period, now]
          exact Nat.lt_add_of_pos_right period
        rw [runTicks_early (ticked.ended.trans last) ticked.held later]
        exact ⟨_, rfl, (ticked.collect ready.begun).toAttends, ready.begun⟩

end Dispatcher

namespace Autoplay

/-- A dispatcher that is spawned at some time, with room for so many commands. -/
def spawned (start period capacity : Nat) : Autoplay := { manual period capacity with now := start }

/-- How far time passes: to the next alarm, but no further than to its target. -/
def nextStop (a : Autoplay) (target : Nat) : Nat :=
  (((a.alarms.map (·.2)).min?).filter (· ≤ target)).getD target

def occur (a : Autoplay) : Occurrence → Autoplay
  | .queue move => if a.dispatcher.handles = 0 then a else (a.queue move).1
  | .clone =>
    if a.dispatcher.handles = 0 then a else { a with dispatcher := a.dispatcher.addHandle }
  | .drop => if a.dispatcher.handles = 0 then a else a.dropHandle
  | .receive => a.receive
  | .settle => a.settle
  | .wait ms => a.settle.reach (a.settle.nextStop (a.now + ms))

def after (a : Autoplay) (occurrences : List Occurrence) : Autoplay := occurrences.foldl occur a

def roomy : Autoplay → List Occurrence → Bool
  | _, [] => true
  | a, occurrence :: rest =>
    (!occurrence.runs || a.outlet.hasRoom) && roomy (a.occur occurrence) rest

theorem hasRoom_of_roomy {a : Autoplay} {occurrence : Occurrence} {rest : List Occurrence}
    (room : a.roomy (occurrence :: rest) = true) (runs : occurrence.runs = true) :
    a.outlet.hasRoom = true := by
  rw [roomy, Bool.and_eq_true, Bool.or_eq_true, Bool.not_eq_true'] at room
  exact room.1.resolve_left (by simp [runs])

/-- All commands that were sent, received or not, oldest first. -/
def sent (a : Autoplay) : List Command := (a.received.map (·.2)).reverse ++ a.outlet.waiting

variable {a : Autoplay} {c : Account}

/-- A dispatcher with its clock keeps to its account. -/
structure Keeps (a : Autoplay) (c : Account) : Prop where
  now : a.now = c.now
  alone : a.producer = none
  attends : a.dispatcher.Attends c
  opened : a.outlet.closed = false
  sent : a.sent = c.commands
  ready : a.ready = [] ∨ a.ready = [.dispatcher]
  alarms : a.alarms = [] ∨ a.alarms = [(.dispatcher, c.due)] ∧ c.finished = false ∧
    c.now < c.due ∧ a.dispatcher.begun = true
  woken : c.finished = false → a.alarms = [] → a.ready = [.dispatcher]

/-- Nothing is left to do before the next tick. -/
structure Rests (a : Autoplay) (c : Account) : Prop extends a.Keeps c where
  idle : a.ready = []
  begun : a.dispatcher.begun = true

theorem setAlarm_dispatcher (single : a.alarms = [] ∨ ∃ due, a.alarms = [(.dispatcher, due)])
    (due : Option Nat) :
    a.setAlarm .dispatcher due = { a with alarms := (due.map (Role.dispatcher, ·)).toList } := by
  rcases single with none | ⟨before, one⟩
  · cases due <;> simp [setAlarm, none]
  · cases due with
    | none => simp [setAlarm, one]
    | some due =>
      obtain ⟨now, dispatcher, producer, outlet, ready, alarms, received⟩ := a
      obtain rfl : alarms = [(.dispatcher, before)] := one
      by_cases same : due = before <;> simp [setAlarm, same]

theorem settle_of_idle (idle : a.ready = []) : a.settle = a := by
  simp [settle, settleWithin, idle]

theorem Keeps.single (h : a.Keeps c) : a.alarms = [] ∨ ∃ due, a.alarms = [(.dispatcher, due)] :=
  h.alarms.imp_right fun one => ⟨c.due, one.1⟩

theorem Keeps.settle_of_ready (h : a.Keeps c) (ready : a.ready = [.dispatcher])
    {d : Dispatcher} {o : Outlet} (run : a.dispatcher.run a.now a.outlet = (d, o)) :
    a.settle = { a with
      dispatcher := d
      outlet := o
      ready := []
      alarms := (d.waitsFor?.map (Role.dispatcher, ·)).toList } := by
  have woken : { a with ready := [] }.runDispatcher = { a with
      dispatcher := d
      outlet := o
      ready := []
      alarms := (d.waitsFor?.map (Role.dispatcher, ·)).toList } := by
    simp only [runDispatcher, run]
    exact setAlarm_dispatcher (a := { a with dispatcher := d, outlet := o, ready := [] }) h.single _
  rw [settle, settleWithin, ready]
  exact (congrArg (settleWithin 4) woken).trans rfl

theorem Keeps.waiting (h : a.Keeps c) (idle : a.ready = []) (going : c.finished = false) :
    a.alarms = [(.dispatcher, c.due)] ∧ c.now < c.due ∧ a.dispatcher.begun = true := by
  rcases h.alarms with none | ⟨one, -, early, begun⟩
  · have woken := h.woken going none
    rw [idle] at woken
    cases woken
  · exact ⟨one, early, begun⟩

theorem Keeps.settle (h : a.Keeps c) (lawful : c.Lawful) (period : 0 < c.period)
    (room : a.outlet.hasRoom = true) : a.settle.Rests c.settle := by
  rcases h.ready with idle | ready
  · have still : ¬ c.Ticking := fun ticking =>
      Nat.ne_of_lt (h.waiting idle ticking.1).2.1 ticking.2
    rw [settle_of_idle idle, Account.settle_of_still still]
    refine ⟨h, idle, ?_⟩
    cases finished : c.finished with
    | true => exact h.attends.begun_of_finished finished
    | false => exact (h.waiting idle finished).2.2
  · obtain ⟨d, run, attends, begun⟩ := h.attends.run lawful period h.opened fun _ => room
    rw [← h.now] at run
    rw [h.settle_of_ready ready run]
    have now : a.now = c.settle.now := h.now.trans c.now_settle.symm
    have sent : (a.received.map (·.2)).reverse ++ (a.outlet.waiting ++ c.news) = c.settle.commands := by
      rw [c.commands_settle, ← List.append_assoc]
      exact congrArg (· ++ c.news) h.sent
    have alarm := attends.waitsFor? begun
    refine ⟨⟨now, h.alone, attends, h.opened, sent, .inl rfl, ?_, fun going none => ?_⟩, rfl, begun⟩
    · rw [alarm]
      cases finished : c.settle.finished with
      | true => exact .inl rfl
      | false => exact .inr ⟨rfl, rfl, lawful.early period finished, begun⟩
    · rw [alarm, going] at none
      cases none

theorem nextStop_of_alarm {due : Nat} (one : a.alarms = [(.dispatcher, due)]) (target : Nat) :
    a.nextStop target = min target due := by
  by_cases arrives : due ≤ target
  · simp [nextStop, one, Option.filter, arrives]
  · simp [nextStop, one, Option.filter, arrives, Nat.le_of_not_le]

/-- Time passes to the next tick at most, which wakes the dispatcher. -/
theorem Rests.wait (h : a.Rests c) (ms : Nat) :
    (a.reach (a.nextStop (a.now + ms))).Keeps
      { c with now := if c.finished then c.now + ms else min (c.now + ms) c.due } := by
  have attends := h.attends.later h.begun
  cases finished : c.finished with
  | true =>
    have none : a.alarms = [] :=
      h.alarms.resolve_right fun one => nomatch finished.symm.trans one.2.1
    have stop : a.reach (a.nextStop (a.now + ms)) = { a with now := a.now + ms } := by
      simp [reach, nextStop, none]
    rw [stop, if_pos rfl]
    refine ⟨congrArg (· + ms) h.now, h.alone, attends _, h.opened, h.sent, h.ready, .inl none, ?_⟩
    exact fun going => nomatch going.symm.trans finished
  | false =>
    obtain ⟨one, -, -⟩ := h.waiting h.idle finished
    rw [if_neg Bool.false_ne_true, nextStop_of_alarm one, h.now]
    rcases Nat.lt_or_ge (c.now + ms) c.due with before | arrives
    · rw [Nat.min_eq_left (Nat.le_of_lt before)]
      have stop : a.reach (c.now + ms) = { a with now := c.now + ms } := by
        simp [reach, one, before, Nat.not_le_of_lt before]
      rw [stop]
      exact ⟨rfl, h.alone, attends _, h.opened, h.sent, h.ready,
        .inr ⟨one, finished, before, h.begun⟩, h.woken⟩
    · rw [Nat.min_eq_right arrives]
      have stop : a.reach c.due = { a with now := c.due, ready := [.dispatcher], alarms := [] } := by
        simp [reach, one, wake, h.idle]
      rw [stop]
      exact ⟨rfl, h.alone, attends _, h.opened, h.sent, .inr rfl, .inl rfl, fun _ _ => rfl⟩

theorem wake_dispatcher (ready : a.ready = [] ∨ a.ready = [.dispatcher]) :
    a.wake .dispatcher = { a with ready := [.dispatcher] } := by
  rcases ready with idle | ready
  · simp [wake, idle]
  · obtain ⟨now, dispatcher, producer, outlet, ready', alarms, received⟩ := a
    obtain rfl : ready' = [.dispatcher] := ready
    simp [wake]

theorem Keeps.touched (h : a.Keeps c) {d : Dispatcher} {ready : List Role} {handles : Nat}
    {queued window : List Direction} (attends : d.Attends { c with handles, queued, window })
    (begun : d.begun = a.dispatcher.begun) (woken : ready = a.ready ∨ ready = [.dispatcher]) :
    Keeps { a with dispatcher := d, ready } { c with handles, queued, window } := by
  refine ⟨h.now, h.alone, attends, h.opened, h.sent, ?_, ?_, fun going none => ?_⟩
  · rcases woken with rfl | rfl
    · exact h.ready
    · exact .inr rfl
  · rw [begun]
    exact h.alarms
  · rcases woken with rfl | rfl
    · exact h.woken going none
    · rfl

theorem Keeps.queue (h : a.Keeps c) (going : c.finished = false) (move : Direction) :
    (a.queue move).1.Keeps { c with queued := c.queued ++ [move], window := c.window ++ [move] } := by
  have alive : ¬ a.dispatcher.ended = true := Bool.eq_false_iff.mp (h.attends.ended.trans going)
  rw [Autoplay.queue, Dispatcher.queue, if_neg alive]
  dsimp only
  rw [wake_dispatcher (by exact h.ready)]
  exact h.touched (h.attends.queue move) rfl (.inr rfl)

theorem Keeps.receive (h : a.Keeps c) : a.receive.Keeps c := by
  unfold Autoplay.receive Outlet.receive
  cases waiting : a.outlet.waiting with
  | nil => exact h
  | cons command rest =>
    simp only [List.head?_cons, List.tail_cons]
    rw [wake_dispatcher (by exact h.ready)]
    refine ⟨h.now, h.alone, h.attends, h.opened, ?_, .inr rfl, h.alarms, fun _ _ => rfl⟩
    rw [← h.sent, Autoplay.sent, Autoplay.sent, waiting]
    simp

theorem Keeps.occur (h : a.Keeps c) (lawful : c.Lawful) (period : 0 < c.period)
    (occurrence : Occurrence) (rest : List Occurrence)
    (room : a.roomy (occurrence :: rest) = true) :
    (a.occur occurrence).Keeps (c.occur occurrence) := by
  cases occurrence with
  | queue move =>
    simp only [Autoplay.occur, Account.occur, h.attends.handles]
    split
    · exact h
    · rename_i more
      have going : c.finished = false :=
        Bool.eq_false_iff.mpr fun finished => more (lawful.farewell finished).1
      exact h.queue going move
  | clone =>
    simp only [Autoplay.occur, Account.occur, h.attends.handles]
    split
    · exact h
    · rename_i more
      refine h.touched ⟨h.attends.period, ?_, h.attends.ended, h.attends.held, ?_, h.attends.window,
        h.attends.clock⟩ rfl (.inl rfl)
      · exact congrArg (· + 1) h.attends.handles
      · exact fun drained => absurd (h.attends.drained drained) more
  | drop =>
    simp only [Autoplay.occur, Account.occur, h.attends.handles]
    split
    · exact h
    · rename_i more
      rw [Autoplay.dropHandle, wake_dispatcher (by exact h.ready)]
      exact h.touched (h.attends.drop more) rfl (.inr rfl)
  | receive => exact h.receive
  | settle => exact (h.settle lawful period (hasRoom_of_roomy room rfl)).toKeeps
  | wait ms =>
    have rests := h.settle lawful period (hasRoom_of_roomy room rfl)
    have now : a.settle.now = a.now := rests.now.trans (c.now_settle.trans h.now.symm)
    rw [Autoplay.occur, ← now]
    exact rests.wait ms

theorem Keeps.after (h : a.Keeps c) (lawful : c.Lawful) (period : 0 < c.period)
    {occurrences : List Occurrence} (room : a.roomy occurrences = true) :
    (a.after occurrences).Keeps (c.after occurrences) := by
  induction occurrences generalizing a c with
  | nil => exact h
  | cons occurrence rest ih =>
    have kept := h.occur lawful period occurrence rest room
    have later : (a.occur occurrence).roomy rest = true := by
      rw [roomy, Bool.and_eq_true] at room
      exact room.2
    exact ih kept (lawful.occur occurrence) ((c.constants_occur occurrence).2 ▸ period) later

theorem keeps_spawned (start period capacity : Nat) :
    (spawned start period capacity).Keeps (.opening start period) := by
  refine ⟨rfl, rfl, ?_, rfl, rfl, .inr rfl, .inl rfl, fun _ _ => rfl⟩
  exact ⟨rfl, rfl, rfl, rfl, nofun, rfl, .inr ⟨rfl, rfl, rfl⟩⟩

/-- Time that passes from alarm to alarm is waited for bit by bit. -/
theorem after_pass (a : Autoplay) (ms : Nat) :
    ∃ occurrences, a.pass Autoplay.settle ms = a.after occurrences := by
  unfold pass
  generalize a.now + ms = target
  induction ms generalizing a with
  | zero => exact ⟨[], rfl⟩
  | succ instants ih =>
    unfold passWithin
    split
    · rename_i ahead
      obtain ⟨rest, passed⟩ := ih (a.occur (.wait (target - a.now)))
      refine ⟨.wait (target - a.now) :: rest, ?_⟩
      rw [Autoplay.after, List.foldl_cons]
      refine Eq.trans ?_ passed
      rw [Autoplay.occur, Nat.add_sub_cancel' (Nat.le_of_lt ahead)]
      rfl
    · exact ⟨[], rfl⟩

/-- The coalescing law. A dispatcher ticks at every period after it was spawned, as long as there is
room for its commands. Each tick sends the latest of the moves that came since the one before it;
without any it sends nothing, or the farewell if no handle is left, and that is the last tick. So
the moves that leave are some of those that were queued, in their order, among them the last before
a farewell, and moves are taken at any time before that. -/
theorem latest_of_each_window_is_sent (start period capacity : Nat) (positive : 0 < period)
    (occurrences : List Occurrence) (room : (spawned start period capacity).roomy occurrences = true) :
    let a := (spawned start period capacity).after occurrences
    let c := (Account.opening start period).after occurrences
    a.sent = c.commands ∧ a.now = c.now ∧ a.dispatcher.handles = c.handles ∧
    a.dispatcher.ended = c.finished ∧ (∀ move, (a.queue move).2 = !c.finished) ∧
    c.Lawful ∧ c.spawned = start ∧ c.period = period ∧
    c.commands = c.moves.map .move ++ (if c.finished then [.quit] else []) ∧
    c.moves.Sublist c.queued ∧
    (c.finished = true → c.moves.getLast? = c.queued.getLast?) ∧
    ∀ ms, ∃ later, a.pass Autoplay.settle ms = a.after later := by
  intro a c
  have opened := Account.lawful_opening start period
  have lawful : c.Lawful := Account.lawful_after opened occurrences
  have keeps : a.Keeps c := (keeps_spawned start period capacity).after opened positive room
  obtain ⟨spawned, spaced⟩ := Account.constants_after (.opening start period) occurrences
  have queued := lawful.windows
  refine ⟨keeps.sent, keeps.now, keeps.attends.handles, keeps.attends.ended, fun move => ?_, lawful,
    spawned, spaced, lawful.commands_eq, ?_, fun finished => ?_, a.after_pass⟩
  · rw [Autoplay.queue, Dispatcher.queue, keeps.attends.ended]
    cases c.finished <;> rfl
  · rw [← queued]
    exact c.moves_sublist.trans (List.sublist_append_left _ _)
  · rw [← queued, (lawful.farewell finished).2, List.append_nil]
    exact c.getLast?_moves

/-- Three moves in the first window, one in the second with which the only handle is dropped, and
none in the third. -/
theorem sent_of_three_windows :
    let a := (spawned 0 500 8).after [.queue .up, .queue .left, .queue .down, .wait 500, .settle,
      .receive, .wait 300, .queue .right, .drop, .wait 200, .wait 500, .settle]
    a.now = 1500 ∧ a.sent = [.move .down, .move .right, .quit] := by
  intro a
  have law := latest_of_each_window_is_sent 0 500 8 (by decide)
    [.queue .up, .queue .left, .queue .down, .wait 500, .settle, .receive, .wait 300,
      .queue .right, .drop, .wait 200, .wait 500, .settle] (by decide +kernel)
  exact ⟨law.2.1.trans (by decide +kernel), law.1.trans (by decide +kernel)⟩

end Autoplay

end TileClient.Input
