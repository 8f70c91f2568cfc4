import TileClient.Input.Autoplay
import TileClient.Proofs.Input.Account

/-! The account of a script that is played: one move in the window of each tick, and then the
farewell. The producer is half a period out of step, so that no move comes at the time of a tick. -/
namespace TileClient.Input
open Board

/-- What is sent at a tick, with its time. -/
def Tick.log (t : Tick) : List (Nat × Command) := t.commands.map (t.time, ·)

/-- Everything that was sent, with its times. -/
def Account.log (c : Account) : List (Nat × Command) := c.ticks.flatMap Tick.log

theorem Tick.length_commands (t : Tick) : t.commands.length ≤ 1 := by
  unfold commands
  split
  · exact Nat.le_refl _
  · split <;> decide

theorem Account.map_log (c : Account) : c.log.map (·.2) = c.commands := by
  simp [log, commands, List.map_flatMap, Tick.log, Function.comp_def]

theorem Account.Lawful.still {c : Account} (h : c.Lawful) (period : 0 < c.period) :
    ¬ c.settle.Ticking :=
  fun again => Nat.ne_of_lt (h.early period again.1) again.2

/-- Within one time an account goes on by the tick that was due, if at all. -/
structure Account.Leads (c c' : Account) : Prop where
  now : c'.now = c.now
  ticks : c'.ticks = c.ticks ∧ (c'.Ticking ↔ c.Ticking) ∨
    c.Ticking ∧ ¬ c'.Ticking ∧ ∃ t : Tick, t.time = c.now ∧ c'.ticks = c.ticks ++ [t]

namespace Account.Leads

variable {c c' c'' : Account}

theorem refl (c : Account) : c.Leads c := ⟨rfl, .inl ⟨rfl, Iff.rfl⟩⟩

theorem trans (h : c.Leads c') (h' : c'.Leads c'') : c.Leads c'' := by
  refine ⟨h'.now.trans h.now, ?_⟩
  rcases h.ticks with ⟨same, ticking⟩ | ⟨ticking, still, t, time, ticks⟩
  · rcases h'.ticks with ⟨same', ticking'⟩ | ⟨ticking', still', t, time, ticks⟩
    · exact .inl ⟨same'.trans same, ticking'.trans ticking⟩
    · exact .inr ⟨ticking.mp ticking', still', t, time.trans h.now, same ▸ ticks⟩
  · rcases h'.ticks with ⟨same', ticking'⟩ | ⟨ticking', -⟩
    · exact .inr ⟨ticking, fun again => still (ticking'.mp again), t, time, same'.trans ticks⟩
    · exact absurd ticking' still

theorem settle (lawful : c.Lawful) (period : 0 < c.period) : c.Leads c.settle := by
  refine ⟨c.now_settle, ?_⟩
  by_cases ticking : c.Ticking
  · exact .inr ⟨ticking, lawful.still period, c.tick, rfl, by rw [settle_of_ticking ticking]⟩
  · rw [settle_of_still ticking]
    exact .inl ⟨rfl, Iff.rfl⟩

theorem commands (h : c.Leads c') : ∃ news : List Command, c'.commands = c.commands ++ news ∧
    c'.log = c.log ++ news.map (c.now, ·) ∧ news.length ≤ if c.Ticking then 1 else 0 := by
  rcases h.ticks with ⟨same, -⟩ | ⟨ticking, -, t, time, ticks⟩
  · exact ⟨[], by simp [Account.commands, same], by simp [log, same], Nat.zero_le _⟩
  · refine ⟨t.commands, by simp [Account.commands, ticks], ?_, ?_⟩
    · simp [log, ticks, Tick.log, time]
    · rw [if_pos ticking]
      exact t.length_commands

end Account.Leads

theorem Autoplay.half_pos {period : Nat} (enough : 2 ≤ period) : 0 < half period := by
  unfold half
  omega

theorem Autoplay.half_lt {period : Nat} (enough : 2 ≤ period) : half period < period := by
  unfold half
  omega

section

variable (start period : Nat) (moves : List Direction)

/-- What a script leads to: each of its moves a period after the one before it, and the farewell a
period after the last. -/
def performance : List (Nat × Command) :=
  (moves.map Command.move ++ [Command.quit]).mapIdx fun k command =>
    (start + (k + 1) * period, command)

/-- The ticks of a script: each with one of its moves, and one without any when none can come. -/
def recital : List Tick :=
  (moves.map some ++ [none]).mapIdx fun k (entry : Option Direction) =>
    ⟨start + (k + 1) * period, entry.toList, entry.isSome⟩

/-- How far the producer of a script has come, and what a dispatcher's account says of it. -/
inductive Cue (c : Account) : Producer → Prop where
  /-- It has not run. -/
  | entrance (handles : c.handles = 1) (queued : c.queued = []) (now : c.now = start) :
    Cue c ⟨.script moves, false, 0, false⟩
  /-- It has passed on some of the moves, and waits for the time of the next. -/
  | waiting (k : Nat) (within : k ≤ moves.length) (handles : c.handles = 1)
    (queued : c.queued = moves.take k)
    (passed : start + Autoplay.half period + k * period ≤ c.now + period)
    (ahead : c.now ≤ start + Autoplay.half period + k * period) :
    Cue c ⟨.script (moves.drop k), true, start + Autoplay.half period + k * period, false⟩
  /-- It has passed on all, and has given up its handle. -/
  | exit {p : Producer} (begun : p.begun = true) (ended : p.ended = true) (handles : c.handles = 0)
    (queued : c.queued = moves)
    (passed : start + Autoplay.half period + moves.length * period ≤ c.now) : Cue c p

/-- An account of a script, whose ticks are the first so many of the script. -/
structure Recites (c : Account) : Prop where
  lawful : c.Lawful
  spawned : c.spawned = start
  spaced : c.period = period
  reached : start + c.ticks.length * period ≤ c.now
  ticks : c.ticks = (recital start period moves).take c.ticks.length

end

section

variable {start period : Nat} {moves : List Direction}

theorem recital_move {k : Nat} (within : k < moves.length) : (recital start period moves)[k]? =
    some ⟨start + (k + 1) * period, [moves[k]], true⟩ := by
  simp [recital, List.getElem?_append, within]

theorem recital_farewell : (recital start period moves)[moves.length]? =
    some ⟨start + (moves.length + 1) * period, [], false⟩ := by
  simp [recital]

theorem time_succ (start period k : Nat) :
    start + (k + 1 + 1) * period = start + period + (k + 1) * period := by
  rw [Nat.succ_mul (k + 1)]
  omega

theorem recital_cons (move : Direction) : recital start period (move :: moves) =
    ⟨start + period, [move], true⟩ :: recital (start + period) period moves := by
  simp [recital, List.mapIdx_cons, time_succ]

theorem performance_cons (move : Direction) : performance start period (move :: moves) =
    (start + period, .move move) :: performance (start + period) period moves := by
  simp [performance, List.mapIdx_cons, time_succ]

theorem flatMap_window_take (k : Nat) :
    ((recital start period moves).take k).flatMap (·.window) = moves.take k := by
  induction moves generalizing start k with
  | nil => cases k <;> simp [recital]
  | cons move moves ih =>
    cases k with
    | zero => rfl
    | succ k => simp [recital_cons, ih]

theorem flatMap_log_take (k : Nat) :
    ((recital start period moves).take k).flatMap Tick.log =
      (performance start period moves).take k := by
  induction moves generalizing start k with
  | nil => cases k <;> simp [recital, performance, Tick.log, Tick.commands]
  | cons move moves ih =>
    cases k with
    | zero => rfl
    | succ k => simp [recital_cons, performance_cons, Tick.log, Tick.commands, ← ih]

theorem any_isLast_take (k : Nat) :
    ((recital start period moves).take k).any Tick.isLast = decide (moves.length < k) := by
  induction moves generalizing start k with
  | nil => cases k <;> simp [recital, Tick.isLast]
  | cons move moves ih =>
    cases k with
    | zero => rfl
    | succ k => simp [recital_cons, Tick.isLast, ih]

theorem time_of_performance {k : Nat} {entry : Nat × Command}
    (at_k : (performance start period moves)[k]? = some entry) :
    k ≤ moves.length ∧ entry.1 = start + (k + 1) * period := by
  rw [performance, List.getElem?_mapIdx] at at_k
  obtain ⟨command, known, rfl⟩ := Option.map_eq_some_iff.mp at_k
  have within := (List.getElem?_eq_some_iff.mp known).1
  rw [List.length_append, List.length_map, List.length_singleton] at within
  exact ⟨Nat.le_of_lt_succ within, rfl⟩

theorem commands_performance : (performance start period moves).map (·.2) =
    moves.map Command.move ++ [Command.quit] := by
  induction moves generalizing start with
  | nil => rfl
  | cons move moves ih =>
    rw [performance_cons, List.map_cons, ih]
    rfl

/-- What comes up to some time is the beginning of the performance. -/
theorem filter_performance {k now : Nat} (past : start + k * period ≤ now)
    (ahead : k ≤ moves.length → now < start + (k + 1) * period) :
    (performance start period moves).filter (·.1 ≤ now) = (performance start period moves).take k := by
  have before : ∀ entry ∈ (performance start period moves).take k, decide (entry.1 ≤ now) = true := by
    intro entry member
    obtain ⟨i, at_i⟩ := List.mem_iff_getElem?.mp member
    rw [List.getElem?_take] at at_i
    split at at_i
    · rename_i earlier
      have times : (i + 1) * period ≤ k * period := Nat.mul_le_mul_right period earlier
      rw [(time_of_performance at_i).2]
      exact decide_eq_true (by omega)
    · cases at_i
  have after : ∀ entry ∈ (performance start period moves).drop k, ¬ decide (entry.1 ≤ now) = true := by
    intro entry member
    obtain ⟨i, at_i⟩ := List.mem_iff_getElem?.mp member
    rw [List.getElem?_drop] at at_i
    obtain ⟨within, time⟩ := time_of_performance at_i
    have times : (k + 1) * period ≤ (k + i + 1) * period := Nat.mul_le_mul_right period (by omega)
    have now := ahead (by omega)
    rw [time, decide_eq_true_eq]
    omega
  conv_lhs => rw [← List.take_append_drop k (performance start period moves), List.filter_append,
    List.filter_eq_self.mpr before, List.filter_eq_nil_iff.mpr after, List.append_nil]

theorem filter_performance_of_le {now : Nat} (past : start + (moves.length + 1) * period ≤ now) :
    (performance start period moves).filter (·.1 ≤ now) = performance start period moves := by
  have length : (performance start period moves).length = moves.length + 1 := by
    simp [performance]
  rw [filter_performance past fun more => absurd more (Nat.not_succ_le_self _), ← length,
    List.take_length]

theorem Cue.congr {c c' : Account} {p : Producer} (h : Cue start period moves c p)
    (handles : c'.handles = c.handles) (queued : c'.queued = c.queued) (now : c'.now = c.now) :
    Cue start period moves c' p := by
  cases h with
  | entrance handles' queued' now' =>
    exact .entrance (handles.trans handles') (queued.trans queued') (now.trans now')
  | waiting k within handles' queued' passed ahead =>
    exact .waiting k within (handles.trans handles') (queued.trans queued') (now ▸ passed)
      (now ▸ ahead)
  | exit begun ended handles' queued' passed =>
    exact .exit begun ended (handles.trans handles') (queued.trans queued') (now ▸ passed)

theorem Cue.settle {c : Account} {p : Producer} (h : Cue start period moves c p) :
    Cue start period moves c.settle p := by
  unfold Account.settle
  split
  · exact h.congr rfl rfl rfl
  · exact h

namespace Recites

variable {c : Account} {p : Producer}

theorem opening : Recites start period moves (.opening start period) :=
  ⟨Account.lawful_opening start period, rfl, rfl, by simp [Account.opening], rfl⟩

theorem finished_eq (h : Recites start period moves c) :
    c.finished = decide (moves.length < c.ticks.length) := by
  rw [Account.finished, h.ticks, any_isLast_take, ← h.ticks]

theorem due_eq (h : Recites start period moves c) :
    c.due = start + (c.ticks.length + 1) * period := by
  rw [Account.due, h.spawned, h.spaced]

theorem window (h : Recites start period moves c) :
    moves.take c.ticks.length ++ c.window = c.queued := by
  rw [← h.lawful.windows]
  conv_rhs => rw [h.ticks, flatMap_window_take]

theorem log_eq (h : Recites start period moves c) :
    c.log = (performance start period moves).take c.ticks.length := by
  rw [Account.log, ← flatMap_log_take, ← h.ticks]

/-- The tick that is due is the next one of the script. -/
theorem tick_eq (h : Recites start period moves c) (enough : 2 ≤ period)
    (cue : Cue start period moves c p) (ticking : c.Ticking) :
    (recital start period moves)[c.ticks.length]? = some c.tick := by
  have positive := Autoplay.half_pos enough
  have below := Autoplay.half_lt enough
  obtain ⟨going, now⟩ := ticking
  have unfinished : c.ticks.length ≤ moves.length := by
    simpa [h.finished_eq] using going
  have window := h.window
  have due := now.trans h.due_eq
  have spread : (c.ticks.length + 1) * period = c.ticks.length * period + period := Nat.succ_mul _ _
  cases cue with
  | entrance handles queued first =>
    omega
  | waiting k within handles queued passed ahead =>
    -- The moves passed on are one more than the ticks: the next came half a period ago.
    have atLeast : c.ticks.length + 1 ≤ k := by
      by_contra few
      have times := Nat.mul_le_mul_right period (Nat.le_of_lt_succ (Nat.lt_of_not_le few))
      omega
    have atMost : k ≤ c.ticks.length + 1 := by
      by_contra many
      have times := Nat.mul_le_mul_right period (Nat.succ_le_of_lt (Nat.lt_of_not_le many))
      rw [Nat.succ_mul] at times
      omega
    obtain rfl := Nat.le_antisymm atMost atLeast
    rw [queued, List.take_add_one, List.append_cancel_left_eq,
      List.getElem?_eq_getElem within] at window
    rw [recital_move within, Account.tick, window, handles, due]
    rfl
  | exit begun ended handles queued passed =>
    have all : moves.length ≤ c.ticks.length := by
      by_contra more
      have times : (c.ticks.length + 1) * period ≤ moves.length * period :=
        Nat.mul_le_mul_right period (Nat.lt_of_not_le more)
      omega
    have length := Nat.le_antisymm unfinished all
    have empty : c.window = [] := by simpa [queued, length] using window
    rw [length, recital_farewell, Account.tick, empty, handles, due, length]
    rfl

theorem settle (h : Recites start period moves c) (enough : 2 ≤ period)
    (cue : Cue start period moves c p) : Recites start period moves c.settle := by
  by_cases ticking : c.Ticking
  · have lawful := h.lawful.settle
    have next := h.tick_eq enough cue ticking
    rw [Account.settle_of_ticking ticking] at lawful ⊢
    refine ⟨lawful, h.spawned, h.spaced, ?_, ?_⟩
    · rw [List.length_append, List.length_singleton]
      exact h.due_eq ▸ Nat.le_of_eq ticking.2.symm
    · rw [List.length_append, List.length_singleton, List.take_add_one, next, ← h.ticks]
      rfl
  · rw [Account.settle_of_still ticking]
    exact h

theorem queue (h : Recites start period moves c) (more : c.handles ≠ 0) (move : Direction) :
    Recites start period moves
      { c with queued := c.queued ++ [move], window := c.window ++ [move] } := by
  have lawful := h.lawful.occur (.queue move)
  rw [Account.occur, if_neg more] at lawful
  exact ⟨lawful, h.spawned, h.spaced, h.reached, h.ticks⟩

theorem drop (h : Recites start period moves c) (more : c.handles ≠ 0) :
    Recites start period moves { c with handles := c.handles - 1 } := by
  have lawful := h.lawful.occur .drop
  rw [Account.occur, if_neg more] at lawful
  exact ⟨lawful, h.spawned, h.spaced, h.reached, h.ticks⟩

/-- Between two ticks everything has been sent whose time has come. -/
theorem log_of_still (h : Recites start period moves c) (still : ¬ c.Ticking) :
    c.log = (performance start period moves).filter (·.1 ≤ c.now) ∧
      c.finished = decide (start + (moves.length + 1) * period ≤ c.now) := by
  have reached := h.reached
  have early : c.ticks.length ≤ moves.length → c.now < start + (c.ticks.length + 1) * period := by
    intro unfinished
    have going : c.finished = false := by
      rw [h.finished_eq, decide_eq_false_iff_not, Nat.not_lt]
      exact unfinished
    rw [← h.due_eq]
    exact Nat.lt_of_le_of_ne (h.lawful.clock going).2 fun now => still ⟨going, now⟩
  refine ⟨by rw [h.log_eq, filter_performance reached early], ?_⟩
  rw [h.finished_eq, decide_eq_decide]
  constructor
  · intro all
    have times := Nat.mul_le_mul_right period (Nat.succ_le_of_lt all)
    exact Nat.le_trans (Nat.add_le_add_left times start) reached
  · intro past
    by_contra more
    have unfinished := Nat.le_of_not_lt more
    have times := Nat.mul_le_mul_right period (Nat.succ_le_succ unfinished)
    exact Nat.not_lt.mpr (Nat.le_trans (Nat.add_le_add_left times start) past) (early unfinished)

end Recites

end

end TileClient.Input
