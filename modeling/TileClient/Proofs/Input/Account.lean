import Mathlib.Data.List.Basic
import TileClient.Input.Command

/-! What is asked of a dispatcher, told from what happens to it alone. The moves between two ticks
make a window, and each tick answers its window with at most one command. -/
namespace TileClient.Input
open Board

/-- What can happen to a dispatcher: a move is queued, a handle is cloned or dropped, a command is
received, the tasks run until they wait, or time passes, though no further than to the next tick. -/
inductive Occurrence where
  | queue (move : Direction)
  | clone
  | drop
  | receive
  | settle
  | wait (ms : Nat)

/-- Whether the tasks run at all. -/
def Occurrence.runs : Occurrence → Bool
  | .settle | .wait _ => true
  | .queue _ | .clone | .drop | .receive => false

/-- A tick, with the moves since the one before it and whether more may come. -/
structure Tick where
  time : Nat
  window : List Direction
  more : Bool

namespace Tick

/-- The latest move leaves, or without one the farewell if no more may come. -/
def commands (t : Tick) : List Command :=
  match t.window.getLast? with
  | some move => [.move move]
  | none => if t.more then [] else [.quit]

def isLast (t : Tick) : Bool := t.window.isEmpty && !t.more

def moves (t : Tick) : List Direction := t.window.getLast?.toList

theorem commands_eq (t : Tick) :
    t.commands = t.moves.map .move ++ if t.isLast then [.quit] else [] := by
  obtain ⟨time, window, more⟩ := t
  rcases List.eq_nil_or_concat window with rfl | ⟨earlier, move, rfl⟩
  · cases more <;> rfl
  · simp [commands, moves, isLast]

theorem moves_sublist (t : Tick) : t.moves.Sublist t.window := by
  unfold moves
  rcases List.eq_nil_or_concat t.window with empty | ⟨earlier, move, window⟩
  · rw [empty]
    exact List.Sublist.refl _
  · rw [window, List.concat_eq_append, List.getLast?_concat]
    exact List.sublist_append_right _ _

theorem getLast?_moves (t : Tick) : t.moves.getLast? = t.window.getLast? := by
  unfold moves
  cases t.window.getLast? <;> rfl

end Tick

/-- What has happened to a dispatcher since it was spawned, and the ticks that it has led to. -/
structure Account where
  spawned : Nat
  period : Nat
  now : Nat
  handles : Nat
  queued : List Direction
  window : List Direction
  ticks : List Tick

namespace Account

def opening (spawned period : Nat) : Account := ⟨spawned, period, spawned, 1, [], [], []⟩

def finished (c : Account) : Bool := c.ticks.any Tick.isLast

def due (c : Account) : Nat := c.spawned + (c.ticks.length + 1) * c.period

def Ticking (c : Account) : Prop := c.finished = false ∧ c.now = c.due

instance (c : Account) : Decidable c.Ticking :=
  inferInstanceAs (Decidable (c.finished = false ∧ c.now = c.due))

def tick (c : Account) : Tick := ⟨c.now, c.window, c.handles != 0⟩

/-- Takes the tick that is due, if one is. -/
def settle (c : Account) : Account :=
  if c.Ticking then { c with ticks := c.ticks ++ [c.tick], window := [] } else c

def occur (c : Account) : Occurrence → Account
  | .queue move =>
    if c.handles = 0 then c
    else { c with queued := c.queued ++ [move], window := c.window ++ [move] }
  | .clone => if c.handles = 0 then c else { c with handles := c.handles + 1 }
  | .drop => if c.handles = 0 then c else { c with handles := c.handles - 1 }
  | .receive => c
  | .settle => c.settle
  | .wait ms =>
    let c := c.settle
    { c with now := if c.finished then c.now + ms else min (c.now + ms) c.due }

def after (c : Account) (occurrences : List Occurrence) : Account := occurrences.foldl occur c

/-- The commands of all ticks so far. -/
def commands (c : Account) : List Command := c.ticks.flatMap Tick.commands

/-- The moves of all ticks so far: the latest of each window that has one. -/
def moves (c : Account) : List Direction := c.ticks.flatMap Tick.moves

section
variable {c : Account}

theorem settle_of_ticking (ticking : c.Ticking) :
    c.settle = { c with ticks := c.ticks ++ [c.tick], window := [] } :=
  if_pos ticking

theorem settle_of_still (still : ¬ c.Ticking) : c.settle = c := if_neg still

theorem now_settle (c : Account) : c.settle.now = c.now := by
  unfold settle
  split <;> rfl

theorem constants_settle (c : Account) :
    c.settle.spawned = c.spawned ∧ c.settle.period = c.period := by
  unfold settle
  split <;> exact ⟨rfl, rfl⟩

theorem constants_occur (c : Account) (occurrence : Occurrence) :
    (c.occur occurrence).spawned = c.spawned ∧ (c.occur occurrence).period = c.period := by
  cases occurrence with
  | queue | clone | drop =>
    simp only [occur]
    split <;> exact ⟨rfl, rfl⟩
  | receive => exact ⟨rfl, rfl⟩
  | settle | wait => exact c.constants_settle

theorem constants_after (c : Account) (occurrences : List Occurrence) :
    (c.after occurrences).spawned = c.spawned ∧ (c.after occurrences).period = c.period := by
  induction occurrences generalizing c with
  | nil => exact ⟨rfl, rfl⟩
  | cons occurrence rest ih =>
    have first := c.constants_occur occurrence
    have later := ih (c.occur occurrence)
    exact ⟨later.1.trans first.1, later.2.trans first.2⟩

theorem due_settle (ticking : c.Ticking) : c.settle.due = c.due + c.period := by
  rw [settle_of_ticking ticking, due, due, List.length_append, List.length_singleton,
    Nat.succ_mul (c.ticks.length + 1), Nat.add_assoc]

end

/-- Ticks come a period apart and none is left out, each move is in the window of one tick or waits
for the next, and a tick that ends it all comes when no more moves can. -/
structure Lawful (c : Account) : Prop where
  times : c.ticks.map (·.time) =
    (List.range c.ticks.length).map fun k => c.spawned + (k + 1) * c.period
  clock : c.finished = false → c.spawned + c.ticks.length * c.period ≤ c.now ∧ c.now ≤ c.due
  windows : c.ticks.flatMap (·.window) ++ c.window = c.queued
  farewell : c.finished = true → c.handles = 0 ∧ c.window = []
  last : ∀ t ∈ c.ticks.dropLast, t.isLast = false

theorem lawful_opening (spawned period : Nat) : (opening spawned period).Lawful := by
  constructor
  · rfl
  · exact fun _ => ⟨by simp [opening], Nat.le_add_right _ _⟩
  · rfl
  · exact fun finished => nomatch finished
  · exact fun t member => nomatch member

namespace Lawful

variable {c : Account}

theorem settle (h : c.Lawful) : c.settle.Lawful := by
  unfold Account.settle
  split
  · rename_i ticking
    obtain ⟨going, now⟩ := ticking
    have more : ∀ t ∈ c.ticks, t.isLast = false := by simpa [finished] using going
    constructor
    · simp [h.times, tick, now, due, List.range_succ]
    · intro _
      simp only [List.length_append, List.length_singleton, due, now]
      exact ⟨Nat.le_refl _, by simp [Nat.add_mul]⟩
    · simp [tick, h.windows]
    · intro finished
      have last : c.tick.isLast = true := by
        have grown : (c.ticks ++ [c.tick]).any Tick.isLast = true := finished
        have none : c.ticks.any Tick.isLast = false := going
        simpa [none] using grown
      simp only [Tick.isLast, tick, Bool.and_eq_true] at last
      exact ⟨by simpa using last.2, rfl⟩
    · simpa using more
  · exact h

theorem wait (h : c.Lawful) (ms : Nat) : (c.occur (.wait ms)).Lawful := by
  have settled := h.settle
  simp only [occur]
  generalize c.settle = c at settled
  refine ⟨settled.times, fun going => ?_, settled.windows, settled.farewell, settled.last⟩
  obtain ⟨reached, ahead⟩ := settled.clock going
  simp only [finished] at going
  simp only [finished, going, due, Bool.false_eq_true, if_false] at ahead ⊢
  omega

theorem occur (h : c.Lawful) (occurrence : Occurrence) : (c.occur occurrence).Lawful := by
  cases occurrence with
  | queue move =>
    simp only [Account.occur]
    split
    · exact h
    · rename_i more
      refine ⟨h.times, h.clock, ?_, fun finished => absurd (h.farewell finished).1 more, h.last⟩
      simp [← h.windows]
  | clone | drop =>
    simp only [Account.occur]
    split
    · exact h
    · rename_i more
      exact ⟨h.times, h.clock, h.windows, fun finished => absurd (h.farewell finished).1 more,
        h.last⟩
  | receive => exact h
  | settle => exact h.settle
  | wait ms => exact h.wait ms

theorem early (h : c.Lawful) (period : 0 < c.period) (going : c.settle.finished = false) :
    c.settle.now < c.settle.due := by
  by_cases ticking : c.Ticking
  · rw [due_settle ticking, settle_of_ticking ticking]
    exact ticking.2 ▸ Nat.lt_add_of_pos_right period
  · rw [settle_of_still ticking] at going ⊢
    exact Nat.lt_of_le_of_ne (h.clock going).2 fun now => ticking ⟨going, now⟩

end Lawful

theorem lawful_after {c : Account} (h : c.Lawful) (occurrences : List Occurrence) :
    (c.after occurrences).Lawful := by
  induction occurrences generalizing c with
  | nil => exact h
  | cons occurrence occurrences ih => exact ih (h.occur occurrence)

theorem moves_sublist (c : Account) : c.moves.Sublist (c.ticks.flatMap (·.window)) := by
  unfold moves
  induction c.ticks with
  | nil => exact List.Sublist.refl _
  | cons t ticks ih => exact t.moves_sublist.append ih

theorem getLast?_moves (c : Account) :
    c.moves.getLast? = (c.ticks.flatMap (·.window)).getLast? := by
  unfold moves
  induction c.ticks with
  | nil => rfl
  | cons t ticks ih =>
    rw [List.flatMap_cons, List.flatMap_cons, List.getLast?_append, List.getLast?_append, ih,
      t.getLast?_moves]

/-- The moves leave one by one, and the farewell comes after them if all has ended. -/
theorem Lawful.commands_eq {c : Account} (h : c.Lawful) :
    c.commands = c.moves.map .move ++ if c.finished then [.quit] else [] := by
  have last := h.last
  unfold commands moves finished
  rcases List.eq_nil_or_concat c.ticks with none | ⟨earlier, t, ticks⟩
  · rw [none]
    rfl
  · rw [List.concat_eq_append] at ticks
    rw [ticks, List.dropLast_concat] at last
    have before : earlier.flatMap Tick.commands = (earlier.flatMap Tick.moves).map .move := by
      rw [List.map_flatMap]
      refine List.flatMap_congr fun t member => ?_
      rw [t.commands_eq, last t member]
      exact List.append_nil _
    have going : earlier.any Tick.isLast = false := by simpa using last
    rw [ticks, List.any_append, going, List.flatMap_append, before, List.flatMap_append]
    simp [t.commands_eq]

end Account

end TileClient.Input
