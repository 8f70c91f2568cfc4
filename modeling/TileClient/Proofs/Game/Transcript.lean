import TileClient.Game.Frame
import TileClient.Proofs.Text.Delimited

/-! The text of drawn boards, one after the other, tells what was drawn: how many boards there were,
and of each its rows, its scores and its banner. Notices may say anything, and are left out. -/
namespace TileClient.Game
open Board Text

/-- How a round has ended. -/
inductive Ending where
  | win | loss
  deriving DecidableEq, Repr

/-- The end of a round that is announced: a win before a loss. -/
def Figures.ending? (f : Figures) : Option Ending :=
  if f.won then some .win else if f.lost then some .loss else none

/-- What a drawn board shows. -/
structure Shown where
  rows : Snapshot
  score : UInt64
  bestScore : UInt64
  ending? : Option Ending
  deriving DecidableEq, Repr

/-- What is shown of a board with its figures. -/
def shown (board : Grid × Figures) : Shown where
  rows := board.1.toSnapshot
  score := board.2.score
  bestScore := board.2.bestScore
  ending? := board.2.ending?

/-- Draws boards one after the other. -/
def Page.drawAll (p : Page) (boards : List (Grid × Figures)) : Page :=
  boards.foldl (fun p board => p.draw (.board board.1 board.2)) p

def numberText (mark : Char) (n : Nat) : List Char := Nat.toDigits 10 n ++ [mark]

/-- A row: its numbers, each closed by a tab, and the end of the line. -/
def rowLine (row : List UInt32) : List Char :=
  row.flatMap (fun v => numberText '\t' v.toNat) ++ ['\n']

def endingText : Option Ending → List Char
  | some .win => 'Y' :: "ou win!\n\n".toList
  | some .loss => 'G' :: "ame over!\n\n".toList
  | none => ['\n']

def Shown.text (s : Shown) : List Char :=
  (s.rows.flatMap rowLine ++ 'S' :: "core: ".toList) ++ (numberText '\n' s.score.toNat ++
    (("Best: ".toList ++ numberText '\n' s.bestScore.toNat) ++ endingText s.ending?))

theorem toList_boardText (board : Grid × Figures) :
    (Frame.boardText board.1 board.2).toList = (shown board).text := by
  have rows : board.1.text.toList = board.1.toSnapshot.flatMap rowLine := by
    rw [Grid.text, String.toList_join, List.flatMap_map]
    congr 1
    funext row
    rw [Grid.rowText, String.toList_append, String.toList_join, List.flatMap_map]
    simp [rowLine, numberText]
  have ending : (Frame.banner board.2 ++ "\n").toList = endingText board.2.ending? := by
    unfold Frame.banner Figures.ending?
    split
    · rfl
    · split <;> rfl
  rw [String.toList_append] at ending
  simp [Frame.boardText, Shown.text, shown, rows, ← ending, numberText]

theorem text_drawAll (boards : List (Grid × Figures)) (retains : Bool) (text : String) :
    (Page.drawAll ⟨false, retains, text⟩ boards).text =
      text ++ String.join (boards.map fun board => Frame.boardText board.1 board.2) := by
  induction boards generalizing text with
  | nil => simp [Page.drawAll]
  | cons board boards ih =>
    have drawn : Page.drawAll ⟨false, retains, text⟩ (board :: boards) =
        Page.drawAll ⟨false, retains, text ++ Frame.boardText board.1 board.2⟩ boards := rfl
    rw [drawn, ih]
    simp [String.append_assoc]

theorem numberText_starts {stop : Char} (other : stop.isDigit = false) (mark : Char) (n : Nat) :
    ∃ c rest, numberText mark n = c :: rest ∧ c ≠ stop := by
  obtain ⟨c, rest, starts⟩ := List.exists_cons_of_ne_nil (Nat.toDigits_ne_nil (b := 10) (n := n))
  refine ⟨c, rest ++ [mark], by rw [numberText, starts, List.cons_append], ?_⟩
  rintro rfl
  have digit : c.isDigit = true := isDigit_of_mem_decimal (starts ▸ List.mem_cons_self)
  exact nomatch other.symm.trans digit

theorem rowLine_starts (row : List UInt32) : ∃ c rest, rowLine row = c :: rest ∧ c ≠ 'S' := by
  cases row with
  | nil => exact ⟨'\n', [], rfl, by decide⟩
  | cons v row =>
    have other : 'S'.isDigit = false := by decide
    obtain ⟨c, rest, starts, apart⟩ := numberText_starts other '\t' v.toNat
    exact ⟨c, _, by rw [rowLine, List.flatMap_cons, starts, List.cons_append, List.cons_append], apart⟩

theorem delimited_number {mark : Char} (other : mark.isDigit = false) :
    Delimited (numberText mark) := delimited_decimal other

theorem delimited_row : Delimited rowLine := by
  have number : Delimited (numberText '\t') := delimited_number (by decide)
  have cell : Delimited fun v : UInt32 => numberText '\t' v.toNat :=
    number.comp fun _ _ => UInt32.toNat_inj.mp
  exact cell.list [] fun v => numberText_starts (by decide) '\t' v.toNat

theorem delimited_score : Delimited fun score : UInt64 => numberText '\n' score.toNat := by
  have number : Delimited (numberText '\n') := delimited_number (by decide)
  exact number.comp fun _ _ => UInt64.toNat_inj.mp

theorem delimited_ending : Delimited endingText := by
  rintro (_ | _ | _) (_ | _ | _) rest rest' same
  all_goals
    first
    | exact ⟨rfl, List.append_cancel_left same⟩
    | exact absurd (List.cons.inj same).1 (by decide)

theorem delimited_shown : Delimited Shown.text := by
  -- Nothing says how many rows there are: the last one ends where no row could begin.
  have table : Delimited fun rows : Snapshot => rows.flatMap rowLine ++ 'S' :: "core: ".toList :=
    delimited_row.list _ rowLine_starts
  have frame := table.append
    (delimited_score.append ((delimited_score.after "Best: ".toList).append delimited_ending))
  have parts : Function.Injective fun s : Shown => (s.rows, s.score, s.bestScore, s.ending?) := by
    rintro ⟨⟩ ⟨⟩ ⟨⟩
    rfl
  exact frame.comp parts

theorem text_ne_nil (s : Shown) : s.text ≠ [] := by
  simp [Shown.text]

/-- Boards that are drawn on paper that takes every stroke leave their texts one after the other,
and two drawings look the same just when they show the same: as many boards, and board by board the
same rows, the same scores and the same banner. -/
theorem text_tells_what_was_drawn :
    (∀ boards retains text, (Page.drawAll ⟨false, retains, text⟩ boards).text =
      text ++ String.join (boards.map fun board => Frame.boardText board.1 board.2)) ∧
      ∀ boards boards' retains retains' text,
        (Page.drawAll ⟨false, retains, text⟩ boards).text =
          (Page.drawAll ⟨false, retains', text⟩ boards').text ↔
            boards.map shown = boards'.map shown := by
  refine ⟨text_drawAll, fun boards boards' retains retains' text => ?_⟩
  have written (boards : List (Grid × Figures)) :
      (String.join (boards.map fun board => Frame.boardText board.1 board.2)).toList =
        (boards.map shown).flatMap Shown.text := by
    rw [String.toList_join, List.flatMap_map, List.flatMap_map]
    simp only [toList_boardText]
  rw [text_drawAll, text_drawAll, String.append_right_inj, ← String.toList_inj, written, written]
  exact (delimited_shown.flatMap_injective text_ne_nil).eq_iff

end TileClient.Game
