import TileClient.Proofs.Text.Numeral

/-! Writing that tells by itself where it ends, so that whatever follows it can be told apart from
it. Such writings may stand one after the other. -/
namespace TileClient.Text

variable {α β : Type} {write : α → List Char} {write' : β → List Char}

/-- Two texts that begin with something in writing and are equal began with the same, and go on in
the same way. -/
def Delimited (write : α → List Char) : Prop :=
  ∀ ⦃x y : α⦄ ⦃rest rest' : List Char⦄,
    write x ++ rest = write y ++ rest' → x = y ∧ rest = rest'

namespace Delimited

theorem append (h : Delimited write) (h' : Delimited write') :
    Delimited fun p : α × β => write p.1 ++ write' p.2 := by
  rintro ⟨x, x'⟩ ⟨y, y'⟩ rest rest' same
  simp only [List.append_assoc] at same
  obtain ⟨rfl, later⟩ := h same
  obtain ⟨rfl, last⟩ := h' later
  exact ⟨rfl, last⟩

theorem comp (h : Delimited write) {f : β → α} (injective : Function.Injective f) :
    Delimited fun x => write (f x) := by
  intro x y rest rest' same
  obtain ⟨value, later⟩ := h same
  exact ⟨injective value, later⟩

theorem after (h : Delimited write) (before : List Char) : Delimited fun x => before ++ write x := by
  intro x y rest rest' same
  rw [List.append_assoc, List.append_assoc] at same
  exact h (List.append_cancel_left same)

/-- A number of things one after the other, closed by a mark that none of them begins with. -/
theorem list (h : Delimited write) {mark : Char} (tail : List Char)
    (apart : ∀ x, ∃ c rest, write x = c :: rest ∧ c ≠ mark) :
    Delimited fun xs : List α => xs.flatMap write ++ mark :: tail := by
  intro xs ys rest rest' same
  simp only [List.append_assoc, List.cons_append] at same
  induction xs generalizing ys with
  | nil =>
    cases ys with
    | nil => simpa using same
    | cons y ys =>
      obtain ⟨c, more, starts, other⟩ := apart y
      simp only [List.flatMap_nil, List.flatMap_cons, starts, List.nil_append, List.cons_append,
        List.cons.injEq] at same
      exact absurd same.1.symm other
  | cons x xs ih =>
    cases ys with
    | nil =>
      obtain ⟨c, more, starts, other⟩ := apart x
      simp only [List.flatMap_nil, List.flatMap_cons, starts, List.nil_append, List.cons_append,
        List.cons.injEq] at same
      exact absurd same.1 other
    | cons y ys =>
      rw [List.flatMap_cons, List.flatMap_cons, List.append_assoc, List.append_assoc] at same
      obtain ⟨rfl, later⟩ := h same
      obtain ⟨rfl, last⟩ := ih later
      exact ⟨rfl, last⟩

/-- Things one after the other need no mark at the end of the text, if each leaves a trace. -/
theorem flatMap_injective (h : Delimited write) (filled : ∀ x, write x ≠ []) :
    Function.Injective (List.flatMap write) := by
  intro xs ys same
  induction xs generalizing ys with
  | nil =>
    cases ys with
    | nil => rfl
    | cons y ys => simp [filled] at same
  | cons x xs ih =>
    cases ys with
    | nil => simp [filled] at same
    | cons y ys =>
      rw [List.flatMap_cons, List.flatMap_cons] at same
      obtain ⟨rfl, later⟩ := h same
      rw [ih later]

end Delimited

theorem delimited_decimal {mark : Char} (other : mark.isDigit = false) :
    Delimited fun n : Nat => Nat.toDigits 10 n ++ [mark] := by
  have digits (n : Nat) (rest : List Char) :
      (Nat.toDigits 10 n ++ mark :: rest).takeWhile Char.isDigit = Nat.toDigits 10 n := by
    rw [List.takeWhile_append_of_pos fun _ => isDigit_of_mem_decimal,
      List.takeWhile_cons_of_neg (by simp [other]), List.append_nil]
  intro m n rest rest' same
  rw [List.append_assoc, List.append_assoc, List.singleton_append, List.singleton_append] at same
  have written : Nat.toDigits 10 m = Nat.toDigits 10 n := by
    rw [← digits m rest, same, digits]
  have value : m = n := by
    rw [← Nat.ofDigitChars_ten_toDigits (n := m), written, Nat.ofDigitChars_ten_toDigits]
  rw [written] at same
  exact ⟨value, (List.cons.inj (List.append_cancel_left same)).2⟩

end TileClient.Text
