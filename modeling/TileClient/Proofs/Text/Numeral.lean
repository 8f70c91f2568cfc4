import TileClient.Text.Numeral

/-! Decimal digits are read as the number that they were written for. -/
namespace TileClient.Text

theorem digitsValue?_eq_some {digits : List Char} (all : ∀ c ∈ digits, c.isDigit = true) :
    digitsValue? digits = some (Nat.ofDigitChars 10 digits 0) := by
  rw [digitsValue?, Nat.ofDigitChars_eq_foldl]
  generalize (0 : Nat) = value
  induction digits generalizing value with
  | nil => rfl
  | cons c digits ih =>
    rw [List.foldl_cons, List.foldl_cons]
    simp only [Option.bind_some, all c (List.mem_cons_self ..), if_true]
    exact ih (fun d member => all d (List.mem_cons_of_mem c member)) _

theorem isDigit_of_mem_decimal {n : Nat} {c : Char} (member : c ∈ Nat.toDigits 10 n) :
    c.isDigit = true :=
  Nat.isDigit_of_mem_toDigits (by decide) (by decide) member

theorem digitsValue?_decimal (n : Nat) : digitsValue? (Nat.toDigits 10 n) = some n := by
  rw [digitsValue?_eq_some fun _ => isDigit_of_mem_decimal, Nat.ofDigitChars_ten_toDigits]

/-- The decimal digits of a number start with a zero only if that is all of them. -/
theorem length_decimal_of_head {n : Nat} (zero : (Nat.toDigits 10 n).head? = some '0') :
    (Nat.toDigits 10 n).length = 1 := by
  have first {m : Nat} (positive : 0 < m) : (Nat.toDigits 10 m).head? ≠ some '0' := by
    induction m using Nat.strongRecOn with
    | ind m ih =>
      rcases Nat.lt_or_ge m 10 with less | more
      · rw [Nat.toDigits_of_lt_base less, List.head?_cons]
        intro same
        have number := congrArg Char.toNat (Option.some.inj same)
        rw [Nat.toNat_digitChar_of_lt_ten less] at number
        simp at number
        omega
      · rw [Nat.toDigits_of_base_le (by decide) more, List.head?_append,
          List.head?_eq_some_head Nat.toDigits_ne_nil, Option.some_or,
          ← List.head?_eq_some_head Nat.toDigits_ne_nil]
        exact ih (m / 10) (Nat.div_lt_self positive (by decide)) (Nat.div_pos more (by decide))
  rcases Nat.eq_zero_or_pos n with rfl | positive
  · rfl
  · exact absurd zero (first positive)

private theorem foldl_none (digits : List Char) :
    digits.foldl (fun value? c => value?.bind fun value =>
      if c.isDigit then some (10 * value + (c.toNat - 48)) else none) none = none := by
  induction digits with
  | nil => rfl
  | cons c digits ih => exact ih

theorem isDigit_of_digitsValue? {digits : List Char} {n : Nat}
    (value : digitsValue? digits = some n) : ∀ c ∈ digits, c.isDigit = true := by
  rw [digitsValue?] at value
  generalize (0 : Nat) = start at value
  induction digits generalizing start with
  | nil => exact nofun
  | cons c digits ih =>
    rw [List.foldl_cons, Option.bind_some] at value
    split at value
    · rename_i digit
      exact List.forall_mem_cons.mpr ⟨digit, ih _ value⟩
    · rw [foldl_none] at value
      cases value

theorem digitsValue?_eq_some_iff {digits : List Char} {n : Nat} : digitsValue? digits = some n ↔
    (∀ c ∈ digits, c.isDigit = true) ∧ Nat.ofDigitChars 10 digits 0 = n := by
  constructor
  · intro value
    have all := isDigit_of_digitsValue? value
    rw [digitsValue?_eq_some all] at value
    exact ⟨all, Option.some.inj value⟩
  · rintro ⟨all, rfl⟩
    exact digitsValue?_eq_some all

/-- A number in writing: at most one plus sign, then at least one decimal digit, with any number of
zeros before the others. -/
inductive Numeral : List Char → Nat → Prop
  | digits {digits : List Char} (filled : digits ≠ []) (all : ∀ c ∈ digits, c.isDigit = true) :
    Numeral digits (Nat.ofDigitChars 10 digits 0)
  | signed {digits : List Char} (filled : digits ≠ []) (all : ∀ c ∈ digits, c.isDigit = true) :
    Numeral ('+' :: digits) (Nat.ofDigitChars 10 digits 0)

theorem numeral?_eq_some_iff {limit n : Nat} {text : List Char} :
    numeral? limit text = some n ↔ Numeral text n ∧ n ≤ limit := by
  have read (digits : List Char) : (if digits.isEmpty then none
      else (digitsValue? digits).filter (· ≤ limit)) = some n ↔
        (digits ≠ [] ∧ (∀ c ∈ digits, c.isDigit = true) ∧ Nat.ofDigitChars 10 digits 0 = n) ∧
          n ≤ limit := by
    cases digits with
    | nil => simp
    | cons c digits =>
      simp only [List.isEmpty_cons, Bool.false_eq_true, if_false, Option.filter_eq_some_iff,
        digitsValue?_eq_some_iff, decide_eq_true_eq, ne_eq, reduceCtorEq, not_false_eq_true, true_and]
  rw [numeral?]
  split
  · rename_i sign
    obtain ⟨digits, rfl⟩ := List.head?_eq_some_iff.mp sign
    rw [List.tail_cons, read]
    refine and_congr_left fun _ => ⟨fun ⟨filled, all, value⟩ => value ▸ .signed filled all, ?_⟩
    intro written
    cases written with
    | digits _ all => exact absurd (all '+' List.mem_cons_self) (by decide)
    | signed filled all => exact ⟨filled, all, rfl⟩
  · rename_i unsigned
    rw [read]
    refine and_congr_left fun _ => ⟨fun ⟨filled, all, value⟩ => value ▸ .digits filled all, ?_⟩
    intro written
    cases written with
    | digits filled all => exact ⟨filled, all, rfl⟩
    | signed _ _ => exact absurd rfl unsigned

theorem numeral_decimal (n : Nat) : Numeral (Nat.toDigits 10 n) n := by
  have written : Numeral (Nat.toDigits 10 n) (Nat.ofDigitChars 10 (Nat.toDigits 10 n) 0) :=
    .digits Nat.toDigits_ne_nil fun _ => isDigit_of_mem_decimal
  rwa [Nat.ofDigitChars_ten_toDigits] at written

namespace Numeral

variable {text : List Char} {n : Nat}

theorem ne_nil (h : Numeral text n) : text ≠ [] := by
  cases h with
  | digits filled _ => exact filled
  | signed _ _ => exact List.cons_ne_nil _ _

theorem isDigit_of_last (h : Numeral text n) {c : Char} (last : text.getLast? = some c) :
    c.isDigit = true := by
  cases h with
  | digits _ all => exact all c (List.mem_of_getLast? last)
  | signed filled all =>
    obtain ⟨d, digits, rfl⟩ := List.exists_cons_of_ne_nil filled
    rw [List.getLast?_cons_cons] at last
    exact all c (List.mem_of_getLast? last)

end Numeral

end TileClient.Text
