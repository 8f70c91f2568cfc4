import Mathlib.Data.List.TakeWhile
import TileClient.Json.Token
import TileClient.Proofs.Text.Numeral

/-! The spellings of numbers. Such a spelling is read to its end, if what follows could not carry it
on. -/
namespace TileClient.Json

/-- Nothing at the start of a text could carry a number on. -/
def Settled (text : List Char) : Prop :=
  ∀ c ∈ text.head?, c.isDigit = false ∧ c ≠ '.' ∧ c ≠ 'e' ∧ c ≠ 'E'

/-- Nothing at the start of a text could carry digits on. -/
def Undigit (text : List Char) : Prop := ∀ c ∈ text.head?, c.isDigit = false

/-- At least one digit. -/
structure Digits (s : List Char) : Prop where
  filled : s ≠ []
  all : ∀ c ∈ s, c.isDigit = true

/-- Digits that start with a zero only if that is all of them. -/
structure Whole (s : List Char) : Prop extends Digits s where
  alone : s.head? = some '0' → s.length = 1

/-- The fraction of a number, if it has any. -/
inductive Fraction : List Char → Prop
  | absent : Fraction []
  | point {digits : List Char} (h : Digits digits) : Fraction ('.' :: digits)

/-- The exponent of a number, if it has any. -/
inductive Exponent : List Char → Prop
  | absent : Exponent []
  | mark {e : Char} {sign digits : List Char} (mark : e = 'e' ∨ e = 'E')
    (signed : sign = [] ∨ sign = ['+'] ∨ sign = ['-']) (h : Digits digits) :
    Exponent (e :: (sign ++ digits))

/-- A number without its sign. -/
inductive Unsigned : List Char → Prop
  | parts {whole fraction exponent : List Char} (wholly : Whole whole)
    (fractional : Fraction fraction) (exponential : Exponent exponent) :
    Unsigned (whole ++ fraction ++ exponent)

/-- A number as it may be spelled. -/
inductive Number : List Char → Prop
  | positive {s : List Char} (h : Unsigned s) : Number s
  | negative {s : List Char} (h : Unsigned s) : Number ('-' :: s)

section

variable {s rest : List Char}

theorem Settled.undigit (settled : Settled rest) : Undigit rest := fun c head => (settled c head).1

theorem readDigits_append (digits : Digits s) (stop : Undigit rest) :
    readDigits (s ++ rest) = some (s, rest) := by
  have stops : rest.takeWhile Char.isDigit = [] ∧ rest.dropWhile Char.isDigit = rest := by
    cases rest with
    | nil => exact ⟨rfl, rfl⟩
    | cons c rest =>
      have other := stop c rfl
      exact ⟨List.takeWhile_cons_of_neg (by simp [other]), List.dropWhile_cons_of_neg (by simp [other])⟩
  rw [readDigits, List.takeWhile_append_of_pos digits.all, List.dropWhile_append_of_pos digits.all,
    stops.1, stops.2, List.append_nil, if_neg (by simpa using digits.filled)]

theorem readWhole_append (whole : Whole s) (stop : Undigit rest) :
    readWhole (s ++ rest) = some (s, rest) := by
  rw [readWhole, readDigits_append whole.toDigits stop]
  simp only [Bool.and_eq_true, decide_eq_true_eq, ite_eq_right_iff]
  exact fun zero => absurd (whole.alone zero.1) zero.2

theorem readFraction_append (fraction : Fraction s) (stop : Undigit rest)
    (pointless : ∀ c ∈ rest.head?, c ≠ '.') : readFraction (s ++ rest) = some (s, rest) := by
  cases fraction with
  | absent =>
    cases rest with
    | nil => rfl
    | cons c rest =>
      rw [List.nil_append, readFraction]
      rintro _ same
      exact pointless c rfl (List.cons.inj same).1
  | point digits =>
    rw [List.cons_append, readFraction, readDigits_append digits stop]
    rfl

theorem readExponent_digits {e : Char} (mark : e = 'e' ∨ e = 'E') (digits : Digits s)
    (stop : Undigit rest) : readExponent (e :: (s ++ rest)) = some (e :: s, rest) := by
  obtain ⟨c, tail, rfl⟩ := List.exists_cons_of_ne_nil digits.filled
  have digit := digits.all c List.mem_cons_self
  have read := readDigits_append digits stop
  rw [List.cons_append] at read ⊢
  rw [readExponent, if_pos (by simpa using mark), read]
  · rfl
  · rintro _ same
    obtain ⟨rfl, -⟩ := List.cons.inj same
    exact absurd digit (by decide)
  · rintro _ same
    obtain ⟨rfl, -⟩ := List.cons.inj same
    exact absurd digit (by decide)

theorem readExponent_append (exponent : Exponent s) (settled : Settled rest) :
    readExponent (s ++ rest) = some (s, rest) := by
  cases exponent with
  | absent =>
    cases rest with
    | nil => rfl
    | cons c rest =>
      obtain ⟨-, -, small, capital⟩ := settled c rfl
      simp [readExponent, small, capital]
  | mark mark signed digits =>
    have read := readDigits_append digits settled.undigit
    rcases signed with rfl | rfl | rfl
    · exact readExponent_digits mark digits settled.undigit
    · simp [readExponent, mark, read]
    · simp [readExponent, mark, read]

theorem readUnsigned_append (unsigned : Unsigned s) (settled : Settled rest) :
    readUnsigned (s ++ rest) = some (s, rest) := by
  cases unsigned with
  | @parts whole fraction exponent wholly fractional exponential =>
    -- An exponent starts with its mark, and a fraction with its point.
    have third : ∀ c ∈ (exponent ++ rest).head?, c.isDigit = false ∧ c ≠ '.' := by
      cases exponential with
      | absent => exact fun c head => ⟨(settled c head).1, (settled c head).2.1⟩
      | mark mark =>
        rintro _ ⟨⟩
        rcases mark with rfl | rfl <;> decide
    have second : Undigit (fraction ++ (exponent ++ rest)) := by
      cases fractional with
      | absent => exact fun c head => (third c head).1
      | point =>
        rintro _ ⟨⟩
        decide
    rw [List.append_assoc, List.append_assoc, readUnsigned, readWhole_append wholly second]
    simp only [Option.bind_eq_bind, Option.bind_some,
      readFraction_append fractional (fun c head => (third c head).1) fun c head => (third c head).2,
      readExponent_append exponential settled, Option.pure_def]

theorem readNumber_of_ne {c : Char} (unsigned : c ≠ '-') (rest : List Char) :
    readNumber (c :: rest) = readUnsigned (c :: rest) := by
  rw [readNumber]
  rintro _ same
  exact unsigned (List.cons.inj same).1

theorem Unsigned.starts (unsigned : Unsigned s) : ∃ c tail, s = c :: tail ∧ c.isDigit = true := by
  cases unsigned with
  | parts whole =>
    obtain ⟨c, tail, rfl⟩ := List.exists_cons_of_ne_nil whole.filled
    exact ⟨c, _, rfl, whole.all c List.mem_cons_self⟩

theorem readNumber_append (number : Number s) (settled : Settled rest) :
    readNumber (s ++ rest) = some (s, rest) := by
  cases number with
  | positive unsigned =>
    have read := readUnsigned_append unsigned settled
    obtain ⟨c, tail, rfl, digit⟩ := unsigned.starts
    have positive : c ≠ '-' := by
      rintro rfl
      exact absurd digit (by decide)
    rw [List.cons_append, readNumber_of_ne positive]
    exact read
  | negative unsigned =>
    rw [List.cons_append, readNumber, readUnsigned_append unsigned settled]
    rfl

end

theorem number_decimal (n : Nat) : Number (Nat.toDigits 10 n) := by
  have whole : Whole (Nat.toDigits 10 n) :=
    ⟨⟨Nat.toDigits_ne_nil, fun _ => Text.isDigit_of_mem_decimal⟩, Text.length_decimal_of_head⟩
  have parts := Unsigned.parts whole .absent .absent
  rw [List.append_nil, List.append_nil] at parts
  exact .positive parts

end TileClient.Json
