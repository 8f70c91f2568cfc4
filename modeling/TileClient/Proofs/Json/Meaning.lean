import TileClient.Proofs.Json.Literal

/-! What a literal means: each character of its text is given as itself or by its 16-bit units. The
text of a literal is the one that it means. -/
namespace TileClient.Json

/-- The 16-bit units of a character: its number, or a high and a low unit from 65536 on. -/
def units (c : Char) : List Nat :=
  if c.toNat < 0x10000 then [c.toNat]
  else [0xD800 + (c.toNat - 0x10000) / 1024, 0xDC00 + (c.toNat - 0x10000) % 1024]

/-- A literal means a text if each character of it is given as itself or by its units. -/
inductive Literal.Means : Literal → List Char → Prop
  | nil : Means [] []
  | plain {l : Literal} {text : List Char} (c : Char) (later : Means l text) :
    Means (.plain c :: l) (c :: text)
  | units {l : Literal} {text : List Char} (c : Char) (later : Means l text) :
    Means ((units c).map (.unit <| UInt16.ofNat ·) ++ l) (c :: text)

theorem toNat_unit {n : Nat} (bound : n < 0x10000) : (UInt16.ofNat n).toNat = n :=
  UInt16.toNat_ofNat_of_lt bound

theorem isHigh_iff {n : UInt16} : isHigh n = true ↔ 0xD800 ≤ n.toNat ∧ n.toNat < 0xDC00 := by
  simp only [isHigh, Bool.and_eq_true, decide_eq_true_eq, UInt16.le_iff_toNat_le, UInt16.reduceToNat]
  omega

theorem isLow_iff {n : UInt16} : isLow n = true ↔ 0xDC00 ≤ n.toNat ∧ n.toNat < 0xE000 := by
  simp only [isLow, Bool.and_eq_true, decide_eq_true_eq, UInt16.le_iff_toNat_le, UInt16.reduceToNat]
  omega

/-- A character is none of the numbers that only ever stand in pairs. -/
theorem unpaired (c : Char) : c.toNat < 0xD800 ∨ 0xE000 ≤ c.toNat ∧ c.toNat < 0x110000 := by
  have valid : c.val.toNat < 0xD800 ∨ 0xDFFF < c.val.toNat ∧ c.val.toNat < 0x110000 := c.valid
  change c.val.toNat < 0xD800 ∨ 0xE000 ≤ c.val.toNat ∧ c.val.toNat < 0x110000
  omega

theorem toNat_ofNat {n : Nat} (valid : n.isValidChar) : (Char.ofNat n).toNat = n := by
  rw [Char.ofNat, dif_pos valid]
  rfl

theorem units_paired {high low : UInt16} (opens : isHigh high = true) (closes : isLow low = true) :
    units (paired high low) = [high.toNat, low.toNat] := by
  have above := isHigh_iff.mp opens
  have below := isLow_iff.mp closes
  have number : (paired high low).toNat =
      0x10000 + 1024 * (high.toNat - 0xD800) + (low.toNat - 0xDC00) :=
    toNat_ofNat (.inr (by omega))
  have first : 0xD800 + ((paired high low).toNat - 0x10000) / 1024 = high.toNat := by omega
  have second : 0xDC00 + ((paired high low).toNat - 0x10000) % 1024 = low.toNat := by omega
  rw [units, if_neg (by omega), first, second]

theorem units_ofNat {n : UInt16} (high : isHigh n = false) (low : isLow n = false) :
    units (Char.ofNat n.toNat) = [n.toNat] := by
  have bound := n.toNat_lt
  have above := mt isHigh_iff.mpr (Bool.eq_false_iff.mp high)
  have below := mt isLow_iff.mpr (Bool.eq_false_iff.mp low)
  have number : (Char.ofNat n.toNat).toNat = n.toNat := by
    by_cases small : n.toNat < 0xD800
    · exact toNat_ofNat (.inl small)
    · exact toNat_ofNat (.inr (by omega))
  rw [units, number, if_pos bound]

/-- The units of a character are read as that character. -/
theorem text?_units (c : Char) (l : Literal) :
    Literal.text? ((units c).map (.unit <| UInt16.ofNat ·) ++ l) = l.text?.map (c :: ·) := by
  have range := unpaired c
  rw [units]
  split
  · rename_i small
    have number := toNat_unit small
    have high : isHigh (UInt16.ofNat c.toNat) = false := by
      rw [Bool.eq_false_iff, ne_eq, isHigh_iff, number]
      omega
    have low : isLow (UInt16.ofNat c.toNat) = false := by
      rw [Bool.eq_false_iff, ne_eq, isLow_iff, number]
      omega
    rw [List.map_singleton, List.singleton_append, text?_unit high low, number, Char.ofNat_toNat]
  · rename_i large
    have first := toNat_unit (n := 0xD800 + (c.toNat - 0x10000) / 1024) (by omega)
    have second := toNat_unit (n := 0xDC00 + (c.toNat - 0x10000) % 1024) (by omega)
    have high : isHigh (UInt16.ofNat (0xD800 + (c.toNat - 0x10000) / 1024)) = true := by
      rw [isHigh_iff, first]
      omega
    have low : isLow (UInt16.ofNat (0xDC00 + (c.toNat - 0x10000) % 1024)) = true := by
      rw [isLow_iff, second]
      omega
    have whole : paired (UInt16.ofNat (0xD800 + (c.toNat - 0x10000) / 1024))
        (UInt16.ofNat (0xDC00 + (c.toNat - 0x10000) % 1024)) = c := by
      rw [paired, first, second, show 0x10000 + 1024 * (0xD800 + (c.toNat - 0x10000) / 1024 - 0xD800) +
        (0xDC00 + (c.toNat - 0x10000) % 1024 - 0xDC00) = c.toNat by omega, Char.ofNat_toNat]
    simp only [List.map_cons, List.map_nil, List.cons_append, List.nil_append, Literal.text?, high,
      low, if_true, whole]

theorem Literal.Means.text?_eq {l : Literal} {text : List Char} (means : l.Means text) :
    l.text? = some text := by
  induction means with
  | nil => rfl
  | plain c later ih =>
    rw [Literal.text?, ih]
    rfl
  | units c later ih =>
    rw [text?_units, ih]
    rfl

namespace Literal.Means

variable {l : Literal} {text : List Char}

theorem of_pair {high low : UInt16} (opens : isHigh high = true) (closes : isLow low = true)
    (later : l.Means text) : Means (.unit high :: .unit low :: l) (paired high low :: text) := by
  have given := Means.units (paired high low) later
  rw [units_paired opens closes] at given
  simpa using given

theorem of_unit {n : UInt16} (high : isHigh n = false) (low : isLow n = false)
    (later : l.Means text) : Means (.unit n :: l) (Char.ofNat n.toNat :: text) := by
  have given := Means.units (Char.ofNat n.toNat) later
  rw [units_ofNat high low] at given
  simpa using given

end Literal.Means

theorem means_of_text? {l : Literal} {text : List Char} (spells : l.text? = some text) :
    l.Means text := by
  fun_induction Literal.text? l generalizing text with
  | case1 =>
    obtain rfl := Option.some.inj spells
    exact .nil
  | case2 c l ih =>
    obtain ⟨later, rest, rfl⟩ := Option.map_eq_some_iff.mp spells
    exact .plain c (ih rest)
  | case3 high low l opens closes ih =>
    obtain ⟨later, rest, rfl⟩ := Option.map_eq_some_iff.mp spells
    exact .of_pair opens closes (ih rest)
  | case4 | case5 | case7 => cases spells
  | case6 n next l high low ih =>
    obtain ⟨later, rest, rfl⟩ := Option.map_eq_some_iff.mp spells
    exact .of_unit (Bool.eq_false_iff.mpr high) (Bool.eq_false_iff.mpr low) (ih rest)
  | case8 n l other alone ih =>
    obtain ⟨later, rest, rfl⟩ := Option.map_eq_some_iff.mp spells
    obtain ⟨high, low⟩ := not_or.mp (mt (Bool.or_eq_true _ _).mpr alone)
    exact .of_unit (Bool.eq_false_iff.mpr high) (Bool.eq_false_iff.mpr low) (ih rest)

theorem text?_eq_some_iff {l : Literal} {text : List Char} : l.text? = some text ↔ l.Means text :=
  ⟨means_of_text?, Literal.Means.text?_eq⟩

theorem Literal.Means.unique {l : Literal} {text other : List Char} (means : l.Means text)
    (also : l.Means other) : text = other :=
  Option.some.inj (means.text?_eq.symm.trans also.text?_eq)

end TileClient.Json
