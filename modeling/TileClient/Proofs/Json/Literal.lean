import TileClient.Json.Literal

/-! The spellings of literals: each is read piece by piece, whichever of its spellings a piece is
given by. A written text is one of them, and what is read spells the text again. -/
namespace TileClient.Json

/-- A hexadecimal digit of either case, and its value. -/
def HexDigit (c : Char) (n : Nat) : Prop :=
  n < 16 ∧ (c = Nat.digitChar n ∨ c = (Nat.digitChar n).toUpper)

/-- The short escapes: what stands after the backslash, and the character that it stands for. -/
def shortEscapes : List (Char × Char) :=
  [('\x22', '\x22'), ('\x5c', '\x5c'), ('/', '/'), ('b', '\x08'), ('f', '\x0c'), ('n', '\n'),
    ('r', '\x0d'), ('t', '\t')]

/-- How a piece may stand in a text: a character as itself, if nothing forbids that, or by a short
escape, and a unit by four hexadecimal digits. -/
inductive Piece.Spelled : List Char → Piece → Prop
  | bare {c : Char} (quote : c ≠ '\x22') (slash : c ≠ '\x5c') (control : ¬ c < ' ') :
    Spelled [c] (.plain c)
  | short {e c : Char} (means : (e, c) ∈ shortEscapes) : Spelled ['\x5c', e] (.plain c)
  | unit {a b c d : Char} {i j k l : Nat} (first : HexDigit a i) (second : HexDigit b j)
    (third : HexDigit c k) (fourth : HexDigit d l) :
    Spelled ['\x5c', 'u', a, b, c, d] (.unit (UInt16.ofNat (4096 * i + 256 * j + 16 * k + l)))

/-- How a literal may stand between its quotation marks. -/
inductive Literal.Spelled : List Char → Literal → Prop
  | nil : Spelled [] []
  | cons {s text : List Char} {p : Piece} {l : Literal} (first : p.Spelled s)
    (later : Spelled text l) : Spelled (s ++ text) (p :: l)

theorem HexDigit.value {c : Char} {n : Nat} (digit : HexDigit c n) : hexDigit? c = some n := by
  have either : ∀ n < 16, hexDigit? (Nat.digitChar n) = some n ∧
      hexDigit? (Nat.digitChar n).toUpper = some n := by decide
  obtain ⟨bound, rfl | rfl⟩ := digit
  · exact (either n bound).1
  · exact (either n bound).2

theorem hexDigit_hexDigit {n : Nat} (bound : n < 16) : HexDigit (hexDigit n) n := ⟨bound, .inl rfl⟩

theorem shortEscape?_of_mem {e c : Char} (means : (e, c) ∈ shortEscapes) :
    shortEscape? e = some c ∧ e ≠ 'u' := by
  have all : ∀ entry ∈ shortEscapes, shortEscape? entry.1 = some entry.2 ∧ entry.1 ≠ 'u' := by decide
  exact all (e, c) means

theorem Piece.Spelled.reads {s : List Char} {p : Piece} (spelled : p.Spelled s) (rest : List Char) :
    readLiteral (s ++ rest) = (readLiteral rest).map fun (l, rest) => (p :: l, rest) := by
  cases spelled with
  | bare quote slash control =>
    rw [List.singleton_append, readLiteral]
    · simp only [quote, slash, control, if_false, decide_false, Bool.or_self, Bool.false_eq_true]
      cases readLiteral rest <;> rfl
    · exact fun _ _ _ _ _ same _ => slash same
    · exact fun _ _ same _ => slash same
  | short means =>
    obtain ⟨means, short⟩ := shortEscape?_of_mem means
    rw [List.cons_append, List.singleton_append, readLiteral]
    · rw [means]
      cases readLiteral rest <;> rfl
    · exact fun _ _ _ _ _ same _ => short same
  | unit first second third fourth =>
    simp only [List.cons_append, List.nil_append, readLiteral, unit?, first.value, second.value,
      third.value, fourth.value, Option.pure_def, Option.bind_eq_bind, Option.bind_some]
    cases readLiteral rest <;> rfl

theorem Literal.Spelled.reads {s : List Char} {l : Literal} (spelled : l.Spelled s)
    (rest : List Char) : readLiteral (s ++ '\x22' :: rest) = some (l, rest) := by
  induction spelled with
  | nil => simp [readLiteral]
  | cons first later ih =>
    rw [List.append_assoc, first.reads, ih]
    rfl

namespace Piece

/-- The written form of a piece: a character as its escape or itself, a unit by four digits. -/
def text : Piece → List Char
  | .plain c => escape c
  | .unit n => ['\x5c', 'u', hexDigit (n.toNat / 4096), hexDigit (n.toNat / 256 % 16),
    hexDigit (n.toNat / 16 % 16), hexDigit (n.toNat % 16)]

/-- A control character that has no short escape. -/
def isRare (c : Char) : Bool :=
  c < ' ' && !(c = '\x08' || c = '\x0c' || c = '\n' || c = '\x0d' || c = '\t')

/-- A piece that reading can give: a rare control character is only ever given by number. -/
def Sound : Piece → Prop
  | .plain c => isRare c = false
  | .unit _ => True

def ofChar (c : Char) : Piece := if isRare c then .unit (UInt16.ofNat c.toNat) else .plain c

end Piece

/-- How a character is written: by a short escape that means it, by number if it is a rare control
character, or as itself if nothing forbids that. -/
theorem escape_cases (c : Char) :
    (∃ e, escape c = ['\x5c', e] ∧ (e, c) ∈ shortEscapes ∧ Piece.isRare c = false) ∨
    (escape c = ['\x5c', 'u', '0', '0', hexDigit (c.toNat / 16), hexDigit (c.toNat % 16)] ∧
      Piece.isRare c = true) ∨
    (escape c = [c] ∧ c ≠ '\x22' ∧ c ≠ '\x5c' ∧ ¬ c < ' ' ∧ Piece.isRare c = false) := by
  by_cases quote : c = '\x22'
  · exact .inl ⟨'\x22', by subst quote; decide⟩
  by_cases slash : c = '\x5c'
  · exact .inl ⟨'\x5c', by subst slash; decide⟩
  by_cases backspace : c = '\x08'
  · exact .inl ⟨'b', by subst backspace; decide⟩
  by_cases feed : c = '\x0c'
  · exact .inl ⟨'f', by subst feed; decide⟩
  by_cases line : c = '\n'
  · exact .inl ⟨'n', by subst line; decide⟩
  by_cases back : c = '\x0d'
  · exact .inl ⟨'r', by subst back; decide⟩
  by_cases tab : c = '\t'
  · exact .inl ⟨'t', by subst tab; decide⟩
  by_cases control : c < ' '
  · exact .inr (.inl (by
      simp [escape, Piece.isRare, quote, slash, backspace, feed, line, back, tab, control]))
  · exact .inr (.inr (by
      simp [escape, Piece.isRare, quote, slash, backspace, feed, line, back, tab, control]))

theorem Piece.spelled_text {p : Piece} (sound : p.Sound) : p.Spelled p.text := by
  cases p with
  | unit n =>
    have bound := n.toNat_lt
    have spelled := Spelled.unit (hexDigit_hexDigit (n := n.toNat / 4096) (by omega))
      (hexDigit_hexDigit (n := n.toNat / 256 % 16) (by omega))
      (hexDigit_hexDigit (n := n.toNat / 16 % 16) (by omega))
      (hexDigit_hexDigit (n := n.toNat % 16) (by omega))
    rwa [show 4096 * (n.toNat / 4096) + 256 * (n.toNat / 256 % 16) + 16 * (n.toNat / 16 % 16) +
      n.toNat % 16 = n.toNat by omega, UInt16.ofNat_toNat] at spelled
  | plain c =>
    rcases escape_cases c with ⟨e, short, means, -⟩ | ⟨-, rare⟩ | ⟨bare, quote, slash, control, -⟩
    · rw [text, short]
      exact .short means
    · exact nomatch rare.symm.trans sound
    · rw [text, bare]
      exact .bare quote slash control

theorem Literal.spelled_text {l : Literal} (sound : ∀ p ∈ l, p.Sound) :
    l.Spelled (l.flatMap Piece.text) := by
  induction l with
  | nil => exact .nil
  | cons p l ih =>
    obtain ⟨first, later⟩ := List.forall_mem_cons.mp sound
    exact .cons (Piece.spelled_text first) (ih later)

/-- A text as the literal as which its written form is read. -/
def Literal.written (text : List Char) : Literal := text.map Piece.ofChar

theorem sound_written {text : List Char} : ∀ p ∈ Literal.written text, p.Sound := by
  intro p member
  obtain ⟨c, -, rfl⟩ := List.mem_map.mp member
  unfold Piece.ofChar
  split
  · trivial
  · rename_i common
    exact Bool.eq_false_iff.mpr common

theorem toNat_of_isRare {c : Char} (rare : Piece.isRare c = true) :
    c.toNat < 32 ∧ (UInt16.ofNat c.toNat).toNat = c.toNat := by
  simp only [Piece.isRare, Bool.and_eq_true, decide_eq_true_eq] at rare
  have small : c.toNat < 32 := rare.1
  exact ⟨small, UInt16.toNat_ofNat_of_lt (Nat.lt_trans small (by decide))⟩

theorem text_ofChar (c : Char) : (Piece.ofChar c).text = escape c := by
  unfold Piece.ofChar
  split
  · rename_i rare
    rcases escape_cases c with ⟨_, -, -, common⟩ | ⟨number, -⟩ | ⟨-, -, -, -, common⟩
    · exact nomatch common.symm.trans rare
    · obtain ⟨small, unit⟩ := toNat_of_isRare rare
      rw [number, Piece.text, unit, show c.toNat / 4096 = 0 by omega,
        show c.toNat / 256 % 16 = 0 by omega, show c.toNat / 16 % 16 = c.toNat / 16 by omega]
      rfl
    · exact nomatch common.symm.trans rare
  · rfl

theorem writeLiteral_eq (text : List Char) :
    writeLiteral text = '\x22' :: (Literal.written text).flatMap Piece.text ++ ['\x22'] := by
  have pieces : (Literal.written text).flatMap Piece.text = text.flatMap escape := by
    simp only [Literal.written, List.flatMap_map, text_ofChar]
  rw [pieces, writeLiteral]

theorem text?_unit {n : UInt16} (high : isHigh n = false) (low : isLow n = false) (l : Literal) :
    Literal.text? (.unit n :: l) = l.text?.map (Char.ofNat n.toNat :: ·) := by
  cases l with
  | nil => simp [Literal.text?, high, low]
  | cons p l => cases p <;> simp [Literal.text?, high, low]

theorem text?_written (text : List Char) : (Literal.written text).text? = some text := by
  induction text with
  | nil => rfl
  | cons c text ih =>
    rw [Literal.written, List.map_cons, ← Literal.written, Piece.ofChar]
    split
    · rename_i rare
      obtain ⟨small, unit⟩ := toNat_of_isRare rare
      have apart : isHigh (UInt16.ofNat c.toNat) = false ∧ isLow (UInt16.ofNat c.toNat) = false := by
        simp only [isHigh, isLow, Bool.and_eq_false_iff, decide_eq_false_iff_not, UInt16.le_iff_toNat_le,
          unit, UInt16.reduceToNat]
        omega
      rw [text?_unit apart.1 apart.2, ih, unit, Char.ofNat_toNat]
      rfl
    · rw [Literal.text?, ih]
      rfl

end TileClient.Json
