import Mathlib.Data.List.Chain
import TileClient.Proofs.Json.Literal
import TileClient.Proofs.Json.Number

/-! Texts as tokens with gaps between them: such a text is read as just those tokens. A token may be
spelled in any way that is read back, and has one spelling in which it is written. -/
namespace TileClient.Json

namespace Token

def isNumber : Token → Bool
  | .number _ => true
  | _ => false

/-- A text that is read as a token, whatever follows; only a number must not be carried on. -/
structure SpelledBy (t : Token) (s : List Char) : Prop where
  starts : ∃ c tail, s = c :: tail ∧ isGap c = false
  reads : ∀ rest, (t.isNumber = true → Settled rest) → readToken (s ++ rest) = some (t, rest)

def text : Token → List Char
  | .openBrace => ['\x7b']
  | .closeBrace => ['\x7d']
  | .openBracket => ['[']
  | .closeBracket => [']']
  | .comma => [',']
  | .colon => [':']
  | .null => ['n', 'u', 'l', 'l']
  | .bool true => ['t', 'r', 'u', 'e']
  | .bool false => ['f', 'a', 'l', 's', 'e']
  | .number spelling => spelling
  | .literal l => '\x22' :: l.flatMap Piece.text ++ ['\x22']

/-- A token that reading can give: its spelling is a number's, and its pieces are a literal's. -/
def Sound : Token → Prop
  | .number spelling => ∀ rest, Settled rest → readNumber (spelling ++ rest) = some (spelling, rest)
  | .literal l => ∀ p ∈ l, p.Sound
  | _ => True

end Token

/-- A text spells tokens: one after the other, with gaps before, between and after them. -/
inductive Spells : List Char → List Token → Prop
  | done {gap : List Char} (blank : ∀ c ∈ gap, isGap c = true) : Spells gap []
  | token {gap s rest : List Char} {t : Token} {tokens : List Token}
    (blank : ∀ c ∈ gap, isGap c = true) (spelled : t.SpelledBy s)
    (apart : t.isNumber = true → Settled rest) (later : Spells rest tokens) :
    Spells (gap ++ s ++ rest) (t :: tokens)

namespace Spells

variable {text : List Char} {tokens : List Token}

theorem tokensWithin (h : Spells text tokens) {limit : Nat} (enough : tokens.length ≤ limit) :
    tokensWithin limit text = some tokens := by
  induction h generalizing limit with
  | @done gap blank =>
    have nothing : gap.dropWhile isGap = [] := List.dropWhile_eq_nil_iff.mpr blank
    unfold Json.tokensWithin
    simp [nothing]
  | @token gap s rest t tokens blank spelled apart later ih =>
    obtain ⟨c, tail, rfl, dark⟩ := spelled.starts
    obtain ⟨limit, rfl⟩ : ∃ n, limit = n + 1 :=
      Nat.exists_eq_succ_of_ne_zero (Nat.ne_of_gt (Nat.lt_of_lt_of_le (Nat.succ_pos _) enough))
    have skipped : (gap ++ c :: tail ++ rest).dropWhile isGap = c :: (tail ++ rest) := by
      rw [List.append_assoc, List.dropWhile_append_of_pos blank, List.cons_append,
        List.dropWhile_cons_of_neg (by simp [dark])]
    have read := spelled.reads rest apart
    rw [List.cons_append] at read
    unfold Json.tokensWithin
    simp only [skipped, read, ih (Nat.le_of_succ_le_succ enough), Option.map_some]

/-- A text has no more tokens than characters. -/
theorem length_le (h : Spells text tokens) : tokens.length ≤ text.length := by
  induction h with
  | done => exact Nat.zero_le _
  | token blank spelled apart later ih =>
    obtain ⟨c, tail, rfl, -⟩ := spelled.starts
    simp only [List.length_append, List.length_cons]
    omega

theorem tokens?_eq (h : Spells text tokens) : tokens? text = some tokens := h.tokensWithin h.length_le

end Spells

theorem sound_number {s : List Char} (number : Number s) : (Token.number s).Sound :=
  fun _ settled => readNumber_append number settled

theorem sound_decimal (n : Nat) : (Token.number (Nat.toDigits 10 n)).Sound :=
  sound_number (number_decimal n)

theorem starts_of_readNumber {text : List Char} {r : List Char × List Char}
    (read : readNumber text = some r) :
    ∃ c tail, text = c :: tail ∧ (c = '-' ∨ c.isDigit = true) := by
  cases text with
  | nil => simp [readNumber, readUnsigned, readWhole, readDigits] at read
  | cons c tail =>
    refine ⟨c, tail, rfl, ?_⟩
    by_contra neither
    obtain ⟨unsigned, undigit⟩ := not_or.mp neither
    rw [readNumber_of_ne unsigned] at read
    simp [readUnsigned, readWhole, readDigits, undigit] at read

theorem readToken_of_number {c : Char} (start : c = '-' ∨ c.isDigit = true) (rest : List Char) :
    readToken (c :: rest) =
      (readNumber (c :: rest)).map fun (spelling, rest) => (.number spelling, rest) := by
  unfold readToken
  split
  all_goals
    first
    | rfl
    | rename_i same
      obtain ⟨rfl, -⟩ := List.cons.inj same
      exact absurd start (by decide)

theorem Token.spelledBy_literal {s : List Char} {l : Literal} (spelled : l.Spelled s) :
    (Token.literal l).SpelledBy ('\x22' :: s ++ ['\x22']) := by
  refine ⟨⟨_, _, rfl, by decide⟩, fun rest _ => ?_⟩
  simp only [List.cons_append, List.append_assoc, List.nil_append, readToken, spelled.reads,
    Option.map_some]

theorem Token.spelledBy_text {t : Token} (sound : t.Sound) : t.SpelledBy t.text := by
  cases t with
  | number spelling =>
    have whole := sound [] nofun
    rw [List.append_nil] at whole
    obtain ⟨c, tail, rfl, start⟩ := starts_of_readNumber whole
    refine ⟨⟨c, tail, rfl, ?_⟩, fun rest apart => ?_⟩
    · by_contra gap
      simp only [isGap, Bool.or_eq_true, decide_eq_true_eq, Bool.not_eq_false] at gap
      rcases gap with ((rfl | rfl) | rfl) | rfl <;> exact absurd start (by decide)
    · rw [Token.text, List.cons_append, readToken_of_number start, ← List.cons_append,
        sound rest (apart rfl)]
      rfl
  | literal l => exact spelledBy_literal (Literal.spelled_text sound)
  | bool b => cases b <;> exact ⟨⟨_, _, rfl, by decide⟩, fun rest _ => rfl⟩
  | _ => exact ⟨⟨_, _, rfl, by decide⟩, fun rest _ => rfl⟩

/-- No number stands directly before another. -/
def Apart (tokens : List Token) : Prop :=
  tokens.IsChain fun t next => t.isNumber = true → next.isNumber = false

theorem settled_text {t : Token} (other : t.isNumber = false) (rest : List Char) :
    Settled (t.text ++ rest) := by
  cases t with
  | number => cases other
  | bool b => cases b <;> (rintro _ ⟨⟩; decide)
  | _ => rintro _ ⟨⟩; decide

theorem settled_written {tokens : List Token} (other : ∀ t ∈ tokens.head?, t.isNumber = false) :
    Settled (tokens.flatMap Token.text) := by
  cases tokens with
  | nil => exact nofun
  | cons t tokens => exact settled_text (other t rfl) _

theorem spells_written {tokens : List Token} (sound : ∀ t ∈ tokens, t.Sound) (apart : Apart tokens) :
    Spells (tokens.flatMap Token.text) tokens := by
  induction tokens with
  | nil => exact .done nofun
  | cons t tokens ih =>
    obtain ⟨first, later⟩ := List.isChain_cons.mp apart
    have spelled := Token.spelledBy_text (sound t (List.mem_cons_self ..))
    have rest := ih (fun u member => sound u (List.mem_cons_of_mem t member)) later
    have close : ∀ c ∈ ([] : List Char), isGap c = true := nofun
    exact .token close spelled
      (fun number => settled_written fun next head => first next head number) rest

end TileClient.Json
