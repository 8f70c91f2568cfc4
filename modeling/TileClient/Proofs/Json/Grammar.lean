import TileClient.Proofs.Json.Value

/-! The texts of a value: its tokens, each in any of its spellings, with any gaps. Every such text
is read as the value. -/
namespace TileClient.Json

/-- Characters that may stand between tokens, any number of them. -/
def Gap (gap : List Char) : Prop := ∀ c ∈ gap, c ∈ [' ', '\t', '\n', '\x0d']

/-- How a token may stand in a text. -/
def Token.Spelled (s : List Char) : Token → Prop
  | .number spelling => s = spelling ∧ Number spelling
  | .literal l => ∃ inner, s = '\x22' :: inner ++ ['\x22'] ∧ l.Spelled inner
  | t => s = t.text

/-- Tokens one after the other, with gaps before, between and after them. -/
inductive Laid : List Char → List Token → Prop
  | done {gap : List Char} (blank : Gap gap) : Laid gap []
  | token {gap s rest : List Char} {t : Token} {tokens : List Token} (blank : Gap gap)
    (spelled : t.Spelled s) (later : Laid rest tokens) : Laid (gap ++ s ++ rest) (t :: tokens)

/-- A text of a value. -/
def Value.Written (text : List Char) (v : Value) : Prop := Laid text v.tokens

theorem Gap.isGap {gap : List Char} (blank : Gap gap) : ∀ c ∈ gap, isGap c = true := by
  intro c member
  simpa [Json.isGap, or_assoc] using blank c member

namespace Token.Spelled

variable {s : List Char} {t : Token}

theorem spelledBy (spelled : t.Spelled s) : t.SpelledBy s := by
  cases t with
  | number spelling =>
    obtain ⟨rfl, number⟩ := spelled
    exact spelledBy_text (sound_number number)
  | literal l =>
    obtain ⟨inner, rfl, spelled⟩ := spelled
    exact spelledBy_literal spelled
  | _ =>
    obtain rfl := spelled
    exact spelledBy_text trivial

theorem settled (spelled : t.Spelled s) (other : t.isNumber = false) (rest : List Char) :
    Settled (s ++ rest) := by
  cases t with
  | number => cases other
  | literal l =>
    obtain ⟨inner, rfl, -⟩ := spelled
    rintro _ ⟨⟩
    decide
  | _ =>
    obtain rfl := spelled
    exact settled_text other rest

end Token.Spelled

namespace Laid

variable {text : List Char} {tokens : List Token}

theorem settled (laid : Laid text tokens) (other : ∀ t ∈ tokens.head?, t.isNumber = false) :
    Settled text := by
  have dark {gap : List Char} (blank : Gap gap) : Settled gap := by
    intro c head
    have all : ∀ c ∈ [' ', '\t', '\n', '\x0d'], c.isDigit = false ∧ c ≠ '.' ∧ c ≠ 'e' ∧ c ≠ 'E' := by
      simp
    exact all c (blank c (List.mem_of_mem_head? head))
  cases laid with
  | done blank => exact dark blank
  | @token gap s rest t tokens blank spelled later =>
    cases gap with
    | nil => exact spelled.settled (other t rfl) rest
    | cons c gap =>
      rintro _ ⟨⟩
      exact dark blank c rfl

theorem spells (laid : Laid text tokens) (apart : Apart tokens) : Spells text tokens := by
  induction laid with
  | done blank => exact .done blank.isGap
  | token blank spelled later ih =>
    obtain ⟨first, rest⟩ := List.isChain_cons.mp apart
    exact .token blank.isGap spelled.spelledBy
      (fun number => later.settled fun next head => first next head number) (ih rest)

end Laid

theorem Value.parse?_of_written {text : List Char} {v : Value} (written : v.Written text) :
    parse? text = some v :=
  parse?_of_spells (written.spells v.apart_tokens)

end TileClient.Json
