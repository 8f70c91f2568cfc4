import TileClient.Json.Value
import TileClient.Proofs.Json.Token

/-! Values as they are written: their tokens in order, without gaps. A written value is read back,
whatever its depth. -/
namespace TileClient.Json.Value

mutual

def tokens : Value → List Token
  | .null => [.null]
  | .bool b => [.bool b]
  | .number spelling => [.number spelling]
  | .literal l => [.literal l]
  | .array items => .openBracket :: itemTokens items ++ [.closeBracket]
  | .object members => .openBrace :: memberTokens members ++ [.closeBrace]

def itemTokens : List Value → List Token
  | [] => []
  | [item] => item.tokens
  | item :: next :: items => item.tokens ++ .comma :: itemTokens (next :: items)

def memberTokens : List (Literal × Value) → List Token
  | [] => []
  | [(name, value)] => .literal name :: .colon :: value.tokens
  | (name, value) :: next :: members =>
    .literal name :: .colon :: value.tokens ++ .comma :: memberTokens (next :: members)

end

def text (v : Value) : List Char := v.tokens.flatMap Token.text

/-- All tokens of a value can be read. -/
def Sound (v : Value) : Prop := ∀ t ∈ v.tokens, t.Sound

theorem tokens_eq_cons (v : Value) : ∃ t tokens, v.tokens = t :: tokens ∧ t ≠ .closeBracket := by
  cases v <;> exact ⟨_, _, rfl, nofun⟩

theorem length_tokens_pos (v : Value) : 0 < v.tokens.length := by
  obtain ⟨t, tokens, starts, -⟩ := v.tokens_eq_cons
  rw [starts]
  exact Nat.succ_pos _

theorem itemTokens_eq_cons (item : Value) (items : List Value) :
    ∃ t tokens, itemTokens (item :: items) = t :: tokens ∧ t ≠ .closeBracket := by
  obtain ⟨t, tokens, starts, apart⟩ := item.tokens_eq_cons
  cases items with
  | nil => exact ⟨t, tokens, by rw [itemTokens, starts], apart⟩
  | cons next items => exact ⟨t, _, by rw [itemTokens, starts, List.cons_append], apart⟩

theorem memberTokens_eq_cons (name : Literal) (value : Value) (members : List (Literal × Value)) :
    ∃ tokens, memberTokens ((name, value) :: members) = .literal name :: tokens := by
  cases members <;> exact ⟨_, rfl⟩

theorem read_openBracket {t : Token} (apart : t ≠ .closeBracket) (limit : Nat) (rest : List Token) :
    read (limit + 1) (.openBracket :: t :: rest) =
      (readItems limit (t :: rest)).map fun (items, rest) => (.array items, rest) := by
  rw [read]
  intro _ same
  exact apart (List.cons.inj same).1

mutual

/-- Two calls for each token are enough to read a value. -/
theorem read_tokens : ∀ (limit : Nat) (v : Value) (rest : List Token),
    2 * v.tokens.length ≤ limit + 1 → read limit (v.tokens ++ rest) = some (v, rest)
  | 0, v, _, enough => by
    have tokens := v.length_tokens_pos
    omega
  | _ + 1, .null, _, _ | _ + 1, .bool _, _, _ | _ + 1, .number _, _, _ | _ + 1, .literal _, _, _ => rfl
  | _ + 1, .array [], _, _ | _ + 1, .object [], _, _ => rfl
  | limit + 1, .array (item :: items), rest, enough => by
    have inner := readItems_tokens limit item items rest (by simp [tokens] at enough; omega)
    obtain ⟨t, tail, starts, apart⟩ := itemTokens_eq_cons item items
    rw [starts, List.cons_append] at inner
    rw [tokens, starts, List.cons_append, List.cons_append, List.append_assoc, List.cons_append,
      read_openBracket apart, List.singleton_append, inner]
    rfl
  | limit + 1, .object ((name, value) :: members), rest, enough => by
    have inner := readMembers_tokens limit name value members rest (by simp [tokens] at enough; omega)
    obtain ⟨tail, starts⟩ := memberTokens_eq_cons name value members
    rw [starts, List.cons_append] at inner
    rw [tokens, starts, List.cons_append, List.cons_append, List.append_assoc, List.cons_append,
      read, List.singleton_append, inner]
    · rfl
    · exact fun _ same => nomatch same

theorem readItems_tokens : ∀ (limit : Nat) (item : Value) (items : List Value) (rest : List Token),
    2 * (itemTokens (item :: items)).length ≤ limit →
      readItems limit (itemTokens (item :: items) ++ .closeBracket :: rest) =
        some (item :: items, rest)
  | 0, item, items, _, enough => by
    obtain ⟨t, tail, starts, -⟩ := itemTokens_eq_cons item items
    simp [starts] at enough
  | limit + 1, item, [], rest, enough => by
    have head := read_tokens limit item (.closeBracket :: rest) (by simpa [itemTokens] using enough)
    rw [itemTokens, readItems, head]
  | limit + 1, item, next :: items, rest, enough => by
    simp only [itemTokens, List.length_append, List.length_cons] at enough
    have head := read_tokens limit item
      (.comma :: (itemTokens (next :: items) ++ .closeBracket :: rest)) (by omega)
    have tail := readItems_tokens limit next items rest (by omega)
    rw [itemTokens, List.append_assoc, List.cons_append, readItems, head]
    simp only [tail, Option.map_some]

theorem readMembers_tokens : ∀ (limit : Nat) (name : Literal) (value : Value)
    (members : List (Literal × Value)) (rest : List Token),
    2 * (memberTokens ((name, value) :: members)).length ≤ limit →
      readMembers limit (memberTokens ((name, value) :: members) ++ .closeBrace :: rest) =
        some ((name, value) :: members, rest)
  | 0, name, value, members, _, enough => by
    obtain ⟨tail, starts⟩ := memberTokens_eq_cons name value members
    simp [starts] at enough
  | limit + 1, name, value, [], rest, enough => by
    simp only [memberTokens, List.length_cons] at enough
    have head := read_tokens limit value (.closeBrace :: rest) (by omega)
    rw [memberTokens, List.cons_append, List.cons_append, readMembers, head]
  | limit + 1, name, value, (name', value') :: members, rest, enough => by
    simp only [memberTokens, List.length_append, List.length_cons] at enough
    have head := read_tokens limit value
      (.comma :: (memberTokens ((name', value') :: members) ++ .closeBrace :: rest)) (by omega)
    have tail := readMembers_tokens limit name' value' members rest (by omega)
    rw [memberTokens, List.cons_append, List.cons_append, List.cons_append, List.cons_append,
      List.append_assoc, List.cons_append, readMembers, head]
    simp only [tail, Option.map_some]

end

theorem apart_append {before after : List Token} (left : Apart before) (right : Apart after)
    (mark : ∀ t ∈ after.head?, t.isNumber = false) : Apart (before ++ after) :=
  List.isChain_append.mpr ⟨left, right, fun _ _ t first _ => mark t first⟩

theorem apart_cons {t : Token} {tokens : List Token} (other : t.isNumber = false)
    (rest : Apart tokens) : Apart (t :: tokens) :=
  List.isChain_cons.mpr ⟨fun _ _ number => (nomatch other.symm.trans number), rest⟩

mutual

theorem apart_tokens : ∀ v : Value, Apart v.tokens
  | .null | .bool _ | .number _ | .literal _ => List.isChain_singleton _
  | .array items =>
    apart_cons rfl (apart_append (apart_itemTokens items) (List.isChain_singleton _)
      (by simp [Token.isNumber]))
  | .object members =>
    apart_cons rfl (apart_append (apart_memberTokens members) (List.isChain_singleton _)
      (by simp [Token.isNumber]))

theorem apart_itemTokens : ∀ items : List Value, Apart (itemTokens items)
  | [] => List.isChain_nil
  | [item] => apart_tokens item
  | item :: next :: items =>
    apart_append (apart_tokens item) (apart_cons rfl (apart_itemTokens (next :: items)))
      (by simp [Token.isNumber])

theorem apart_memberTokens : ∀ members : List (Literal × Value), Apart (memberTokens members)
  | [] => List.isChain_nil
  | [(_, value)] => apart_cons rfl (apart_cons rfl (apart_tokens value))
  | (_, value) :: next :: members =>
    apart_cons rfl (apart_cons rfl (apart_append (apart_tokens value)
      (apart_cons rfl (apart_memberTokens (next :: members))) (by simp [Token.isNumber])))

end

theorem parse?_of_spells {text : List Char} {v : Value} (spells : Spells text v.tokens) :
    parse? text = some v := by
  have read := read_tokens (2 * v.tokens.length + 1) v [] (by omega)
  rw [List.append_nil] at read
  rw [parse?, spells.tokens?_eq]
  simp only [read]

theorem parse?_text {v : Value} (sound : v.Sound) : parse? v.text = some v :=
  parse?_of_spells (spells_written sound v.apart_tokens)

end TileClient.Json.Value
