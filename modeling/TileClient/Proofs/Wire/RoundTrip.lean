import TileClient.Proofs.Json.Value
import TileClient.Wire.Move
import TileClient.Wire.Reply
import TileClient.Wire.Update

/-! Messages survive the wire. What is written for a message is the written form of one value, and
that value stands for the message. -/
namespace TileClient.Wire
open Json

theorem text_array (items : List Value) :
    (Value.array items).text = '[' :: [','].intercalate (items.map Value.text) ++ [']'] := by
  have inner : (Value.itemTokens items).flatMap Token.text =
      [','].intercalate (items.map Value.text) := by
    induction items with
    | nil => rfl
    | cons item items ih =>
      cases items with
      | nil => simp [Value.itemTokens, Value.text, List.intercalate]
      | cons next items =>
        rw [List.map_cons, List.map_cons, List.intercalate_cons_cons, ← List.map_cons, ← ih]
        simp [Value.itemTokens, Value.text, Token.text]
  simp [Value.text, Value.tokens, Token.text, inner]

def memberText (member : Literal × Value) : List Char :=
  (Token.literal member.1).text ++ ':' :: member.2.text

theorem text_object (members : List (Literal × Value)) :
    (Value.object members).text = '\x7b' :: [','].intercalate (members.map memberText) ++ ['\x7d'] := by
  have inner : (Value.memberTokens members).flatMap Token.text =
      [','].intercalate (members.map memberText) := by
    induction members with
    | nil => rfl
    | cons member members ih =>
      obtain ⟨name, value⟩ := member
      cases members with
      | nil => simp [Value.memberTokens, memberText, Value.text, Token.text, List.intercalate]
      | cons next members =>
        rw [List.map_cons, List.map_cons, List.intercalate_cons_cons, ← List.map_cons, ← ih]
        simp [Value.memberTokens, memberText, Value.text, Token.text]
  simp [Value.text, Value.tokens, Token.text, inner]

def numberValue (n : Nat) : Value := .number (Nat.toDigits 10 n)

def textValue (text : String) : Value := .literal (.written text.toList)

def record (named : List (String × Value)) : Value :=
  .object (named.map fun (name, value) => (.written name.toList, value))

def gridValue (rows : Board.Snapshot) : Value :=
  .array (rows.map fun row => .array (row.map fun v => numberValue v.toNat))

def Move.value (m : Move) : Value := record [("Direction", numberValue m.code.toNat)]

def Reply.value (r : Reply) : Value :=
  record [("Status", textValue r.status), ("Hostport", textValue r.hostport)]

def Update.value (u : Update) : Value :=
  record [("Score", numberValue u.score.toNat), ("Grid", gridValue u.grid), ("Won", .bool u.won),
    ("Over", .bool u.lost)]

theorem text_numberValue (n : Nat) : (numberValue n).text = Nat.toDigits 10 n := by
  simp [numberValue, Value.text, Value.tokens, Token.text]

theorem text_textValue (text : String) : (textValue text).text = writeLiteral text.toList := by
  simp [textValue, Value.text, Value.tokens, Token.text, writeLiteral_eq]

theorem text_bool (b : Bool) : (Value.bool b).text = (Update.flagText b).toList := by
  cases b <;> rfl

theorem text_record (named : List (String × Value)) : (record named).text =
    '\x7b' :: [','].intercalate (named.map fun (name, value) =>
      writeLiteral name.toList ++ ':' :: value.text) ++ ['\x7d'] := by
  rw [record, text_object, List.map_map]
  simp [Function.comp_def, memberText, Token.text, writeLiteral_eq]

theorem Move.toList_encode (m : Move) : m.encode.toList = m.value.text := by
  have name : writeLiteral "Direction".toList = "\"Direction\"".toList := by decide
  simp only [value, text_record, List.map_cons, List.map_nil, text_numberValue, name]
  -- An equation for the encoding would be tried byte by byte first.
  delta encode
  simp

theorem Reply.toList_encode (r : Reply) : r.encode.toList = r.value.text := by
  have status : writeLiteral "Status".toList = "\"Status\"".toList := by decide
  have hostport : writeLiteral "Hostport".toList = "\"Hostport\"".toList := by decide
  simp only [value, text_record, List.map_cons, List.map_nil, text_textValue, status, hostport]
  delta encode
  simp [literalText]

theorem toList_bracketed (items : List String) :
    (Update.bracketed items).toList = '[' :: [','].intercalate (items.map String.toList) ++ [']'] := by
  simp [Update.bracketed, String.toList_intercalate]

theorem toList_gridText (rows : Board.Snapshot) :
    (Update.gridText rows).toList = (gridValue rows).text := by
  simp [Update.gridText, gridValue, toList_bracketed, text_array, text_numberValue, Function.comp_def]

theorem Update.toList_encode (u : Update) : u.encode.toList = u.value.text := by
  have score : writeLiteral "Score".toList = "\"Score\"".toList := by decide
  have grid : writeLiteral "Grid".toList = "\"Grid\"".toList := by decide
  have won : writeLiteral "Won".toList = "\"Won\"".toList := by decide
  have lost : writeLiteral "Over".toList = "\"Over\"".toList := by decide
  simp only [value, text_record, List.map_cons, List.map_nil, text_numberValue, text_bool, score, grid,
    won, lost, ← toList_gridText]
  delta encode
  simp

theorem natural?_numberValue {n limit : Nat} (le : n ≤ limit) :
    (numberValue n).natural? limit = some n := by
  have digits : (Nat.toDigits 10 n).all Char.isDigit = true :=
    List.all_eq_true.mpr fun _ => Text.isDigit_of_mem_decimal
  simp [numberValue, Value.natural?, digits, Text.digitsValue?_decimal, le]

theorem text?_textValue (text : String) : (textValue text).text? = some text := by
  simp [textValue, Value.text?, text?_written]

theorem items?_map {α : Type} {item? : Value → Option α} {write : α → Value}
    (back : ∀ x, item? (write x) = some x) (xs : List α) :
    (Value.array (xs.map write)).items? item? = some xs := by
  rw [Value.items?]
  induction xs with
  | nil => rfl
  | cons x xs ih => simp [back, ih]

theorem grid?_gridValue (rows : Board.Snapshot) : Update.grid? (gridValue rows) = some rows := by
  have cell (v : UInt32) : Update.cell? (numberValue v.toNat) = some v := by
    rw [Update.cell?, natural?_numberValue (Nat.le_sub_one_of_lt v.toNat_lt)]
    simp
  exact items?_map (items?_map cell) rows

theorem members?_record (named : List (String × Value)) :
    members? (named.map fun (name, value) => (.written name.toList, value)) =
      some (named.map fun (name, value) => (name.toList, value)) := by
  induction named with
  | nil => rfl
  | cons member named ih =>
    obtain ⟨name, value⟩ := member
    rw [members?] at ih ⊢
    simp only [List.map_cons, List.mapM_cons, text?_written, ih]
    rfl

/-- A name that stands once in a record is found with its value. -/
theorem occurrence_record {named : List (String × Value)} (distinct : (named.map Prod.fst).Nodup)
    {name : String} {value : Value} (found : (name, value) ∈ named) :
    Members.occurrence (named.map fun (name, value) => (name.toList, value)) name = .once value := by
  have only : (named.map fun (name, value) => (name.toList, value)).filter (·.1 = name.toList) =
      [(name.toList, value)] := by
    induction named with
    | nil => cases found
    | cons first named ih =>
      obtain ⟨name', value'⟩ := first
      obtain ⟨fresh, distinct⟩ := List.nodup_cons.mp distinct
      rcases List.mem_cons.mp found with same | later
      · obtain ⟨rfl, rfl⟩ := Prod.mk.inj same
        have others : ∀ value, (name, value) ∉ named := fun value member =>
          fresh (List.mem_map.mpr ⟨_, member, rfl⟩)
        simp only [List.map_cons, decide_true, List.filter_cons_of_pos, List.cons.injEq, true_and,
          List.filter_eq_nil_iff, List.mem_map, decide_eq_true_eq]
        rintro _ ⟨⟨name', value'⟩, member, rfl⟩ same
        exact others value' (String.toList_inj.mp same ▸ member)
      · have other : name' ≠ name := by
          rintro rfl
          exact fresh (List.mem_map.mpr ⟨_, later, rfl⟩)
        simp [String.toList_inj, other, ih distinct later]
  rw [Members.occurrence, only]

section

variable {named : List (String × Value)} {name : String} {v : Value}

theorem required?_record {α : Type} (distinct : (named.map Prod.fst).Nodup)
    (found : (name, v) ∈ named) (value? : Value → Option α) :
    Members.required? (named.map fun (name, value) => (name.toList, value)) name value? =
      value? v := by
  rw [Members.required?, occurrence_record distinct found]

theorem optional?_record {α : Type} (distinct : (named.map Prod.fst).Nodup)
    (found : (name, v) ∈ named) (value? : Value → Option α) (absent : α) :
    Members.optional? (named.map fun (name, value) => (name.toList, value)) name value? absent =
      value? v := by
  rw [Members.optional?, occurrence_record distinct found]

end

theorem Move.ofValue?_value (m : Move) : ofValue? m.value = some m := by
  have code : code? (numberValue m.code.toNat) = some m.code := by
    rw [code?, natural?_numberValue (Nat.le_sub_one_of_lt m.code.toNat_lt)]
    simp
  rw [value, record, ofValue?, members?_record]
  simp only [Option.bind_eq_bind, Option.bind_some]
  rw [required?_record (v := numberValue m.code.toNat) (by simp) (by simp), code]
  rfl

theorem Reply.ofValue?_value (r : Reply) : ofValue? r.value = some r := by
  rw [value, record, ofValue?, members?_record]
  simp only [Option.bind_eq_bind, Option.bind_some]
  rw [required?_record (v := textValue r.status) (by simp) (by simp),
    optional?_record (v := textValue r.hostport) (by simp) (by simp),
    text?_textValue, text?_textValue]
  rfl

theorem Update.ofValue?_value (u : Update) : ofValue? u.value = some u := by
  have points : score? (numberValue u.score.toNat) = some u.score := by
    rw [score?, natural?_numberValue (Nat.le_sub_one_of_lt u.score.toNat_lt)]
    simp
  rw [value, record, ofValue?, members?_record]
  simp only [Option.bind_eq_bind, Option.bind_some]
  rw [required?_record (v := numberValue u.score.toNat) (by simp) (by simp),
    required?_record (v := gridValue u.grid) (by simp) (by simp),
    required?_record (v := .bool u.won) (by simp) (by simp),
    required?_record (v := .bool u.lost) (by simp) (by simp), points, grid?_gridValue]
  rfl

theorem sound_array {items : List Value} (sound : ∀ item ∈ items, item.Sound) :
    (Value.array items).Sound := by
  have inner : ∀ t ∈ Value.itemTokens items, t.Sound := by
    induction items with
    | nil => exact nofun
    | cons item items ih =>
      obtain ⟨first, later⟩ := List.forall_mem_cons.mp sound
      cases items with
      | nil => exact first
      | cons next items =>
        exact List.forall_mem_append.mpr ⟨first, List.forall_mem_cons.mpr ⟨trivial, ih later⟩⟩
  exact List.forall_mem_append.mpr
    ⟨List.forall_mem_cons.mpr ⟨trivial, inner⟩, List.forall_mem_singleton.mpr trivial⟩

theorem sound_literal (text : List Char) : (Token.literal (.written text)).Sound :=
  fun _ => sound_written _

theorem sound_record {named : List (String × Value)} (sound : ∀ member ∈ named, member.2.Sound) :
    (record named).Sound := by
  have inner : ∀ t ∈ Value.memberTokens (named.map fun (name, value) => (.written name.toList, value)),
      t.Sound := by
    induction named with
    | nil => exact nofun
    | cons member named ih =>
      obtain ⟨name, value⟩ := member
      obtain ⟨first, later⟩ := List.forall_mem_cons.mp sound
      cases named with
      | nil =>
        exact List.forall_mem_cons.mpr ⟨sound_literal _, List.forall_mem_cons.mpr ⟨trivial, first⟩⟩
      | cons next named =>
        exact List.forall_mem_cons.mpr ⟨sound_literal _, List.forall_mem_cons.mpr ⟨trivial,
          List.forall_mem_append.mpr ⟨first, List.forall_mem_cons.mpr ⟨trivial, ih later⟩⟩⟩⟩
  exact List.forall_mem_append.mpr
    ⟨List.forall_mem_cons.mpr ⟨trivial, inner⟩, List.forall_mem_singleton.mpr trivial⟩

theorem sound_numberValue (n : Nat) : (numberValue n).Sound :=
  List.forall_mem_singleton.mpr (sound_decimal n)

theorem sound_textValue (text : String) : (textValue text).Sound :=
  List.forall_mem_singleton.mpr (sound_literal _)

theorem sound_bool (b : Bool) : (Value.bool b).Sound := List.forall_mem_singleton.mpr trivial

theorem sound_gridValue (rows : Board.Snapshot) : (gridValue rows).Sound :=
  sound_array (List.forall_mem_map.mpr fun _ _ =>
    sound_array (List.forall_mem_map.mpr fun _ _ => sound_numberValue _))

theorem Move.sound_value (m : Move) : m.value.Sound :=
  sound_record (by simp [sound_numberValue])

theorem Reply.sound_value (r : Reply) : r.value.Sound :=
  sound_record (by simp [sound_textValue])

theorem Update.sound_value (u : Update) : u.value.Sound :=
  sound_record (by simp [sound_numberValue, sound_gridValue, sound_bool])

theorem Move.decode?_encode (m : Move) : decode? m.encode = some m := by
  rw [decode?, toList_encode, Value.parse?_text m.sound_value, Option.bind_some, ofValue?_value]

theorem Reply.decode?_encode (r : Reply) : decode? r.encode = some r := by
  rw [decode?, toList_encode, Value.parse?_text r.sound_value, Option.bind_some, ofValue?_value]

theorem Update.decode?_encode (u : Update) : decode? u.encode = some u := by
  rw [decode?, toList_encode, Value.parse?_text u.sound_value, Option.bind_some, ofValue?_value]

section

variable {M : Type} (decode? : String → Option M) (encode : M → String)

/-- Decoding a text and encoding again what it says. -/
def recode (text : String) : Option String := (decode? text).map encode

/-- Nothing is lost between a message and its text. -/
structure Faithful : Prop where
  /-- An encoded message is decoded as the same message. -/
  roundTrip : ∀ m, decode? (encode m) = some m
  /-- A text that decodes is recoded as a text that decodes to the same message and stays as it is
  from then on, and so is any other text of that message. -/
  canonical : ∀ text m, decode? text = some m → ∃ canon,
    recode decode? encode text = some canon ∧ decode? canon = some m ∧
      recode decode? encode canon = some canon ∧
      ∀ other, decode? other = some m → recode decode? encode other = some canon

variable {decode? encode}

theorem faithful (roundTrip : ∀ m, decode? (encode m) = some m) : Faithful decode? encode where
  roundTrip := roundTrip
  canonical text m decoded := by
    have same : ∀ other, decode? other = some m → recode decode? encode other = some (encode m) :=
      fun other decoded => by rw [recode, decoded, Option.map_some]
    exact ⟨encode m, same text decoded, roundTrip m, same _ (roundTrip m), same⟩

end

/-- Every message of the protocol survives the wire, and every text of it has one canonical form. -/
theorem messages_survive_the_wire : Faithful Move.decode? Move.encode ∧
    Faithful Update.decode? Update.encode ∧ Faithful Reply.decode? Reply.encode :=
  ⟨faithful Move.decode?_encode, faithful Update.decode?_encode, faithful Reply.decode?_encode⟩

end TileClient.Wire
