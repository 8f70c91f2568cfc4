import TileClient.Proofs.Json.Grammar
import TileClient.Proofs.Json.Record
import TileClient.Wire.Move
import TileClient.Wire.Reply
import TileClient.Wire.Update

/-! What a message is decoded from: its own members, wherever they stand in an object and however
they are spelled, or their values in order. Nothing else in the text matters. -/
namespace TileClient.Wire
open Json

def byte : Kind UInt8 := .natural (UInt8.size - 1) UInt8.toNat fun x => Nat.le_sub_one_of_lt x.toNat_lt

def word : Kind UInt32 :=
  .natural (UInt32.size - 1) UInt32.toNat fun x => Nat.le_sub_one_of_lt x.toNat_lt

def long : Kind UInt64 :=
  .natural (UInt64.size - 1) UInt64.toNat fun x => Nat.le_sub_one_of_lt x.toNat_lt

def Move.fields : List (RecordField Move) := [.required "Direction" byte code]

/-- The fields of a reply. Without the second the server's place is the empty text. -/
def Reply.fields : List (RecordField Reply) :=
  [.required "Status" .text status, .optional "Hostport" .text hostport ""]

/-- The fields of an update, in the order of their declaration. -/
def Update.fields : List (RecordField Update) :=
  [.required "Score" long score, .required "Grid" word.list.list grid, .required "Won" .bool won,
    .required "Over" .bool lost]

section

variable {M : Type}

/-- What is told of a message: the values of its fields in order, under their names. The last ones
may be missing if the message allows it. -/
inductive Tells : List (RecordField M) → M → List (String × Value) → Prop
  | rest {fields : List (RecordField M)} {m : M} (omits : ∀ f ∈ fields, f.Omits m) : Tells fields m []
  | field {f : RecordField M} {fields : List (RecordField M)} {m : M} {v : Value}
    {told : List (String × Value)} (holds : f.Holds v m) (later : Tells fields m told) :
    Tells (f :: fields) m ((f.name, v) :: told)

/-- Members with the values that are told, under literals that mean the names. -/
def Carried (told : List (String × Value)) (own : List (Literal × Value)) : Prop :=
  List.Forall₂ (fun entry member => member.1.Means entry.1.toList ∧ member.2 = entry.2) told own

/-- The values that are told, without their names. -/
def Listed (fields : List (RecordField M)) (m : M) (items : List Value) : Prop :=
  ∃ told, Tells fields m told ∧ told.map Prod.snd = items

/-- Members with names of their own, none of which is that of a field. -/
def Foreign (fields : List (RecordField M)) (others : List (Literal × Value)) : Prop :=
  ∀ member ∈ others, ∃ name, member.1.Means name ∧ ∀ f ∈ fields, name ≠ f.name.toList

/-- What a decoder takes into account are the members that it knows. -/
structure KnownMembersDecide (decode? : String → Option M) (fields : List (RecordField M)) :
    Prop where
  /-- A text of an object whose members are those of a message in any order, among any others, is
  decoded as the message. -/
  mixed : ∀ text members own others told m, (Value.object members).Written text.toList →
    members.Perm (own ++ others) → Tells fields m told → Carried told own → Foreign fields others →
    decode? text = some m
  /-- Two texts with the same known members decode alike or are both refused, whatever else stands
  in them and in whatever order. -/
  alike : ∀ text text' members members' own others others',
    (Value.object members).Written text.toList → (Value.object members').Written text'.toList →
    members.Perm (own ++ others) → members'.Perm (own ++ others') →
    Foreign fields others → Foreign fields others' → decode? text = decode? text'
  /-- An object is decoded as just those messages that its members give. -/
  object : ∀ text members m, (Value.object members).Written text.toList →
    (decode? text = some m ↔ Textual members ∧ ∀ f ∈ fields, f.Given members m)
  /-- An array is decoded as just those messages whose values it tells. -/
  array : ∀ text items m, (Value.array items).Written text.toList →
    (decode? text = some m ↔ Listed fields m items)
  /-- A known member must not stand twice. -/
  repeated : ∀ text members f first second, (Value.object members).Written text.toList →
    f ∈ fields → [first, second].Sublist members → first.1.Means f.name.toList →
    second.1.Means f.name.toList → decode? text = none
  /-- A known member must not be missing, unless it may be left out. -/
  missing : ∀ text members f, (Value.object members).Written text.toList → f ∈ fields →
    Absent f.name members → (∀ m, ¬ f.Omits m) → decode? text = none
  /-- The value of a known member must be of its type. -/
  refused : ∀ text members f member, (Value.object members).Written text.toList → f ∈ fields →
    member ∈ members → member.1.Means f.name.toList → ¬ f.Fits member.2 → decode? text = none
  /-- No type has a null. -/
  null : ∀ f ∈ fields, ¬ f.Fits .null

end

section

variable {M : Type} {f : RecordField M} {fields : List (RecordField M)} {m : M} {v : Value}
  {items : List Value}

theorem listed_nil_iff : Listed fields m [] ↔ ∀ f ∈ fields, f.Omits m := by
  constructor
  · rintro ⟨_, told, none⟩
    obtain rfl := List.map_eq_nil_iff.mp none
    cases told with
    | rest omits => exact omits
  · exact fun omits => ⟨[], .rest omits, rfl⟩

theorem listed_cons_iff :
    Listed (f :: fields) m (v :: items) ↔ f.Holds v m ∧ Listed fields m items := by
  constructor
  · rintro ⟨_, told, values⟩
    cases told with
    | rest => cases values
    | field holds later =>
      obtain ⟨rfl, rfl⟩ := List.cons.inj values
      exact ⟨holds, _, later, rfl⟩
  · rintro ⟨holds, told, later, rfl⟩
    exact ⟨(f.name, v) :: told, .field holds later, rfl⟩

theorem not_listed_cons : ¬ Listed ([] : List (RecordField M)) m (v :: items) := by
  rintro ⟨_, told, values⟩
  cases told with
  | rest => cases values

end

theorem read_code : byte.Read Move.code? :=
  read_natural _ (fun _ => UInt8.ofNat_toNat) fun _ le =>
    UInt8.toNat_ofNat_of_lt (Nat.lt_of_le_sub_one (by decide) le)

theorem read_score : long.Read Update.score? :=
  read_natural _ (fun _ => UInt64.ofNat_toNat) fun _ le =>
    UInt64.toNat_ofNat_of_lt (Nat.lt_of_le_sub_one (by decide) le)

theorem read_cell : word.Read Update.cell? :=
  read_natural _ (fun _ => UInt32.ofNat_toNat) fun _ le =>
    UInt32.toNat_ofNat_of_lt (Nat.lt_of_le_sub_one (by decide) le)

theorem read_grid : word.list.list.Read Update.grid? := read_list (read_list read_cell)

/-- What the decoder of a message makes of objects and arrays. No two fields have one name. -/
structure ReadsFields {M : Type} (ofValue? : Value → Option M) (fields : List (RecordField M)) :
    Prop where
  object : ∀ members m, ofValue? (.object members) = some m ↔
    Textual members ∧ ∀ f ∈ fields, f.Given members m
  array : ∀ items m, ofValue? (.array items) = some m ↔ Listed fields m items
  distinct : (fields.map RecordField.name).Nodup

theorem Move.readsFields : ReadsFields ofValue? fields where
  object members m := by
    simp only [ofValue?, textual_iff, fields, List.forall_mem_singleton, Option.pure_def,
      Option.bind_eq_bind, Option.bind_eq_some_iff]
    constructor
    · rintro ⟨named, spelled, code, read, ⟨⟩⟩
      exact ⟨⟨named, spelled⟩, (given_required_iff read_code spelled).mpr read⟩
    · rintro ⟨⟨named, spelled⟩, given⟩
      exact ⟨named, spelled, m.code, (given_required_iff read_code spelled).mp given, rfl⟩
  array items m := by
    rcases items with _ | ⟨code, _ | ⟨next, rest⟩⟩
    · simp [ofValue?, fields, listed_nil_iff, RecordField.required]
    · simp only [ofValue?, fields, listed_cons_iff, listed_nil_iff, Option.map_eq_some_iff]
      constructor
      · rintro ⟨code, read, rfl⟩
        exact ⟨(read_code _ _).mp read, nofun⟩
      · rintro ⟨holds, -⟩
        exact ⟨m.code, (read_code _ _).mpr holds, rfl⟩
    · simp [ofValue?, fields, listed_cons_iff, not_listed_cons]
  distinct := by decide

theorem Reply.readsFields : ReadsFields ofValue? fields where
  object members m := by
    simp only [ofValue?, textual_iff, fields, List.forall_mem_cons, Option.pure_def,
      Option.bind_eq_bind, Option.bind_eq_some_iff]
    constructor
    · rintro ⟨named, spelled, status, first, hostport, second, ⟨⟩⟩
      exact ⟨⟨named, spelled⟩, (given_required_iff read_text spelled).mpr first,
        (given_optional_iff read_text spelled).mpr second, nofun⟩
    · rintro ⟨⟨named, spelled⟩, first, second, -⟩
      exact ⟨named, spelled, m.status, (given_required_iff read_text spelled).mp first, m.hostport,
        (given_optional_iff read_text spelled).mp second, rfl⟩
  array items m := by
    rcases items with _ | ⟨status, _ | ⟨hostport, _ | ⟨next, rest⟩⟩⟩
    · simp [ofValue?, fields, listed_nil_iff, RecordField.required]
    · simp only [ofValue?, fields, listed_cons_iff, listed_nil_iff, List.forall_mem_singleton,
        Option.pure_def, Option.bind_eq_bind, Option.bind_eq_some_iff]
      constructor
      · rintro ⟨status, read, ⟨⟩⟩
        exact ⟨(read_text _ _).mp read, rfl⟩
      · rintro ⟨holds, empty⟩
        obtain ⟨status, hostport⟩ := m
        obtain rfl : hostport = "" := empty
        exact ⟨status, (read_text _ _).mpr holds, rfl⟩
    · simp only [ofValue?, fields, listed_cons_iff, listed_nil_iff, Option.pure_def,
        Option.bind_eq_bind, Option.bind_eq_some_iff]
      constructor
      · rintro ⟨status, first, hostport, second, ⟨⟩⟩
        exact ⟨(read_text _ _).mp first, (read_text _ _).mp second, nofun⟩
      · rintro ⟨first, second, -⟩
        exact ⟨m.status, (read_text _ _).mpr first, m.hostport,
          (read_text _ _).mpr second, rfl⟩
    · simp [ofValue?, fields, listed_cons_iff, not_listed_cons]
  distinct := by decide

theorem Update.readsFields : ReadsFields ofValue? fields where
  object members m := by
    simp only [ofValue?, textual_iff, fields, List.forall_mem_cons, Option.pure_def,
      Option.bind_eq_bind, Option.bind_eq_some_iff]
    constructor
    · rintro ⟨named, spelled, score, first, grid, second, won, third, lost, fourth, ⟨⟩⟩
      exact ⟨⟨named, spelled⟩, (given_required_iff read_score spelled).mpr first,
        (given_required_iff read_grid spelled).mpr second,
        (given_required_iff read_bool spelled).mpr third,
        (given_required_iff read_bool spelled).mpr fourth, nofun⟩
    · rintro ⟨⟨named, spelled⟩, first, second, third, fourth, -⟩
      exact ⟨named, spelled, m.score, (given_required_iff read_score spelled).mp first,
        m.grid, (given_required_iff read_grid spelled).mp second,
        m.won, (given_required_iff read_bool spelled).mp third,
        m.lost, (given_required_iff read_bool spelled).mp fourth, rfl⟩
  array items m := by
    rcases items with _ | ⟨score, _ | ⟨grid, _ | ⟨won, _ | ⟨lost, _ | ⟨next, rest⟩⟩⟩⟩⟩
    case cons.cons.cons.cons.nil =>
      simp only [ofValue?, fields, listed_cons_iff, listed_nil_iff, Option.pure_def,
        Option.bind_eq_bind, Option.bind_eq_some_iff]
      constructor
      · rintro ⟨score, first, grid, second, won, third, lost, fourth, ⟨⟩⟩
        exact ⟨(read_score _ _).mp first, (read_grid _ _).mp second,
          (read_bool _ _).mp third, (read_bool _ _).mp fourth, nofun⟩
      · rintro ⟨first, second, third, fourth, -⟩
        exact ⟨m.score, (read_score _ _).mpr first, m.grid, (read_grid _ _).mpr second,
          m.won, (read_bool _ _).mpr third, m.lost, (read_bool _ _).mpr fourth, rfl⟩
    all_goals
      simp [ofValue?, fields, listed_cons_iff, listed_nil_iff, not_listed_cons, RecordField.required]
  distinct := by decide

section

variable {M : Type} {fields : List (RecordField M)} {f : RecordField M} {m : M}
  {members own others : List (Literal × Value)}

theorem Foreign.absent (foreign : Foreign fields others) (known : f ∈ fields) :
    Absent f.name others := by
  intro member there means
  obtain ⟨name, other, apart⟩ := foreign member there
  exact apart f known (other.unique means)

theorem under_mixed (mixed : members.Perm (own ++ others)) (foreign : Foreign fields others)
    (known : f ∈ fields) : (under f.name members).Perm (under f.name own) := by
  have rest : under f.name others = [] := absent_iff.mp (foreign.absent known)
  have filtered := mixed.filter (·.1.text? = some f.name.toList)
  rwa [List.filter_append, ← under, ← under, ← under, rest, List.append_nil] at filtered

theorem textual_mixed (mixed : members.Perm (own ++ others)) (foreign : Foreign fields others) :
    Textual members ↔ Textual own := by
  constructor
  · exact fun textual member there => textual member (mixed.mem_iff.mpr (List.mem_append_left _ there))
  · intro textual member there
    rcases List.mem_append.mp (mixed.mem_iff.mp there) with mine | other
    · exact textual member mine
    · obtain ⟨name, means, -⟩ := foreign member other
      exact ⟨name, means⟩

variable {told : List (String × Value)}

theorem carried_cons_iff {name : String} {v : Value} : Carried ((name, v) :: told) own ↔
    ∃ literal rest, own = (literal, v) :: rest ∧ literal.Means name.toList ∧ Carried told rest := by
  constructor
  · rintro (_ | ⟨⟨means, rfl⟩, carried⟩)
    exact ⟨_, _, rfl, means, carried⟩
  · rintro ⟨literal, rest, rfl, means, carried⟩
    exact .cons ⟨means, rfl⟩ carried

theorem Carried.textual (carried : Carried told own) : Textual own := by
  induction carried with
  | nil => exact nofun
  | cons first later ih => exact List.forall_mem_cons.mpr ⟨⟨_, first.1⟩, ih⟩

theorem Carried.absent {name : String} (carried : Carried told own) (tells : Tells fields m told)
    (fresh : name ∉ fields.map RecordField.name) : Absent name own := by
  induction tells generalizing own with
  | rest =>
    cases carried
    exact nofun
  | @field f fields m v told holds later ih =>
    rw [List.map_cons, List.mem_cons, not_or] at fresh
    obtain ⟨literal, rest, rfl, means, carried⟩ := carried_cons_iff.mp carried
    exact List.forall_mem_cons.mpr
      ⟨fun also => fresh.1 (String.toList_inj.mp (also.unique means)), ih carried fresh.2⟩

/-- Members that carry what is told of a message give it. -/
theorem Carried.given (carried : Carried told own) (tells : Tells fields m told)
    (distinct : (fields.map RecordField.name).Nodup) : ∀ f ∈ fields, f.Given own m := by
  induction tells generalizing own with
  | rest omits =>
    cases carried
    exact fun f known => .omitted nofun (omits f known)
  | @field f fields m v told holds later ih =>
    obtain ⟨fresh, distinct⟩ := List.nodup_cons.mp distinct
    obtain ⟨literal, rest, rfl, means, carried⟩ := carried_cons_iff.mp carried
    have once : Once f.name ((literal, v) :: rest) v :=
      ⟨[], literal, rest, rfl, means, nofun, carried.absent later fresh⟩
    refine List.forall_mem_cons.mpr ⟨.once once holds, fun g known => ?_⟩
    have other : ¬ literal.Means g.name.toList := by
      intro also
      have same := String.toList_inj.mp (means.unique also)
      exact fresh (same ▸ List.mem_map_of_mem known)
    have skipped : under g.name ((literal, v) :: rest) = under g.name rest :=
      List.filter_cons_of_neg (by simpa [text?_eq_some_iff] using other)
    exact (given_congr (.of_eq skipped)).mpr (ih carried distinct g known)

end

section

variable {M : Type} {ofValue? : Value → Option M} {decode? : String → Option M}
  {fields : List (RecordField M)}

theorem knownMembersDecide (reads : ReadsFields ofValue? fields)
    (decode : ∀ text, decode? text = (Value.parse? text.toList).bind ofValue?) :
    KnownMembersDecide decode? fields := by
  have object (text : String) (members : List (Literal × Value)) (m : M)
      (written : (Value.object members).Written text.toList) :
      decode? text = some m ↔ Textual members ∧ ∀ f ∈ fields, f.Given members m := by
    rw [decode, Value.parse?_of_written written, Option.bind_some, reads.object]
  have nothing (text : String) (members : List (Literal × Value)) (f : RecordField M)
      (written : (Value.object members).Written text.toList) (known : f ∈ fields)
      (never : ∀ m, ¬ f.Given members m) : decode? text = none := by
    rw [Option.eq_none_iff_forall_ne_some]
    exact fun m decoded => never m (((object text members m written).mp decoded).2 f known)
  refine {
    object := object
    mixed := ?mixed, alike := ?alike, array := ?array, repeated := ?repeated, missing := ?missing
    refused := ?refused, null := fun f _ => f.notNull }
  case mixed =>
    intro text members own others told m written mixed tells carried foreign
    refine (object text members m written).mpr
      ⟨(textual_mixed mixed foreign).mpr carried.textual, fun f known => ?_⟩
    exact (given_congr (under_mixed mixed foreign known)).mpr
      (carried.given tells reads.distinct f known)
  case alike =>
    intro text text' members members' own others others' written written' mixed mixed' foreign foreign'
    ext m
    rw [object text members m written, object text' members' m written', textual_mixed mixed foreign,
      textual_mixed mixed' foreign']
    refine and_congr_right fun _ => forall₂_congr fun f known => ?_
    rw [given_congr (under_mixed mixed foreign known), given_congr (under_mixed mixed' foreign' known)]
  case array =>
    intro text items m written
    rw [decode, Value.parse?_of_written written, Option.bind_some, reads.array]
  case repeated =>
    intro text members f first second written known both means also
    exact nothing text members f written known fun m => not_given_of_twice both means also
  case missing =>
    intro text members f written known absent omits
    exact nothing text members f written known fun m => not_given_of_absent absent (omits m)
  case refused =>
    intro text members f member written known there means unfit
    exact nothing text members f written known fun m => not_given_of_unfit there means unfit

end

/-- Every message is decoded from its own members, or from their values in order, and from nothing
else. -/
theorem messages_are_decoded_from_their_own_members :
    KnownMembersDecide Update.decode? Update.fields ∧ KnownMembersDecide Reply.decode? Reply.fields ∧
      KnownMembersDecide Move.decode? Move.fields :=
  ⟨knownMembersDecide Update.readsFields fun _ => rfl,
    knownMembersDecide Reply.readsFields fun _ => rfl,
    knownMembersDecide Move.readsFields fun _ => rfl⟩

/-- Other members are passed over whole, and a name may be spelled by number. -/
example : Move.decode? "\x7b \"x\":[1e999,\x7b\"Direction\":7\x7d],\n\"\\u0044irection\" : 2 ,\"x\":null\x7d" =
    some ⟨2⟩ := by decide +kernel

end TileClient.Wire
