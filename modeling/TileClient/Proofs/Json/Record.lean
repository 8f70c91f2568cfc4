import Mathlib.Data.List.Forall2
import Mathlib.Data.List.Perm.Basic
import TileClient.Json.Record
import TileClient.Proofs.Json.Meaning
import TileClient.Proofs.Text.Numeral

/-! Records by their fields. A field says which values are of its type, which of them a record holds
in it, and when it may be left out; what is read under its name is what it says. -/
namespace TileClient.Json

/-- A value that is a whole number, in digits alone. -/
inductive Value.Natural : Value → Nat → Prop
  | digits {s : List Char} (all : ∀ c ∈ s, c.isDigit = true) :
    Natural (.number s) (Nat.ofDigitChars 10 s 0)

/-- The values of a type, and what each of them stands for. -/
structure Kind (α : Type) where
  Fits : Value → Prop
  Holds : Value → α → Prop
  fits : ∀ v x, Holds v x → Fits v
  notNull : ¬ Fits .null

namespace Kind

def natural {α : Type} (limit : Nat) (toNat : α → Nat) (bound : ∀ x, toNat x ≤ limit) : Kind α where
  Fits v := ∃ n ≤ limit, v.Natural n
  Holds v x := v.Natural (toNat x)
  fits _ x number := ⟨toNat x, bound x, number⟩
  notNull := nofun

def bool : Kind Bool where
  Fits v := ∃ b, v = .bool b
  Holds v b := v = .bool b
  fits _ b same := ⟨b, same⟩
  notNull := nofun

def text : Kind String where
  Fits v := ∃ (l : Literal) (s : List Char), v = .literal l ∧ l.Means s
  Holds v s := ∃ l : Literal, v = .literal l ∧ l.Means s.toList
  fits := fun _ s ⟨l, same, means⟩ => ⟨l, s.toList, same, means⟩
  notNull := nofun

/-- Arrays of any length whose items are all of one type. -/
def list {α : Type} (k : Kind α) : Kind (List α) where
  Fits v := ∃ items, v = .array items ∧ ∀ item ∈ items, k.Fits item
  Holds v xs := ∃ items, v = .array items ∧ List.Forall₂ k.Holds items xs
  fits := by
    rintro v xs ⟨items, rfl, each⟩
    refine ⟨items, rfl, ?_⟩
    induction each with
    | nil => exact nofun
    | cons first later ih => exact List.forall_mem_cons.mpr ⟨k.fits _ _ first, ih⟩
  notNull := nofun

/-- A type is read by a function that gives what its values stand for. -/
def Read {α : Type} (k : Kind α) (value? : Value → Option α) : Prop :=
  ∀ v x, value? v = some x ↔ k.Holds v x

end Kind

theorem natural?_eq_some_iff {limit n : Nat} {v : Value} :
    v.natural? limit = some n ↔ v.Natural n ∧ n ≤ limit := by
  cases v with
  | number s =>
    rw [Value.natural?]
    split
    · rename_i digits
      rw [Text.digitsValue?_eq_some (List.all_eq_true.mp digits), Option.filter_some,
        Option.ite_none_right_eq_some, decide_eq_true_eq]
      constructor
      · rintro ⟨le, same⟩
        obtain rfl := Option.some.inj same
        exact ⟨.digits (List.all_eq_true.mp digits), le⟩
      · rintro ⟨⟨⟩, le⟩
        exact ⟨le, rfl⟩
    · rename_i other
      refine ⟨nofun, ?_⟩
      rintro ⟨⟨all⟩, -⟩
      exact absurd (List.all_eq_true.mpr all) other
  | _ => exact ⟨nofun, nofun⟩

theorem read_natural {α : Type} {limit : Nat} {toNat : α → Nat} {ofNat : Nat → α}
    (bound : ∀ x, toNat x ≤ limit) (back : ∀ x, ofNat (toNat x) = x)
    (forth : ∀ n ≤ limit, toNat (ofNat n) = n) :
    (Kind.natural limit toNat bound).Read fun v => (v.natural? limit).map ofNat := by
  intro v x
  rw [Option.map_eq_some_iff]
  constructor
  · rintro ⟨n, read, rfl⟩
    obtain ⟨number, le⟩ := natural?_eq_some_iff.mp read
    simpa only [Kind.natural, forth n le] using number
  · intro number
    exact ⟨toNat x, natural?_eq_some_iff.mpr ⟨number, bound x⟩, back x⟩

theorem read_bool : Kind.bool.Read Value.bool? := by
  intro v b
  cases v <;> simp [Value.bool?, Kind.bool]

theorem read_text : Kind.text.Read Value.text? := by
  intro v s
  cases v with
  | literal l =>
    simp only [Value.text?, Kind.text, Option.map_eq_some_iff, text?_eq_some_iff,
      Value.literal.injEq, exists_eq_left']
    constructor
    · rintro ⟨text, means, rfl⟩
      rwa [String.toList_ofList]
    · intro means
      exact ⟨s.toList, means, String.ofList_toList⟩
  | _ => exact ⟨nofun, nofun⟩

theorem mapM_eq_some_iff {α β : Type} {read? : α → Option β} {R : α → β → Prop}
    (each : ∀ a b, read? a = some b ↔ R a b) {as : List α} {bs : List β} :
    as.mapM read? = some bs ↔ List.Forall₂ R as bs := by
  induction as generalizing bs with
  | nil => simp [eq_comm]
  | cons a as ih =>
    simp only [List.mapM_cons, Option.pure_def, Option.bind_eq_bind, Option.bind_eq_some_iff, each, ih,
      Option.some.injEq, List.forall₂_cons_left_iff]
    constructor
    · rintro ⟨b, first, bs, later, rfl⟩
      exact ⟨b, bs, first, later, rfl⟩
    · rintro ⟨b, bs, first, later, rfl⟩
      exact ⟨b, first, bs, later, rfl⟩

theorem read_list {α : Type} {k : Kind α} {value? : Value → Option α} (read : k.Read value?) :
    k.list.Read fun v => v.items? value? := by
  intro v xs
  cases v with
  | array items => simp [Value.items?, Kind.list, mapM_eq_some_iff read]
  | _ => exact ⟨nofun, nofun⟩

/-- No member stands under a name. -/
def Absent (name : String) (members : List (Literal × Value)) : Prop :=
  ∀ member ∈ members, ¬ member.1.Means name.toList

/-- One member stands under a name, and its value is the given one. -/
def Once (name : String) (members : List (Literal × Value)) (v : Value) : Prop :=
  ∃ before literal after, members = before ++ (literal, v) :: after ∧ literal.Means name.toList ∧
    Absent name before ∧ Absent name after

/-- Every name is a text, known or not. -/
def Textual (members : List (Literal × Value)) : Prop := ∀ member ∈ members, ∃ s, member.1.Means s

def under (name : String) (members : List (Literal × Value)) : List (Literal × Value) :=
  members.filter (·.1.text? = some name.toList)

section

variable {name : String} {members : List (Literal × Value)} {named : Members} {v : Value}

theorem mem_under {member : Literal × Value} :
    member ∈ under name members ↔ member ∈ members ∧ member.1.Means name.toList := by
  rw [under, List.mem_filter, decide_eq_true_eq, text?_eq_some_iff]

theorem absent_iff : Absent name members ↔ under name members = [] := by
  simp only [Absent, under, List.filter_eq_nil_iff, decide_eq_true_eq, text?_eq_some_iff]

theorem once_iff : Once name members v ↔ ∃ literal, under name members = [(literal, v)] := by
  simp only [under, List.filter_eq_cons_iff, decide_eq_true_eq, text?_eq_some_iff,
    List.filter_eq_nil_iff]
  constructor
  · rintro ⟨before, literal, after, split, means, left, right⟩
    exact ⟨literal, before, after, split, left, means, right⟩
  · rintro ⟨literal, before, after, split, left, means, right⟩
    exact ⟨before, literal, after, split, means, left, right⟩

theorem members?_eq_some_iff : members? members = some named ↔ List.Forall₂
    (fun member entry => member.1.text? = some entry.1 ∧ member.2 = entry.2) members named := by
  refine mapM_eq_some_iff ?_
  rintro ⟨literal, v⟩ ⟨text, v'⟩
  rw [Option.map_eq_some_iff]
  constructor
  · rintro ⟨_, spells, same⟩
    obtain ⟨rfl, rfl⟩ := Prod.mk.inj same
    exact ⟨spells, rfl⟩
  · rintro ⟨spells, rfl⟩
    exact ⟨text, spells, rfl⟩

theorem textual_iff : Textual members ↔ ∃ named, members? members = some named := by
  simp only [members?_eq_some_iff, Textual, ← text?_eq_some_iff]
  induction members with
  | nil => simp
  | cons member members ih =>
    simp only [List.forall_mem_cons, ih, List.forall₂_cons_left_iff]
    constructor
    · rintro ⟨⟨text, spells⟩, named, later⟩
      exact ⟨(text, member.2) :: named, _, _, ⟨spells, rfl⟩, later, rfl⟩
    · rintro ⟨_, entry, named, ⟨spells, -⟩, later, rfl⟩
      exact ⟨⟨entry.1, spells⟩, named, later⟩

theorem filter_members (spelled : members? members = some named) :
    named.filter (·.1 = name.toList) =
      (under name members).map fun member => (name.toList, member.2) := by
  rw [under]
  induction members?_eq_some_iff.mp spelled with
  | nil => rfl
  | @cons member entry members named first later ih =>
    obtain ⟨spells, kept⟩ := first
    have ih := ih (members?_eq_some_iff.mpr later)
    by_cases same : entry.1 = name.toList
    · rw [List.filter_cons_of_pos (by simpa using same),
        List.filter_cons_of_pos (by simp [spells, same]), List.map_cons, ih, kept, ← same]
    · rw [List.filter_cons_of_neg (by simpa using same),
        List.filter_cons_of_neg (by simp [spells, same]), ih]

theorem occurrence_eq_once_iff (spelled : members? members = some named) :
    named.occurrence name = .once v ↔ Once name members v := by
  rw [Members.occurrence, filter_members spelled, once_iff]
  rcases under name members with _ | ⟨⟨literal, v'⟩, _ | ⟨next, rest⟩⟩ <;> simp

theorem occurrence_eq_missing_iff (spelled : members? members = some named) :
    named.occurrence name = .missing ↔ Absent name members := by
  rw [Members.occurrence, filter_members spelled, absent_iff]
  rcases under name members with _ | ⟨⟨literal, v'⟩, _ | ⟨next, rest⟩⟩ <;> simp

variable {α : Type} {k : Kind α} {value? : Value → Option α} {x : α}

theorem required?_eq_some_iff (read : k.Read value?) (spelled : members? members = some named) :
    named.required? name value? = some x ↔ ∃ v, Once name members v ∧ k.Holds v x := by
  simp only [Members.required?, ← occurrence_eq_once_iff spelled, ← read _ _]
  cases named.occurrence name <;> simp

theorem optional?_eq_some_iff (read : k.Read value?) (spelled : members? members = some named)
    {absent : α} : named.optional? name value? absent = some x ↔
      (∃ v, Once name members v ∧ k.Holds v x) ∨ Absent name members ∧ x = absent := by
  simp only [Members.optional?, ← occurrence_eq_once_iff spelled,
    ← occurrence_eq_missing_iff spelled, ← read _ _]
  cases named.occurrence name <;> simp [eq_comm]

end

/-- A field of a message: its name, the values of its type, the value that a message has in it, and
the messages for which it may be left out. -/
structure RecordField (M : Type) where
  name : String
  Fits : Value → Prop
  Holds : Value → M → Prop
  Omits : M → Prop
  fits : ∀ v m, Holds v m → Fits v
  notNull : ¬ Fits .null

section

variable {M α : Type}

namespace RecordField

/-- A field that no message may leave out. -/
def required (name : String) (k : Kind α) (get : M → α) : RecordField M where
  name := name
  Fits := k.Fits
  Holds v m := k.Holds v (get m)
  Omits _ := False
  fits v m := k.fits v (get m)
  notNull := k.notNull

/-- A field that stands for a value of its own when it is left out. -/
def optional (name : String) (k : Kind α) (get : M → α) (absent : α) : RecordField M where
  name := name
  Fits := k.Fits
  Holds v m := k.Holds v (get m)
  Omits m := get m = absent
  fits v m := k.fits v (get m)
  notNull := k.notNull

/-- The members of an object give a message what it has in a field. -/
inductive Given (f : RecordField M) (members : List (Literal × Value)) (m : M) : Prop
  | once {v : Value} (once : Once f.name members v) (holds : f.Holds v m)
  | omitted (absent : Absent f.name members) (omits : f.Omits m)

end RecordField

variable {name : String} {members : List (Literal × Value)} {named : Members} {k : Kind α}
  {value? : Value → Option α} {get : M → α} {m : M}

theorem given_required_iff (read : k.Read value?) (spelled : members? members = some named) :
    (RecordField.required name k get).Given members m ↔
      named.required? name value? = some (get m) := by
  rw [required?_eq_some_iff read spelled]
  constructor
  · rintro (⟨once, holds⟩ | ⟨-, ⟨⟩⟩)
    exact ⟨_, once, holds⟩
  · rintro ⟨v, once, holds⟩
    exact .once once holds

theorem given_optional_iff (read : k.Read value?) (spelled : members? members = some named)
    {absent : α} : (RecordField.optional name k get absent).Given members m ↔
      named.optional? name value? absent = some (get m) := by
  rw [optional?_eq_some_iff read spelled]
  constructor
  · rintro (⟨once, holds⟩ | ⟨missing, omits⟩)
    · exact .inl ⟨_, once, holds⟩
    · exact .inr ⟨missing, omits⟩
  · rintro (⟨v, once, holds⟩ | ⟨missing, omits⟩)
    · exact .once once holds
    · exact .omitted missing omits

variable {f : RecordField M} {members' : List (Literal × Value)} {member : Literal × Value}

theorem given_congr (same : (under f.name members).Perm (under f.name members')) :
    f.Given members m ↔ f.Given members' m := by
  have one {before after : List (Literal × Value)}
      (same : (under f.name before).Perm (under f.name after)) (given : f.Given before m) :
      f.Given after m := by
    cases given with
    | once once holds =>
      obtain ⟨literal, only⟩ := once_iff.mp once
      rw [only] at same
      exact .once (once_iff.mpr ⟨literal, List.singleton_perm.mp same |>.symm⟩) holds
    | omitted absent omits =>
      rw [absent_iff.mp absent] at same
      exact .omitted (absent_iff.mpr (List.nil_perm.mp same)) omits
  exact ⟨one same, one same.symm⟩

theorem not_given_of_twice {first second : Literal × Value} (both : [first, second].Sublist members)
    (means : first.1.Means f.name.toList) (also : second.1.Means f.name.toList) :
    ¬ f.Given members m := by
  rintro (⟨once, -⟩ | ⟨absent, -⟩)
  · obtain ⟨literal, only⟩ := once_iff.mp once
    have pair := both.filter (·.1.text? = some f.name.toList)
    rw [← under, ← under, only, under, List.filter_cons_of_pos (by simp [means.text?_eq]),
      List.filter_cons_of_pos (by simp [also.text?_eq])] at pair
    exact absurd pair.length_le (by simp)
  · exact absent first (both.subset List.mem_cons_self) means

theorem not_given_of_absent (absent : Absent f.name members) (needed : ¬ f.Omits m) :
    ¬ f.Given members m := by
  rintro (⟨once, -⟩ | ⟨-, omits⟩)
  · obtain ⟨literal, only⟩ := once_iff.mp once
    exact absurd (only.symm.trans (absent_iff.mp absent)) (List.cons_ne_nil _ _)
  · exact needed omits

theorem not_given_of_unfit (there : member ∈ members) (means : member.1.Means f.name.toList)
    (unfit : ¬ f.Fits member.2) : ¬ f.Given members m := by
  rintro (⟨once, holds⟩ | ⟨absent, -⟩)
  · obtain ⟨literal, only⟩ := once_iff.mp once
    have here := mem_under.mpr ⟨there, means⟩
    rw [only, List.mem_singleton] at here
    subst here
    exact unfit (f.fits _ _ holds)
  · exact absent member there means

end

end TileClient.Json
