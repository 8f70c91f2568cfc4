import Mathlib.Tactic.SplitIfs
import TileClient.Input.MoveSource

/-! What a script says: the moves that its characters mean, as long as every other character may
stand between moves. The blanks that may stand there are the space, the tab and the line feed; the
other three blanks of ASCII are refused like any stray character. -/
namespace TileClient.Input.Script
open Board

variable {c d : Char} {text : List Char} {gaps : List Char}

/-- The characters that mean a move: the first letter of its direction in either case, and its
code. -/
def signs : Direction → List Char
  | .up => ['u', 'U', '0']
  | .right => ['r', 'R', '1']
  | .down => ['d', 'D', '2']
  | .left => ['l', 'L', '3']

/-- The move that a character means. -/
def meaning? (c : Char) : Option Direction := Direction.all.find? (c ∈ signs ·)

def meant (text : List Char) : List Direction := text.filterMap meaning?

/-- The character means a move, or it is one of those that may stand between moves. -/
def Fits (gaps : List Char) (c : Char) : Prop := (meaning? c).isSome ∨ c ∈ gaps

instance : Decidable (Fits gaps c) := inferInstanceAs (Decidable (_ ∨ _))

/-- The characters that stand between moves. -/
def separators : List Char := [' ', ',', '\t', '\n']

/-- The blanks of ASCII that are no separators: vertical tab, form feed and carriage return. -/
def strayBlanks : List Char := ['\x0b', '\x0c', '\x0d']

/-- The first character of a text that does not fit. -/
def stray? (gaps text : List Char) : Option Char := text.find? fun c => ¬ Fits gaps c

/-- What a script is to be read as if the characters `gaps` may stand between moves. -/
structure Follows (gaps text : List Char) (answer : Except Fault MoveSource) : Prop where
  /-- A script is accepted if every character fits, and only then. -/
  accepted : (∃ source, answer = .ok source) ↔ ∀ c ∈ text, Fits gaps c
  /-- The calls of an accepted script give its moves in order, and nothing from then on. -/
  played : ∀ source, answer = .ok source → ∀ n,
    source.take n = (List.range n).map fun i => (meant text)[i]?
  /-- A refusal names the first character that does not fit, as a small letter if it is a letter. -/
  refused : ∀ c, stray? gaps text = some c →
    answer = .error (.invalidMoves ("unexpected " ++ Text.quotedChar (lowered c)))

theorem isUpper_iff : c.isUpper = true ↔ 'A'.val ≤ c.val ∧ c.val ≤ 'Z'.val := decide_eq_true_iff

theorem lowered_of_not_isUpper (small : c.isUpper = false) : lowered c = c :=
  dif_neg fun capital => Bool.eq_false_iff.mp small (isUpper_iff.mpr capital)

theorem forall_lowered {P : Char → Char → Prop}
    (letters : ∀ n < 26, P (Char.ofNat (65 + n)) (lowered (Char.ofNat (65 + n))))
    (others : ∀ c, c.isUpper = false → P c c) (c : Char) : P c (lowered c) := by
  by_cases capital : c.isUpper = true
  · have bounds : 65 ≤ c.toNat ∧ c.toNat ≤ 90 := by
      simpa [UInt32.le_iff_toNat_le] using isUpper_iff.mp capital
    have letter := letters (c.toNat - 65) (by omega)
    rwa [show 65 + (c.toNat - 65) = c.toNat by omega, Char.ofNat_toNat] at letter
  · have small := Bool.eq_false_iff.mpr capital
    rw [lowered_of_not_isUpper small]
    exact others c small

/-- Case aside, a character means the move that its small letter names. -/
theorem moveOf?_lowered : ∀ c, moveOf? (lowered c) = meaning? c := by
  refine forall_lowered (P := fun c small => moveOf? small = meaning? c) (by decide) ?_
  intro c small
  have other (d : Char) (large : d.isUpper = true) : c ≠ d := by
    rintro rfl
    exact nomatch small.symm.trans large
  simp only [moveOf?, meaning?, Direction.all, List.find?_cons, List.find?_nil, signs, List.mem_cons,
    List.not_mem_nil, or_false, other 'U' rfl, other 'R' rfl, other 'D' rfl, other 'L' rfl, false_or,
    Bool.or_eq_true, decide_eq_true_eq]
  by_cases up : c = 'u' ∨ c = '0'
  · simp only [up, if_true, decide_true]
  by_cases right : c = 'r' ∨ c = '1'
  · simp only [up, right, if_true, if_false, decide_true, decide_false]
  by_cases down : c = 'd' ∨ c = '2'
  · simp only [up, right, down, if_true, if_false, decide_true, decide_false]
  by_cases left : c = 'l' ∨ c = '3'
  · simp only [up, right, down, left, if_true, if_false, decide_true, decide_false]
  · simp only [up, right, down, left, if_false, decide_false]

theorem isSeparator_lowered : ∀ c, isSeparator (lowered c) = decide (c ∈ separators) := by
  refine forall_lowered (P := fun c small => isSeparator small = decide (c ∈ separators))
    (by decide) ?_
  intro c _
  simp [isSeparator, separators, Bool.or_assoc]

theorem readMoves_cons_of_fits (fits : Fits separators c) (rest : List Char) :
    readMoves (c :: rest) = (readMoves rest).map ((meaning? c).toList ++ ·) := by
  rw [readMoves, moveOf?_lowered, isSeparator_lowered]
  cases means : meaning? c with
  | some d => rfl
  | none =>
    have gap : c ∈ separators := fits.resolve_left (by simp [means])
    simp only [gap, decide_true, if_true, Option.toList_none, List.nil_append]
    cases readMoves rest <;> rfl

theorem readMoves_cons_of_not_fits (stray : ¬ Fits separators c) (rest : List Char) :
    readMoves (c :: rest) = .error (.invalidMoves ("unexpected " ++ Text.quotedChar (lowered c))) := by
  obtain ⟨meaningless, gapless⟩ := not_or.mp stray
  rw [readMoves, moveOf?_lowered, isSeparator_lowered, Option.not_isSome_iff_eq_none.mp meaningless]
  simp only [gapless, decide_false, Bool.false_eq_true, if_false]

theorem meant_cons (c : Char) (text : List Char) :
    meant (c :: text) = (meaning? c).toList ++ meant text := by
  rw [meant, List.filterMap_cons]
  cases meaning? c <;> rfl

theorem readMoves_append (fits : ∀ c ∈ text, Fits separators c) (rest : List Char) :
    readMoves (text ++ rest) = (readMoves rest).map (meant text ++ ·) := by
  induction text with
  | nil =>
    rw [List.nil_append]
    cases readMoves rest <;> rfl
  | cons c text ih =>
    obtain ⟨first, later⟩ := List.forall_mem_cons.mp fits
    rw [List.cons_append, readMoves_cons_of_fits first, ih later, meant_cons]
    cases readMoves rest with
    | error _ => rfl
    | ok moves => simp [Except.map]

theorem readMoves_of_fits (fits : ∀ c ∈ text, Fits separators c) :
    readMoves text = .ok (meant text) := by
  have read := readMoves_append fits []
  rw [List.append_nil] at read
  rw [read, readMoves, Except.map, List.append_nil]

theorem stray?_eq_none_iff : stray? gaps text = none ↔ ∀ c ∈ text, Fits gaps c := by
  simp [stray?]

theorem stray?_eq_some_iff : stray? gaps text = some c ↔
    ¬ Fits gaps c ∧ ∃ before after, text = before ++ c :: after ∧ ∀ d ∈ before, Fits gaps d := by
  simp [stray?, List.find?_eq_some_iff_append]

theorem readMoves_of_stray (stray : stray? separators text = some c) :
    readMoves text = .error (.invalidMoves ("unexpected " ++ Text.quotedChar (lowered c))) := by
  obtain ⟨unfit, before, after, rfl, fits⟩ := stray?_eq_some_iff.mp stray
  rw [readMoves_append fits, readMoves_cons_of_not_fits unfit]
  rfl

theorem take_script (moves : List Direction) (n : Nat) :
    (MoveSource.script moves).take n = (List.range n).map fun i => moves[i]? := by
  induction n generalizing moves with
  | zero => rfl
  | succ n ih =>
    rw [MoveSource.take, List.range_succ_eq_map, List.map_cons, List.map_map]
    cases moves with
    | nil => simp [MoveSource.next, ih, Function.comp_def]
    | cons d moves => simp [MoveSource.next, ih, Function.comp_def]

section

variable {script : String}

theorem scripted_of_fits (fits : ∀ c ∈ script.toList, Fits separators c) :
    MoveSource.scripted script = .ok (.script (meant script.toList)) := by
  rw [MoveSource.scripted, readMoves_of_fits fits]
  rfl

theorem scripted_of_stray (stray : stray? separators script.toList = some c) :
    MoveSource.scripted script =
      .error (.invalidMoves ("unexpected " ++ Text.quotedChar (lowered c))) := by
  rw [MoveSource.scripted, readMoves_of_stray stray]
  rfl

theorem follows_of_fits {gaps text : List Char} (fits : ∀ c ∈ text, Fits gaps c) :
    Follows gaps text (.ok (.script (meant text))) where
  accepted := ⟨fun _ => fits, fun _ => ⟨_, rfl⟩⟩
  played := by
    rintro _ ⟨⟩ n
    exact take_script _ n
  refused c stray := nomatch (stray?_eq_none_iff.mpr fits).symm.trans stray

theorem follows_of_stray {gaps text : List Char} (stray : stray? gaps text = some c) :
    Follows gaps text (.error (.invalidMoves ("unexpected " ++ Text.quotedChar (lowered c)))) where
  accepted := ⟨nofun, fun fits => nomatch (stray?_eq_none_iff.mpr fits).symm.trans stray⟩
  played := nofun
  refused d first := by rw [Option.some.inj (stray.symm.trans first)]

theorem follows_separators (script : String) :
    Follows separators script.toList (MoveSource.scripted script) := by
  cases first : stray? separators script.toList with
  | none =>
    have fits := stray?_eq_none_iff.mp first
    rw [scripted_of_fits fits]
    exact follows_of_fits fits
  | some c =>
    rw [scripted_of_stray first]
    exact follows_of_stray first

theorem scripted_eq_ok {source : MoveSource} (accepted : MoveSource.scripted script = .ok source) :
    (∀ c ∈ script.toList, Fits separators c) ∧ source = .script (meant script.toList) := by
  have fits := (follows_separators script).accepted.mp ⟨source, accepted⟩
  exact ⟨fits, Except.ok.inj (accepted.symm.trans (scripted_of_fits fits))⟩

theorem scripted_append {first second : String} {m k : List Direction}
    (before : MoveSource.scripted first = .ok (.script m))
    (after : MoveSource.scripted second = .ok (.script k)) :
    MoveSource.scripted (first ++ second) = .ok (.script (m ++ k)) := by
  obtain ⟨fits, same⟩ := scripted_eq_ok before
  obtain ⟨fits', same'⟩ := scripted_eq_ok after
  obtain ⟨rfl⟩ := same
  obtain ⟨rfl⟩ := same'
  have all : ∀ c ∈ (first ++ second).toList, Fits separators c := by
    rw [String.toList_append]
    exact List.forall_mem_append.mpr ⟨fits, fits'⟩
  rw [scripted_of_fits all, String.toList_append, meant, List.filterMap_append]
  rfl

/-- What stands between moves, wherever it stands, changes nothing. -/
theorem scripted_gap (before after : String) {gap : String}
    (blank : ∀ c ∈ gap.toList, c ∈ separators) :
    MoveSource.scripted (before ++ gap ++ after) = MoveSource.scripted (before ++ after) := by
  have nothing : meant gap.toList = [] := by
    refine List.filterMap_eq_nil_iff.mpr fun c member => ?_
    have meaningless : separators.all fun c => (meaning? c).isNone := by decide
    exact Option.isNone_iff_eq_none.mp (List.all_eq_true.mp meaningless c (blank c member))
  have skipped (rest : List Char) : readMoves (gap.toList ++ rest) = readMoves rest := by
    rw [readMoves_append fun c member => .inr (blank c member), nothing]
    cases readMoves rest <;> rfl
  have read : readMoves (before.toList ++ (gap.toList ++ after.toList)) =
      readMoves (before.toList ++ after.toList) := by
    cases first : stray? separators before.toList with
    | none =>
      have fits := stray?_eq_none_iff.mp first
      rw [readMoves_append fits, skipped, readMoves_append fits]
    | some c =>
      have early (rest : List Char) : stray? separators (before.toList ++ rest) = some c := by
        rw [stray?, List.find?_append, ← stray?, first, Option.some_or]
      rw [readMoves_of_stray (early _), readMoves_of_stray (early _)]
  rw [MoveSource.scripted, MoveSource.scripted, String.toList_append, String.toList_append,
    String.toList_append, List.append_assoc, read]

end

theorem lt_of_toDigits {n : Nat} {c : Char} (one : Nat.toDigits 16 n = [c]) : n < 16 := by
  refine Nat.lt_of_not_le fun more => ?_
  rw [Nat.toDigits_of_base_le (by decide) more] at one
  have length := congrArg List.length one
  simp [Nat.toDigits_ne_nil] at length

theorem forall_strayBlanks {P : Char → Prop} (vertical : P '\x0b') (feed : P '\x0c')
    (back : P '\x0d') : ∀ c ∈ strayBlanks, P c := by
  simp [strayBlanks, vertical, feed, back]

/-- No other character is quoted like a stray blank. -/
theorem eq_of_quotedChar (blank : c ∈ strayBlanks)
    (same : Text.quotedChar d = Text.quotedChar c) : d = c := by
  have spelled : (Text.spelled '\x27' d).toList = (Text.spelled '\x27' c).toList := by
    have quoted := congrArg String.toList same
    simpa [Text.quotedChar] using quoted
  have written : ∀ c ∈ strayBlanks, c.toNat < 16 ∧ (Text.spelled '\x27' c).toList =
      if c = '\x0d' then ['\x5c', 'r']
      else ['\x5c', 'u', '\x7b', Nat.digitChar c.toNat, '\x7d'] :=
    forall_strayBlanks (by decide) (by decide) (by decide)
  obtain ⟨small, written⟩ := written c blank
  rw [written] at spelled
  unfold Text.spelled at spelled
  by_cases back : c = '\x0d'
  · rw [if_pos back] at spelled
    split_ifs at spelled with nul tab line back' mark
    all_goals simp [Text.numbered] at spelled
    · exact back'.trans back.symm
    · subst spelled
      exact absurd mark (by decide)
  · rw [if_neg back] at spelled
    split_ifs at spelled with nul tab line back' mark
    all_goals simp [Text.numbered] at spelled
    have closed : Nat.toDigits 16 d.toNat ++ ['\x7d'] = [Nat.digitChar c.toNat] ++ ['\x7d'] := spelled
    have digit := List.append_cancel_right closed
    have less := lt_of_toDigits digit
    rw [Nat.toDigits_of_lt_base less, List.singleton_inj] at digit
    have one : ∀ m < 16, ∀ n < 16, Nat.digitChar m = Nat.digitChar n → m = n := by decide
    exact Char.toNat_inj.mp (one _ less _ small digit)

theorem lowered_of_strayBlank : ∀ c, lowered c ∈ strayBlanks → lowered c = c :=
  forall_lowered (P := fun c small => small ∈ strayBlanks → small = c) (by decide) fun _ _ _ => rfl

theorem fits_blanks_iff :
    Fits (separators ++ strayBlanks) c ↔ Fits separators c ∨ c ∈ strayBlanks := by
  rw [Fits, Fits, List.mem_append, or_assoc]

/-- A script is read as if every blank could stand between moves, unless the first character that
is refused is a stray blank. -/
theorem follows_blanks_iff (script : String) :
    Follows (separators ++ strayBlanks) script.toList (MoveSource.scripted script) ↔
      ∀ c, stray? separators script.toList = some c → c ∉ strayBlanks := by
  constructor
  · intro follows c first blank
    have told := scripted_of_stray first
    cases second : stray? (separators ++ strayBlanks) script.toList with
    | none =>
      obtain ⟨source, accepted⟩ := follows.accepted.mpr (stray?_eq_none_iff.mp second)
      cases told.symm.trans accepted
    | some d =>
      have unfit := (stray?_eq_some_iff.mp second).1
      have same : Text.quotedChar (lowered d) = Text.quotedChar (lowered c) := by
        have named := (follows.refused d second).symm.trans told
        simpa [String.ext_iff] using named
      have still : ∀ c ∈ strayBlanks, lowered c = c := forall_strayBlanks rfl rfl rfl
      rw [still c blank] at same
      have small : lowered d ∈ strayBlanks := eq_of_quotedChar blank same ▸ blank
      rw [lowered_of_strayBlank d small] at small
      exact unfit (fits_blanks_iff.mpr (.inr small))
  · intro harmless
    cases first : stray? separators script.toList with
    | none =>
      have fits := stray?_eq_none_iff.mp first
      rw [scripted_of_fits fits]
      exact follows_of_fits fun c member => fits_blanks_iff.mpr (.inl (fits c member))
    | some c =>
      obtain ⟨unfit, before, after, parts, fits⟩ := stray?_eq_some_iff.mp first
      rw [scripted_of_stray first]
      have unfit' : ¬ Fits (separators ++ strayBlanks) c := fun fits =>
        (fits_blanks_iff.mp fits).elim unfit (harmless c first)
      exact follows_of_stray (stray?_eq_some_iff.mpr ⟨unfit', before, after, parts, fun d member =>
        fits_blanks_iff.mpr (.inl (fits d member))⟩)

/-- A script says the moves that its characters mean, the separators between them aside, and a
refusal names the first character that is neither. If all blanks of ASCII are to be separators, then
the scripts that are not read as they should be are just those in which a vertical tab, a form feed
or a carriage return is the first to be refused. Scripts one after the other say their moves one
after the other, and separators change nothing. -/
theorem scripts_are_read_but_for_stray_blanks (script : String) :
    Follows separators script.toList (MoveSource.scripted script) ∧
      (Follows (separators ++ strayBlanks) script.toList (MoveSource.scripted script) ↔
        ∀ c, stray? separators script.toList = some c → c ∉ strayBlanks) ∧
      (∀ next m k, MoveSource.scripted script = .ok (.script m) →
        MoveSource.scripted next = .ok (.script k) →
          MoveSource.scripted (script ++ next) = .ok (.script (m ++ k))) ∧
      ∀ gap next : String, (∀ c ∈ gap.toList, c ∈ separators) →
        MoveSource.scripted (script ++ gap ++ next) = MoveSource.scripted (script ++ next) :=
  ⟨follows_separators script, follows_blanks_iff script, fun _ _ _ => scripted_append,
    fun _ next blank => scripted_gap script next blank⟩

/-- A line end of two characters is refused for the first of them, though both are blanks. -/
theorem line_end_is_refused :
    ¬ Follows (separators ++ strayBlanks) "u\x0d\n".toList (MoveSource.scripted "u\x0d\n") := by
  intro follows
  obtain ⟨source, accepted⟩ := follows.accepted.mpr (stray?_eq_none_iff.mp (by decide))
  have refused : MoveSource.scripted "u\x0d\n" =
      .error (.invalidMoves ("unexpected " ++ Text.quotedChar (lowered '\x0d'))) :=
    scripted_of_stray (by decide)
  cases refused.symm.trans accepted

end TileClient.Input.Script
