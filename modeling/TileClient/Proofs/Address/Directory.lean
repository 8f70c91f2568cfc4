import Mathlib.Data.List.TakeWhile
import TileClient.DirectoryAddress
import TileClient.Proofs.Text.Numeral

/-! How the address of a directory may be written, and the one spelling that each address has as a
URL: its scheme, its authority and its path are cut apart there just where they were joined. -/
namespace TileClient.DirectoryAddress
open Text

variable {a : DirectoryAddress} {text rest : List Char}

/-- What is left of a text without one scheme at its start. -/
inductive Bare : List Char → List Char → Prop
  | scheme (rest : List Char) : Bare (scheme.toList ++ rest) rest
  | plain {text : List Char} (other : ¬ scheme.toList <+: text) : Bare text text

/-- What names a host: the host alone, or the host and a port after the last colon. -/
inductive Authority : List Char → Prop
  | host {host : List Char} (filled : host ≠ []) (plain : ':' ∉ host) : Authority host
  | port {host port : List Char} {n : Nat} (filled : host ≠ []) (last : ':' ∉ port)
    (written : Numeral port n) (small : n ≤ 65535) : Authority (host ++ ':' :: port)

/-- The path that a text asks for by all that stands from its first slash on, if there is one. -/
inductive Path : List Char → List Char → Prop
  | root : Path [] "/".toList
  | given (rest : List Char) : Path ('/' :: rest) ('/' :: rest)

/-- A text is an address in writing: perhaps a scheme, an authority without slashes, and perhaps a
path. -/
structure Spelled (text : List Char) (a : DirectoryAddress) : Prop where
  parts : ∃ tail, Bare text (a.authority.toList ++ tail) ∧ Path tail a.path.toList
  authority : Authority a.authority.toList
  closed : '/' ∉ a.authority.toList

theorem dropScheme_eq_iff : dropScheme text = rest ↔ Bare text rest := by
  have cut (rest : List Char) : dropScheme (scheme.toList ++ rest) = rest := by
    rw [dropScheme, if_pos (by simp), ← String.length_toList, List.drop_left]
  constructor
  · rintro rfl
    by_cases scheme : scheme.toList <+: text
    · obtain ⟨rest, rfl⟩ := scheme
      rw [cut]
      exact .scheme rest
    · rw [dropScheme, if_neg (by simpa using scheme)]
      exact .plain scheme
  · intro bare
    cases bare with
    | scheme => exact cut rest
    | plain other => rw [dropScheme, if_neg (by simpa using other)]

theorem isAuthority_iff : isAuthority text = true ↔ Authority text := by
  cases split : splitAtLast? ':' text with
  | none =>
    have plain := splitAtLast?_eq_none_iff.mp split
    rw [isAuthority, split]
    constructor
    · intro filled
      exact .host (by simpa using filled) plain
    · intro authority
      cases authority with
      | host filled _ => simpa using filled
      | port _ _ _ _ => exact absurd (by simp) plain
  | some parts =>
    obtain ⟨host, port⟩ := parts
    obtain ⟨rfl, last⟩ := splitAtLast?_eq_some_iff.mp split
    have read : (Endpoint.port? port).isSome = true ↔ ∃ n, Numeral port n ∧ n ≤ 65535 := by
      rw [Endpoint.port?, Option.isSome_map, Option.isSome_iff_exists]
      simp only [numeral?_eq_some_iff]
    rw [isAuthority, split]
    simp only [Bool.and_eq_true, Bool.not_eq_true', List.isEmpty_eq_false_iff, read]
    constructor
    · rintro ⟨filled, n, written, small⟩
      exact .port filled last written small
    · intro authority
      generalize whole : host ++ ':' :: port = text at authority
      cases authority with
      | host _ plain => exact absurd (by simp [← whole]) plain
      | @port host' port' n filled last' written small =>
        have same := split.symm.trans (whole ▸ splitAtLast?_append host' last')
        cases same
        exact ⟨filled, n, written, small⟩

/-- A text is cut before the first mark in it. -/
theorem cutBefore_eq_iff {mark : Char} {before after : List Char} :
    cutBefore mark text = (before, after) ↔
      text = before ++ after ∧ mark ∉ before ∧ ∀ c, after.head? = some c → c = mark := by
  rw [cutBefore, Prod.mk.injEq]
  constructor
  · rintro ⟨rfl, rfl⟩
    refine ⟨List.takeWhile_append_dropWhile.symm, fun member => ?_, fun c first => ?_⟩
    · have passed := List.mem_takeWhile_imp member
      simp at passed
    · have stopped := List.head?_dropWhile_not (· != mark) text
      rw [first] at stopped
      simpa using stopped
  · rintro ⟨rfl, free, first⟩
    have passed : ∀ c ∈ before, (c != mark) = true := fun c member => by
      rw [bne_iff_ne]
      rintro rfl
      exact free member
    rw [List.takeWhile_append_of_pos passed, List.dropWhile_append_of_pos passed]
    cases after with
    | nil => simp
    | cons c after =>
      obtain rfl := first c rfl
      simp

theorem Path.first {path tail : List Char} (h : Path tail path) :
    ∀ c, tail.head? = some c → c = '/' := by
  cases h with
  | root => exact nofun
  | given rest =>
    rintro _ ⟨⟩
    rfl

theorem Path.head? {path tail : List Char} (h : Path tail path) : path.head? = some '/' := by
  cases h <;> rfl

theorem Path.toList_eq {path tail : List Char} (h : Path tail path) :
    (if tail.isEmpty then "/" else String.ofList tail).toList = path := by
  cases h with
  | root => rfl
  | given rest => simp

theorem parse_eq_ok_iff {t : String} : parse t = .ok a ↔ Spelled t.toList a := by
  obtain ⟨authority, path⟩ := a
  constructor
  · intro read
    unfold parse at read
    cases parts : cutBefore '/' (dropScheme t.toList) with
    | mk host tail =>
      obtain ⟨whole, closed, first⟩ := cutBefore_eq_iff.mp parts
      rw [parts] at read
      dsimp only at read
      split at read
      · rename_i named
        obtain ⟨rfl, rfl⟩ := mk.inj (Except.ok.inj read)
        refine ⟨⟨tail, ?_, ?_⟩, ?_, ?_⟩
        · rw [String.toList_ofList, ← whole]
          exact dropScheme_eq_iff.mp rfl
        · cases tail with
          | nil =>
            rw [List.isEmpty_nil, if_pos rfl]
            exact .root
          | cons c tail =>
            obtain rfl := first c rfl
            rw [List.isEmpty_cons, if_neg Bool.false_ne_true, String.toList_ofList]
            exact .given tail
        · rw [String.toList_ofList]
          exact isAuthority_iff.mp named
        · rwa [String.toList_ofList]
      · cases read
  · rintro ⟨⟨tail, bare, asked⟩, named, closed⟩
    have parts : cutBefore '/' (dropScheme t.toList) = (authority.toList, tail) := by
      rw [dropScheme_eq_iff.mpr bare]
      exact cutBefore_eq_iff.mpr ⟨rfl, closed, asked.first⟩
    have same := String.toList_inj.mp asked.toList_eq
    unfold parse
    rw [parts]
    dsimp only
    rw [if_pos (isAuthority_iff.mpr named), same, String.ofList_toList]

theorem parse_eq_error {t : String} {fault : Fault} (refused : parse t = .error fault) :
    fault = .invalidAddress t := by
  unfold parse at refused
  dsimp only at refused
  split at refused
  · cases refused
  · exact (Except.error.inj refused).symm

theorem bare_scheme_iff : Bare (scheme.toList ++ text) rest ↔ text = rest := by
  have cut := dropScheme_eq_iff.mpr (Bare.scheme text)
  rw [← dropScheme_eq_iff, cut]

theorem bare_iff (other : ¬ scheme.toList <+: text) : Bare text rest ↔ text = rest := by
  have whole := dropScheme_eq_iff.mpr (Bare.plain other)
  rw [← dropScheme_eq_iff, whole]

theorem Spelled.url (h : Spelled text a) : Spelled a.url.toList a := by
  obtain ⟨⟨tail, -, asked⟩, named, closed⟩ := h
  have path : Path a.path.toList a.path.toList := by
    generalize a.path.toList = path at asked
    cases asked with
    | root => exact .given []
    | given rest => exact .given rest
  have parts : a.url.toList = scheme.toList ++ (a.authority.toList ++ a.path.toList) := by
    rw [DirectoryAddress.url, String.toList_append, String.toList_append, List.append_assoc]
  refine ⟨⟨_, ?_, path⟩, named, closed⟩
  rw [parts]
  exact .scheme _

theorem spelled_scheme_iff (other : ¬ scheme.toList <+: text) :
    Spelled (scheme.toList ++ text) a ↔ Spelled text a := by
  have same (rest : List Char) : Bare (scheme.toList ++ text) rest ↔ Bare text rest :=
    bare_scheme_iff.trans (bare_iff other).symm
  constructor
  · rintro ⟨⟨tail, bare, asked⟩, named, closed⟩
    exact ⟨⟨tail, (same _).mp bare, asked⟩, named, closed⟩
  · rintro ⟨⟨tail, bare, asked⟩, named, closed⟩
    exact ⟨⟨tail, (same _).mpr bare, asked⟩, named, closed⟩

theorem path_slash_iff {path : List Char} : Path ['/'] path ↔ Path [] path := by
  constructor
  · intro asked
    cases asked
    exact .root
  · intro asked
    cases asked
    exact .given []

theorem not_scheme_of_count (few : text.count '/' ≤ 1) : ¬ scheme.toList <+: text := by
  intro begins
  have more : scheme.toList.count '/' ≤ text.count '/' := begins.sublist.count_le '/'
  have two : scheme.toList.count '/' = 2 := by decide
  omega

theorem spelled_slash_iff (free : '/' ∉ text) : Spelled (text ++ ['/']) a ↔ Spelled text a := by
  have none : text.count '/' = 0 := List.count_eq_zero.mpr free
  have bare (rest : List Char) : Bare text rest ↔ text = rest :=
    bare_iff (not_scheme_of_count (by omega))
  have bare' (rest : List Char) : Bare (text ++ ['/']) rest ↔ text ++ ['/'] = rest :=
    bare_iff (not_scheme_of_count (by simp [none]))
  have cut : cutBefore '/' (text ++ ['/']) = (text, ['/']) :=
    cutBefore_eq_iff.mpr ⟨rfl, free, by simp⟩
  constructor
  · rintro ⟨⟨tail, whole, asked⟩, named, closed⟩
    have cut' := cutBefore_eq_iff.mpr ⟨(bare' _).mp whole, closed, asked.first⟩
    obtain ⟨same, rfl⟩ := Prod.mk.inj (cut.symm.trans cut')
    refine ⟨⟨[], (bare _).mpr ?_, path_slash_iff.mp asked⟩, named, closed⟩
    rw [same, List.append_nil]
  · rintro ⟨⟨tail, whole, asked⟩, named, closed⟩
    have same := (bare _).mp whole
    cases tail with
    | nil =>
      refine ⟨⟨['/'], (bare' _).mpr ?_, path_slash_iff.mpr asked⟩, named, closed⟩
      rw [same, List.append_nil]
    | cons c tail =>
      obtain rfl := asked.first c rfl
      exact absurd (by simp [same]) free

/-- An address is what its spelling says, and nothing else is read; a refusal keeps the text as it
was given. An address that was read has a URL in which its parts stand as they were given, and is
read back from it. The scheme may be left out, and so may a slash that stands for the root. -/
theorem spellings_agree_on_one_url :
    (∀ t a, parse t = .ok a ↔ Spelled t.toList a) ∧
      (∀ t fault, parse t = .error fault → fault = .invalidAddress t) ∧
      (∀ t a, parse t = .ok a → a.url = "http://" ++ a.authority ++ a.path ∧
        a.path.toList.head? = some '/' ∧ parse a.url = .ok a) ∧
      (∀ x a, ¬ "http://".toList <+: x.toList → (parse ("http://" ++ x) = .ok a ↔ parse x = .ok a)) ∧
      ∀ x a, '/' ∉ x.toList → (parse (x ++ "/") = .ok a ↔ parse x = .ok a) := by
  refine ⟨fun t a => parse_eq_ok_iff, fun t fault => parse_eq_error, fun t a read => ?_,
    fun x a other => ?_, fun x a free => ?_⟩
  · have spelled := parse_eq_ok_iff.mp read
    obtain ⟨tail, -, asked⟩ := spelled.parts
    exact ⟨rfl, asked.head?, parse_eq_ok_iff.mpr spelled.url⟩
  · rw [parse_eq_ok_iff, parse_eq_ok_iff, String.toList_append]
    exact spelled_scheme_iff other
  · rw [parse_eq_ok_iff, parse_eq_ok_iff, String.toList_append]
    exact spelled_slash_iff free

/-- Only one scheme is dropped, and slashes after the first belong to the path. -/
example : (parse "http://http://h/").toOption = none ∧
    (parse "h//a").toOption.map url = some "http://h//a" := by
  decide

end TileClient.DirectoryAddress
