import TileClient.Endpoint
import TileClient.Proofs.Text.Blank
import TileClient.Proofs.Text.Numeral
import TileClient.Proofs.Wire.RoundTrip

/-! How an endpoint may be written, and which endpoints are read back from their own text. A host may
hold whatever it likes, colons and blanks too, as long as there is something of it and it does not
begin with a blank. -/
namespace TileClient.Endpoint
open Text

variable {e : Endpoint} {text : List Char}

/-- A text is an endpoint in writing: a host, a colon and a port. -/
def Spelled (text : List Char) (e : Endpoint) : Prop :=
  ∃ port, text = e.host.toList ++ ':' :: port ∧ ':' ∉ port ∧ e.host ≠ "" ∧
    Numeral port e.port.toNat

/-- The host has a first character, and that is no blank. -/
def Legible (e : Endpoint) : Prop :=
  e.host ≠ "" ∧ ∀ c, e.host.toList.head? = some c → isBlank c = false

instance (e : Endpoint) : Decidable e.Legible :=
  decidable_of_iff (e.host ≠ "" ∧ e.host.toList.head?.all (!isBlank ·)) <| by
    unfold Legible
    cases e.host.toList.head? <;> simp

theorem port?_eq_some_iff {port : UInt16} :
    port? text = some port ↔ Numeral text port.toNat := by
  rw [port?, Option.map_eq_some_iff]
  constructor
  · rintro ⟨n, read, rfl⟩
    obtain ⟨written, le⟩ := numeral?_eq_some_iff.mp read
    rwa [UInt16.toNat_ofNat_of_lt' (Nat.lt_succ_of_le le)]
  · intro written
    refine ⟨port.toNat, numeral?_eq_some_iff.mpr ⟨written, ?_⟩, UInt16.ofNat_toNat⟩
    exact Nat.le_of_lt_succ port.toNat_lt

theorem ofTrimmed?_eq_some_iff : ofTrimmed? text = some e ↔ Spelled text e := by
  obtain ⟨host, port⟩ := e
  rw [ofTrimmed?, Option.bind_eq_bind, Option.bind_eq_some_iff]
  constructor
  · rintro ⟨⟨before, after⟩, split, read⟩
    obtain ⟨rfl, last⟩ := splitAtLast?_eq_some_iff.mp split
    cases before with
    | nil => cases read
    | cons c before =>
      obtain ⟨_, found, same⟩ := Option.bind_eq_some_iff.mp read
      cases same
      refine ⟨after, by simp, last, ?_, port?_eq_some_iff.mp found⟩
      exact mt String.ofList_eq_empty_iff.mp (List.cons_ne_nil _ _)
  · rintro ⟨after, rfl, last, filled, written⟩
    refine ⟨(host.toList, after), splitAtLast?_eq_some_iff.mpr ⟨rfl, last⟩, ?_⟩
    have some : host.toList.isEmpty = false := by
      simpa using filled
    simp [some, port?_eq_some_iff.mpr written]

theorem parse_eq_ok_iff {t : String} :
    parse t = .ok e ↔ ∃ core, Trimmed t.toList core ∧ Spelled core e := by
  have read : parse t = .ok e ↔ ofTrimmed? (trim t.toList) = some e := by
    unfold parse
    cases ofTrimmed? (trim t.toList) <;> simp
  rw [read, ofTrimmed?_eq_some_iff]
  simp only [← trim_eq_iff, exists_eq_left']

theorem parse_eq_error {t : String} {v : Violation} (refused : parse t = .error v) :
    v = .endpoint t := by
  unfold parse at refused
  split at refused
  · cases refused
  · exact (Except.error.inj refused).symm

theorem isBlank_of_isDigit {c : Char} (digit : c.isDigit = true) : isBlank c = false := by
  have bounds : 48 ≤ c.toNat ∧ c.toNat ≤ 57 := by
    simpa [Char.isDigit, UInt32.le_iff_toNat_le] using digit
  simp [isBlank, blankRanges]
  omega

theorem Spelled.last {c : Char} (h : Spelled text e) (last : text.getLast? = some c) :
    isBlank c = false := by
  obtain ⟨port, rfl, -, -, written⟩ := h
  obtain ⟨d, rest, rfl⟩ := List.exists_cons_of_ne_nil written.ne_nil
  refine isBlank_of_isDigit (written.isDigit_of_last ?_)
  simpa [List.getLast?_append] using last

theorem Spelled.head? (h : Spelled text e) : text.head? = e.host.toList.head? := by
  obtain ⟨port, rfl, -, filled, -⟩ := h
  obtain ⟨c, rest, same⟩ := List.exists_cons_of_ne_nil (mt String.toList_eq_nil_iff.mp filled)
  rw [same, List.cons_append, List.head?_cons, List.head?_cons]

theorem spelled_text (filled : e.host ≠ "") : Spelled e.text.toList e := by
  refine ⟨Nat.toDigits 10 e.port.toNat, by simp [Endpoint.text], fun member => ?_, filled,
    numeral_decimal _⟩
  exact absurd (isDigit_of_mem_decimal member) (by decide)

/-- Nothing that is read can begin with a blank: it would have been dropped before. -/
theorem legible_of_parse {t : String} (read : parse t = .ok e) : e.Legible := by
  obtain ⟨core, trimmed, spelled⟩ := parse_eq_ok_iff.mp read
  have filled : e.host ≠ "" := by
    obtain ⟨_, _, _, filled, _⟩ := spelled
    exact filled
  exact ⟨filled, fun c first => trimmed.first c (spelled.head?.trans first)⟩

theorem Legible.parse_text (h : e.Legible) : parse e.text = .ok e := by
  have spelled := spelled_text h.1
  refine parse_eq_ok_iff.mpr ⟨_, ⟨⟨[], [], by simp, nofun, nofun⟩, fun c first => ?_, fun c =>
    spelled.last⟩, spelled⟩
  exact h.2 c (spelled.head?.symm.trans first)

theorem parse_text_iff : parse e.text = .ok e ↔ e.Legible :=
  ⟨legible_of_parse, Legible.parse_text⟩

theorem Legible.assigned (h : e.Legible) :
    Wire.Reply.assigned (Wire.Reply.encode ⟨"OK", e.text⟩) = .ok e := by
  have ready : Wire.Reply.isReady ⟨"OK", e.text⟩ = true := rfl
  simp [Wire.Reply.assigned, Wire.Reply.decode?_encode, ready, h.parse_text]

/-- What is an endpoint in writing, blanks around it aside, is read as that endpoint, and nothing
else is read; a refusal quotes the whole text. The endpoints that are read back from their own text
are those with a host that does not begin with a blank, and every endpoint that was read is one of
them; a directory can assign each of them. -/
theorem text_grammar_and_round_trip :
    (∀ t e, parse t = .ok e ↔ ∃ core, Trimmed t.toList core ∧ Spelled core e) ∧
      (∀ t v, parse t = .error v →
        v = .endpoint t ∧ v.message = "invalid host:port " ++ quoted t) ∧
      (∀ e, parse e.text = .ok e ↔ e.Legible) ∧
      (∀ t e, parse t = .ok e → parse e.text = .ok e) ∧
      ∀ e, e.Legible → Wire.Reply.assigned (Wire.Reply.encode ⟨"OK", e.text⟩) = .ok e := by
  refine ⟨fun t e => parse_eq_ok_iff, fun t v refused => ?_, fun e => parse_text_iff,
    fun t e read => (legible_of_parse read).parse_text, fun e legible => legible.assigned⟩
  obtain rfl := parse_eq_error refused
  exact ⟨rfl, rfl⟩

/-- A colon and a blank belong to the host; a sign and zeros before the port are lost. -/
example : parse "\t[::1] :+0080 " = .ok ⟨"[::1] ", 80⟩ ∧
    Endpoint.text ⟨"[::1] ", 80⟩ = "[::1] :80" := by
  decide

end TileClient.Endpoint
