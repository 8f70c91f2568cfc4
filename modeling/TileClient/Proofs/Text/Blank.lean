import Mathlib.Data.List.DropRight
import TileClient.Text.Blank

/-! What is left of a text without the blanks at its two ends. -/
namespace TileClient.Text

/-- What stands between blanks at the two ends of a text, and has none at its own ends. -/
structure Trimmed (text core : List Char) : Prop where
  between : ∃ before after, text = before ++ (core ++ after) ∧
    (∀ c ∈ before, isBlank c = true) ∧ ∀ c ∈ after, isBlank c = true
  first : ∀ c, core.head? = some c → isBlank c = false
  last : ∀ c, core.getLast? = some c → isBlank c = false

variable {text core : List Char}

theorem trimStart_append {before : List Char} (blank : ∀ c ∈ before, isBlank c = true)
    (text : List Char) : trimStart (before ++ text) = trimStart text :=
  List.dropWhile_append_of_pos blank

theorem trimEnd_append {after : List Char} (text : List Char)
    (blank : ∀ c ∈ after, isBlank c = true) : trimEnd (text ++ after) = trimEnd text := by
  rw [trimEnd, trimEnd, List.reverse_append, List.dropWhile_append_of_pos fun c member =>
    blank c (List.mem_reverse.mp member)]

theorem trimStart_of_head (first : ∀ c, text.head? = some c → isBlank c = false) :
    trimStart text = text := by
  cases text with
  | nil => rfl
  | cons c rest => exact List.dropWhile_cons_of_neg (by simp [first c rfl])

theorem trimEnd_of_last (last : ∀ c, text.getLast? = some c → isBlank c = false) :
    trimEnd text = text := by
  refine List.rdropWhile_eq_self_iff.mpr fun some => ?_
  simp [last _ (List.getLast?_eq_some_getLast some)]

theorem Trimmed.trim_eq (h : Trimmed text core) : trim text = core := by
  obtain ⟨before, after, rfl, blank, blank'⟩ := h.between
  rw [trim, trimStart_append blank]
  cases core with
  | nil =>
    have nothing : trimStart ([] ++ after) = [] := List.dropWhile_eq_nil_iff.mpr blank'
    rw [nothing]
    rfl
  | cons c rest =>
    have stays : trimStart (c :: rest ++ after) = c :: rest ++ after :=
      trimStart_of_head fun d same => h.first d same
    rw [stays, trimEnd_append _ blank', trimEnd_of_last h.last]

theorem trimmed_trim (text : List Char) : Trimmed text (trim text) := by
  have kept : trim text ++ (trimStart text).rtakeWhile isBlank = trimStart text :=
    List.rdropWhile_append_rtakeWhile ..
  refine ⟨⟨text.takeWhile isBlank, (trimStart text).rtakeWhile isBlank, ?_, fun c =>
    List.mem_takeWhile_imp, fun c => List.mem_rtakeWhile_imp⟩, fun c first => ?_, fun c last => ?_⟩
  · rw [kept]
    exact (List.takeWhile_append_dropWhile ..).symm
  · have head : (trimStart text).head? = some c := by
      rw [← kept, List.head?_append, first, Option.some_or]
    have dropped := List.head?_dropWhile_not isBlank text
    rw [← trimStart, head] at dropped
    exact dropped
  · rw [← List.getLast_of_getLast?_eq_some last]
    exact Bool.eq_false_iff.mpr (List.rdropWhile_last_not isBlank _ _)

theorem trim_eq_iff : trim text = core ↔ Trimmed text core :=
  ⟨fun same => same ▸ trimmed_trim text, Trimmed.trim_eq⟩

end TileClient.Text
