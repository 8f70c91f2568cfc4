/-! Cutting a text at a mark. -/
namespace TileClient.Text

/-- The parts before and after the last occurrence of a mark; `none` without one. -/
def splitAtLast? (mark : Char) : List Char → Option (List Char × List Char)
  | [] => none
  | c :: rest =>
    match splitAtLast? mark rest with
    | some (before, after) => some (c :: before, after)
    | none => if c = mark then some ([], rest) else none

/-- The text before the first occurrence of a mark, and the text from it on. -/
def cutBefore (mark : Char) (text : List Char) : List Char × List Char :=
  (text.takeWhile (· != mark), text.dropWhile (· != mark))

theorem splitAtLast?_eq_none_iff {mark : Char} {text : List Char} :
    splitAtLast? mark text = none ↔ mark ∉ text := by
  induction text with
  | nil => simp [splitAtLast?]
  | cons c rest ih =>
    rw [splitAtLast?]
    cases h : splitAtLast? mark rest with
    | some parts => simp [h] at ih; simp [ih]
    | none =>
      have : mark ∉ rest := ih.1 h
      by_cases hc : c = mark
      · simp [hc]
      · simp [hc, this, Ne.symm hc]

theorem append_of_splitAtLast? {mark : Char} {text before after : List Char}
    (h : splitAtLast? mark text = some (before, after)) :
    text = before ++ mark :: after ∧ mark ∉ after := by
  induction text generalizing before with
  | nil => simp [splitAtLast?] at h
  | cons c rest ih =>
    rw [splitAtLast?] at h
    cases hr : splitAtLast? mark rest with
    | some parts =>
      simp only [hr, Option.some.injEq, Prod.mk.injEq] at h
      obtain ⟨rfl, rfl⟩ := h
      have := ih hr
      exact ⟨by simp [this.1], this.2⟩
    | none =>
      rw [hr] at h
      by_cases hc : c = mark
      · simp only [hc, ↓reduceIte, Option.some.injEq, Prod.mk.injEq] at h
        obtain ⟨rfl, rfl⟩ := h
        exact ⟨by simp [hc], splitAtLast?_eq_none_iff.1 hr⟩
      · simp [hc] at h

theorem splitAtLast?_append {mark : Char} (before : List Char) {after : List Char}
    (last : mark ∉ after) : splitAtLast? mark (before ++ mark :: after) = some (before, after) := by
  induction before with
  | nil => rw [List.nil_append, splitAtLast?, splitAtLast?_eq_none_iff.2 last, if_pos rfl]
  | cons c before ih => rw [List.cons_append, splitAtLast?, ih]

theorem splitAtLast?_eq_some_iff {mark : Char} {text before after : List Char} :
    splitAtLast? mark text = some (before, after) ↔
      text = before ++ mark :: after ∧ mark ∉ after := by
  refine ⟨append_of_splitAtLast?, ?_⟩
  rintro ⟨rfl, last⟩
  exact splitAtLast?_append before last

end TileClient.Text
