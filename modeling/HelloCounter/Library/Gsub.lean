import Mathlib.Data.List.Infix

/-! Replacing every occurrence of a literal pattern, from the left and without overlaps.  A symbol
outside the pattern separates what is before it from what is after it. -/

namespace Gsub

variable {α : Type} [DecidableEq α]

/-- `text` without its first `skip` symbols, with the occurrences of `pattern` in it replaced. -/
def gsubFrom (pattern replacement : List α) : (skip : Nat) → (text : List α) → List α
  | _, [] => []
  | skip + 1, _ :: text => gsubFrom pattern replacement skip text
  | 0, c :: text =>
    if pattern <+: c :: text then
      replacement ++ gsubFrom pattern replacement (pattern.length - 1) text
    else c :: gsubFrom pattern replacement 0 text

def gsub (pattern replacement text : List α) : List α := gsubFrom pattern replacement 0 text

variable {pattern replacement : List α}

@[simp] theorem gsub_nil : gsub pattern replacement [] = [] := rfl

theorem gsubFrom_skip (prefix' text : List α) :
    gsubFrom pattern replacement prefix'.length (prefix' ++ text) =
      gsub pattern replacement text := by
  induction prefix' with
  | nil => rfl
  | cons c prefix' ih => exact ih

theorem gsub_match (hPattern : pattern ≠ []) (text : List α) :
    gsub pattern replacement (pattern ++ text) = replacement ++ gsub pattern replacement text := by
  obtain ⟨c, tail, rfl⟩ := List.exists_cons_of_ne_nil hPattern
  rw [gsub, List.cons_append, gsubFrom, if_pos ⟨text, rfl⟩, List.length_cons,
    Nat.add_sub_cancel, gsubFrom_skip]

theorem gsub_cons {c : α} {text : List α} (h : ¬pattern <+: c :: text) :
    gsub pattern replacement (c :: text) = c :: gsub pattern replacement text := by
  rw [gsub, gsubFrom, if_neg h]
  rfl

theorem gsub_absent {text : List α} (h : ¬pattern <:+: text) :
    gsub pattern replacement text = text := by
  induction text with
  | nil => rfl
  | cons c text ih =>
    rw [gsub_cons fun hPrefix => h hPrefix.isInfix,
      ih fun hInfix => h (hInfix.trans (List.suffix_cons c text).isInfix)]

theorem gsub_self (hPattern : pattern ≠ []) : gsub pattern replacement pattern = replacement := by
  have : gsub pattern replacement (pattern ++ []) = _ := gsub_match hPattern []
  rwa [List.append_nil, gsub_nil, List.append_nil] at this

omit [DecidableEq α] in
/-- A pattern before a separator lies before it as a whole. -/
theorem prefix_of_separated {c : α} (hc : c ∉ pattern) {before after : List α} :
    pattern <+: before ++ c :: after ↔ pattern <+: before := by
  constructor
  · intro h
    rcases List.prefix_or_prefix_of_prefix h (List.prefix_append before (c :: after)) with h' | h'
    · exact h'
    · obtain ⟨tail, rfl⟩ := h'
      have hTail := (List.prefix_append_right_inj before).mp h
      cases tail with
      | nil => exact (List.append_nil before).symm ▸ List.prefix_rfl
      | cons d tail =>
        obtain ⟨rfl, -⟩ := List.cons_prefix_cons.mp hTail
        simp at hc
  · exact fun h => h.trans (List.prefix_append _ _)

omit [DecidableEq α] in
/-- An occurrence of a pattern lies as a whole on one side of a separator. -/
theorem occurrence_of_separated {c : α} (hc : c ∉ pattern) {first second before after : List α}
    (h : first ++ c :: second = before ++ (pattern ++ after)) :
    (∃ rest, first = before ++ (pattern ++ rest) ∧ after = rest ++ c :: second) ∨
      ∃ rest, before = first ++ c :: rest ∧ second = rest ++ (pattern ++ after) := by
  -- A text behind part of the pattern does not start with the separator.
  have apart : ∀ part tail, pattern = part ++ tail → c :: second = tail ++ after →
      pattern = part ∧ after = c :: second := by
    rintro part (_ | ⟨d, tail⟩) hPattern hText
    · exact ⟨by rw [hPattern, List.append_nil], hText.symm⟩
    · obtain ⟨rfl, -⟩ := List.cons.inj hText
      exact absurd (by simp [hPattern]) hc
  rcases List.append_eq_append_iff.mp h with ⟨gap, hBefore, hText⟩ | ⟨gap, rfl, hText⟩
  · cases gap with
    | nil =>
      obtain ⟨hNil, rfl⟩ := apart [] pattern rfl hText
      exact .inl ⟨[], by simp [hBefore, hNil], rfl⟩
    | cons d gap =>
      obtain ⟨rfl, hSecond⟩ := List.cons.inj hText
      exact .inr ⟨gap, hBefore, hSecond⟩
  · rcases List.append_eq_append_iff.mp hText with ⟨tail, rfl, hAfter⟩ | ⟨tail, hPattern, hAfter⟩
    · exact .inl ⟨tail, rfl, hAfter⟩
    · obtain ⟨rfl, rfl⟩ := apart gap tail hPattern hAfter
      exact .inl ⟨[], by simp, rfl⟩

omit [DecidableEq α] in
theorem infix_of_separated {c : α} (hc : c ∉ pattern) {before after : List α}
    (h : pattern <:+: before ++ c :: after) : pattern <:+: before ∨ pattern <:+: after := by
  obtain ⟨first, last, hText⟩ := h
  rw [List.append_assoc] at hText
  rcases occurrence_of_separated hc hText.symm with ⟨rest, rfl, -⟩ | ⟨rest, -, rfl⟩
  · exact .inl ⟨first, rest, List.append_assoc ..⟩
  · exact .inr ⟨rest, last, List.append_assoc ..⟩

theorem gsubFrom_separated {c : α} (hc : c ∉ pattern) (hPattern : pattern ≠ [])
    {skip : Nat} {before : List α} (hSkip : skip ≤ before.length) (after : List α) :
    gsubFrom pattern replacement skip (before ++ c :: after) =
      gsubFrom pattern replacement skip before ++ c :: gsub pattern replacement after := by
  induction before generalizing skip with
  | nil =>
    obtain rfl : skip = 0 := by simpa using hSkip
    have hPrefix : ¬pattern <+: c :: after := by
      intro h
      have hNil : pattern <+: [] := (prefix_of_separated hc).mp h
      exact hPattern (List.prefix_nil.mp hNil)
    exact gsub_cons hPrefix
  | cons d before ih =>
    cases skip with
    | succ skip => exact ih (by simpa using hSkip)
    | zero =>
      rw [List.cons_append, gsubFrom, gsubFrom, ← List.cons_append]
      by_cases h : pattern <+: d :: before
      · rw [if_pos ((prefix_of_separated hc).mpr h), if_pos h, List.append_assoc]
        have hLength := h.length_le
        rw [List.length_cons] at hLength
        rw [ih (by omega)]
      · rw [if_neg fun h' => h ((prefix_of_separated hc).mp h'), if_neg h, ih (Nat.zero_le _)]
        rfl

theorem gsub_separated {c : α} (hc : c ∉ pattern) (hPattern : pattern ≠ [])
    (before after : List α) :
    gsub pattern replacement (before ++ c :: after) =
      gsub pattern replacement before ++ c :: gsub pattern replacement after :=
  gsubFrom_separated hc hPattern (Nat.zero_le _) after

theorem gsub_outside {block : List α} (hBlock : ∀ c ∈ block, c ∉ pattern) (hPattern : pattern ≠ [])
    (after : List α) :
    gsub pattern replacement (block ++ after) = block ++ gsub pattern replacement after := by
  induction block with
  | nil => rfl
  | cons c block ih =>
    obtain ⟨hc, hRest⟩ := List.forall_mem_cons.mp hBlock
    have hHead : gsub pattern replacement ([] ++ c :: (block ++ after)) = _ :=
      gsub_separated hc hPattern [] (block ++ after)
    rw [List.nil_append, gsub_nil, List.nil_append] at hHead
    rw [List.cons_append, hHead, ih hRest, List.cons_append]

theorem gsub_block {block : List α} (hNil : block ≠ []) (hBlock : ∀ c ∈ block, c ∉ pattern)
    (hPattern : pattern ≠ []) (before after : List α) :
    gsub pattern replacement (before ++ block ++ after) =
      gsub pattern replacement before ++ block ++ gsub pattern replacement after := by
  obtain ⟨c, block, rfl⟩ := List.exists_cons_of_ne_nil hNil
  obtain ⟨hc, hRest⟩ := List.forall_mem_cons.mp hBlock
  rw [List.append_assoc, List.cons_append, gsub_separated hc hPattern, gsub_outside hRest hPattern,
    List.append_assoc, List.cons_append]

/-- Of a text whose only occurrence of the pattern is its end, the end is replaced. -/
theorem gsub_last (hPattern : pattern ≠ []) {text : List α}
    (only : ∀ before after, text ++ pattern = before ++ (pattern ++ after) → after = []) :
    gsub pattern replacement (text ++ pattern) = text ++ replacement := by
  induction text with
  | nil => exact gsub_self hPattern
  | cons c text ih =>
    have hStart : ¬pattern <+: c :: (text ++ pattern) := by
      rintro ⟨after, hAfter⟩
      have hNil : after = [] := only [] after (by rw [List.nil_append, hAfter]; rfl)
      have hLength := congrArg List.length hAfter
      rw [hNil] at hLength
      simp at hLength
      omega
    rw [List.cons_append, gsub_cons hStart, ih, List.cons_append]
    intro before after hText
    exact only (c :: before) after (by rw [List.cons_append, hText, List.cons_append])

end Gsub
