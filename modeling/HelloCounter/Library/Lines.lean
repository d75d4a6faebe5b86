import Mathlib.Data.List.Infix

/-! The lines of a text.  Each terminator ends a line, and what stands behind the last one, if
anything does, is a line of its own. -/

namespace Lines

variable {α : Type} (ends : α → Bool)

def lines : List α → List (List α)
  | [] => []
  | a :: text =>
    if ends a then [] :: lines text
    else match lines text with
      | [] => [[a]]
      | line :: rest => (a :: line) :: rest

/-- Every line of the text has its terminator. -/
def Terminated (text : List α) : Prop := ∀ a ∈ text.getLast?, ends a = true

/-- No terminator stands in the text. -/
def OneLine (text : List α) : Prop := ∀ a ∈ text, ends a = false

variable {ends}

theorem lines_last {line : List α} (oneLine : OneLine ends line) (hLine : line ≠ []) :
    lines ends line = [line] := by
  induction line with
  | nil => exact absurd rfl hLine
  | cons a line ih =>
    obtain ⟨ha, hRest⟩ := List.forall_mem_cons.mp oneLine
    rw [lines, if_neg (by simp [ha])]
    rcases eq_or_ne line [] with rfl | hNil
    · rfl
    · rw [ih hRest hNil]

theorem lines_line {line : List α} (oneLine : OneLine ends line) {e : α} (he : ends e = true)
    (text : List α) : lines ends (line ++ e :: text) = line :: lines ends text := by
  induction line with
  | nil => exact if_pos he
  | cons a line ih =>
    obtain ⟨ha, hRest⟩ := List.forall_mem_cons.mp oneLine
    rw [List.cons_append, lines, if_neg (by simp [ha]), ih hRest]

/-- A text is its first line with the terminator and the rest, or one line at most. -/
theorem split_first (ends : α → Bool) (text : List α) :
    OneLine ends text ∨ ∃ line e rest, OneLine ends line ∧ ends e = true ∧
      text = line ++ e :: rest := by
  induction text with
  | nil => exact .inl fun a ha => absurd ha List.not_mem_nil
  | cons a text ih =>
    cases ha : ends a with
    | true => exact .inr ⟨[], a, text, fun b hb => absurd hb List.not_mem_nil, ha, rfl⟩
    | false =>
      rcases ih with oneLine | ⟨line, e, rest, oneLine, he, rfl⟩
      · exact .inl (List.forall_mem_cons.mpr ⟨ha, oneLine⟩)
      · exact .inr ⟨a :: line, e, rest, List.forall_mem_cons.mpr ⟨ha, oneLine⟩, he, rfl⟩

theorem terminated_line {line rest : List α} {e : α} (he : ends e = true) :
    Terminated ends (line ++ e :: rest) ↔ Terminated ends rest := by
  unfold Terminated
  rw [List.getLast?_append, List.getLast?_cons]
  cases rest.getLast? <;> simp [he]

theorem OneLine.eq_nil {text : List α} (oneLine : OneLine ends text)
    (terminated : Terminated ends text) : text = [] := by
  by_contra hText
  have hLast := List.getLast?_eq_some_getLast hText
  have := terminated _ hLast
  rw [oneLine _ (List.getLast_mem hText)] at this
  cases this

theorem lines_append {text : List α} (terminated : Terminated ends text) (more : List α) :
    lines ends (text ++ more) = lines ends text ++ lines ends more := by
  rcases split_first ends text with oneLine | ⟨line, e, rest, oneLine, he, rfl⟩
  · rw [oneLine.eq_nil terminated]
    rfl
  · rw [List.append_assoc, List.cons_append, lines_line oneLine he, lines_line oneLine he,
      lines_append ((terminated_line he).mp terminated), List.cons_append]
termination_by text.length

theorem lines_append_single {line text : List α} (terminated : Terminated ends text)
    (oneLine : OneLine ends line) {e : α} (he : ends e = true) :
    lines ends (text ++ (line ++ [e])) = lines ends text ++ [line] := by
  rw [lines_append terminated, lines_line oneLine he]
  rfl

/-- A line that follows an unterminated one joins it. -/
theorem length_lines_joined {text line : List α} (isOpen : ¬Terminated ends text)
    (oneLine : OneLine ends line) {e : α} (he : ends e = true) :
    (lines ends (text ++ (line ++ [e]))).length = (lines ends text).length := by
  rcases split_first ends text with textLine | ⟨first, e', rest, firstLine, he', rfl⟩
  · have hText : text ≠ [] := by
      rintro rfl
      exact isOpen fun a ha => absurd ha (by simp)
    have joined : OneLine ends (text ++ line) := List.forall_mem_append.mpr ⟨textLine, oneLine⟩
    rw [← List.append_assoc, lines_line joined he, lines_last textLine hText]
    rfl
  · have hRest : ¬Terminated ends rest := fun h => isOpen ((terminated_line he').mpr h)
    rw [List.append_assoc, List.cons_append, lines_line firstLine he', lines_line firstLine he',
      List.length_cons, List.length_cons, length_lines_joined hRest oneLine he]
termination_by text.length

/-- A line stands at the start or behind a terminator, and its own terminator or the end of the text
follows it. -/
theorem exists_of_mem_lines {line text : List α} (hLine : line ∈ lines ends text) :
    OneLine ends line ∧ ∃ before after, text = before ++ (line ++ after) ∧
      Terminated ends before ∧ (line = [] → after ≠ []) ∧ ∀ a ∈ after.head?, ends a = true := by
  rcases split_first ends text with textLine | ⟨first, e, rest, firstLine, he, rfl⟩
  · rcases eq_or_ne text [] with rfl | hText
    · cases hLine
    · rw [lines_last textLine hText, List.mem_singleton] at hLine
      subst hLine
      exact ⟨textLine, [], [], by simp, by simp [Terminated], fun h => absurd h hText, by simp⟩
  · rw [lines_line firstLine he] at hLine
    rcases List.mem_cons.mp hLine with rfl | hRest
    · exact ⟨firstLine, [], e :: rest, rfl, by simp [Terminated], by simp, by simpa using he⟩
    · obtain ⟨lineLine, before, after, rfl, hBefore, hAfter⟩ := exists_of_mem_lines hRest
      exact ⟨lineLine, first ++ e :: before, after, by simp, (terminated_line he).mpr hBefore,
        hAfter⟩
termination_by text.length

theorem mem_lines {before line after : List α} (hBefore : Terminated ends before)
    (oneLine : OneLine ends line) (hNil : line = [] → after ≠ [])
    (hAfter : ∀ a ∈ after.head?, ends a = true) :
    line ∈ lines ends (before ++ (line ++ after)) := by
  rw [lines_append hBefore]
  apply List.mem_append_right
  rcases after with _ | ⟨e, after⟩
  · rw [List.append_nil, lines_last oneLine fun h => hNil h rfl]
    exact List.mem_singleton_self line
  · rw [lines_line oneLine (hAfter e rfl)]
    exact List.mem_cons_self

/-- More terminators do not take away a line that they do not split. -/
theorem mem_lines_of_finer {ends' : α → Bool} (finer : ∀ a, ends a = true → ends' a = true)
    {line text : List α} (hLine : line ∈ lines ends text) (oneLine : OneLine ends' line) :
    line ∈ lines ends' text := by
  obtain ⟨-, before, after, rfl, hBefore, hNil, hAfter⟩ := exists_of_mem_lines hLine
  exact mem_lines (fun a ha => finer a (hBefore a ha)) oneLine hNil
    fun a ha => finer a (hAfter a ha)

end Lines
