import HelloCounter.Library.Gsub
import Mathlib.Data.List.Find

/-! Replacing the occurrences of several patterns, at once and one pattern after the other.  Both
agree on a text in which no occurrence touches another symbol that can stand in a pattern. -/

namespace Gsub

variable {α : Type} [DecidableEq α]

/-- A symbol that is kept, or an occurrence with its value. -/
inductive Piece (α : Type) where
  | symbol (a : α)
  | slot (pattern value : List α)

def Piece.source : Piece α → List α
  | symbol a => [a]
  | slot pattern _ => pattern

def Piece.target : Piece α → List α
  | symbol a => [a]
  | slot _ value => value

abbrev Subs (α : Type) := List (List α × List α)

/-- The pieces of `text` without its first `skip` symbols, from the left. -/
def scanFrom (subs : Subs α) : (skip : Nat) → (text : List α) → List (Piece α)
  | _, [] => []
  | skip + 1, _ :: text => scanFrom subs skip text
  | 0, c :: text =>
    match subs.find? fun sub => sub.1 <+: c :: text with
    | some sub => .slot sub.1 sub.2 :: scanFrom subs (sub.1.length - 1) text
    | none => .symbol c :: scanFrom subs 0 text

def scan (subs : Subs α) (text : List α) : List (Piece α) := scanFrom subs 0 text

/-- All occurrences replaced at once. -/
def replaceAll (subs : Subs α) (text : List α) : List α := (scan subs text).flatMap Piece.target

/-- One pattern replaced after the other. -/
def gsubAll (subs : Subs α) (text : List α) : List α :=
  subs.foldl (fun text sub => gsub sub.1 sub.2 text) text

/-- No pattern lies in another one or in a value. -/
structure Independent (subs : Subs α) : Prop where
  nonempty : ∀ sub ∈ subs, sub.1 ≠ []
  patterns : ∀ sub ∈ subs, ∀ other ∈ subs, sub.1 <:+: other.1 → sub = other
  values : ∀ sub ∈ subs, ∀ other ∈ subs, ¬sub.1 <:+: other.2

/-- The symbols beside an occurrence of a pattern are not word symbols. -/
def Delimited (isWord : α → Bool) (subs : Subs α) (text : List α) : Prop :=
  ∀ sub ∈ subs, ∀ before after, text = before ++ (sub.1 ++ after) →
    (∀ c ∈ before.getLast?, isWord c = false) ∧ ∀ c ∈ after.head?, isWord c = false

/-! ### The pieces of a text -/

section

variable {subs : Subs α} {sub : List α × List α}

theorem scanFrom_source (nonempty : ∀ sub ∈ subs, sub.1 ≠ []) (skip : Nat) (text : List α) :
    (scanFrom subs skip text).flatMap Piece.source = text.drop skip := by
  fun_induction scanFrom subs skip text with
  | case1 => simp
  | case2 skip c text ih => exact ih
  | case3 c text sub hFind ih =>
    have hPrefix : sub.1 <+: c :: text := by simpa using List.find?_some hFind
    obtain ⟨after, hAfter⟩ := hPrefix
    obtain ⟨d, tail, hSub⟩ :=
      List.exists_cons_of_ne_nil (nonempty sub (List.mem_of_find?_eq_some hFind))
    rw [hSub, List.cons_append] at hAfter
    obtain ⟨rfl, rfl⟩ := List.cons.inj hAfter
    rw [List.flatMap_cons, ih, hSub]
    simp [Piece.source]
  | case4 c text hFind ih =>
    rw [List.flatMap_cons, ih]
    rfl

theorem scan_source (nonempty : ∀ sub ∈ subs, sub.1 ≠ []) (text : List α) :
    (scan subs text).flatMap Piece.source = text :=
  scanFrom_source nonempty 0 text

theorem scanFrom_skip (before text : List α) :
    scanFrom subs before.length (before ++ text) = scan subs text := by
  induction before with
  | nil => rfl
  | cons c before ih => exact ih

theorem Independent.find?_eq (independent : Independent subs) (hSub : sub ∈ subs)
    (after : List α) : subs.find? (fun other => other.1 <+: sub.1 ++ after) = some sub := by
  have hOnly : ∀ other ∈ subs, other.1 <+: sub.1 ++ after → other = sub := by
    intro other hOther hPrefix
    rcases List.prefix_or_prefix_of_prefix hPrefix (List.prefix_append sub.1 after) with h | h
    · exact independent.patterns other hOther sub hSub h.isInfix
    · exact (independent.patterns sub hSub other hOther h.isInfix).symm
  cases hFind : subs.find? (fun other => other.1 <+: sub.1 ++ after) with
  | none => exact absurd (by simp) (List.find?_eq_none.mp hFind sub hSub)
  | some other =>
    have hPrefix : other.1 <+: sub.1 ++ after := by simpa using List.find?_some hFind
    rw [hOnly other (List.mem_of_find?_eq_some hFind) hPrefix]

theorem Independent.scan_match (independent : Independent subs) (hSub : sub ∈ subs)
    (after : List α) : scan subs (sub.1 ++ after) = .slot sub.1 sub.2 :: scan subs after := by
  have hFind := independent.find?_eq hSub after
  obtain ⟨c, tail, hCons⟩ := List.exists_cons_of_ne_nil (independent.nonempty sub hSub)
  rw [hCons, List.cons_append] at hFind ⊢
  rw [scan, scanFrom, hFind]
  show .slot sub.1 sub.2 :: scanFrom subs (sub.1.length - 1) (tail ++ after) = _
  rw [hCons, List.length_cons, Nat.add_sub_cancel, scanFrom_skip]

theorem scan_absent {text : List α} (absent : ∀ sub ∈ subs, ¬sub.1 <:+: text) :
    scan subs text = text.map .symbol := by
  induction text with
  | nil => rfl
  | cons c text ih =>
    have hFind : subs.find? (fun sub => sub.1 <+: c :: text) = none := by
      apply List.find?_eq_none.mpr
      intro sub hSub
      simpa using fun h : sub.1 <+: c :: text => absent sub hSub h.isInfix
    have hRest : scan subs text = text.map .symbol :=
      ih fun sub hSub h => absent sub hSub (h.trans (List.suffix_cons c text).isInfix)
    rw [scan, scanFrom, hFind]
    exact congrArg (.symbol c :: ·) hRest

theorem scanFrom_separated {c : α} (hc : ∀ sub ∈ subs, c ∉ sub.1)
    (nonempty : ∀ sub ∈ subs, sub.1 ≠ []) {skip : Nat} {before : List α}
    (hSkip : skip ≤ before.length) (after : List α) :
    scanFrom subs skip (before ++ c :: after) =
      scanFrom subs skip before ++ .symbol c :: scan subs after := by
  have hSame : ∀ before : List α, subs.find? (fun sub => sub.1 <+: before ++ c :: after) =
      subs.find? (fun sub => sub.1 <+: before) := by
    intro before
    apply List.find?_congr
    intro sub hSub
    simp [prefix_of_separated (hc sub hSub)]
  induction before generalizing skip with
  | nil =>
    obtain rfl : skip = 0 := by simpa using hSkip
    have hFind : subs.find? (fun sub => sub.1 <+: c :: after) = none := by
      rw [← List.nil_append (c :: after), hSame]
      apply List.find?_eq_none.mpr
      intro sub hSub
      simpa using nonempty sub hSub
    show scanFrom subs 0 (c :: after) = _
    simp only [scanFrom, hFind]
    rfl
  | cons d before ih =>
    cases skip with
    | succ skip => exact ih (by simpa using hSkip)
    | zero =>
      rw [List.cons_append, scanFrom, scanFrom, ← List.cons_append, hSame]
      cases hFind : subs.find? (fun sub => sub.1 <+: d :: before) with
      | none => exact congrArg (.symbol d :: ·) (ih (Nat.zero_le _))
      | some sub =>
        have hPrefix : sub.1 <+: d :: before := by simpa using List.find?_some hFind
        have hLength := hPrefix.length_le
        rw [List.length_cons] at hLength
        have hSkip : sub.1.length - 1 ≤ before.length := by omega
        exact congrArg (.slot sub.1 sub.2 :: ·) (ih hSkip)

theorem scan_separated {c : α} (hc : ∀ sub ∈ subs, c ∉ sub.1)
    (nonempty : ∀ sub ∈ subs, sub.1 ≠ []) (before after : List α) :
    scan subs (before ++ c :: after) = scan subs before ++ .symbol c :: scan subs after :=
  scanFrom_separated hc nonempty (Nat.zero_le _) after

end

/-! ### One pattern after the other -/

section

variable {subs : Subs α} {sub : List α × List α}

theorem gsubAll_absent {text : List α} (absent : ∀ sub ∈ subs, ¬sub.1 <:+: text) :
    gsubAll subs text = text := by
  induction subs with
  | nil => rfl
  | cons sub subs ih =>
    obtain ⟨hSub, hRest⟩ := List.forall_mem_cons.mp absent
    rw [gsubAll, List.foldl_cons, gsub_absent hSub]
    exact ih hRest

theorem Independent.gsubAll_match (independent : Independent subs) (hSub : sub ∈ subs) :
    gsubAll subs sub.1 = sub.2 := by
  have hPart : ∀ part : Subs α, part ⊆ subs → sub ∈ part → gsubAll part sub.1 = sub.2 := by
    intro part
    induction part with
    | nil => exact fun _ h => absurd h List.not_mem_nil
    | cons other part ih =>
      intro hPart hMem
      have hOther : other ∈ subs := hPart List.mem_cons_self
      have hRest : part ⊆ subs := fun _ h => hPart (List.mem_cons_of_mem other h)
      rw [gsubAll, List.foldl_cons]
      by_cases hEq : other = sub
      · subst hEq
        rw [gsub_self (independent.nonempty other hOther)]
        exact gsubAll_absent fun sub' h => independent.values sub' (hRest h) other hOther
      · rw [gsub_absent fun h => hEq (independent.patterns other hOther sub hSub h)]
        exact ih hRest ((List.mem_cons.mp hMem).resolve_left (Ne.symm hEq))
  exact hPart subs (fun _ h => h) hSub

theorem gsubAll_separated {c : α} (hc : ∀ sub ∈ subs, c ∉ sub.1)
    (nonempty : ∀ sub ∈ subs, sub.1 ≠ []) (before after : List α) :
    gsubAll subs (before ++ c :: after) = gsubAll subs before ++ c :: gsubAll subs after := by
  induction subs generalizing before after with
  | nil => rfl
  | cons sub subs ih =>
    obtain ⟨hHead, hc⟩ := List.forall_mem_cons.mp hc
    obtain ⟨hNonempty, nonempty⟩ := List.forall_mem_cons.mp nonempty
    rw [gsubAll, List.foldl_cons, gsub_separated hHead hNonempty]
    exact ih hc nonempty _ _

end

/-! ### Delimited occurrences -/

/-- A text as its runs of word symbols and the symbols between them. -/
inductive Words (isWord : α → Bool) : List α → Prop
  | last {word} (hWord : ∀ c ∈ word, isWord c = true) : Words isWord word
  | next {word c rest} (hWord : ∀ c ∈ word, isWord c = true) (hc : isWord c = false)
      (words : Words isWord rest) : Words isWord (word ++ c :: rest)

section

variable {isWord : α → Bool} {subs : Subs α} {text : List α}

omit [DecidableEq α] in
theorem words (isWord : α → Bool) (text : List α) : Words isWord text := by
  induction text with
  | nil => exact .last fun c hc => absurd hc List.not_mem_nil
  | cons a text ih =>
    cases ha : isWord a with
    | false => exact .next (fun c hc => absurd hc List.not_mem_nil) ha ih
    | true =>
      cases ih with
      | last hWord => exact .last (List.forall_mem_cons.mpr ⟨ha, hWord⟩)
      | next hWord hc rest => exact .next (List.forall_mem_cons.mpr ⟨ha, hWord⟩) hc rest

omit [DecidableEq α] in
/-- A word at the start of the text is a pattern or contains none. -/
theorem Delimited.word {word rest : List α} (delimited : Delimited isWord subs (word ++ rest))
    (hWord : ∀ c ∈ word, isWord c = true) :
    (∃ sub ∈ subs, word = sub.1) ∨ ∀ sub ∈ subs, ¬sub.1 <:+: word := by
  by_contra h
  push Not at h
  obtain ⟨hNone, sub, hSub, before, after, rfl⟩ := h
  obtain ⟨hBefore, hAfter⟩ := delimited sub hSub before (after ++ rest) (by simp)
  have hNil : before = [] := by
    by_contra hNe
    have hLast := hBefore _ (List.getLast?_eq_some_getLast hNe)
    rw [hWord _ (by simp)] at hLast
    cases hLast
  have hNil' : after = [] := by
    rcases after with _ | ⟨c, after⟩
    · rfl
    · have hHead := hAfter c rfl
      rw [hWord c (by simp)] at hHead
      cases hHead
  exact hNone sub hSub (by simp [hNil, hNil'])

omit [DecidableEq α] in
theorem Delimited.rest {word rest : List α} {c : α}
    (delimited : Delimited isWord subs (word ++ c :: rest)) : Delimited isWord subs rest := by
  intro sub hSub before after hRest
  obtain ⟨hBefore, hAfter⟩ := delimited sub hSub (word ++ c :: before) after (by simp [hRest])
  refine ⟨fun d hd => ?_, hAfter⟩
  apply hBefore d
  rw [Option.mem_def] at hd ⊢
  rw [List.getLast?_append, List.getLast?_cons, hd]
  rfl

omit [DecidableEq α] in
/-- Two rewritings that both go word by word agree when they agree on patterns and on words without
one. -/
theorem Delimited.agree (delimited : Delimited isWord subs text) {f g : List α → List α}
    (separated : ∀ word c rest, isWord c = false → f (word ++ c :: rest) = f word ++ c :: f rest ∧
      g (word ++ c :: rest) = g word ++ c :: g rest)
    (patterns : ∀ sub ∈ subs, f sub.1 = g sub.1)
    (others : ∀ word, (∀ sub ∈ subs, ¬sub.1 <:+: word) → f word = g word) : f text = g text := by
  have hWord : ∀ word, (∃ sub ∈ subs, word = sub.1) ∨ (∀ sub ∈ subs, ¬sub.1 <:+: word) →
      f word = g word := by
    rintro word (⟨sub, hSub, rfl⟩ | absent)
    · exact patterns sub hSub
    · exact others word absent
  induction words isWord text with
  | @last word hLast =>
    rw [← List.append_nil word] at delimited
    exact hWord word (delimited.word hLast)
  | @next word c rest hNext hc _ ih =>
    obtain ⟨hf, hg⟩ := separated word c rest hc
    rw [hf, hg, hWord word (delimited.word hNext), ih (delimited.rest)]

/-- The patterns are independent and consist of word symbols. -/
structure WordSubs (isWord : α → Bool) (subs : Subs α) : Prop extends Independent subs where
  inWords : ∀ sub ∈ subs, ∀ c ∈ sub.1, isWord c = true

variable (wordSubs : WordSubs isWord subs)

include wordSubs

omit [DecidableEq α] in
theorem WordSubs.outside {c : α} (hc : isWord c = false) : ∀ sub ∈ subs, c ∉ sub.1 := by
  intro sub hSub hMem
  rw [wordSubs.inWords sub hSub c hMem] at hc
  cases hc

theorem WordSubs.gsubAll_eq_replaceAll (delimited : Delimited isWord subs text) :
    gsubAll subs text = replaceAll subs text := by
  apply delimited.agree
  · intro word c rest hc
    have hOutside := wordSubs.outside hc
    refine ⟨gsubAll_separated hOutside wordSubs.nonempty word rest, ?_⟩
    rw [replaceAll, scan_separated hOutside wordSubs.nonempty, List.flatMap_append]
    rfl
  · intro sub hSub
    have hScan := wordSubs.scan_match hSub []
    rw [List.append_nil] at hScan
    rw [wordSubs.gsubAll_match hSub, replaceAll, hScan]
    exact (List.append_nil _).symm
  · intro word absent
    rw [gsubAll_absent absent, replaceAll, scan_absent absent, List.flatMap_map]
    exact (List.flatMap_singleton' word).symm

/-- The order of the patterns does not matter. -/
theorem WordSubs.gsubAll_perm {order : Subs α} (perm : order.Perm subs)
    (delimited : Delimited isWord subs text) : gsubAll order text = gsubAll subs text := by
  have hMem : ∀ sub, sub ∈ order → sub ∈ subs := fun sub h => perm.mem_iff.mp h
  have independent : Independent order :=
    ⟨fun sub h => wordSubs.nonempty sub (hMem sub h),
      fun sub h other h' => wordSubs.patterns sub (hMem sub h) other (hMem other h'),
      fun sub h other h' => wordSubs.values sub (hMem sub h) other (hMem other h')⟩
  apply delimited.agree
  · intro word c rest hc
    have hOutside := wordSubs.outside hc
    exact ⟨gsubAll_separated (fun sub h => hOutside sub (hMem sub h)) independent.nonempty word
      rest, gsubAll_separated hOutside wordSubs.nonempty word rest⟩
  · intro sub hSub
    rw [wordSubs.gsubAll_match hSub, independent.gsubAll_match (perm.mem_iff.mpr hSub)]
  · intro word absent
    rw [gsubAll_absent absent, gsubAll_absent fun sub h => absent sub (hMem sub h)]

/-- A mark of word symbols is not in the result when it is in no value and in no word of the text
without a pattern. -/
theorem WordSubs.gsubAll_avoids (delimited : Delimited isWord subs text) {mark : List α}
    (inWords : ∀ c ∈ mark, isWord c = true) (values : ∀ sub ∈ subs, ¬mark <:+: sub.2)
    (others : ∀ word, word <:+: text → (∀ sub ∈ subs, ¬sub.1 <:+: word) → ¬mark <:+: word) :
    ¬mark <:+: gsubAll subs text := by
  have hWord : ∀ word, word <:+: text →
      (∃ sub ∈ subs, word = sub.1) ∨ (∀ sub ∈ subs, ¬sub.1 <:+: word) →
      ¬mark <:+: gsubAll subs word := by
    rintro word hInfix (⟨sub, hSub, rfl⟩ | absent)
    · rw [wordSubs.gsubAll_match hSub]
      exact values sub hSub
    · rw [gsubAll_absent absent]
      exact others word hInfix absent
  clear others
  induction words isWord text with
  | @last word hLast =>
    rw [← List.append_nil word] at delimited
    exact hWord word (List.infix_refl word) (delimited.word hLast)
  | @next word c rest hNext hc _ ih =>
    have hOutside : c ∉ mark := by
      intro hMem
      rw [inWords c hMem] at hc
      cases hc
    have hRest : rest <:+: word ++ c :: rest :=
      ((List.suffix_cons c rest).trans (List.suffix_append word _)).isInfix
    rw [gsubAll_separated (wordSubs.outside hc) wordSubs.nonempty]
    intro hInfix
    rcases infix_of_separated hOutside hInfix with h | h
    · exact hWord word (List.prefix_append word _).isInfix (delimited.word hNext) h
    · exact ih delimited.rest (fun word' h' => hWord word' (h'.trans hRest)) h

/-- No pattern is left. -/
theorem WordSubs.gsubAll_free (delimited : Delimited isWord subs text) :
    ∀ sub ∈ subs, ¬sub.1 <:+: gsubAll subs text := by
  intro sub hSub
  exact wordSubs.gsubAll_avoids delimited (wordSubs.inWords sub hSub)
    (fun other hOther => wordSubs.values sub hSub other hOther)
    (fun _ _ absent => absent sub hSub)

/-- Every occurrence is a piece of its own, at its place. -/
theorem WordSubs.scan_slot (delimited : Delimited isWord subs text) {sub : List α × List α}
    (hSub : sub ∈ subs) {before after : List α} (hText : text = before ++ (sub.1 ++ after)) :
    ∃ pre post, scan subs text = pre ++ .slot sub.1 sub.2 :: post ∧
      pre.flatMap Piece.source = before := by
  subst hText
  obtain ⟨hBefore, -⟩ := delimited sub hSub before after rfl
  rcases List.eq_nil_or_concat before with rfl | ⟨before, c, rfl⟩
  · exact ⟨[], _, wordSubs.scan_match hSub after, rfl⟩
  · have hc : isWord c = false := hBefore c (by simp)
    rw [List.concat_eq_append, List.append_assoc, List.singleton_append,
      scan_separated (wordSubs.outside hc) wordSubs.nonempty, wordSubs.scan_match hSub]
    refine ⟨scan subs before ++ [.symbol c], scan subs after, by simp, ?_⟩
    rw [List.flatMap_append, scan_source wordSubs.nonempty]
    rfl

end

end Gsub
