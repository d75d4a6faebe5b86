import HelloCounter.Deploy.TlsFiles
import HelloCounter.Library.Substitution
import Mathlib

/-! The eight `gsub` calls of `render-infra-caddyfile.sh` as one substitution: on a line whose
placeholders are delimited, with plain server addresses, they replace every placeholder by its value
at once, in whatever order they run. -/

namespace HelloCounter.Deploy

open Gsub (Piece)

/-- A letter, a digit or an underscore. -/
def isWordChar (c : Char) : Bool := c.isAlphanum || c = '_'

/-- Beside every placeholder stands the end of the line or a character that is none of these. -/
def DelimitedLine (line : Text) : Prop :=
  ∀ placeholder ∈ placeholders, ∀ before after, line = before ++ (placeholder.toList ++ after) →
    (∀ c ∈ before.getLast?, isWordChar c = false) ∧ ∀ c ∈ after.head?, isWordChar c = false

theorem delimitedLine_iff {line : Text} : DelimitedLine line ↔
    ∀ placeholder ∈ placeholders, ∀ n ∈ List.range (line.length + 1),
      placeholder.toList <+: line.drop n →
        (line.take n).getLast?.all (!isWordChar ·) = true ∧
          (line.drop (n + placeholder.toList.length)).head?.all (!isWordChar ·) = true := by
  have hAll : ∀ edge : Option Char,
      edge.all (!isWordChar ·) = true ↔ ∀ c ∈ edge, isWordChar c = false := by
    intro edge
    cases edge <;> simp
  simp only [hAll]
  constructor
  · rintro delimited placeholder hMem n - ⟨after, hAfter⟩
    have hLine : line = line.take n ++ (placeholder.toList ++ after) := by
      rw [hAfter, List.take_append_drop]
    have hDrop : line.drop (n + placeholder.toList.length) = after := by
      rw [← List.drop_drop, ← hAfter, List.drop_left]
    rw [hDrop]
    exact delimited placeholder hMem _ after hLine
  · rintro h placeholder hMem before after rfl
    have hRange : before.length ∈
        List.range ((before ++ (placeholder.toList ++ after)).length + 1) := by
      rw [List.mem_range, List.length_append]
      omega
    have hSplit := h placeholder hMem before.length hRange
    rw [List.drop_left, List.take_left, ← List.drop_drop, List.drop_left, List.drop_left] at hSplit
    exact hSplit (List.prefix_append _ _)

instance (line : Text) : Decidable (DelimitedLine line) :=
  decidable_of_iff _ delimitedLine_iff.symm

/-- A server address: letters, digits, dots, colons and hyphens. -/
def IsAddress (value : Text) : Prop :=
  ∀ c ∈ value, c.isAlphanum = true ∨ c = '.' ∨ c = ':' ∨ c = '-'

instance (value : Text) : Decidable (IsAddress value) := List.decidableBAll _ _

/-- The variables of the server addresses, unset or set to an address. -/
def Addresses (env : Env) : Prop :=
  ∀ name ∈ ["SENTRY_SERVER_IP", "NOFEEBOOKING_SERVER_IP", "NOFEEBOOKING_BACKEND_2",
    "NOFEEBOOKING_BACKEND_3", "STORJ_SERVER_IP"], IsAddress (env name)

/-- A value of no meaning to awk, and without the two underscores with which placeholders start. -/
def Inert (value : Text) : Prop :=
  ¬['_', '_'] <:+: value ∧ '\\' ∉ value ∧ '&' ∉ value ∧ '\n' ∉ value

instance (value : Text) : Decidable (Inert value) := inferInstanceAs (Decidable (_ ∧ _ ∧ _ ∧ _))

def InertServers (env : Env) : Prop :=
  ∀ name ∈ ["SENTRY_SERVER_IP", "NOFEEBOOKING_SERVER_IP", "NOFEEBOOKING_BACKEND_2",
    "NOFEEBOOKING_BACKEND_3", "STORJ_SERVER_IP"], Inert (env name)

def Vars.subs (vars : Vars) : Gsub.Subs Char :=
  vars.substitutions.map fun gsub => (gsub.1.toList, gsub.2)

/-! ### The values -/

theorem IsAddress.inert {value : Text} (h : IsAddress value) : Inert value := by
  have hNot : ∀ c : Char, ¬(c.isAlphanum = true ∨ c = '.' ∨ c = ':' ∨ c = '-') → c ∉ value :=
    fun c hc hMem => hc (h c hMem)
  have hUnderscore : '_' ∉ value := hNot '_' (by decide)
  exact ⟨fun hInfix => hUnderscore (hInfix.subset (by simp)), hNot '\\' (by decide),
    hNot '&' (by decide), hNot '\n' (by decide)⟩

theorem Inert.assign {value : Text} (h : Inert value) (awk : Awk) : awk.assign value = value :=
  awk.assign_plain value h.2.1 h.2.2.2

theorem Addresses.inert {env : Env} (addresses : Addresses env) : InertServers env :=
  fun name hName => (addresses name hName).inert

theorem directive_inert {pair : CertPair} (hPair : pair ∈ pairs) : Inert pair.directive := by
  simp only [pairs, List.mem_cons, List.not_mem_nil, or_false] at hPair
  rcases hPair with rfl | rfl | rfl <;> decide +kernel

variable {awk : Awk} {env : Env} {tls nofeebooking www line : Text}

/-- The directives that a run can produce are inert, and so are the values of inert addresses. -/
theorem substitutions_inert (servers : InertServers env)
    (hTls : tls = [] ∨ tls = mainPair.directive)
    (hNofeebooking : nofeebooking = [] ∨ nofeebooking = nofeebookingPair.directive)
    (hWww : www = [] ∨ www = wwwPair.directive) :
    ∀ sub ∈ (Vars.ofEnv awk env tls nofeebooking www).substitutions, Inert sub.2 := by
  have hDirective : ∀ pair ∈ pairs, ∀ value, value = [] ∨ value = pair.directive →
      Inert (awk.assign value) := by
    rintro pair hPair value (rfl | rfl)
    · rw [Inert.assign (by decide)]
      decide
    · rw [(directive_inert hPair).assign]
      exact directive_inert hPair
  have hAddress : ∀ name default, Inert (env name) → Inert default.toList →
      Inert (awk.assign (env.getD name default)) := by
    intro name default hName hDefault
    have inert : Inert (env.getD name default) := by
      unfold Env.getD
      split
      · exact hDefault
      · exact hName
    rwa [inert.assign]
  unfold InertServers at servers
  simp only [List.forall_mem_cons, List.not_mem_nil, false_implies, implies_true, and_true]
    at servers
  obtain ⟨h1, h2, h3, h4, h5⟩ := servers
  simp only [Vars.substitutions, List.forall_mem_cons, List.not_mem_nil, false_implies,
    implies_true, and_true]
  exact ⟨hDirective mainPair (by decide) tls hTls,
    hDirective nofeebookingPair (by decide) nofeebooking hNofeebooking,
    hDirective wwwPair (by decide) www hWww, hAddress _ _ h1 (by decide),
    hAddress _ _ h2 (by decide), hAddress _ _ h3 (by decide), hAddress _ _ h4 (by decide),
    hAddress _ _ h5 (by decide)⟩

/-! ### The placeholders -/

theorem substitutions_names (vars : Vars) : vars.substitutions.map Prod.fst = placeholders := rfl

theorem subs_patterns (vars : Vars) :
    vars.subs.map Prod.fst = placeholders.map String.toList := by
  rw [Vars.subs, List.map_map, ← substitutions_names vars, List.map_map]
  rfl

theorem placeholders_apart : (placeholders.map String.toList).Pairwise fun p q =>
    ¬p <:+: q ∧ ¬q <:+: p := by decide

theorem placeholders_word : ∀ placeholder ∈ placeholders,
    placeholder.toList.all isWordChar = true := by decide

theorem placeholders_marked : ∀ placeholder ∈ placeholders,
    ['_', '_'] <:+: placeholder.toList := by decide

theorem subs_pattern {vars : Vars} {sub : Text × Text} (hSub : sub ∈ vars.subs) :
    ∃ placeholder ∈ placeholders, placeholder.toList = sub.1 := by
  apply List.mem_map.mp
  rw [← subs_patterns vars]
  exact List.mem_map_of_mem hSub

/-- The placeholders as words of any kind that they consist of. -/
theorem subs_wordSubs {isWord : Char → Bool}
    (hWord : ∀ placeholder ∈ placeholders, placeholder.toList.all isWord = true) {vars : Vars}
    (inert : ∀ sub ∈ vars.substitutions, Inert sub.2) : Gsub.WordSubs isWord vars.subs := by
  have apart := placeholders_apart
  rw [← subs_patterns vars, List.pairwise_map] at apart
  refine ⟨⟨?_, ?_, ?_⟩, ?_⟩
  · intro sub hSub
    obtain ⟨placeholder, hPlaceholder, hEq⟩ := subs_pattern hSub
    exact hEq ▸ placeholders_ne_nil placeholder hPlaceholder
  · intro sub hSub other hOther
    have hOnly := List.Pairwise.forall_of_forall_of_flip
      (R := fun x y : Text × Text => x.1 <:+: y.1 → x = y) (fun _ _ _ => rfl)
      (apart.imp fun h hInfix => absurd hInfix h.1)
      (apart.imp fun h (hInfix : _ <:+: _) => absurd hInfix h.2)
    exact hOnly hSub hOther
  · intro sub hSub other hOther hInfix
    obtain ⟨placeholder, hPlaceholder, hEq⟩ := subs_pattern hSub
    obtain ⟨gsub, hGsub, rfl⟩ := List.mem_map.mp hOther
    have hMarked := placeholders_marked placeholder hPlaceholder
    exact (inert gsub hGsub).1 ((hEq ▸ hMarked).trans hInfix)
  · intro sub hSub c hc
    obtain ⟨placeholder, hPlaceholder, hEq⟩ := subs_pattern hSub
    exact List.all_eq_true.mp (hWord placeholder hPlaceholder) c (hEq ▸ hc)

/-- The `gsub` calls in any order, on inert values. -/
theorem foldl_gsub (awk : Awk) {order : List (String × Text)} (inert : ∀ sub ∈ order, Inert sub.2)
    (line : Text) : order.foldl (fun line gsub => awk.gsub gsub.1 gsub.2 line) line =
      Gsub.gsubAll (order.map fun gsub => (gsub.1.toList, gsub.2)) line := by
  induction order generalizing line with
  | nil => rfl
  | cons sub order ih =>
    obtain ⟨⟨-, hBackslash, hAmpersand, -⟩, hRest⟩ := List.forall_mem_cons.mp inert
    rw [List.foldl_cons, ih hRest, Awk.gsub, awk.expand_self hBackslash hAmpersand]
    rfl

theorem DelimitedLine.subs (delimited : DelimitedLine line) (vars : Vars) :
    Gsub.Delimited isWordChar vars.subs line := by
  intro sub hSub before after hLine
  obtain ⟨placeholder, hPlaceholder, hEq⟩ := subs_pattern hSub
  exact delimited placeholder hPlaceholder before after (hEq ▸ hLine)

/-- On a delimited line the eight calls replace all placeholders at once: whatever their order, no
placeholder is left, the line is cut into kept characters and placeholders with their values, and
every placeholder in it is such a piece. -/
theorem substitute_simultaneous (awk : Awk) (addresses : Addresses env)
    (hTls : tls = [] ∨ tls = mainPair.directive)
    (hNofeebooking : nofeebooking = [] ∨ nofeebooking = nofeebookingPair.directive)
    (hWww : www = [] ∨ www = wwwPair.directive) (delimited : DelimitedLine line) :
    let vars := Vars.ofEnv awk env tls nofeebooking www
    substitute awk vars line = Gsub.replaceAll vars.subs line ∧
    (∀ order : List (String × Text), order.Perm vars.substitutions →
      order.foldl (fun line gsub => awk.gsub gsub.1 gsub.2 line) line = substitute awk vars line) ∧
    (∀ placeholder ∈ placeholders, Awk.isMatch placeholder (substitute awk vars line) = false) ∧
    (Gsub.scan vars.subs line).flatMap Piece.source = line ∧
    (Gsub.scan vars.subs line).flatMap Piece.target = substitute awk vars line ∧
    ∀ sub ∈ vars.subs, ∀ before after, line = before ++ (sub.1 ++ after) →
      ∃ pre post, Gsub.scan vars.subs line = pre ++ .slot sub.1 sub.2 :: post ∧
        pre.flatMap Piece.source = before := by
  intro vars
  have inert : ∀ sub ∈ vars.substitutions, Inert sub.2 :=
    substitutions_inert addresses.inert hTls hNofeebooking hWww
  have wordSubs := subs_wordSubs placeholders_word inert
  have hDelimited := delimited.subs vars
  have hSubstitute : substitute awk vars line = Gsub.gsubAll vars.subs line :=
    foldl_gsub awk inert line
  rw [hSubstitute, wordSubs.gsubAll_eq_replaceAll hDelimited]
  refine ⟨rfl, ?_, ?_, Gsub.scan_source wordSubs.nonempty line, rfl, ?_⟩
  · intro order perm
    rw [foldl_gsub awk fun sub hSub => inert sub (perm.mem_iff.mp hSub),
      wordSubs.gsubAll_perm (perm.map _) hDelimited, wordSubs.gsubAll_eq_replaceAll hDelimited]
  · intro placeholder hPlaceholder
    rw [← wordSubs.gsubAll_eq_replaceAll hDelimited]
    have hMem : placeholder.toList ∈ vars.subs.map Prod.fst := by
      rw [subs_patterns]
      exact List.mem_map_of_mem hPlaceholder
    obtain ⟨sub, hSub, hEq⟩ := List.mem_map.mp hMem
    have hFree := wordSubs.gsubAll_free hDelimited sub hSub
    rw [hEq] at hFree
    simpa [Awk.isMatch] using hFree
  · exact fun sub hSub before after hLine => wordSubs.scan_slot hDelimited hSub hLine

/-! ### A proxy line -/

def proxyLine : Text := "  reverse_proxy __STORJ_SERVER_IP__:8080".toList

theorem proxyLine_substituted :
    substitute Awk.plain (Vars.ofEnv Awk.plain (fun _ => []) [] [] []) proxyLine =
      Gsub.replaceAll (Vars.ofEnv Awk.plain (fun _ => []) [] [] []).subs proxyLine :=
  (substitute_simultaneous Awk.plain (fun _ _ => by decide) (.inl rfl) (.inl rfl) (.inl rfl)
    (by decide)).1

end HelloCounter.Deploy
