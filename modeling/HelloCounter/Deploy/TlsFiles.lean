import HelloCounter.Deploy.RenderInfra
import HelloCounter.Library.Substitution

/-! The certificate files and the certificate paths of the rendered file.  A line is rendered word
by word, and a word brings in a certificate path through the directive at its end only, so that
every path of the output names a file of a pair that the host uses. -/

namespace HelloCounter.Deploy

def pairs : List CertPair := [mainPair, nofeebookingPair, wwwPair]

def tlsPath : Text := "/etc/caddy/tls".toList

def placeholders : List String :=
  ["__TLS_DIRECTIVE__", "__NOFEEBOOKING_TLS_DIRECTIVE__", "__NOFEEBOOKING_WWW_TLS_DIRECTIVE__",
    "__SENTRY_SERVER_IP__", "__NOFEEBOOKING_SERVER_IP__", "__NOFEEBOOKING_BACKEND_2__",
    "__NOFEEBOOKING_BACKEND_3__", "__STORJ_SERVER_IP__"]

/-- The placeholders of the directives, each with its pair. -/
def directiveSlots : List (String × CertPair) :=
  [("__TLS_DIRECTIVE__", mainPair), ("__NOFEEBOOKING_TLS_DIRECTIVE__", nofeebookingPair),
    ("__NOFEEBOOKING_WWW_TLS_DIRECTIVE__", wwwPair)]

/-- A word does not go on in the text. -/
def AtEnd (text : Text) : Prop := ∀ c ∈ text.head?, c.isWhitespace = true

/-- A directive's placeholder is the end of its word. -/
def SlotsEnd (line : Text) : Prop :=
  ∀ slot ∈ directiveSlots, ∀ before after, line = before ++ (slot.1.toList ++ after) → AtEnd after

/-- The line without directives: their placeholders removed, and the server addresses filled in. -/
def ownText (awk : Awk) (env : Env) (line : Text) : Text :=
  substitute awk (Vars.ofEnv awk env [] [] []) line

/-- The template has no certificate path of its own, and nothing is joined to its directives. -/
structure PathFree (awk : Awk) (env : Env) (template : List Text) : Prop where
  own : ∀ line ∈ template, ¬tlsPath <:+: ownText awk env line
  ends : ∀ line ∈ template, SlotsEnd line

/-! ### The files -/

theorem place_tls (dir : AppDir) (env : Env) (pair : CertPair) (file : String) :
    (dir.place env pair).tls file =
      if file = pair.key then contents env pair pair.keyVar
      else if file = pair.crt then contents env pair pair.certVar
      else dir.tls file := by
  simp only [AppDir.place, AppDir.setPair, Function.update_apply]

theorem renderInfra_files {awk : Awk} {env : Env} {dir dir' : AppDir}
    (h : renderInfra awk env dir = .ok () dir') {pair : CertPair} (hPair : pair ∈ pairs) :
    dir'.tls pair.crt = contents env pair pair.certVar ∧
      dir'.tls pair.key = contents env pair pair.keyVar ∧ Decodable env pair := by
  obtain ⟨template, -, rfl, hMain, hNofeebooking, hWww⟩ := renderInfra_eq_ok h
  simp only [pairs, List.mem_cons, List.not_mem_nil, or_false] at hPair
  simp only [place_tls]
  rcases hPair with rfl | rfl | rfl
  · exact ⟨by simp [CertPair.crt, CertPair.key, mainPair, nofeebookingPair, wwwPair],
      by simp [CertPair.crt, CertPair.key, mainPair, nofeebookingPair, wwwPair], hMain⟩
  · exact ⟨by simp [CertPair.crt, CertPair.key, nofeebookingPair, wwwPair],
      by simp [CertPair.crt, CertPair.key, nofeebookingPair, wwwPair], hNofeebooking⟩
  · exact ⟨by simp [CertPair.crt, CertPair.key, wwwPair], if_pos rfl, hWww⟩

/-! ### The rendered lines -/

theorem mem_renderLines {awk : Awk} {vars : Vars} {skip : Bool} {template : List Text} {out : Text}
    (h : out ∈ renderLines awk vars skip template) :
    ∃ line ∈ template, out = substitute awk vars line := by
  induction template generalizing skip with
  | nil => cases h
  | cons line template ih =>
    rw [renderLines, List.mem_append] at h
    rcases h with h | h
    · refine ⟨line, List.mem_cons_self, ?_⟩
      unfold record at h
      split at h
      · cases h
      · cases skip
        · simpa using h
        · cases h
    · obtain ⟨line', hMem, hOut⟩ := ih h
      exact ⟨line', List.mem_cons_of_mem _ hMem, hOut⟩

/-! ### The calls of `gsub` -/

def placeholderChar (c : Char) : Bool := c.isUpper || c.isDigit || c = '_'

theorem placeholder_chars : ∀ placeholder ∈ placeholders,
    placeholder.toList.all placeholderChar = true := by
  decide +kernel

theorem directive_chars : ∀ pair ∈ pairs, pair.directive ≠ [] ∧
    pair.directive.any placeholderChar = false := by
  decide +kernel

theorem directive_disjoint {pair : CertPair} (hPair : pair ∈ pairs) {placeholder : String}
    (hPlaceholder : placeholder ∈ placeholders) :
    pair.directive ≠ [] ∧ ∀ c ∈ pair.directive, c ∉ placeholder.toList := by
  obtain ⟨hNil, hChars⟩ := directive_chars pair hPair
  refine ⟨hNil, fun c hDirective hMem => ?_⟩
  have hInside := List.all_eq_true.mp (placeholder_chars placeholder hPlaceholder) c hMem
  exact List.any_eq_false.mp hChars c hDirective hInside

theorem placeholders_ne_nil : ∀ placeholder ∈ placeholders, placeholder.toList ≠ [] := by
  decide

theorem directive_plain : ∀ pair ∈ pairs, '\\' ∉ pair.directive ∧ '\n' ∉ pair.directive ∧
    '&' ∉ pair.directive := by
  decide +kernel

def runVars (awk : Awk) (env : Env) : Vars :=
  Vars.ofEnv awk env (directive env mainPair) (directive env nofeebookingPair)
    (directive env wwwPair)

def runGsubs (awk : Awk) (gsubs : List (String × Text)) (line : Text) : Text :=
  gsubs.foldl (fun line gsub => awk.gsub gsub.1 gsub.2 line) line

/-- The calls for the directives with these values. -/
def slotGsubs (awk : Awk) (values : CertPair → Text) : List (String × Text) :=
  directiveSlots.map fun slot => (slot.1, awk.assign (values slot.2))

/-- The calls for the server addresses. -/
def serverGsubs (awk : Awk) (env : Env) : List (String × Text) :=
  (Vars.ofEnv awk env [] [] []).substitutions.drop 3

theorem substitute_eq (awk : Awk) (env : Env) (values : CertPair → Text) (line : Text) :
    substitute awk (Vars.ofEnv awk env (values mainPair) (values nofeebookingPair)
        (values wwwPair)) line =
      runGsubs awk (serverGsubs awk env) (runGsubs awk (slotGsubs awk values) line) := by
  unfold runGsubs
  rw [← List.foldl_append]
  rfl

theorem slots_mem : ∀ slot ∈ directiveSlots, slot.1 ∈ placeholders ∧ slot.2 ∈ pairs := by decide

theorem slotGsubs_mem (awk : Awk) (values : CertPair → Text) :
    ∀ gsub ∈ slotGsubs awk values, gsub.1 ∈ placeholders := by
  intro gsub hGsub
  obtain ⟨slot, hSlot, rfl⟩ := List.mem_map.mp hGsub
  exact (slots_mem slot hSlot).1

theorem serverGsubs_mem (awk : Awk) (env : Env) :
    ∀ gsub ∈ serverGsubs awk env, gsub.1 ∈ placeholders := by
  have names : (serverGsubs awk env).map Prod.fst = placeholders.drop 3 := rfl
  intro gsub hGsub
  have hMem : gsub.1 ∈ placeholders.drop 3 := names ▸ List.mem_map_of_mem hGsub
  exact List.mem_of_mem_drop hMem

theorem placeholders_no_space : ∀ placeholder ∈ placeholders,
    placeholder.toList.any Char.isWhitespace = false := by decide

section

variable {awk : Awk} {gsubs : List (String × Text)}

/-- The words of a line are rendered one by one. -/
theorem runGsubs_separated (h : ∀ gsub ∈ gsubs, gsub.1 ∈ placeholders) {c : Char}
    (hc : c.isWhitespace = true) (before after : Text) :
    runGsubs awk gsubs (before ++ c :: after) =
      runGsubs awk gsubs before ++ c :: runGsubs awk gsubs after := by
  induction gsubs generalizing before after with
  | nil => rfl
  | cons gsub gsubs ih =>
    obtain ⟨hMem, hRest⟩ := List.forall_mem_cons.mp h
    have hOutside : c ∉ gsub.1.toList := by
      intro hChar
      exact List.any_eq_false.mp (placeholders_no_space gsub.1 hMem) c hChar hc
    rw [runGsubs, List.foldl_cons, Awk.gsub,
      Gsub.gsub_separated hOutside (placeholders_ne_nil _ hMem)]
    exact ih hRest _ _

theorem runGsubs_directive (h : ∀ gsub ∈ gsubs, gsub.1 ∈ placeholders) {pair : CertPair}
    (hPair : pair ∈ pairs) (before : Text) :
    runGsubs awk gsubs (before ++ pair.directive) =
      runGsubs awk gsubs before ++ pair.directive := by
  induction gsubs generalizing before with
  | nil => rfl
  | cons gsub gsubs ih =>
    obtain ⟨hMem, hRest⟩ := List.forall_mem_cons.mp h
    obtain ⟨hNil, hOutside⟩ := directive_disjoint hPair hMem
    have hBlock : Gsub.gsub gsub.1.toList (awk.expand gsub.2 gsub.1.toList)
        (before ++ pair.directive ++ []) = _ ++ pair.directive ++ Gsub.gsub _ _ [] :=
      Gsub.gsub_block hNil hOutside (placeholders_ne_nil _ hMem) before []
    rw [List.append_nil, Gsub.gsub_nil, List.append_nil] at hBlock
    rw [runGsubs, List.foldl_cons, Awk.gsub, hBlock]
    exact ih hRest _

theorem runGsubs_absent {line : Text} (h : ∀ gsub ∈ gsubs, ¬gsub.1.toList <:+: line) :
    runGsubs awk gsubs line = line := by
  induction gsubs with
  | nil => rfl
  | cons gsub gsubs ih =>
    obtain ⟨hAbsent, hRest⟩ := List.forall_mem_cons.mp h
    rw [runGsubs, List.foldl_cons, Awk.gsub, Gsub.gsub_absent hAbsent]
    exact ih hRest

end

/-! ### The directive of a word -/

/-- A value for each pair: its directive or nothing. -/
def Directives (values : CertPair → Text) : Prop :=
  ∀ pair ∈ pairs, values pair = [] ∨ values pair = pair.directive

theorem directive_cases (env : Env) (pair : CertPair) :
    directive env pair = [] ∨ directive env pair = pair.directive := by
  unfold directive
  split
  · exact .inr rfl
  · exact .inl rfl

theorem slots_apart : ∀ slot ∈ directiveSlots, ∀ other ∈ directiveSlots,
    other.1.toList <:+ slot.1.toList → other = slot := by decide

section

variable {awk : Awk} {env : Env} {values : CertPair → Text} {word : Text}

/-- In a word a directive's placeholder occurs at the end only. -/
theorem SlotsEnd.last (ends : SlotsEnd word) (noSpace : ∀ c ∈ word, c.isWhitespace = false)
    {slot : String × CertPair} (hSlot : slot ∈ directiveSlots) {before after : Text}
    (hWord : word = before ++ (slot.1.toList ++ after)) : after = [] := by
  cases after with
  | nil => rfl
  | cons c after =>
    have hSpace := ends slot hSlot before (c :: after) hWord c rfl
    rw [noSpace c (by simp [hWord])] at hSpace
    cases hSpace

/-- A word contains no placeholder of a directive, or one of them at its end. -/
theorem SlotsEnd.cases (ends : SlotsEnd word) (noSpace : ∀ c ∈ word, c.isWhitespace = false) :
    (∀ slot ∈ directiveSlots, ¬slot.1.toList <:+: word) ∨
      ∃ slot ∈ directiveSlots, ∃ text, word = text ++ slot.1.toList ∧
        ∀ other ∈ directiveSlots, ¬other.1.toList <:+: text := by
  by_contra h
  push Not at h
  obtain ⟨⟨slot, hSlot, before, after, hWord⟩, hText⟩ := h
  rw [List.append_assoc] at hWord
  obtain rfl := ends.last noSpace hSlot hWord.symm
  rw [List.append_nil] at hWord
  obtain ⟨other, hOther, before', after', hInside⟩ := hText slot hSlot before hWord.symm
  have hNil : after' ++ slot.1.toList = [] := by
    have hSplit : word = before' ++ (other.1.toList ++ (after' ++ slot.1.toList)) := by
      rw [← hWord, ← hInside, List.append_assoc, List.append_assoc]
    exact ends.last noSpace hOther hSplit
  exact placeholders_ne_nil slot.1 (slots_mem slot hSlot).1 (List.append_eq_nil_iff.mp hNil).2

theorem expand_value (awk : Awk) (hValues : Directives values) {pair : CertPair}
    (hPair : pair ∈ pairs) (matched : Text) :
    awk.expand (awk.assign (values pair)) matched = values pair := by
  have plain : '\\' ∉ values pair ∧ '\n' ∉ values pair ∧ '&' ∉ values pair := by
    rcases hValues pair hPair with h | h <;> rw [h]
    · simp
    · exact directive_plain pair hPair
  obtain ⟨hBackslash, hNewline, hAmpersand⟩ := plain
  rw [awk.assign_plain _ hBackslash hNewline, awk.expand_self hBackslash hAmpersand]

/-- The calls for the directives, on a word that ends in one of their placeholders. -/
theorem runGsubs_slot (awk : Awk) (hValues : Directives values)
    (ends : SlotsEnd word) (noSpace : ∀ c ∈ word, c.isWhitespace = false)
    {slot : String × CertPair} (hSlot : slot ∈ directiveSlots) {text : Text}
    (hWord : word = text ++ slot.1.toList)
    (hText : ∀ other ∈ directiveSlots, ¬other.1.toList <:+: text) :
    runGsubs awk (slotGsubs awk values) word = text ++ values slot.2 := by
  obtain ⟨hMem, hPair⟩ := slots_mem slot hSlot
  obtain ⟨first, last, hSlots⟩ := List.append_of_mem hSlot
  have hNodup : directiveSlots.Nodup := by decide
  rw [hSlots] at hNodup
  have hFirst : ∀ gsub ∈ first.map fun slot => (slot.1, awk.assign (values slot.2)),
      ¬gsub.1.toList <:+: word := by
    rintro gsub hGsub ⟨before, after, hOccurs⟩
    obtain ⟨other, hOther, rfl⟩ := List.mem_map.mp hGsub
    have hOther' : other ∈ directiveSlots := hSlots ▸ List.mem_append_left _ hOther
    rw [List.append_assoc] at hOccurs
    obtain rfl := ends.last noSpace hOther' hOccurs.symm
    rw [List.append_nil] at hOccurs
    -- Two placeholders at the end of the word would end alike.
    have hSuffix : other.1.toList <:+ word := ⟨before, hOccurs⟩
    have hSuffix' : slot.1.toList <:+ word := ⟨text, hWord.symm⟩
    have hSame : other = slot := by
      rcases List.suffix_or_suffix_of_suffix hSuffix hSuffix' with h | h
      · exact slots_apart slot hSlot other hOther' h
      · exact (slots_apart other hOther' slot hSlot h).symm
    exact (List.nodup_append.mp hNodup).2.2 other hOther slot List.mem_cons_self hSame
  have hLast : ∀ gsub ∈ last.map fun slot => (slot.1, awk.assign (values slot.2)),
      gsub.1 ∈ placeholders ∧ ¬gsub.1.toList <:+: text := by
    intro gsub hGsub
    obtain ⟨other, hOther, rfl⟩ := List.mem_map.mp hGsub
    have hOther' : other ∈ directiveSlots := by
      rw [hSlots]
      exact List.mem_append_right _ (List.mem_cons_of_mem _ hOther)
    exact ⟨(slots_mem other hOther').1, hText other hOther'⟩
  have hEnd : awk.gsub slot.1 (awk.assign (values slot.2)) word = text ++ values slot.2 := by
    rw [Awk.gsub, expand_value awk hValues hPair, hWord]
    refine Gsub.gsub_last (placeholders_ne_nil _ hMem) fun before after hOccurs => ?_
    exact ends.last noSpace hSlot (hWord.trans hOccurs)
  have hSplit : slotGsubs awk values =
      (first.map fun slot => (slot.1, awk.assign (values slot.2))) ++
        (slot.1, awk.assign (values slot.2)) ::
          last.map fun slot => (slot.1, awk.assign (values slot.2)) := by
    rw [slotGsubs, hSlots, List.map_append, List.map_cons]
  have hFirstRun : runGsubs awk _ word = word := runGsubs_absent hFirst
  have hLastRun : runGsubs awk (last.map fun slot => (slot.1, awk.assign (values slot.2)))
      (text ++ values slot.2) = text ++ values slot.2 := by
    rcases hValues slot.2 hPair with h | h <;> rw [h]
    · rw [List.append_nil]
      exact runGsubs_absent fun gsub hGsub => (hLast gsub hGsub).2
    · rw [runGsubs_directive (fun gsub hGsub => (hLast gsub hGsub).1) hPair,
        runGsubs_absent fun gsub hGsub => (hLast gsub hGsub).2]
  unfold runGsubs at hFirstRun hLastRun ⊢
  rw [hSplit, List.foldl_append, hFirstRun, List.foldl_cons, hEnd, hLastRun]

/-- A rendered word is its own text, and behind it the directive whose placeholder ends it. -/
theorem substitute_word (awk : Awk) (env : Env) (ends : SlotsEnd word)
    (noSpace : ∀ c ∈ word, c.isWhitespace = false) :
    substitute awk (runVars awk env) word = ownText awk env word ∨
      ∃ pair ∈ pairs, substitute awk (runVars awk env) word =
        ownText awk env word ++ directive env pair := by
  have hOut := substitute_eq awk env (directive env) word
  have hOwn := substitute_eq awk env (fun _ => []) word
  rcases ends.cases noSpace with hNone | ⟨slot, hSlot, text, hWord, hText⟩
  · have absent : ∀ values : CertPair → Text, runGsubs awk (slotGsubs awk values) word = word := by
      intro values
      apply runGsubs_absent
      intro gsub hGsub
      obtain ⟨slot, hSlot, rfl⟩ := List.mem_map.mp hGsub
      exact hNone slot hSlot
    left
    rw [runVars, ownText, hOut, hOwn, absent, absent]
  · have hPair := (slots_mem slot hSlot).2
    rw [runGsubs_slot awk (fun pair _ => directive_cases env pair) ends noSpace hSlot hWord hText]
      at hOut
    rw [runGsubs_slot awk (fun _ _ => .inl rfl) ends noSpace hSlot hWord hText,
      List.append_nil] at hOwn
    refine .inr ⟨slot.2, hPair, ?_⟩
    rw [runVars, ownText, hOut, hOwn]
    rcases directive_cases env slot.2 with h | h <;> rw [h]
    · rw [List.append_nil, List.append_nil]
    · exact runGsubs_directive (serverGsubs_mem awk env) hPair text

end

/-! ### The certificate paths -/

/-- The certificate path between `before` and `after` lies in the pair's directive, to which nothing
is joined, and is the path of one of the pair's files. -/
structure InDirective (pair : CertPair) (before after : Text) : Prop where
  directive : ∃ start stop, before ++ (tlsPath ++ after) = start ++ pair.directive ++ stop ∧
    start <+: before ∧ stop <:+ after ∧ AtEnd stop
  file : ∃ file ∈ [pair.crt, pair.key], ∃ rest, after = '/' :: file.toList ++ rest ∧ AtEnd rest

theorem AtEnd.append {text : Text} (h : AtEnd text) {c : Char} (hc : c.isWhitespace = true)
    (rest : Text) : AtEnd (text ++ c :: rest) := by
  cases text with
  | nil =>
    rintro _ ⟨⟩
    exact hc
  | cons d text => exact h

theorem InDirective.append_left {pair : CertPair} {before after : Text}
    (h : InDirective pair before after) (text : Text) :
    InDirective pair (text ++ before) after := by
  obtain ⟨start, stop, hText, hBefore, hAfter⟩ := h.directive
  refine ⟨⟨text ++ start, stop, ?_, ?_, hAfter⟩, h.file⟩
  · rw [List.append_assoc, hText, List.append_assoc, List.append_assoc, List.append_assoc]
  · exact (List.prefix_append_right_inj text).mpr hBefore

theorem InDirective.append_right {pair : CertPair} {before after : Text}
    (h : InDirective pair before after) {c : Char} (hc : c.isWhitespace = true) (text : Text) :
    InDirective pair before (after ++ c :: text) := by
  obtain ⟨start, stop, hText, hBefore, hAfter, hEnd⟩ := h.directive
  obtain ⟨file, hFile, rest, hRest, hEnd'⟩ := h.file
  refine ⟨⟨start, stop ++ c :: text, ?_, hBefore, ?_, hEnd.append hc text⟩,
    file, hFile, rest ++ c :: text, ?_, hEnd'.append hc text⟩
  · rw [← List.append_assoc tlsPath, ← List.append_assoc before, hText, List.append_assoc]
  · obtain ⟨gap, rfl⟩ := hAfter
    exact ⟨gap, (List.append_assoc ..).symm⟩
  · rw [hRest, List.append_assoc]

/-- The certificate paths of a directive. -/
theorem directive_tails : ∀ pair ∈ pairs, ∀ tail ∈ pair.directive.tails, tlsPath <+: tail →
    ∃ file ∈ [pair.crt, pair.key], tlsPath ++ '/' :: file.toList <+: tail ∧
      (tail.drop (tlsPath.length + 1 + file.toList.length)).head?.all Char.isWhitespace = true := by
  decide +kernel

theorem directive_path {pair : CertPair} (hPair : pair ∈ pairs) {before after : Text}
    (h : pair.directive = before ++ (tlsPath ++ after)) : InDirective pair before after := by
  have hTail : tlsPath ++ after ∈ pair.directive.tails := (List.mem_tails _ _).mpr ⟨before, h.symm⟩
  obtain ⟨file, hFile, ⟨rest, hRest⟩, hEnd⟩ :=
    directive_tails pair hPair _ hTail (List.prefix_append _ _)
  have hLength : (tlsPath ++ '/' :: file.toList).length =
      tlsPath.length + 1 + file.toList.length := by
    simp only [List.length_append, List.length_cons]
    omega
  rw [← hRest, ← hLength, List.drop_left] at hEnd
  have hAfter : after = '/' :: file.toList ++ rest := by
    rw [List.append_assoc] at hRest
    exact (List.append_cancel_left hRest).symm
  refine ⟨⟨[], [], ?_, List.nil_prefix, List.nil_suffix, fun _ => nofun⟩, file, hFile, rest,
    hAfter, ?_⟩
  · rw [← h, List.nil_append, List.append_nil]
  · intro c hc
    rw [Option.mem_def.mp hc] at hEnd
    exact hEnd

/-- A directive starts with a blank, which is no part of a certificate path. -/
theorem directive_blank : ∀ pair ∈ pairs, pair.directive = ' ' :: pair.directive.drop 1 := by
  decide

theorem space_no_path {c : Char} (hc : c.isWhitespace = true) : c ∉ tlsPath := by
  have hPath : tlsPath.any Char.isWhitespace = false := by decide
  exact fun h => List.any_eq_false.mp hPath c h hc

variable {awk : Awk} {env : Env}

theorem word_path {word before after : Text} (ends : SlotsEnd word)
    (noSpace : ∀ c ∈ word, c.isWhitespace = false) (own : ¬tlsPath <:+: ownText awk env word)
    (h : substitute awk (runVars awk env) word = before ++ (tlsPath ++ after)) :
    ∃ pair ∈ pairs, configured env pair = true ∧ InDirective pair before after := by
  have hOwn : ∀ before after, ownText awk env word ≠ before ++ (tlsPath ++ after) := by
    intro before after hText
    exact own ⟨before, after, by rw [hText, List.append_assoc]⟩
  rcases substitute_word awk env ends noSpace with hSame | ⟨pair, hPair, hJoined⟩
  · exact absurd (hSame.symm.trans h) (hOwn before after)
  · rcases directive_cases env pair with hNil | hDirective
    · rw [hNil, List.append_nil] at hJoined
      exact absurd (hJoined.symm.trans h) (hOwn before after)
    · have hConfigured : configured env pair = true := by
        by_contra hNot
        rw [directive, if_neg hNot] at hDirective
        exact (directive_chars pair hPair).1 hDirective.symm
      have hText := hJoined.symm.trans h
      rw [hDirective, directive_blank pair hPair] at hText
      rcases Gsub.occurrence_of_separated (space_no_path rfl) hText with
        ⟨rest, hInside, -⟩ | ⟨rest, rfl, hRest⟩
      · exact absurd hInside (hOwn before rest)
      · have hPath : pair.directive = ' ' :: rest ++ (tlsPath ++ after) := by
          rw [directive_blank pair hPair, hRest]
          rfl
        exact ⟨pair, hPair, hConfigured, (directive_path hPair hPath).append_left _⟩

theorem SlotsEnd.split {word rest : Text} {c : Char} (ends : SlotsEnd (word ++ c :: rest)) :
    SlotsEnd word ∧ SlotsEnd rest := by
  constructor
  · intro slot hSlot before after hWord d hd
    refine ends slot hSlot before (after ++ c :: rest) ?_ d ?_
    · rw [hWord, List.append_assoc, List.append_assoc]
    · rw [List.head?_append, Option.mem_def.mp hd]
      rfl
  · intro slot hSlot before after hRest
    exact ends slot hSlot (word ++ c :: before) after (by rw [hRest]; simp)

theorem substitute_separated (awk : Awk) (env : Env) (values : CertPair → Text) {c : Char}
    (hc : c.isWhitespace = true) (before after : Text) :
    substitute awk (Vars.ofEnv awk env (values mainPair) (values nofeebookingPair)
        (values wwwPair)) (before ++ c :: after) =
      substitute awk (Vars.ofEnv awk env (values mainPair) (values nofeebookingPair)
        (values wwwPair)) before ++ c ::
      substitute awk (Vars.ofEnv awk env (values mainPair) (values nofeebookingPair)
        (values wwwPair)) after := by
  simp only [substitute_eq, runGsubs_separated (slotGsubs_mem awk values) hc,
    runGsubs_separated (serverGsubs_mem awk env) hc]

/-- Every certificate path of a rendered line comes from a directive. -/
theorem line_path {line before after : Text} (ends : SlotsEnd line)
    (own : ¬tlsPath <:+: ownText awk env line)
    (h : substitute awk (runVars awk env) line = before ++ (tlsPath ++ after)) :
    ∃ pair ∈ pairs, configured env pair = true ∧ InDirective pair before after := by
  induction Gsub.words (fun c => !c.isWhitespace) line generalizing before with
  | @last word hWord => exact word_path ends (fun c hc => by simpa using hWord c hc) own h
  | @next word c rest hWord hc _ ih =>
    have hSpace : c.isWhitespace = true := by simpa using hc
    have hOwn : ownText awk env (word ++ c :: rest) =
        ownText awk env word ++ c :: ownText awk env rest :=
      substitute_separated awk env (fun _ => []) hSpace word rest
    have hOut : substitute awk (runVars awk env) (word ++ c :: rest) =
        substitute awk (runVars awk env) word ++ c :: substitute awk (runVars awk env) rest :=
      substitute_separated awk env (directive env) hSpace word rest
    rw [hOwn] at own
    rcases Gsub.occurrence_of_separated (space_no_path hSpace) (hOut.symm.trans h) with
      ⟨rest', hInside, rfl⟩ | ⟨rest', rfl, hInside⟩
    · have hWordOwn : ¬tlsPath <:+: ownText awk env word :=
        fun hInfix => own (hInfix.trans (List.prefix_append _ _).isInfix)
      obtain ⟨pair, hPair, hConfigured, hPath⟩ :=
        word_path ends.split.1 (fun c hc => by simpa using hWord c hc) hWordOwn hInside
      exact ⟨pair, hPair, hConfigured, hPath.append_right hSpace _⟩
    · have hRestOwn : ¬tlsPath <:+: ownText awk env rest :=
        fun hInfix => own (hInfix.trans ((List.suffix_cons c _).trans
          (List.suffix_append _ _)).isInfix)
      obtain ⟨pair, hPair, hConfigured, hPath⟩ := ih ends.split.2 hRestOwn hInside
      refine ⟨pair, hPair, hConfigured, ?_⟩
      have hLeft := hPath.append_left (substitute awk (runVars awk env) word ++ [c])
      rwa [List.append_assoc, List.singleton_append] at hLeft

/-! ### Agreement -/

theorem renderInfra_lines {awk : Awk} {env : Env} {dir dir' : AppDir} {template : List Text}
    (hTemplate : dir.template = some template) (h : renderInfra awk env dir = .ok () dir') :
    dir'.caddyfile = some (renderLines awk (runVars awk env) false template) := by
  obtain ⟨template', hTemplate', rfl, -⟩ := renderInfra_eq_ok h
  obtain rfl := Option.some.inj (hTemplate.symm.trans hTemplate')
  rfl

theorem path_in_directive {template : List Text} (free : PathFree awk env template) {skip : Bool}
    {out before after : Text} (hOut : out ∈ renderLines awk (runVars awk env) skip template)
    (hPath : out = before ++ (tlsPath ++ after)) :
    ∃ pair ∈ pairs, configured env pair = true ∧ InDirective pair before after := by
  obtain ⟨line, hLine, rfl⟩ := mem_renderLines hOut
  exact line_path (free.ends line hLine) (free.own line hLine) hPath

def nofeebookingPath : Text := tlsPath ++ "/nofeebooking".toList

theorem main_files : ∀ file ∈ [mainPair.crt, mainPair.key],
    ¬"/nofeebooking".toList <+: '/' :: file.toList ∧
      ¬('/' :: file.toList <+: "/nofeebooking".toList) := by
  decide +kernel

/-- On the source host the only directive is that of the main pair. -/
theorem source_path {template : List Text} (free : PathFree awk env template)
    (hSource : sourceHost env = true) {skip : Bool} {out : Text}
    (hOut : out ∈ renderLines awk (runVars awk env) skip template) :
    ¬nofeebookingPath <:+: out := by
  rintro ⟨before, rest, hPath⟩
  have hShape : out = before ++ (tlsPath ++ ("/nofeebooking".toList ++ rest)) := by
    rw [← hPath, nofeebookingPath, List.append_assoc, List.append_assoc]
  obtain ⟨pair, -, hConfigured, hInside⟩ := path_in_directive free hOut hShape
  have hMain : pair = mainPair := by
    by_contra hOther
    rw [configured_other env hOther, hSource] at hConfigured
    simp at hConfigured
  subst hMain
  obtain ⟨file, hFile, rest', hRest, -⟩ := hInside.file
  obtain ⟨hShort, hLong⟩ := main_files file hFile
  have hPrefix : '/' :: file.toList <+: "/nofeebooking".toList ++ rest := ⟨rest', hRest.symm⟩
  rcases List.prefix_or_prefix_of_prefix hPrefix (List.prefix_append _ rest) with h | h
  · exact hLong h
  · exact hShort h

/-- After a run each pair has its files, decoded from this run's values, when the host uses it, and
no files otherwise; every certificate path of the rendered file is that of a file in the directive
of a pair whose files exist; and on the source host there is no path of the nofeebooking pairs. -/
theorem tls_agree {dir dir' : AppDir} {template : List Text}
    (hTemplate : dir.template = some template) (free : PathFree awk env template)
    (h : renderInfra awk env dir = .ok () dir') :
    (∀ pair ∈ pairs, dir'.tls pair.crt = contents env pair pair.certVar ∧
      dir'.tls pair.key = contents env pair pair.keyVar ∧ Decodable env pair) ∧
    ∃ lines, dir'.caddyfile = some lines ∧
      (∀ line ∈ lines, ∀ before after, line = before ++ (tlsPath ++ after) →
        ∃ pair ∈ pairs, InDirective pair before after ∧ (dir'.tls pair.crt).isSome = true ∧
          (dir'.tls pair.key).isSome = true) ∧
      (sourceHost env = true → ∀ line ∈ lines, ¬nofeebookingPath <:+: line) := by
  have hFiles : ∀ pair ∈ pairs, _ := fun _ hPair => renderInfra_files h hPair
  refine ⟨hFiles, _, renderInfra_lines hTemplate h, ?_, ?_⟩
  · intro line hLine before after hPath
    obtain ⟨pair, hPair, hConfigured, hInside⟩ := path_in_directive free hLine hPath
    obtain ⟨hCrt, hKey, -⟩ := hFiles pair hPair
    refine ⟨pair, hPair, hInside, ?_, ?_⟩
    · rw [hCrt]
      exact contents_isSome hConfigured _
    · rw [hKey]
      exact contents_isSome hConfigured _
  · exact fun hSource line hLine => source_path free hSource hLine

def sourceEnv : Env
  | "CADDY_TLS_CERT_PEM_B64" | "NOFEEBOOKING_TLS_CERT_PEM_B64" => "YQ==".toList
  | "CADDY_TLS_KEY_PEM_B64" | "NOFEEBOOKING_TLS_KEY_PEM_B64" => "Yg==".toList
  | "NOFEEBOOKING_TLS_SOURCE_HOST" => "true".toList
  | _ => []

/-- A directory with the given template, in which every certificate file exists. -/
def leftoverDir (template : List Text) : AppDir := ⟨"infra", some template, none, fun _ => some [0]⟩

/-- A directory without certificate files. -/
def newDir (template : List Text) : AppDir := ⟨"infra", some template, none, fun _ => none⟩

def slotLines : List Text :=
  ["__TLS_DIRECTIVE__".toList, "    reverse_proxy https://__SENTRY_SERVER_IP__:9000".toList]

/-- A line in which each directive placeholder is followed by its end or by whitespace, position by
position. -/
theorem slotsEnd_of_positions {line : Text}
    (h : ∀ slot ∈ directiveSlots, ∀ n ∈ List.range (line.length + 1),
      slot.1.toList <+: line.drop n →
        (line.drop (n + slot.1.toList.length)).head?.all Char.isWhitespace = true) :
    SlotsEnd line := by
  rintro slot hSlot before after rfl c hc
  have hRange : before.length ∈ List.range ((before ++ (slot.1.toList ++ after)).length + 1) := by
    rw [List.mem_range, List.length_append]
    omega
  have hSplit := h slot hSlot before.length hRange
  rw [List.drop_left, ← List.drop_drop, List.drop_left, List.drop_left] at hSplit
  have hHead := hSplit (List.prefix_append _ _)
  rw [Option.mem_def.mp hc] at hHead
  exact hHead

theorem slotLines_ends : ∀ line ∈ slotLines, SlotsEnd line := by
  intro line hLine
  apply slotsEnd_of_positions
  revert line
  decide +kernel

theorem slotLines_pathFree : PathFree Awk.plain sourceEnv slotLines :=
  ⟨by decide +kernel, slotLines_ends⟩

theorem sourceEnv_tls : ∃ dir', renderInfra Awk.plain sourceEnv (leftoverDir slotLines) =
      .ok () dir' ∧ dir'.tls "tls.crt" = some [97] ∧ dir'.tls "tls.key" = some [98] ∧
    dir'.tls "nofeebooking.crt" = none ∧ dir'.tls "nofeebooking-www.key" = none ∧
    ∃ lines, dir'.caddyfile = some lines ∧
      (∀ line ∈ lines, ∀ before after, line = before ++ (tlsPath ++ after) →
        ∃ pair ∈ pairs, InDirective pair before after) ∧
      ∀ line ∈ lines, ¬nofeebookingPath <:+: line := by
  obtain ⟨dir', run⟩ : ∃ dir', renderInfra Awk.plain sourceEnv (leftoverDir slotLines) =
      .ok () dir' := ⟨_, rfl⟩
  obtain ⟨hFiles, lines, hLines, hPath, hSource⟩ := tls_agree rfl slotLines_pathFree run
  obtain ⟨hCrt, hKey, -⟩ := hFiles mainPair (by decide)
  obtain ⟨hOther, -, -⟩ := hFiles nofeebookingPair (by decide)
  obtain ⟨-, hWww, -⟩ := hFiles wwwPair (by decide)
  refine ⟨dir', run, hCrt, hKey, hOther, hWww, lines, hLines, ?_, hSource (by decide)⟩
  intro line hLine before after hText
  obtain ⟨pair, hPair, hInside, -⟩ := hPath line hLine before after hText
  exact ⟨pair, hPair, hInside⟩

/-- A source host whose Sentry address is a directive of the nofeebooking pair. -/
def directiveAddress : Env
  | "SENTRY_SERVER_IP" => nofeebookingPair.directive
  | "NOFEEBOOKING_TLS_SOURCE_HOST" => "true".toList
  | _ => []

/-- A host that uses the main pair only. -/
def mainEnv : Env
  | "CADDY_TLS_CERT_PEM_B64" => "YQ==".toList
  | "CADDY_TLS_KEY_PEM_B64" => "Yg==".toList
  | _ => []

/-- A path of a missing file comes in through a server address, through a template whose literal
path is interrupted by the placeholder of an unused pair, and through text joined to a directive. -/
theorem missing_pair_named :
    (¬∃ line ∈ ["__SENTRY_SERVER_IP__".toList], tlsPath <:+: line) ∧
    (∃ dir', renderInfra Awk.plain directiveAddress (leftoverDir ["__SENTRY_SERVER_IP__".toList]) =
      .ok () dir' ∧ dir'.caddyfile = some [nofeebookingPair.directive] ∧
        dir'.tls "nofeebooking.crt" = none) ∧
    (¬∃ line ∈ ["tls /etc/caddy__TLS_DIRECTIVE__/tls/tls.crt".toList], tlsPath <:+: line) ∧
    (∃ dir', renderInfra Awk.plain (fun _ => [])
        (leftoverDir ["tls /etc/caddy__TLS_DIRECTIVE__/tls/tls.crt".toList]) = .ok () dir' ∧
      dir'.caddyfile = some ["tls /etc/caddy/tls/tls.crt".toList] ∧ dir'.tls "tls.crt" = none) ∧
    (¬∃ line ∈ ["__TLS_DIRECTIVE__.old".toList], tlsPath <:+: line) ∧
    ∃ dir', renderInfra Awk.plain mainEnv (newDir ["__TLS_DIRECTIVE__.old".toList]) =
        .ok () dir' ∧
      dir'.caddyfile =
        some ["    tls /etc/caddy/tls/tls.crt /etc/caddy/tls/tls.key.old".toList] ∧
      dir'.tls "tls.key.old" = none := by
  refine ⟨by decide +kernel, ⟨_, rfl, ?_, rfl⟩, by decide +kernel, ⟨_, rfl, ?_, rfl⟩,
    by decide +kernel, _, rfl, ?_, rfl⟩
  all_goals decide +kernel

end HelloCounter.Deploy
