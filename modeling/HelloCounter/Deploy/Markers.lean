import HelloCounter.Deploy.Placeholders
import HelloCounter.Deploy.Sections

/-! The lines that a run writes.  They are the selected lines of the template with their
placeholders replaced.  A value joins the text on both sides of it, so that a marker can come about
in a line that had none; beside characters that no placeholder contains it cannot. -/

namespace HelloCounter.Deploy

/-- Beside every placeholder stands the end of the line or a character other than capital letters,
digits and underscores. -/
def ApartLine (line : Text) : Prop :=
  ∀ placeholder ∈ placeholders, ∀ before after, line = before ++ (placeholder.toList ++ after) →
    (∀ c ∈ before.getLast?, placeholderChar c = false) ∧
      ∀ c ∈ after.head?, placeholderChar c = false

theorem DelimitedLine.apart {line : Text} (delimited : DelimitedLine line) : ApartLine line := by
  have hChar : ∀ c, isWordChar c = false → placeholderChar c = false := by
    intro c hc
    simp only [isWordChar, Char.isAlphanum, Char.isAlpha, Bool.or_eq_false_iff] at hc
    simp [placeholderChar, hc]
  intro placeholder hPlaceholder before after hLine
  obtain ⟨hBefore, hAfter⟩ := delimited placeholder hPlaceholder before after hLine
  exact ⟨fun c hc => hChar c (hBefore c hc), fun c hc => hChar c (hAfter c hc)⟩

theorem markers_word : ∀ marker ∈ markers, marker.toList.all placeholderChar = true := by
  decide +kernel

theorem markers_marked : ∀ marker ∈ markers, ['_', '_'] <:+: marker.toList := by
  decide +kernel

variable {awk : Awk} {env : Env}

/-- A line keeps apart from the markers. -/
theorem ApartLine.not_markerLine {line : Text} (apart : ApartLine line)
    (servers : InertServers env) (hLine : ¬IsMarkerLine line) :
    ¬IsMarkerLine (substitute awk (runVars awk env) line) := by
  have inert : ∀ sub ∈ (runVars awk env).substitutions, Inert sub.2 :=
    substitutions_inert servers (directive_cases _ _) (directive_cases _ _) (directive_cases _ _)
  have delimited : Gsub.Delimited placeholderChar (runVars awk env).subs line := by
    intro sub hSub before after hText
    obtain ⟨placeholder, hPlaceholder, hEq⟩ := subs_pattern hSub
    exact apart placeholder hPlaceholder before after (hEq ▸ hText)
  have hSubstitute : substitute awk (runVars awk env) line =
      Gsub.gsubAll (runVars awk env).subs line := foldl_gsub awk inert line
  rintro ⟨marker, hMarker, hMatch⟩
  have hInfix : marker.toList <:+: Gsub.gsubAll (runVars awk env).subs line :=
    hSubstitute ▸ of_decide_eq_true hMatch
  refine (subs_wordSubs placeholder_chars inert).gsubAll_avoids delimited ?_ ?_ ?_ hInfix
  · exact fun c hc => List.all_eq_true.mp (markers_word marker hMarker) c hc
  · intro sub hSub hValue
    obtain ⟨gsub, hGsub, rfl⟩ := List.mem_map.mp hSub
    exact (inert gsub hGsub).1 ((markers_marked marker hMarker).trans hValue)
  · exact fun word hWord _ hMark => hLine ⟨marker, hMarker, decide_eq_true (hMark.trans hWord)⟩

/-- The rendered lines are the lines outside all sections and those of the enabled sections, with
their placeholders replaced; when the addresses are inert and the placeholders stand apart, none of
them is a marker line; and of the sections of each family exactly one is enabled. -/
theorem renderInfra_sections {dir dir' : AppDir} {parts : List Part} (plain : PlainFlags env)
    (template : dir.template = some (parts.flatMap Part.lines))
    (h : renderInfra awk env dir = .ok () dir') :
    dir'.caddyfile = some ((parts.flatMap (Part.selected env)).map (substitute awk
      (Vars.ofEnv awk env (directive env mainPair) (directive env nofeebookingPair)
        (directive env wwwPair)))) ∧
    (InertServers env → (∀ line ∈ parts.flatMap (Part.selected env), ApartLine line) →
      ∀ lines, dir'.caddyfile = some lines → ∀ line ∈ lines, ¬IsMarkerLine line) ∧
    ∀ family, ∃! s : Section, s.family = family ∧ s.enabled env = true := by
  have hLines : dir'.caddyfile = some ((parts.flatMap (Part.selected env)).map
      (substitute awk (runVars awk env))) := by
    rw [renderInfra_lines template h]
    exact congrArg some (renderLines_parts (flags_ofEnv awk plain _ _ _) parts)
  refine ⟨hLines, ?_, enabled_unique env⟩
  intro servers apart lines hWritten line hLine
  obtain rfl := Option.some.inj (hLines.symm.trans hWritten)
  obtain ⟨source, hSource, rfl⟩ := List.mem_map.mp hLine
  exact (apart source hSource).not_markerLine servers (selected_outside env parts source hSource)

def sentryParts : List Part :=
  [.outside "sentry.prakash.yral.com \x7b".toList (by decide +kernel),
    .enclosed .sentryBlock "__SENTRY_BLOCK_START__".toList ["    localhost:9000".toList]
      "__SENTRY_BLOCK_END__".toList (by decide +kernel) (by decide +kernel) (by decide +kernel),
    .enclosed .sentryProxy "__SENTRY_PROXY_START__".toList
      ["    __SENTRY_SERVER_IP__:9000".toList] "__SENTRY_PROXY_END__".toList (by decide +kernel)
      (by decide +kernel) (by decide +kernel)]

theorem sentryDir_rendered : ∃ dir',
    renderInfra Awk.plain (fun _ => []) (newDir (sentryParts.flatMap Part.lines)) = .ok () dir' ∧
    dir'.caddyfile =
      some ["sentry.prakash.yral.com \x7b".toList, "    94.130.13.115:9000".toList] ∧
    ∀ lines, dir'.caddyfile = some lines → ∀ line ∈ lines, ¬IsMarkerLine line := by
  obtain ⟨dir', run⟩ : ∃ dir', renderInfra Awk.plain (fun _ => [])
      (newDir (sentryParts.flatMap Part.lines)) = .ok () dir' := ⟨_, rfl⟩
  have plain : PlainFlags fun _ => [] := fun _ _ => ⟨List.not_mem_nil, List.not_mem_nil⟩
  have servers : InertServers fun _ => [] := fun _ _ => show Inert [] by decide
  have delimited : ∀ line ∈ sentryParts.flatMap (Part.selected fun _ => []),
      DelimitedLine line := by decide +kernel
  obtain ⟨hLines, hMarkers, -⟩ := renderInfra_sections plain rfl run
  refine ⟨dir', run, hLines.trans ?_, hMarkers servers fun line h => (delimited line h).apart⟩
  decide +kernel

/-- A line of which the empty directive leaves a marker. -/
def joinedParts : List Part :=
  [.outside "__SENTRY___TLS_DIRECTIVE__BLOCK_START__".toList (by decide +kernel)]

def upstreamParts : List Part := [.outside "__SENTRY_SERVER_IP__".toList (by decide +kernel)]

/-- A host whose Sentry address is a marker. -/
def markerAddress : Env
  | "SENTRY_SERVER_IP" => "__STORJ_BLOCK_START__".toList
  | _ => []

/-- A marker is written that the template does not hold, and one that an address holds. -/
theorem marker_written :
    (∃ dir', renderInfra Awk.plain (fun _ => []) (newDir (joinedParts.flatMap Part.lines)) =
        .ok () dir' ∧
      dir'.caddyfile = some ["__SENTRY_BLOCK_START__".toList]) ∧
    IsMarkerLine "__SENTRY_BLOCK_START__".toList ∧
    (∃ dir', renderInfra Awk.plain markerAddress (newDir (upstreamParts.flatMap Part.lines)) =
        .ok () dir' ∧
      dir'.caddyfile = some ["__STORJ_BLOCK_START__".toList]) ∧
    IsMarkerLine "__STORJ_BLOCK_START__".toList := by
  refine ⟨⟨_, rfl, ?_⟩, ?_, ⟨_, rfl, ?_⟩, ?_⟩
  all_goals decide +kernel

end HelloCounter.Deploy
