import HelloCounter.Deploy.RenderInfra
import Mathlib.Data.List.Nodup

/-! The sections of the infra template.  A template is a list of parts: lines outside all sections,
and sections between their markers.  The lines selected are those outside and those of the enabled
sections, and of the sections of one host exactly one is enabled. -/

namespace HelloCounter.Deploy

inductive Section where
  | sentryBlock | sentryProxy
  | nofeebookingBlock | nofeebookingStatic | nofeebookingProxy
  | storjBlock | storjProxy
deriving DecidableEq

inductive Family where
  | sentry | nofeebooking | storj
deriving DecidableEq

namespace Section

def name : Section → String
  | sentryBlock => "SENTRY_BLOCK"
  | sentryProxy => "SENTRY_PROXY"
  | nofeebookingBlock => "NOFEEBOOKING_BLOCK"
  | nofeebookingStatic => "NOFEEBOOKING_STATIC"
  | nofeebookingProxy => "NOFEEBOOKING_PROXY"
  | storjBlock => "STORJ_BLOCK"
  | storjProxy => "STORJ_PROXY"

def start (s : Section) : String := "__" ++ s.name ++ "_START__"

def stop (s : Section) : String := "__" ++ s.name ++ "_END__"

def family : Section → Family
  | sentryBlock | sentryProxy => .sentry
  | nofeebookingBlock | nofeebookingStatic | nofeebookingProxy => .nofeebooking
  | storjBlock | storjProxy => .storj

/-- The section is part of the host's roles. -/
def enabled (env : Env) : Section → Bool
  | sentryBlock => isTrue (env "SENTRY_ENABLED")
  | sentryProxy => !isTrue (env "SENTRY_ENABLED")
  | nofeebookingBlock =>
    isTrue (env "NOFEEBOOKING_ENABLED") && isTrue (env "NOFEEBOOKING_TLS_SOURCE_HOST")
  | nofeebookingStatic =>
    isTrue (env "NOFEEBOOKING_ENABLED") && !isTrue (env "NOFEEBOOKING_TLS_SOURCE_HOST")
  | nofeebookingProxy => !isTrue (env "NOFEEBOOKING_ENABLED")
  | storjBlock => isTrue (env "STORJ_ENABLED")
  | storjProxy => !isTrue (env "STORJ_ENABLED")

end Section

def markers : List String :=
  [Section.sentryBlock, .sentryProxy, .nofeebookingBlock, .nofeebookingStatic, .nofeebookingProxy,
    .storjBlock, .storjProxy].flatMap fun s => [s.start, s.stop]

def IsMarkerLine (line : Text) : Prop := ∃ marker ∈ markers, Awk.isMatch marker line = true

def MarkedBy (marker : String) (line : Text) : Prop :=
  ∀ marker' ∈ markers, Awk.isMatch marker' line = true ↔ marker' = marker

instance (line : Text) : Decidable (IsMarkerLine line) :=
  inferInstanceAs (Decidable (∃ marker ∈ markers, _))

instance (marker : String) (line : Text) : Decidable (MarkedBy marker line) :=
  inferInstanceAs (Decidable (∀ marker' ∈ markers, _))

/-- A line outside all sections, or a section with its marker lines. -/
inductive Part where
  | outside (line : Text) (plain : ¬IsMarkerLine line)
  | enclosed (s : Section) (first : Text) (body : List Text) (last : Text)
      (hFirst : MarkedBy s.start first) (hBody : ∀ line ∈ body, ¬IsMarkerLine line)
      (hLast : MarkedBy s.stop last)

namespace Part

def lines : Part → List Text
  | outside line _ => [line]
  | enclosed _ first body last .. => first :: (body ++ [last])

def selected (env : Env) : Part → List Text
  | outside line _ => [line]
  | enclosed s _ body .. => if s.enabled env then body else []

end Part

/-! ### One record -/

variable {awk : Awk} {vars : Vars} {env : Env}

theorem rules_markers (vars : Vars) : vars.rules.map Prod.fst = markers := by
  rfl

theorem record_outside {line : Text} (h : ¬IsMarkerLine line) (skip : Bool) :
    record awk vars skip line =
      (skip, if skip then none else some (substitute awk vars line)) := by
  have hFind : vars.rules.find? (fun rule => Awk.isMatch rule.1 line) = none := by
    rw [List.find?_eq_none]
    intro rule hRule hMatch
    refine h ⟨rule.1, ?_, hMatch⟩
    rw [← rules_markers vars]
    exact List.mem_map_of_mem hRule
  rw [record, hFind]

theorem record_marker {line : Text} {marker : String} {skip' : Bool}
    (hLine : MarkedBy marker line) (hRule : (marker, skip') ∈ vars.rules) (skip : Bool) :
    record awk vars skip line = (skip', none) := by
  have hMarker : marker ∈ markers := rules_markers vars ▸ List.mem_map_of_mem hRule
  have hFound : ∃ rule, vars.rules.find? (fun rule => Awk.isMatch rule.1 line) = some rule := by
    rw [← Option.isSome_iff_exists, List.find?_isSome]
    exact ⟨_, hRule, (hLine marker hMarker).mpr rfl⟩
  obtain ⟨rule, hFind⟩ := hFound
  have hMem := List.mem_of_find?_eq_some hFind
  have hMatch := List.find?_some hFind
  have hEq : rule.1 = marker :=
    (hLine rule.1 (rules_markers vars ▸ List.mem_map_of_mem hMem)).mp hMatch
  have hNodup : (vars.rules.map Prod.fst).Nodup := by rw [rules_markers]; decide
  obtain rfl : rule = (marker, skip') := List.inj_on_of_nodup_map hNodup hMem hRule hEq
  rw [record, hFind]

/-! ### The lines of a template -/

theorem renderLines_outside {body : List Text} (h : ∀ line ∈ body, ¬IsMarkerLine line)
    (skip : Bool) (rest : List Text) :
    renderLines awk vars skip (body ++ rest) =
      (if skip then [] else body.map (substitute awk vars)) ++ renderLines awk vars skip rest := by
  induction body with
  | nil => cases skip <;> rfl
  | cons line body ih =>
    obtain ⟨hLine, hBody⟩ := List.forall_mem_cons.mp h
    rw [List.cons_append, renderLines, record_outside hLine, ih hBody]
    cases skip <;> rfl

theorem renderLines_marker {line : Text} {marker : String} {skip' : Bool}
    (hLine : MarkedBy marker line) (hRule : (marker, skip') ∈ vars.rules) (skip : Bool)
    (rest : List Text) :
    renderLines awk vars skip (line :: rest) = renderLines awk vars skip' rest := by
  rw [renderLines, record_marker hLine hRule]
  rfl

/-- The program's flags are the host's roles. -/
def Flags (vars : Vars) (env : Env) : Prop :=
  ∀ s : Section, (s.start, !s.enabled env) ∈ vars.rules

theorem stop_mem_rules (vars : Vars) (s : Section) : (s.stop, false) ∈ vars.rules := by
  cases s <;> simp [Vars.rules, Section.stop, Section.name]

/-- Rendering begins and ends outside all sections. -/
theorem renderLines_parts (flags : Flags vars env) (parts : List Part) :
    renderLines awk vars false (parts.flatMap Part.lines) =
      (parts.flatMap (Part.selected env)).map (substitute awk vars) := by
  induction parts with
  | nil => rfl
  | cons part parts ih =>
    rw [List.flatMap_cons, List.flatMap_cons, List.map_append, ← ih]
    cases part with
    | outside line plain =>
      exact renderLines_outside (fun l hl => List.mem_singleton.mp hl ▸ plain) false _
    | enclosed s first body last hFirst hBody hLast =>
      show renderLines awk vars false (first :: (body ++ [last] ++ _)) = _
      rw [renderLines_marker hFirst (flags s), List.append_assoc,
        renderLines_outside hBody, List.singleton_append,
        renderLines_marker hLast (stop_mem_rules vars s), Part.selected]
      cases s.enabled env <;> rfl

theorem selected_outside (env : Env) (parts : List Part) :
    ∀ line ∈ parts.flatMap (Part.selected env), ¬IsMarkerLine line := by
  intro line hLine
  obtain ⟨part, -, hMem⟩ := List.mem_flatMap.mp hLine
  cases part with
  | outside line' plain => exact List.mem_singleton.mp hMem ▸ plain
  | enclosed s first body last hFirst hBody hLast =>
    rw [Part.selected] at hMem
    split at hMem
    · exact hBody line hMem
    · cases hMem

def variant (env : Env) : Family → Section
  | .sentry => if isTrue (env "SENTRY_ENABLED") then .sentryBlock else .sentryProxy
  | .nofeebooking =>
    if isTrue (env "NOFEEBOOKING_ENABLED") then
      if isTrue (env "NOFEEBOOKING_TLS_SOURCE_HOST") then .nofeebookingBlock
      else .nofeebookingStatic
    else .nofeebookingProxy
  | .storj => if isTrue (env "STORJ_ENABLED") then .storjBlock else .storjProxy

theorem variant_family (env : Env) (family : Family) : (variant env family).family = family := by
  cases family <;> simp only [variant] <;> (repeat' split) <;> rfl

theorem enabled_iff (env : Env) (s : Section) :
    s.enabled env = true ↔ s = variant env s.family := by
  cases s <;> simp only [Section.enabled, Section.family, variant] <;> (repeat' split) <;>
    simp_all

theorem enabled_unique (env : Env) (family : Family) :
    ∃! s : Section, s.family = family ∧ s.enabled env = true := by
  have hFamily := variant_family env family
  refine ⟨variant env family, ⟨hFamily, ?_⟩, ?_⟩
  · rw [enabled_iff, hFamily]
  · rintro s ⟨rfl, hEnabled⟩
    exact (enabled_iff env s).mp hEnabled

/-- The values of the four flags contain neither newlines nor backslashes. -/
def PlainFlags (env : Env) : Prop :=
  ∀ name ∈ ["SENTRY_ENABLED", "NOFEEBOOKING_ENABLED", "NOFEEBOOKING_TLS_SOURCE_HOST",
    "STORJ_ENABLED"], '\\' ∉ env name ∧ '\n' ∉ env name

theorem isTrue_assign (awk : Awk) {env : Env} {name : String}
    (h : '\\' ∉ env name ∧ '\n' ∉ env name) :
    isTrue (awk.assign (env.getD name "false")) = isTrue (env name) := by
  unfold Env.getD
  by_cases hNil : env name = []
  · rw [if_pos hNil, hNil, awk.assign_plain _ (by decide) (by decide)]
    rfl
  · rw [if_neg hNil, awk.assign_plain _ h.1 h.2]

theorem flags_ofEnv (awk : Awk) {env : Env} (plain : PlainFlags env) (tls nofeebooking www : Text) :
    Flags (Vars.ofEnv awk env tls nofeebooking www) env := by
  have hSentry := isTrue_assign awk (plain "SENTRY_ENABLED" (by simp))
  have hEnabled := isTrue_assign awk (plain "NOFEEBOOKING_ENABLED" (by simp))
  have hSource := isTrue_assign awk (plain "NOFEEBOOKING_TLS_SOURCE_HOST" (by simp))
  have hStorj := isTrue_assign awk (plain "STORJ_ENABLED" (by simp))
  intro s
  unfold Vars.rules Vars.ofEnv
  cases s <;>
    simp [Section.start, Section.name, Section.enabled, hSentry, hEnabled, hSource, hStorj]

end HelloCounter.Deploy
