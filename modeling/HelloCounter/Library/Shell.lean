import Mathlib.Data.List.Basic
import Mathlib.Logic.Function.Basic

/-! A command line as a shell reads it: words of bare characters and single-quoted text, pipelines,
`&&` and `;`.  A text with any other syntax has no reading here. -/

namespace Shell

abbrev Text := List Char

inductive Token where
  | word (text : Text)
  | semicolon
  | andIf
  | pipe
deriving DecidableEq

/-- A character that stands for itself outside quotes. -/
def isBare (c : Char) : Bool :=
  c.isAlphanum || ['_', '-', '.', '/', '=', ':', '@', '+', ',', '%'].contains c

/-- Where the lexer is: outside quotes, in a word or not, or inside them. -/
inductive Mode where
  | outside (word : Option Text)
  | quoted (read : Text)

/-- The word that ends here. -/
def finished : Option Text → List Token
  | none => []
  | some word => [.word word]

def lexFrom : Mode → Text → Option (List Token)
  | .outside word, [] => some (finished word)
  | .outside word, ' ' :: text => (finished word ++ ·) <$> lexFrom (.outside none) text
  | .outside word, ';' :: text =>
    (finished word ++ .semicolon :: ·) <$> lexFrom (.outside none) text
  | .outside word, '&' :: '&' :: text =>
    (finished word ++ .andIf :: ·) <$> lexFrom (.outside none) text
  | .outside word, '|' :: text => (finished word ++ .pipe :: ·) <$> lexFrom (.outside none) text
  | .outside word, '\'' :: text => lexFrom (.quoted (word.getD [])) text
  | .outside word, c :: text =>
    if isBare c then lexFrom (.outside (some (word.getD [] ++ [c]))) text else none
  | .quoted _, [] => none
  | .quoted read, '\'' :: text => lexFrom (.outside (some read)) text
  | .quoted read, c :: text => lexFrom (.quoted (read ++ [c])) text

def lex (text : Text) : Option (List Token) := lexFrom (.outside none) text

/-! ### The lexer on words -/

/-- A part of a word. -/
inductive Part where
  | bare (text : Text)
  | quoted (text : Text)

namespace Part

def source : Part → Text
  | bare text => text
  | quoted text => '\'' :: (text ++ ['\''])

def text : Part → Text
  | bare text | quoted text => text

/-- Bare characters, and quoted text without quotes. -/
def Valid : Part → Prop
  | bare text => text ≠ [] ∧ ∀ c ∈ text, isBare c = true
  | quoted text => '\'' ∉ text

end Part

/-- A word does not go on in the text. -/
def Stops (text : Text) : Prop := ∀ c ∈ text.head?, c ∈ [' ', ';', '|']

variable {text rest : Text}

theorem lexFrom_char {c : Char} (h : isBare c = true) (word : Option Text) (text : Text) :
    lexFrom (.outside word) (c :: text) =
      lexFrom (.outside (some (word.getD [] ++ [c]))) text := by
  have hSpecial : [' ', ';', '&', '|', '\''].any isBare = false := by decide
  have hNot : ∀ special ∈ [' ', ';', '&', '|', '\''], c ≠ special := by
    rintro special hMem rfl
    exact List.any_eq_false.mp hSpecial c hMem h
  simp only [List.forall_mem_cons] at hNot
  obtain ⟨hBlank, hSemicolon, hAnd, hPipe, hQuote, -⟩ := hNot
  rw [lexFrom, if_pos h] <;> intro <;> simp_all

theorem lexFrom_bare (bare : ∀ c ∈ text, isBare c = true) (word : Text) (rest : Text) :
    lexFrom (.outside (some word)) (text ++ rest) =
      lexFrom (.outside (some (word ++ text))) rest := by
  induction text generalizing word with
  | nil => simp
  | cons c text ih =>
    obtain ⟨hc, hText⟩ := List.forall_mem_cons.mp bare
    rw [List.cons_append, lexFrom_char hc, Option.getD_some, ih hText, List.append_assoc,
      List.singleton_append]

theorem lexFrom_quoted (noQuote : '\'' ∉ text) (read rest : Text) :
    lexFrom (.quoted read) (text ++ '\'' :: rest) =
      lexFrom (.outside (some (read ++ text))) rest := by
  induction text generalizing read with
  | nil => simp [lexFrom]
  | cons c text ih =>
    rw [List.mem_cons, not_or] at noQuote
    rw [List.cons_append, lexFrom, ih noQuote.2, List.append_assoc, List.singleton_append]
    exact fun h => noQuote.1 h.symm

theorem Part.Valid.lexFrom {part : Part} (valid : part.Valid) (word : Option Text) (rest : Text) :
    lexFrom (.outside word) (part.source ++ rest) =
      lexFrom (.outside (some (word.getD [] ++ part.text))) rest := by
  cases part with
  | bare text =>
    obtain ⟨hNil, bare⟩ := valid
    obtain ⟨c, text, rfl⟩ := List.exists_cons_of_ne_nil hNil
    obtain ⟨hc, hText⟩ := List.forall_mem_cons.mp bare
    rw [source, List.cons_append, lexFrom_char hc, lexFrom_bare hText, List.append_assoc]
    rfl
  | quoted text =>
    rw [source, List.cons_append, List.append_assoc, Shell.lexFrom]
    exact lexFrom_quoted valid _ rest

theorem lexFrom_parts {parts : List Part} (valid : ∀ part ∈ parts, part.Valid) (word rest : Text) :
    lexFrom (.outside (some word)) (parts.flatMap Part.source ++ rest) =
      lexFrom (.outside (some (word ++ parts.flatMap Part.text))) rest := by
  induction parts generalizing word with
  | nil => simp
  | cons part parts ih =>
    obtain ⟨hPart, hParts⟩ := List.forall_mem_cons.mp valid
    rw [List.flatMap_cons, List.append_assoc, hPart.lexFrom, Option.getD_some, ih hParts,
      List.flatMap_cons, List.append_assoc]

theorem lexFrom_stops (stops : Stops rest) (word : Text) :
    lexFrom (.outside (some word)) rest = (.word word :: ·) <$> lexFrom (.outside none) rest := by
  cases rest with
  | nil => rfl
  | cons c rest =>
    have hc : c ∈ [' ', ';', '|'] := stops c rfl
    simp only [List.mem_cons, List.not_mem_nil, or_false] at hc
    rcases hc with rfl | rfl | rfl <;> simp [lexFrom, finished, Function.comp_def]

/-- A word of valid parts is read as their texts. -/
theorem lex_word {parts : List Part} (nonempty : parts ≠ []) (valid : ∀ part ∈ parts, part.Valid)
    (stops : Stops rest) : lex (parts.flatMap Part.source ++ rest) =
      (.word (parts.flatMap Part.text) :: ·) <$> lex rest := by
  obtain ⟨part, parts, rfl⟩ := List.exists_cons_of_ne_nil nonempty
  obtain ⟨hPart, hParts⟩ := List.forall_mem_cons.mp valid
  rw [lex, List.flatMap_cons, List.append_assoc, hPart.lexFrom, lexFrom_parts hParts,
    lexFrom_stops stops]
  rfl

@[simp] theorem lex_nil : lex [] = some [] := rfl

@[simp] theorem lex_blank (rest : Text) : lex (' ' :: rest) = lex rest := by
  simp [lex, lexFrom, finished]

@[simp] theorem lex_semicolon (rest : Text) :
    lex (';' :: rest) = (.semicolon :: ·) <$> lex rest := rfl

@[simp] theorem lex_andIf (rest : Text) :
    lex ('&' :: '&' :: rest) = (.andIf :: ·) <$> lex rest := rfl

@[simp] theorem lex_pipe (rest : Text) : lex ('|' :: rest) = (.pipe :: ·) <$> lex rest := rfl

theorem lex_blanks {gap : Text} (blank : ∀ c ∈ gap, c = ' ') (rest : Text) :
    lex (gap ++ rest) = lex rest := by
  induction gap with
  | nil => rfl
  | cons c gap ih =>
    obtain ⟨rfl, hGap⟩ := List.forall_mem_cons.mp blank
    rw [List.cons_append, lex_blank, ih hGap]

/-! ### Commands -/

/-- The parts of a list between its separators. -/
def splits {α : Type} [DecidableEq α] (separator : α) : List α → List (List α)
  | [] => [[]]
  | a :: rest =>
    if a = separator then [] :: splits separator rest
    else match splits separator rest with
      | [] => [[a]]
      | part :: parts => (a :: part) :: parts

theorem splits_ne_nil {α : Type} [DecidableEq α] (separator : α) (rest : List α) :
    splits separator rest ≠ [] := by
  cases rest with
  | nil => exact List.cons_ne_nil _ _
  | cons a rest =>
    rw [splits]
    split
    · exact List.cons_ne_nil _ _
    · split <;> exact List.cons_ne_nil _ _

theorem splits_whole {α : Type} [DecidableEq α] {separator : α} {part : List α}
    (h : separator ∉ part) : splits separator part = [part] := by
  induction part with
  | nil => rfl
  | cons a part ih =>
    rw [List.mem_cons, not_or] at h
    rw [splits, if_neg (Ne.symm h.1), ih h.2]

theorem splits_part {α : Type} [DecidableEq α] {separator : α} {part : List α}
    (h : separator ∉ part) (rest : List α) :
    splits separator (part ++ separator :: rest) = part :: splits separator rest := by
  induction part with
  | nil => exact if_pos rfl
  | cons a part ih =>
    rw [List.mem_cons, not_or] at h
    rw [List.cons_append, splits, if_neg (Ne.symm h.1), ih h.2]

abbrev Simple := List Text

abbrev Pipeline := List Simple

/-- Pipelines that run one after the other, up to the first that fails. -/
abbrev AndList := List Pipeline

def Token.text? : Token → Option Text
  | word text => some text
  | _ => none

def andList (tokens : List Token) : AndList :=
  (splits .andIf tokens).map fun pipeline =>
    (splits .pipe pipeline).map fun command => command.filterMap Token.text?

/-- A command has a name, which is no assignment. -/
def Simple.Named (command : Simple) : Prop := ∃ name ∈ command.head?, '=' ∉ name

instance (command : Simple) : Decidable command.Named :=
  match command with
  | [] => isFalse (by simp [Simple.Named])
  | name :: _ => decidable_of_iff ('=' ∉ name) (by simp [Simple.Named])

def parse (tokens : List Token) : Option (List AndList) :=
  let lists := (splits .semicolon tokens).map andList
  if ∀ list ∈ lists, ∀ pipeline ∈ list, ∀ command ∈ pipeline, Simple.Named command
  then some lists else none

/-! ### Running a command line -/

/-- The variables of a shell, empty when unset, and its directory. -/
structure Session where
  env : String → Text
  cwd : Text

/-- The commands of a pipeline other than a builtin, with what they inherit. -/
structure Call where
  commands : Pipeline
  env : String → Text
  cwd : Text

/-- The directories and the commands of a machine with the state `σ`.  A command succeeds or
fails. -/
structure Machine (σ : Type) where
  isDir : Text → σ → Bool
  call : Call → σ → Bool × σ

/-- The directory that `cd dir` leads to. -/
def Session.resolve (session : Session) (dir : Text) : Text :=
  if dir.head? = some '/' then dir else session.cwd ++ '/' :: dir

def Session.set (session : Session) (name : String) (value : Text) : Session :=
  { session with env := Function.update session.env name value }

/-- `export word`. -/
def Session.export (session : Session) (word : Text) : Session :=
  if '=' ∈ word then
    session.set (String.ofList (word.takeWhile (· ≠ '='))) ((word.dropWhile (· ≠ '=')).drop 1)
  else session

variable {σ : Type}

/-- Whether the command succeeds, the session, and the machine. -/
abbrev Result (σ : Type) := Bool × Session × σ

/-- `cd`, to one directory. -/
def runCd (machine : Machine σ) (args : List Text) (session : Session) (state : σ) : Result σ :=
  match args with
  | [dir] =>
    if machine.isDir (session.resolve dir) state then
      (true, { session with cwd := session.resolve dir }, state)
    else (false, session, state)
  | _ => (false, session, state)

def runCall (machine : Machine σ) (pipeline : Pipeline) (session : Session) (state : σ) :
    Result σ :=
  let result := machine.call ⟨pipeline, session.env, session.cwd⟩ state
  (result.1, session, result.2)

/-- A builtin of a longer pipeline has no effect on the session. -/
def runPipeline (machine : Machine σ) (pipeline : Pipeline) (session : Session) (state : σ) :
    Result σ :=
  match pipeline with
  | [name :: args] =>
    if name = "export".toList then (true, args.foldl Session.export session, state)
    else if name = "cd".toList then runCd machine args session state
    else runCall machine pipeline session state
  | _ => runCall machine pipeline session state

def runAndList (machine : Machine σ) : AndList → Session → σ → Result σ
  | [], session, state => (true, session, state)
  | pipeline :: rest, session, state =>
    match runPipeline machine pipeline session state with
    | (true, session, state) => runAndList machine rest session state
    | failed => failed

/-- The status is that of the last list. -/
def runLists (machine : Machine σ) : List AndList → Session → σ → Result σ
  | [], session, state => (true, session, state)
  | [last], session, state => runAndList machine last session state
  | list :: lists, session, state =>
    let result := runAndList machine list session state
    runLists machine lists result.2.1 result.2.2

def run (machine : Machine σ) (text : Text) (session : Session) (state : σ) :
    Option (Result σ) :=
  (lex text >>= parse).map fun lists => runLists machine lists session state

/-- `export name='value';` -/
def exportCommand (name : String) (value : Text) : Text :=
  "export ".toList ++ (name.toList ++ "='".toList ++ value ++ "';".toList)

/-- The variables after the assignments in their order. -/
def assign (env : String → Text) (assignments : List (String × Text)) : String → Text :=
  assignments.foldl (fun env assignment => Function.update env assignment.1 assignment.2) env

/-- A variable's name, in bare characters. -/
def BareName (name : String) : Prop :=
  name.toList ≠ [] ∧ ∀ c ∈ name.toList, isBare c = true ∧ c ≠ '='

instance (name : String) : Decidable (BareName name) :=
  @instDecidableAnd _ _ _ (List.decidableBAll _ _)

variable {machine : Machine σ} {session : Session} {state : σ}

theorem parse_semicolon {part : List Token} (h : Token.semicolon ∉ part)
    (named : ∀ pipeline ∈ andList part, ∀ command ∈ pipeline, Simple.Named command)
    (tokens : List Token) :
    parse (part ++ .semicolon :: tokens) = (andList part :: ·) <$> parse tokens := by
  rw [parse, splits_part h, List.map_cons]
  simp only [List.forall_mem_cons]
  unfold parse
  by_cases hRest : ∀ list ∈ (splits .semicolon tokens).map andList, ∀ pipeline ∈ list,
      ∀ command ∈ pipeline, Simple.Named command
  · rw [if_pos ⟨named, hRest⟩, if_pos hRest]
    rfl
  · rw [if_neg fun h => hRest h.2, if_neg hRest]
    rfl

theorem parse_ne_nil {tokens : List Token} {lists : List AndList} (h : parse tokens = some lists) :
    lists ≠ [] := by
  simp only [parse] at h
  split at h
  · rw [← Option.some.inj h]
    exact List.map_eq_nil_iff.not.mpr (splits_ne_nil _ _)
  · cases h

theorem runLists_cons {lists : List AndList} (nonempty : lists ≠ []) (list : AndList) :
    runLists machine (list :: lists) session state =
      runLists machine lists (runAndList machine list session state).2.1
        (runAndList machine list session state).2.2 := by
  obtain ⟨next, lists, rfl⟩ := List.exists_cons_of_ne_nil nonempty
  rfl

theorem Session.export_assignment {name : String} (h : BareName name) (session : Session)
    (value : Text) :
    session.export (name.toList ++ '=' :: value) = session.set name value := by
  have hName : ∀ c ∈ name.toList, decide (c ≠ '=') = true := fun c hc => by
    simpa using (h.2 c hc).2
  have hTake : (name.toList ++ '=' :: value).takeWhile (· ≠ '=') = name.toList := by
    rw [List.takeWhile_append_of_pos hName, List.takeWhile_cons_of_neg (by decide),
      List.append_nil]
  have hDrop : (name.toList ++ '=' :: value).dropWhile (· ≠ '=') = '=' :: value := by
    rw [List.dropWhile_append_of_pos hName, List.dropWhile_cons_of_neg (by decide)]
  rw [Session.export, if_pos (by simp), hTake, hDrop, String.ofList_toList]
  rfl

theorem lex_exportCommand {name : String} {value : Text} (bare : BareName name)
    (noQuote : '\'' ∉ value) (rest : Text) :
    lex (exportCommand name value ++ rest) =
      ([.word "export".toList, .word (name.toList ++ '=' :: value), .semicolon] ++ ·) <$>
        lex rest := by
  have hExport : ∀ part ∈ [Part.bare "export".toList], part.Valid := by
    rw [List.forall_mem_singleton]
    exact ⟨by decide, List.all_eq_true.mp (by decide)⟩
  have hValue : ∀ part ∈ [Part.bare (name.toList ++ ['=']), Part.quoted value], part.Valid := by
    simp only [List.forall_mem_cons, Part.Valid]
    refine ⟨⟨by simp, ?_⟩, noQuote, by simp⟩
    intro c hc
    rcases List.mem_append.mp hc with hc | hc
    · exact (bare.2 c hc).1
    · rw [List.mem_singleton.mp hc]
      decide
  have hBlank : Stops (' ' :: (name.toList ++ "='".toList ++ value ++ "';".toList ++ rest)) := by
    simp [Stops]
  have hSemicolon : Stops (';' :: rest) := by simp [Stops]
  have hText : exportCommand name value ++ rest =
      [Part.bare "export".toList].flatMap Part.source ++
        ' ' :: (name.toList ++ "='".toList ++ value ++ "';".toList ++ rest) := by
    have hLiteral : "export ".toList = "export".toList ++ [' '] := by decide
    unfold exportCommand
    simp only [hLiteral, Part.source, List.flatMap_singleton, List.append_assoc,
      List.cons_append, List.nil_append]
  have hRest : name.toList ++ "='".toList ++ value ++ "';".toList ++ rest =
      [Part.bare (name.toList ++ ['=']), Part.quoted value].flatMap Part.source ++ ';' :: rest := by
    have hOpen : "='".toList = ['=', '\''] := by decide
    have hClose : "';".toList = ['\'', ';'] := by decide
    simp [hOpen, hClose, Part.source]
  rw [hText, lex_word (List.cons_ne_nil _ _) hExport hBlank, lex_blank, hRest,
    lex_word (List.cons_ne_nil _ _) hValue hSemicolon, lex_semicolon, Option.map_eq_map,
    Option.map_eq_map, Option.map_eq_map, Option.map_map, Option.map_map]
  simp [Part.text, Function.comp_def]

/-- An exported value without quotes arrives as it is. -/
theorem run_export {name : String} {value : Text} (bare : BareName name) (noQuote : '\'' ∉ value)
    (rest : Text) : run machine (exportCommand name value ++ rest) session state =
      run machine rest (session.set name value) state := by
  have hParse : ∀ tokens, parse ([.word "export".toList, .word (name.toList ++ '=' :: value),
      .semicolon] ++ tokens) =
        ([[["export".toList, name.toList ++ '=' :: value]]] :: ·) <$> parse tokens := by
    have named : ∀ pipeline ∈ andList [.word "export".toList, .word (name.toList ++ '=' :: value)],
        ∀ command ∈ pipeline, Simple.Named command := by
      simp [andList, splits, Token.text?, Simple.Named]
    exact parse_semicolon (by simp) named
  rw [run, run, lex_exportCommand bare noQuote]
  cases hLex : lex rest with
  | none => rfl
  | some tokens =>
    show Option.map _ (parse ([.word "export".toList, .word (name.toList ++ '=' :: value),
      .semicolon] ++ tokens)) = Option.map _ (parse tokens)
    rw [hParse]
    cases hTokens : parse tokens with
    | none => rfl
    | some lists =>
      show some (runLists _ _ _ _) = some _
      rw [runLists_cons (parse_ne_nil hTokens)]
      show some (runLists machine lists (Session.export session _) state) = _
      rw [Session.export_assignment bare]

theorem runPipeline_cd {dir : Text} (isDir : machine.isDir (session.resolve dir) state = true) :
    runPipeline machine [["cd".toList, dir]] session state =
      (true, { session with cwd := session.resolve dir }, state) := by
  rw [runPipeline, if_neg (by decide), if_pos rfl, runCd, if_pos isDir]

theorem runPipeline_call {name : Text} (hExport : name ≠ "export".toList)
    (hCd : name ≠ "cd".toList) (args : List Text) :
    runPipeline machine [name :: args] session state =
      runCall machine [name :: args] session state := by
  rw [runPipeline, if_neg hExport, if_neg hCd]

theorem runAndList_ok {pipeline : Pipeline} {session' : Session} {state' : σ}
    (h : runPipeline machine pipeline session state = (true, session', state')) (rest : AndList) :
    runAndList machine (pipeline :: rest) session state =
      runAndList machine rest session' state' := by
  rw [runAndList, h]

theorem runAndList_last (pipeline : Pipeline) :
    runAndList machine [pipeline] session state = runPipeline machine pipeline session state := by
  rw [runAndList]
  split
  · next h => exact h.symm
  · rfl

theorem run_blanks {gap : Text} (blank : ∀ c ∈ gap, c = ' ') (rest : Text) :
    run machine (gap ++ rest) session state = run machine rest session state := by
  rw [run, run, lex_blanks blank]

/-- A list of exports hands all values on. -/
theorem run_exports {assignments : List (String × Text)} {gap : Text}
    (bare : ∀ assignment ∈ assignments, BareName assignment.1)
    (noQuote : ∀ assignment ∈ assignments, '\'' ∉ assignment.2) (blank : ∀ c ∈ gap, c = ' ')
    (rest : Text) :
    run machine ((assignments.flatMap fun assignment =>
        exportCommand assignment.1 assignment.2 ++ gap) ++ rest) session state =
      run machine rest { session with env := assign session.env assignments } state := by
  induction assignments generalizing session with
  | nil => rfl
  | cons assignment assignments ih =>
    obtain ⟨hBare, hBares⟩ := List.forall_mem_cons.mp bare
    obtain ⟨hQuote, hQuotes⟩ := List.forall_mem_cons.mp noQuote
    rw [List.flatMap_cons, List.append_assoc, List.append_assoc, run_export hBare hQuote,
      run_blanks blank, ih hBares hQuotes]
    rfl

/-! ### The variables after a list of exports -/

theorem assign_of_not_mem {name : String} {assignments : List (String × Text)}
    (h : name ∉ assignments.map Prod.fst) (env : String → Text) :
    assign env assignments name = env name := by
  induction assignments generalizing env with
  | nil => rfl
  | cons assignment assignments ih =>
    rw [List.map_cons, List.mem_cons, not_or] at h
    exact (ih h.2 _).trans (Function.update_of_ne h.1 _ _)

/-- Of distinct variables each has the value that is assigned. -/
theorem assign_of_mem {assignment : String × Text} {assignments : List (String × Text)}
    (nodup : (assignments.map Prod.fst).Nodup) (h : assignment ∈ assignments)
    (env : String → Text) : assign env assignments assignment.1 = assignment.2 := by
  induction assignments generalizing env with
  | nil => cases h
  | cons first assignments ih =>
    obtain ⟨hFirst, hNodup⟩ := List.nodup_cons.mp nodup
    rcases List.mem_cons.mp h with rfl | h
    · exact (assign_of_not_mem hFirst _).trans (Function.update_self ..)
    · exact ih hNodup h _

end Shell
