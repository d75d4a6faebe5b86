import Mathlib.Data.List.Basic

/-! Texts of lines with nested blocks.  A line is a list of words; a brace at its end opens a block,
and a line that is a brace closes one. -/

namespace BlockText

abbrev Word := List Char

def openBrace : Word := ['\x7b']

def closeBrace : Word := ['\x7d']

/-- The lines of a block, of which some open blocks of their own. -/
inductive Body where
  | done
  | line (words : List Word) (rest : Body)
  | block (header : List Word) (inner rest : Body)
deriving DecidableEq

namespace Body

def append : Body → Body → Body
  | done, last => last
  | line words rest, last => .line words (rest.append last)
  | block header inner rest, last => .block header inner (rest.append last)

/-- The text of a body, line by line. -/
def lines : Body → List (List Word)
  | done => []
  | line words rest => words :: rest.lines
  | block header inner rest =>
    (header ++ [openBrace]) :: inner.lines ++ [closeBrace] :: rest.lines

/-- The lines at any depth, without their braces; a header is one with a block. -/
def entries : Body → List (List Word × Bool)
  | done => []
  | line words rest => (words, false) :: rest.entries
  | block header inner rest => (header, true) :: inner.entries ++ rest.entries

/-- The blocks of the body itself. -/
def blocks : Body → List (List Word × Body)
  | done => []
  | line _ rest => rest.blocks
  | block header inner rest => (header, inner) :: rest.blocks

/-- Every line of the body itself has a block. -/
def onlyBlocks : Body → Bool
  | done => true
  | line .. => false
  | block _ _ rest => rest.onlyBlocks

/-- No line ends like the header of a block, and none closes one. -/
def Regular : Body → Prop
  | done => True
  | line words rest => words ≠ [closeBrace] ∧ words.getLast? ≠ some openBrace ∧ rest.Regular
  | block header inner rest => header ≠ [] ∧ inner.Regular ∧ rest.Regular

theorem append_done (body : Body) : body.append .done = body := by
  induction body with
  | done => rfl
  | line words rest ih => rw [append, ih]
  | block header inner rest _ ih => rw [append, ih]

theorem append_assoc (first second third : Body) :
    (first.append second).append third = first.append (second.append third) := by
  induction first with
  | done => rfl
  | line words rest ih => rw [append, append, append, ih]
  | block header inner rest _ ih => rw [append, append, append, ih]

theorem lines_append (first last : Body) :
    (first.append last).lines = first.lines ++ last.lines := by
  induction first with
  | done => rfl
  | line words rest ih => rw [append, lines, lines, ih, List.cons_append]
  | block header inner rest _ ih =>
    rw [append, lines, lines, ih]
    simp only [List.cons_append, List.append_assoc]

end Body

/-! ### Reading -/

/-- A block that is open: its header, and the body before it. -/
structure Open where
  header : List Word
  before : Body

/-- Read the lines behind `body`, inside the open blocks. -/
def readFrom : (outer : List Open) → (body : Body) → (lines : List (List Word)) → Option Body
  | outer, body, [] => if outer.isEmpty then some body else none
  | outer, body, line :: lines =>
    if line = [closeBrace] then
      match outer with
      | [] => none
      | block :: outer =>
        readFrom outer (block.before.append (.block block.header body .done)) lines
    else if line.getLast? = some openBrace then
      readFrom (⟨line.dropLast, body⟩ :: outer) .done lines
    else readFrom outer (body.append (.line line .done)) lines

def read (lines : List (List Word)) : Option Body := readFrom [] .done lines

section

variable {outer : List Open} {before : Body} {line : List Word} {lines : List (List Word)}

theorem readFrom_line (hClose : line ≠ [closeBrace]) (hOpen : line.getLast? ≠ some openBrace) :
    readFrom outer before (line :: lines) =
      readFrom outer (before.append (.line line .done)) lines := by
  rw [readFrom.eq_def]
  exact (if_neg hClose).trans (if_neg hOpen)

theorem readFrom_open {header : List Word} (hHeader : header ≠ []) :
    readFrom outer before ((header ++ [openBrace]) :: lines) =
      readFrom (⟨header, before⟩ :: outer) .done lines := by
  have hClose : header ++ [openBrace] ≠ [closeBrace] := by
    intro h
    have hLength := congrArg List.length h
    rw [List.length_append, List.length_singleton, List.length_singleton] at hLength
    exact hHeader (List.eq_nil_of_length_eq_zero (by omega))
  have hOpen : (header ++ [openBrace]).getLast? = some openBrace := by
    rw [List.getLast?_append, List.getLast?_singleton, Option.some_or]
  rw [readFrom.eq_def]
  refine (if_neg hClose).trans ((if_pos hOpen).trans ?_)
  rw [List.dropLast_concat]

theorem readFrom_close {header : List Word} {body : Body} :
    readFrom (⟨header, before⟩ :: outer) body ([closeBrace] :: lines) =
      readFrom outer (before.append (.block header body .done)) lines := by
  rw [readFrom, if_pos rfl]

end

/-- A body is read back from its lines. -/
theorem readFrom_lines {body : Body} (regular : body.Regular) (outer : List Open) (before : Body)
    (rest : List (List Word)) :
    readFrom outer before (body.lines ++ rest) = readFrom outer (before.append body) rest := by
  induction body generalizing outer before rest with
  | done => rw [Body.append_done, Body.lines, List.nil_append]
  | line words last ih =>
    obtain ⟨hClose, hOpen, hLast⟩ := regular
    rw [Body.lines, List.cons_append, readFrom_line hClose hOpen, ih hLast, Body.append_assoc]
    rfl
  | block header inner last ihInner ih =>
    obtain ⟨hHeader, hInner, hLast⟩ := regular
    rw [Body.lines, List.cons_append, List.cons_append, readFrom_open hHeader, List.append_assoc,
      ihInner hInner, List.cons_append, readFrom_close, ih hLast, Body.append_assoc]
    rfl

theorem read_lines {body : Body} (regular : body.Regular) : read body.lines = some body := by
  have hRead := readFrom_lines regular [] .done []
  rwa [List.append_nil] at hRead

/-- The lines that opened the blocks, with those before them. -/
def openLines : List Open → List (List Word)
  | [] => []
  | block :: outer => openLines outer ++ block.before.lines ++ [block.header ++ [openBrace]]

/-- What is read has exactly the lines that were read. -/
theorem lines_of_readFrom {outer : List Open} {before body : Body} {lines : List (List Word)}
    (h : readFrom outer before lines = some body) :
    body.lines = openLines outer ++ before.lines ++ lines := by
  fun_induction readFrom outer before lines with
  | case1 outer before hOuter =>
    obtain rfl := Option.some.inj h
    obtain rfl := List.isEmpty_iff.mp hOuter
    simp [openLines]
  | case2 => cases h
  | case3 => cases h
  | case4 before lines block outer ih =>
    rw [ih h, Body.lines_append]
    simp [openLines, Body.lines]
  | case5 outer before line lines _ hOpen ih =>
    have hLine : line.dropLast ++ [openBrace] = line := by
      obtain ⟨header, rfl⟩ := List.getLast?_eq_some_iff.mp hOpen
      rw [List.dropLast_concat]
    rw [ih h]
    simp [openLines, Body.lines, hLine]
  | case6 outer before line lines _ _ ih =>
    rw [ih h, Body.lines_append]
    simp [Body.lines]

theorem lines_of_read {lines : List (List Word)} {body : Body} (h : read lines = some body) :
    body.lines = lines := lines_of_readFrom h

/-! ### Words -/

def blank (c : Char) : Bool := c == ' ' || c == '\t'

/-- The words of a line. -/
def words (line : List Char) : List Word := (line.splitOnP blank).filter (· ≠ [])

/-- The lines that are not blank and no comments, as words. -/
def commandLines (text : List (List Char)) : List (List Word) :=
  (text.map words).filter fun line => line.head?.any fun word => word.head? ≠ some '#'

end BlockText
