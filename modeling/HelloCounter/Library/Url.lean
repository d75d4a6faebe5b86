import Mathlib

/-! URLs with a special scheme, by their paths, as the URL standard reads them: the path state, the
setter of the path, and the resolution of a relative reference that is one segment. -/

namespace Whatwg

/-- The path percent-encode set, less the circumflex: the `url` crate leaves it in a path as it
is. -/
def encoded (c : Char) : Bool :=
  c.toNat ≤ 0x20 || 0x7F ≤ c.toNat ||
    [0x22, 0x23, 0x3C, 0x3E, 0x3F, 0x60, 0x7B, 0x7D].contains c.toNat

def percent (byte : UInt8) : List Char :=
  ['%', (Nat.digitChar (byte.toNat / 16)).toUpper, (Nat.digitChar (byte.toNat % 16)).toUpper]

def encode (c : Char) : List Char :=
  if encoded c then (String.utf8EncodeChar c).flatMap percent else [c]

def isSlash (c : Char) : Bool := c == '/' || c == '\\'

def isTabOrNewline (c : Char) : Bool := c == '\t' || c == '\n' || c == '\r'

def isSingleDot (segment : List Char) : Bool :=
  [".", "%2e"].any fun dot => segment.map Char.toLower == dot.toList

def isDoubleDot (segment : List Char) : Bool :=
  ["..", ".%2e", "%2e.", "%2e%2e"].any fun dots => segment.map Char.toLower == dots.toList

/-- The buffer at the end of a segment.  A dot segment at the end of the path leaves an empty
one. -/
def addSegment (path : List (List Char)) (buffer : List Char) (slash : Bool) : List (List Char) :=
  if isDoubleDot buffer then
    if slash then path.dropLast else path.dropLast ++ [[]]
  else if isSingleDot buffer then
    if slash then path else path ++ [[]]
  else path ++ [buffer]

def pathState (path : List (List Char)) (buffer : List Char) : List Char → List (List Char)
  | [] => addSegment path buffer false
  | c :: text =>
    if isSlash c then pathState (addSegment path buffer true) [] text
    else pathState path (buffer ++ encode c) text

def pathStartState : List Char → List (List Char)
  | [] => pathState [] [] []
  | c :: text => if isSlash c then pathState [] [] text else pathState [] [] (c :: text)

/-- A character that the path state takes as it is. -/
def plain (c : Char) : Bool := !encoded c && !isSlash c

/-- A segment that the path state takes as it is. -/
structure Normal (segment : List Char) : Prop where
  plain : ∀ c ∈ segment, Whatwg.plain c = true
  notSingle : isSingleDot segment = false
  notDouble : isDoubleDot segment = false

theorem Normal.nil : Normal [] := ⟨by simp, rfl, rfl⟩

section

variable {c : Char} {segment buffer : List Char} {path : List (List Char)}

theorem plain_digit {n : Nat} (h : n < 16) : plain (Nat.digitChar n).toUpper = true := by
  interval_cases n <;> decide

theorem plain_percent (byte : UInt8) : ∀ c ∈ percent byte, plain c = true := by
  have hByte : byte.toNat < 256 := byte.toNat_lt
  simp only [percent, List.forall_mem_cons]
  exact ⟨by decide, plain_digit (by omega), plain_digit (by omega), by simp⟩

theorem plain_encode (h : isSlash c = false) : ∀ d ∈ encode c, plain d = true := by
  unfold encode
  split
  · intro d hd
    obtain ⟨byte, -, hd⟩ := List.mem_flatMap.mp hd
    exact plain_percent byte d hd
  · next hEncoded =>
    intro d hd
    obtain rfl := List.mem_singleton.mp hd
    simp [plain, hEncoded, h]

theorem addSegment_normal (hPath : ∀ segment ∈ path, Normal segment)
    (hBuffer : ∀ c ∈ buffer, plain c = true) (slash : Bool) :
    ∀ segment ∈ addSegment path buffer slash, Normal segment := by
  have hInit : ∀ segment ∈ path.dropLast, Normal segment :=
    fun segment h => hPath segment (List.mem_of_mem_dropLast h)
  have hAppend : ∀ path : List (List Char), (∀ segment ∈ path, Normal segment) →
      ∀ segment ∈ path ++ [[]], Normal segment :=
    fun path h => List.forall_mem_append.mpr ⟨h, by simpa using Normal.nil⟩
  unfold addSegment
  split
  · split
    · exact hInit
    · exact hAppend _ hInit
  split
  · split
    · exact hPath
    · exact hAppend _ hPath
  · next hDouble hSingle =>
    refine List.forall_mem_append.mpr ⟨hPath, List.forall_mem_singleton.mpr ⟨hBuffer, ?_, ?_⟩⟩
    · simpa using hSingle
    · simpa using hDouble

theorem pathState_normal (hPath : ∀ segment ∈ path, Normal segment)
    (hBuffer : ∀ c ∈ buffer, plain c = true) (text : List Char) :
    ∀ segment ∈ pathState path buffer text, Normal segment := by
  induction text generalizing path buffer with
  | nil => exact addSegment_normal hPath hBuffer false
  | cons c text ih =>
    rw [pathState]
    split
    · exact ih (addSegment_normal hPath hBuffer true) (by simp)
    · next hSlash =>
      rw [Bool.not_eq_true] at hSlash
      exact ih hPath (List.forall_mem_append.mpr ⟨hBuffer, plain_encode hSlash⟩)

theorem pathState_ne_nil (path : List (List Char)) (buffer text : List Char) :
    pathState path buffer text ≠ [] := by
  induction text generalizing path buffer with
  | nil =>
    rw [pathState, addSegment]
    split_ifs <;> simp_all
  | cons c text ih =>
    rw [pathState]
    split
    · exact ih _ _
    · exact ih _ _

theorem pathStartState_normal (text : List Char) :
    ∀ segment ∈ pathStartState text, Normal segment := by
  unfold pathStartState
  split
  · exact pathState_normal (by simp) (by simp) _
  · split <;> exact pathState_normal (by simp) (by simp) _

theorem pathStartState_ne_nil (text : List Char) : pathStartState text ≠ [] := by
  unfold pathStartState
  split
  · exact pathState_ne_nil _ _ _
  · split <;> exact pathState_ne_nil _ _ _

/-! ### Plain text -/

theorem pathState_plain (h : ∀ c ∈ segment, plain c = true) (text : List Char) :
    pathState path buffer (segment ++ text) = pathState path (buffer ++ segment) text := by
  induction segment generalizing buffer with
  | nil => rw [List.nil_append, List.append_nil]
  | cons c segment ih =>
    obtain ⟨hPlain, hRest⟩ := List.forall_mem_cons.mp h
    obtain ⟨hEncoded, hSlash⟩ : encoded c = false ∧ isSlash c = false := by
      simpa [plain] using hPlain
    rw [List.cons_append, pathState, hSlash, if_neg (by simp), ih hRest, encode, hEncoded,
      if_neg (by simp), List.append_assoc]
    rfl

theorem addSegment_of_normal (h : Normal segment) (slash : Bool) :
    addSegment path segment slash = path ++ [segment] := by
  rw [addSegment, h.notDouble, h.notSingle]
  rfl

/-- The text of a path. -/
def pathText (segments : List (List Char)) : List Char := segments.flatMap fun s => '/' :: s

theorem pathText_append_single (segments : List (List Char)) (segment : List Char) :
    pathText (segments ++ [segment]) = pathText segments ++ '/' :: segment := by
  rw [pathText, List.flatMap_append, List.flatMap_singleton]
  rfl

theorem slash_not_mem (h : ∀ c ∈ segment, plain c = true) : '/' ∉ segment := fun hMem =>
  absurd (h '/' hMem) (by decide)

theorem pathState_segments {segments : List (List Char)} (h : Normal segment)
    (hSegments : ∀ segment ∈ segments, Normal segment) :
    pathState path [] (segment ++ pathText segments) = path ++ segment :: segments := by
  induction segments generalizing path segment with
  | nil =>
    rw [pathText, List.flatMap_nil, pathState_plain h.plain, List.nil_append, pathState,
      addSegment_of_normal h]
  | cons next segments ih =>
    obtain ⟨hNext, hRest⟩ := List.forall_mem_cons.mp hSegments
    rw [pathText, List.flatMap_cons, pathState_plain h.plain, List.nil_append, List.cons_append,
      pathState, if_pos (show isSlash '/' = true from rfl), addSegment_of_normal h]
    exact (ih hNext hRest).trans (List.append_assoc ..)

theorem pathStartState_pathText {segments : List (List Char)} (hNil : segments ≠ [])
    (h : ∀ segment ∈ segments, Normal segment) : pathStartState (pathText segments) = segments := by
  obtain ⟨segment, segments, rfl⟩ := List.exists_cons_of_ne_nil hNil
  obtain ⟨hSegment, hRest⟩ := List.forall_mem_cons.mp h
  exact pathState_segments hSegment hRest

end

/-! ### URLs -/

/-- A URL with a special scheme.  The origin is everything before the path. -/
structure Url where
  origin : String
  segments : List (List Char)
  query : Option String
  fragment : Option String
  ne_nil : segments ≠ []
  normal : ∀ segment ∈ segments, Normal segment

/-- A relative reference that is one segment: neither a scheme nor a delimiter is in it. -/
structure Reference where
  text : List Char
  plain : ∀ c ∈ text, Whatwg.plain c = true
  noScheme : ':' ∉ text

namespace Url

def path (url : Url) : List Char := pathText url.segments

def asStr (url : Url) : List Char :=
  url.origin.toList ++ url.path ++ url.query.elim [] (fun query => '?' :: query.toList) ++
    url.fragment.elim [] fun fragment => '#' :: fragment.toList

def setPath (url : Url) (text : List Char) : Url :=
  { url with
    segments := pathStartState (text.filter fun c => !isTabOrNewline c)
    ne_nil := pathStartState_ne_nil _
    normal := pathStartState_normal _ }

/-- Resolution against a base: an empty reference drops the fragment only, any other replaces the
last segment and drops the query as well. -/
def join (base : Url) (reference : Reference) : Url :=
  if reference.text = [] then { base with fragment := none }
  else
    { base with
      segments := pathState base.segments.dropLast [] reference.text
      query := none
      fragment := none
      ne_nil := pathState_ne_nil _ _ _
      normal := pathState_normal
        (fun segment h => base.normal segment (List.mem_of_mem_dropLast h)) (by simp) _ }

theorem isTabOrNewline_of_plain {c : Char} (h : plain c = true) : isTabOrNewline c = false := by
  by_contra hTab
  rw [Bool.not_eq_false, isTabOrNewline, Bool.or_eq_true, Bool.or_eq_true] at hTab
  rcases hTab with (hTab | hTab) | hTab <;> obtain rfl := beq_iff_eq.mp hTab <;> cases h

theorem filter_pathText {segments : List (List Char)}
    (h : ∀ segment ∈ segments, Normal segment) :
    (pathText segments).filter (fun c => !isTabOrNewline c) = pathText segments := by
  apply List.filter_eq_self.mpr
  intro c hc
  obtain ⟨segment, hSegment, hc⟩ := List.mem_flatMap.mp hc
  rcases List.mem_cons.mp hc with rfl | hc
  · rfl
  · rw [isTabOrNewline_of_plain ((h segment hSegment).plain c hc)]
    rfl

theorem setPath_segments (url : Url) {segments : List (List Char)} (hNil : segments ≠ [])
    (h : ∀ segment ∈ segments, Normal segment) :
    (url.setPath (pathText segments)).segments = segments := by
  show pathStartState ((pathText segments).filter fun c => !isTabOrNewline c) = segments
  rw [filter_pathText h, pathStartState_pathText hNil h]

theorem join_segments (base : Url) {reference : Reference} (hNil : reference.text ≠ [])
    (h : Normal reference.text) :
    (base.join reference).segments = base.segments.dropLast ++ [reference.text] := by
  rw [join, if_neg hNil]
  have hState : pathState base.segments.dropLast [] (reference.text ++ pathText []) =
      base.segments.dropLast ++ [reference.text] := pathState_segments h (by simp)
  rwa [pathText, List.flatMap_nil, List.append_nil] at hState

/-- A path is the text of all segments but the last, a slash and the last segment. -/
theorem path_last (url : Url) : ∃ segments last, url.segments = segments ++ [last] ∧
    url.path = pathText segments ++ '/' :: last ∧ '/' ∉ last := by
  have hSplit := List.dropLast_append_getLast url.ne_nil
  have hLast := url.normal _ (List.getLast_mem url.ne_nil)
  refine ⟨_, _, hSplit.symm, ?_, slash_not_mem hLast.plain⟩
  rw [path, ← pathText_append_single, hSplit]

end Url

end Whatwg
