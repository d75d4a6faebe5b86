import HelloCounter.Deploy.ExportCert
import Mathlib

/-! `scripts/server/export-caddy-managed-cert.sh --local-caddy-data`: the certificate and the key
are looked up by two searches of the whole tree, each of which takes the first path that it
prints. -/

namespace HelloCounter.Server

open Deploy (Text writeBase64File)

/-- What `find -name` matches.  A pattern without special characters matches itself only. -/
structure Glob where
  nameMatches : (pattern name : Text) → Bool
  literal : ∀ pattern name, (∀ c ∈ ['*', '?', '[', '\\'], c ∉ pattern) →
    (nameMatches pattern name = true ↔ name = pattern)

/-- A regular file below the Caddy data directory. -/
structure TreeFile where
  dir : Text
  name : Text
  noSlash : '/' ∉ name
deriving DecidableEq

def TreeFile.path (file : TreeFile) : Text := file.dir ++ '/' :: file.name

structure Disk where
  /-- The regular files below the Caddy data directory, in the order of the traversal. -/
  tree : List TreeFile
  /-- What `cp` reads from a path, or nothing when it cannot. -/
  read : Text → Option Deploy.Bytes

abbrev Command (α : Type) := EStateM Text Disk α

/-- `find root -type f -name filename | head -n 1`, as the command substitution returns it. -/
def findLocalFile (glob : Glob) (disk : Disk) (filename : Text) : Text :=
  let found := disk.tree.filter fun file => glob.nameMatches filename file.name
  (found.flatMap fun file => file.path ++ ['\n']).takeWhile (· ≠ '\n')

def copyLocalFile (source output : Text) : Command Unit := fun disk =>
  match disk.read source with
  | none => .error ("cp: cannot read ".toList ++ source) disk
  | some bytes => .ok () { disk with read := Function.update disk.read output (some bytes) }

/-- `base64 < input | tr -d '\n'`. -/
def writeBase64 (input : Text) : Command Text := fun disk =>
  match disk.read input with
  | none => .error ("cannot open ".toList ++ input) disk
  | some bytes => .ok (writeBase64File bytes) disk

/-- The paths that were copied, and the contents of the two text files. -/
structure Exported where
  certSource : Text
  keySource : Text
  certB64 : Text
  keyB64 : Text

def certFilename (site : Text) : Text := site ++ ".crt".toList

def keyFilename (site : Text) : Text := site ++ ".key".toList

/-- The commands after both searches. -/
def exportFound (site outputDir certSource keySource : Text) : Command Exported := do
  let certOutput := outputDir ++ '/' :: certFilename site
  let keyOutput := outputDir ++ '/' :: keyFilename site
  copyLocalFile certSource certOutput
  copyLocalFile keySource keyOutput
  let certB64 ← writeBase64 certOutput
  let keyB64 ← writeBase64 keyOutput
  return { certSource, keySource, certB64, keyB64 }

def exportLocal (glob : Glob) (site outputDir : Text) : Command Exported := fun disk =>
  let certSource := findLocalFile glob disk (certFilename site)
  let keySource := findLocalFile glob disk (keyFilename site)
  if certSource = [] then .error ("could not find ".toList ++ certFilename site) disk
  else if keySource = [] then .error ("could not find ".toList ++ keyFilename site) disk
  else exportFound site outputDir certSource keySource disk

/-! ### The two searches -/

/-- The part of a path behind its last slash. -/
def basename (path : Text) : Text := path.rtakeWhile (· ≠ '/')

/-- The part of a path up to its last slash. -/
def dirname (path : Text) : Text := path.rdropWhile (· ≠ '/')

/-- The two paths lead to files of one directory that are named after the site. -/
def Together (site certPath keyPath : Text) : Prop :=
  basename certPath = certFilename site ∧ basename keyPath = keyFilename site ∧
    dirname certPath = dirname keyPath

/-- The file is the first one in the tree whose name matches the pattern. -/
def FirstMatch (glob : Glob) (tree : List TreeFile) (pattern : Text) (file : TreeFile) : Prop :=
  ∃ before after, tree = before ++ file :: after ∧ glob.nameMatches pattern file.name = true ∧
    ∀ other ∈ before, glob.nameMatches pattern other.name = false

/-- The directory holds a file of this very name, which the pattern of that name matches, and the
tree no earlier match. -/
def HoldsFirst (glob : Glob) (tree : List TreeFile) (dir name : Text) : Prop :=
  ∃ file, FirstMatch glob tree name file ∧ file.dir = dir ∧ file.name = name

def firstLine (text : Text) : Text := text.takeWhile (· ≠ '\n')

variable {glob : Glob} {site outputDir pattern : Text} {disk disk' : Disk} {exported : Exported}

theorem findLocalFile_first {file : TreeFile} (first : FirstMatch glob disk.tree pattern file) :
    findLocalFile glob disk pattern = firstLine file.path := by
  obtain ⟨before, after, hTree, hFile, hBefore⟩ := first
  have hNone : before.filter (fun other => glob.nameMatches pattern other.name) = [] := by
    rw [List.filter_eq_nil_iff]
    intro other hOther
    simp [hBefore other hOther]
  rw [findLocalFile, hTree, List.filter_append, hNone, List.nil_append,
    List.filter_cons_of_pos (by simpa using hFile)]
  show (file.path ++ ['\n'] ++ _).takeWhile _ = _
  rw [List.append_assoc, firstLine, List.takeWhile_append]
  split
  · rename_i hLine
    rw [(List.takeWhile_prefix _).eq_of_length hLine]
    exact List.append_nil _
  · rfl

theorem exists_first (h : findLocalFile glob disk pattern ≠ []) :
    ∃ file, FirstMatch glob disk.tree pattern file := by
  cases hFind : disk.tree.find? (fun file => glob.nameMatches pattern file.name) with
  | none =>
    have hNone : disk.tree.filter (fun file => glob.nameMatches pattern file.name) = [] := by
      rw [List.filter_eq_nil_iff]
      exact List.find?_eq_none.mp hFind
    rw [findLocalFile, hNone] at h
    exact absurd rfl h
  | some file =>
    obtain ⟨hFile, before, after, hTree, hBefore⟩ := List.find?_eq_some_iff_append.mp hFind
    refine ⟨file, before, after, hTree, hFile, fun other hOther => ?_⟩
    simpa using hBefore other hOther

/-- There is one first match at most. -/
theorem FirstMatch.unique {tree : List TreeFile} {file file' : TreeFile}
    (first : FirstMatch glob tree pattern file) (first' : FirstMatch glob tree pattern file') :
    file = file' := by
  have hFind : ∀ {file}, FirstMatch glob tree pattern file →
      tree.find? (fun file => glob.nameMatches pattern file.name) = some file := by
    rintro file ⟨before, after, hTree, hFile, hBefore⟩
    exact List.find?_eq_some_iff_append.mpr
      ⟨hFile, before, after, hTree, fun other hOther => by simp [hBefore other hOther]⟩
  exact Option.some.inj ((hFind first).symm.trans (hFind first'))

theorem bind_ok {α β : Type} {command : Command α} {next : α → Command β} {b : β} :
    (command >>= next) disk = .ok b disk' ↔
      ∃ a between, command disk = .ok a between ∧ next a between = .ok b disk' := by
  show (EStateM.bind command next) disk = .ok b disk' ↔ _
  unfold EStateM.bind
  cases command disk with
  | ok a between => simp
  | error e between => simp

theorem exportFound_ok {certSource keySource : Text}
    (h : exportFound site outputDir certSource keySource disk = .ok exported disk') :
    exported.certSource = certSource ∧ exported.keySource = keySource := by
  obtain ⟨_, _, -, h⟩ := bind_ok.mp h
  obtain ⟨_, _, -, h⟩ := bind_ok.mp h
  obtain ⟨certB64, _, -, h⟩ := bind_ok.mp h
  obtain ⟨keyB64, _, -, h⟩ := bind_ok.mp h
  cases h
  exact ⟨rfl, rfl⟩

/-- A run that succeeds copies the first lines of the paths of two first matches. -/
theorem exportLocal_ok (h : exportLocal glob site outputDir disk = .ok exported disk') :
    ∃ cert key', FirstMatch glob disk.tree (certFilename site) cert ∧
      FirstMatch glob disk.tree (keyFilename site) key' ∧
      exported.certSource = firstLine cert.path ∧ exported.keySource = firstLine key'.path := by
  have hFound : findLocalFile glob disk (certFilename site) ≠ [] ∧
      findLocalFile glob disk (keyFilename site) ≠ [] ∧
      exportFound site outputDir (findLocalFile glob disk (certFilename site))
        (findLocalFile glob disk (keyFilename site)) disk = .ok exported disk' := by
    by_cases hCert : findLocalFile glob disk (certFilename site) = []
    · cases (if_pos hCert).symm.trans h
    · have h := (if_neg hCert).symm.trans h
      by_cases hKey : findLocalFile glob disk (keyFilename site) = []
      · cases (if_pos hKey).symm.trans h
      · exact ⟨hCert, hKey, (if_neg hKey).symm.trans h⟩
  obtain ⟨hCert, hKey, hExport⟩ := hFound
  obtain ⟨cert, hCert⟩ := exists_first hCert
  obtain ⟨key', hKey⟩ := exists_first hKey
  obtain ⟨hCertSource, hKeySource⟩ := exportFound_ok hExport
  refine ⟨cert, key', hCert, hKey, ?_, ?_⟩
  · rw [hCertSource, findLocalFile_first hCert]
  · rw [hKeySource, findLocalFile_first hKey]

/-! ### Files of one directory -/

theorem path_reverse (file : TreeFile) :
    file.path.reverse = file.name.reverse ++ '/' :: file.dir.reverse := by
  simp [TreeFile.path]

theorem name_reverse (file : TreeFile) : ∀ c ∈ file.name.reverse, decide (c ≠ '/') = true := by
  intro c hc
  simpa using fun h : c = '/' => file.noSlash (h ▸ List.mem_reverse.mp hc)

theorem basename_path (file : TreeFile) : basename file.path = file.name := by
  rw [basename, List.rtakeWhile, path_reverse,
    List.takeWhile_append_of_pos (name_reverse file), List.takeWhile_cons_of_neg (by decide),
    List.append_nil, List.reverse_reverse]

theorem dirname_path (file : TreeFile) : dirname file.path = file.dir ++ ['/'] := by
  rw [dirname, List.rdropWhile, path_reverse,
    List.dropWhile_append_of_pos (name_reverse file), List.dropWhile_cons_of_neg (by decide),
    List.reverse_cons, List.reverse_reverse]

theorem together_path {cert key' : TreeFile} :
    Together site cert.path key'.path ↔
      cert.name = certFilename site ∧ key'.name = keyFilename site ∧ cert.dir = key'.dir := by
  rw [Together, basename_path, basename_path, dirname_path, dirname_path,
    List.append_cancel_right_eq]

theorem FirstMatch.firstLine_path {file : TreeFile} (first : FirstMatch glob disk.tree pattern file)
    (lines : ∀ file ∈ disk.tree, '\n' ∉ file.path) : firstLine file.path = file.path := by
  obtain ⟨before, after, hTree, -⟩ := first
  have hFile : '\n' ∉ file.path := lines file (by simp [hTree])
  rw [firstLine, List.takeWhile_eq_self_iff]
  intro c hc
  simpa using fun h : c = '\n' => hFile (h ▸ hc)

/-- The exported files are the site's files of one directory if and only if the first file whose
name matches the certificate's pattern and the first one that matches the key's pattern have such
paths, as far as their first lines go.  Without newlines in paths this says that one directory holds
the two files of these very names, and the tree no earlier match for either. -/
theorem exportLocal_together_iff
    (success : exportLocal glob site outputDir disk = .ok exported disk') :
    (Together site exported.certSource exported.keySource ↔
      ∃ cert key', FirstMatch glob disk.tree (certFilename site) cert ∧
        FirstMatch glob disk.tree (keyFilename site) key' ∧
        Together site (firstLine cert.path) (firstLine key'.path)) ∧
    ((∀ file ∈ disk.tree, '\n' ∉ file.path) →
      (Together site exported.certSource exported.keySource ↔
        ∃ dir, HoldsFirst glob disk.tree dir (certFilename site) ∧
          HoldsFirst glob disk.tree dir (keyFilename site))) := by
  obtain ⟨cert, key', hCert, hKey, hCertSource, hKeySource⟩ := exportLocal_ok success
  rw [hCertSource, hKeySource]
  constructor
  · constructor
    · exact fun together => ⟨cert, key', hCert, hKey, together⟩
    · rintro ⟨cert', key'', hCert', hKey', together⟩
      rwa [hCert.unique hCert', hKey.unique hKey']
  · intro lines
    rw [hCert.firstLine_path lines, hKey.firstLine_path lines, together_path]
    constructor
    · rintro ⟨hCertName, hKeyName, hDir⟩
      exact ⟨cert.dir, ⟨cert, hCert, rfl, hCertName⟩, key', hKey, hDir.symm, hKeyName⟩
    · rintro ⟨dir, ⟨cert', hCert', rfl, hCertName⟩, key'', hKey', hDir, hKeyName⟩
      rw [hCert.unique hCert', hKey.unique hKey']
      exact ⟨hCertName, hKeyName, hDir.symm⟩

/-! ### The shape of the tree -/

/-- The name has no special characters. -/
def LiteralName (name : Text) : Prop := ∀ c ∈ ['*', '?', '[', '\\'], c ∉ name

theorem FirstMatch.mem {tree : List TreeFile} {file : TreeFile}
    (first : FirstMatch glob tree pattern file) : file ∈ tree := by
  obtain ⟨before, after, rfl, -⟩ := first
  simp

theorem FirstMatch.name_eq {tree : List TreeFile} {file : TreeFile}
    (first : FirstMatch glob tree pattern file) (literal : LiteralName pattern) :
    file.name = pattern := by
  obtain ⟨-, -, -, hMatch, -⟩ := first
  exact (glob.literal pattern file.name literal).mp hMatch

theorem LiteralName.append {name suffix : Text} (literal : LiteralName name)
    (hSuffix : LiteralName suffix) : LiteralName (name ++ suffix) :=
  fun c hc hMem => (List.mem_append.mp hMem).elim (literal c hc) (hSuffix c hc)

theorem literal_filenames (literal : LiteralName site) :
    LiteralName (certFilename site) ∧ LiteralName (keyFilename site) := by
  have hCert : LiteralName ".crt".toList := by simp [LiteralName]
  have hKey : LiteralName ".key".toList := by simp [LiteralName]
  exact ⟨literal.append hCert, literal.append hKey⟩

theorem copyLocalFile_succeeds {source : Text} (output : Text)
    (h : (disk.read source).isSome = true) :
    ∃ disk', copyLocalFile source output disk = .ok () disk' ∧
      (disk'.read output).isSome = true ∧
      ∀ path, (disk.read path).isSome = true → (disk'.read path).isSome = true := by
  obtain ⟨bytes, hBytes⟩ := Option.isSome_iff_exists.mp h
  refine ⟨{ disk with read := Function.update disk.read output (some bytes) }, ?_, ?_, ?_⟩
  · rw [copyLocalFile, hBytes]
  · simp
  · intro path hPath
    simp only [Function.update_apply]
    split
    · rfl
    · exact hPath

theorem writeBase64_succeeds {input : Text} (h : (disk.read input).isSome = true) :
    ∃ text, writeBase64 input disk = .ok text disk := by
  obtain ⟨bytes, hBytes⟩ := Option.isSome_iff_exists.mp h
  exact ⟨writeBase64File bytes, by rw [writeBase64, hBytes]⟩

/-- Files that are found and can be read are exported. -/
theorem exportLocal_succeeds {cert key' : TreeFile}
    (hCert : FirstMatch glob disk.tree (certFilename site) cert)
    (hKey : FirstMatch glob disk.tree (keyFilename site) key')
    (lines : ∀ file ∈ disk.tree, '\n' ∉ file.path)
    (reads : ∀ file ∈ disk.tree, (disk.read file.path).isSome = true) :
    ∃ exported disk', exportLocal glob site outputDir disk = .ok exported disk' := by
  have hPath : ∀ file : TreeFile, file.path ≠ [] := fun file => by simp [TreeFile.path]
  have hCertSource : findLocalFile glob disk (certFilename site) = cert.path :=
    (findLocalFile_first hCert).trans (hCert.firstLine_path lines)
  have hKeySource : findLocalFile glob disk (keyFilename site) = key'.path :=
    (findLocalFile_first hKey).trans (hKey.firstLine_path lines)
  obtain ⟨disk1, hCopy, hCertRead, hKept⟩ :=
    copyLocalFile_succeeds (outputDir ++ '/' :: certFilename site) (reads cert hCert.mem)
  obtain ⟨disk2, hCopy', hKeyRead, hKept'⟩ :=
    copyLocalFile_succeeds (outputDir ++ '/' :: keyFilename site)
      (hKept key'.path (reads key' hKey.mem))
  obtain ⟨certB64, hCertB64⟩ := writeBase64_succeeds (hKept' _ hCertRead)
  obtain ⟨keyB64, hKeyB64⟩ := writeBase64_succeeds hKeyRead
  unfold exportLocal
  simp only [hCertSource, hKeySource, hPath, if_false]
  exact ⟨_, disk2, bind_ok.mpr ⟨(), disk1, hCopy, bind_ok.mpr ⟨(), disk2, hCopy',
    bind_ok.mpr ⟨certB64, disk2, hCertB64, bind_ok.mpr ⟨keyB64, disk2, hKeyB64, rfl⟩⟩⟩⟩⟩

/-- For a site without special characters, and readable files with no newline in their paths, every
order of the traversal exports files that belong together if and only if all files of the two names
are in one directory. -/
theorem exportLocal_every_order (literal : LiteralName site)
    (lines : ∀ file ∈ disk.tree, '\n' ∉ file.path)
    (reads : ∀ file ∈ disk.tree, (disk.read file.path).isSome = true) :
    (∀ order, order.Perm disk.tree → ∀ exported disk',
      exportLocal glob site outputDir { disk with tree := order } = .ok exported disk' →
        Together site exported.certSource exported.keySource) ↔
    ∀ cert ∈ disk.tree, ∀ key' ∈ disk.tree, cert.name = certFilename site →
      key'.name = keyFilename site → cert.dir = key'.dir := by
  obtain ⟨hCertLiteral, hKeyLiteral⟩ := literal_filenames literal
  constructor
  · intro together cert hCert key' hKey hCertName hKeyName
    -- The order that comes to these two files first.
    obtain ⟨order, hPerm, hFirst, hFirst'⟩ : ∃ order, order.Perm disk.tree ∧
        FirstMatch glob order (certFilename site) cert ∧
        FirstMatch glob order (keyFilename site) key' := by
      have hMatch : glob.nameMatches (certFilename site) cert.name = true :=
        (glob.literal _ _ hCertLiteral).mpr hCertName
      have hMatch' : glob.nameMatches (keyFilename site) key'.name = true :=
        (glob.literal _ _ hKeyLiteral).mpr hKeyName
      have hNames : certFilename site ≠ keyFilename site := by
        simp [certFilename, keyFilename]
      have hNe : key' ≠ cert := by
        rintro rfl
        exact hNames (hCertName.symm.trans hKeyName)
      have hOther : glob.nameMatches (keyFilename site) cert.name = false := by
        refine Bool.eq_false_iff.mpr fun h => hNames ?_
        exact hCertName.symm.trans ((glob.literal _ _ hKeyLiteral).mp h)
      have hErase : key' ∈ disk.tree.erase cert := (List.mem_erase_of_ne hNe).mpr hKey
      refine ⟨cert :: key' :: (disk.tree.erase cert).erase key', ?_, ?_, ?_⟩
      · exact (((List.perm_cons_erase hErase).symm).cons cert).trans
          (List.perm_cons_erase hCert).symm
      · exact ⟨[], _, rfl, hMatch, fun other h => absurd h List.not_mem_nil⟩
      · refine ⟨[cert], _, rfl, hMatch', fun other h => ?_⟩
        rw [List.mem_singleton.mp h]
        exact hOther
    have lines' : ∀ file ∈ order, '\n' ∉ file.path :=
      fun file h => lines file (hPerm.mem_iff.mp h)
    obtain ⟨exported, disk', success⟩ : ∃ exported disk',
        exportLocal glob site outputDir { disk with tree := order } = .ok exported disk' :=
      exportLocal_succeeds hFirst hFirst' lines' fun file h => reads file (hPerm.mem_iff.mp h)
    obtain ⟨cert', key'', hCert', hKey', hCertSource, hKeySource⟩ := exportLocal_ok success
    have hTogether := together order hPerm exported disk' success
    rw [hCertSource, hKeySource, hCert'.firstLine_path lines', hKey'.firstLine_path lines',
      together_path, ← hFirst.unique hCert', ← hFirst'.unique hKey'] at hTogether
    exact hTogether.2.2
  · intro oneDir order hPerm exported disk' success
    obtain ⟨cert, key', hCert, hKey, hCertSource, hKeySource⟩ := exportLocal_ok success
    have lines' : ∀ file ∈ order, '\n' ∉ file.path :=
      fun file h => lines file (hPerm.mem_iff.mp h)
    rw [hCertSource, hKeySource, hCert.firstLine_path lines', hKey.firstLine_path lines',
      together_path]
    have hCertName := hCert.name_eq hCertLiteral
    have hKeyName := hKey.name_eq hKeyLiteral
    exact ⟨hCertName, hKeyName, oneDir cert (hPerm.mem_iff.mp hCert.mem) key'
      (hPerm.mem_iff.mp hKey.mem) hCertName hKeyName⟩

/-! ### Two issuers -/

def literalGlob : Glob := ⟨fun pattern name => name = pattern, fun _ _ _ => by simp⟩

def issuerFile (issuer name : String) (noSlash : '/' ∉ name.toList) : TreeFile :=
  ⟨issuer.toList, name.toList, noSlash⟩

/-- Both files under one issuer. -/
def oneIssuer : Disk where
  tree := [issuerFile "acme" "a.crt" (by decide), issuerFile "acme" "a.key" (by decide)]
  read _ := some [1]

/-- An old issuer's directory with the certificate alone, and the new issuer's with both files. -/
def twoIssuers : Disk where
  tree := [issuerFile "old" "a.crt" (by decide), issuerFile "new" "a.crt" (by decide),
    issuerFile "new" "a.key" (by decide)]
  read _ := some [1]

theorem oneIssuer_together : Together ['a'] "acme/a.crt".toList "acme/a.key".toList := by
  have success : exportLocal literalGlob ['a'] ['o'] oneIssuer = .ok
      ⟨"acme/a.crt".toList, "acme/a.key".toList, writeBase64File [1], writeBase64File [1]⟩ _ := rfl
  have hLines : ∀ file ∈ oneIssuer.tree, '\n' ∉ file.path := by decide
  refine ((exportLocal_together_iff success).2 hLines).mpr ⟨"acme".toList, ?_, ?_⟩
  · refine ⟨issuerFile "acme" "a.crt" (by decide), ⟨[], _, rfl, ?_, ?_⟩, ?_, ?_⟩
    all_goals decide
  · refine ⟨issuerFile "acme" "a.key" (by decide), ⟨[_], [], rfl, ?_, ?_⟩, ?_, ?_⟩
    all_goals decide

theorem twoIssuers_apart : ¬∀ (glob : Glob) (site outputDir : Text) (disk disk' : Disk)
    (exported : Exported), exportLocal glob site outputDir disk = .ok exported disk' →
      Together site exported.certSource exported.keySource := by
  intro h
  have together := h literalGlob ['a'] ['o'] twoIssuers _
    ⟨"old/a.crt".toList, "new/a.key".toList, writeBase64File [1], writeBase64File [1]⟩ rfl
  exact absurd together.2.2 (by decide)

end HelloCounter.Server
