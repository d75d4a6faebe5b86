import HelloCounter.Library.Lines

/-! `scripts/server/bootstrap-deploy-user.sh` on the bytes of `authorized_keys`.  The commands on
accounts, owners and modes leave those bytes alone. -/

namespace HelloCounter.Server

abbrev Bytes := List UInt8

/-- The value of a shell variable, which holds no NUL byte. -/
structure ShellString where
  bytes : Bytes
  noNul : 0 ∉ bytes
deriving DecidableEq

/-- The bytes of an ASCII text. -/
def ascii (text : String) : Bytes := text.toList.map fun c => UInt8.ofNat c.toNat

/-! ### `validate_public_key` -/

def isNewline (b : UInt8) : Bool := b == 10

/-- `[[:space:]]` in the C locale. -/
def isSpace (b : UInt8) : Bool := b == 32 || (9 ≤ b && b ≤ 13)

/-- `[A-Za-z0-9+/=]`. -/
def isBlob (b : UInt8) : Bool :=
  (65 ≤ b && b ≤ 90) || (97 ≤ b && b ≤ 122) || (47 ≤ b && b ≤ 57) || b == 43 || b == 61

def keyTypes : List String :=
  ["ssh-ed25519", "sk-ssh-ed25519@openssh.com", "ecdsa-sha2-nistp256", "ecdsa-sha2-nistp384",
    "ecdsa-sha2-nistp521", "sk-ecdsa-sha2-nistp256@openssh.com", "ssh-rsa"]

/-- `([[:space:]].+)?$`. -/
def isComment : Bytes → Bool
  | [] => true
  | b :: comment => isSpace b && comment ≠ []

/-- `[[:space:]]+[A-Za-z0-9+/=]+([[:space:]].+)?$`.  No byte is both a space and part of a blob, so
each repetition takes all that it can. -/
def isBlobAndComment (rest : Bytes) : Bool :=
  let blob := rest.dropWhile isSpace
  rest.takeWhile isSpace ≠ [] && blob.takeWhile isBlob ≠ [] && isComment (blob.dropWhile isBlob)

/-- The regular expression for a bare OpenSSH public key. -/
def isPublicKey (key : Bytes) : Bool :=
  keyTypes.any fun type =>
    (ascii type).isPrefixOf key && isBlobAndComment (key.drop (ascii type).length)

structure Host where
  root : Bool
  hasKeygen : Bool
  /-- `ssh-keygen -l` on a file with these bytes. -/
  keygenAccepts : Bytes → Bool

def validatePublicKey (host : Host) (key : ShellString) : Except String Unit :=
  if key.bytes.any isNewline || key.bytes.contains 13 then
    .error "public key must be exactly one line"
  else if ¬isPublicKey key.bytes then
    .error "public key must be a bare OpenSSH public key"
  else if ¬host.hasKeygen then
    .error "ssh-keygen is required to validate the public key"
  else if ¬host.keygenAccepts (key.bytes ++ [10]) then
    .error "public key failed ssh-keygen validation"
  else .ok ()

/-! ### The update of `authorized_keys` -/

/-- Where a line ends for GNU `grep`, to which a file with a NUL byte is binary and each NUL byte in
it the end of a line. -/
def endsGrepLine (b : UInt8) : Bool := isNewline b || b == 0

/-- `grep -qxF key`. -/
def grepLine (key content : Bytes) : Bool := (Lines.lines endsGrepLine content).contains key

def addKey (key content : Bytes) : Bytes :=
  if grepLine key content then content else content ++ (key ++ [10])

/-- The content of `authorized_keys` after the script.  A script that fails has not yet touched
it. -/
def bootstrap (host : Host) (script : String) (publicKey : ShellString) (file : Option Bytes) :
    Except String Bytes :=
  if publicKey.bytes = [] then
    .error ("usage: " ++ script ++ " 'ssh-ed25519 AAAA... comment'")
  else if ¬host.root then
    .error "this script must be run as root"
  else do
    validatePublicKey host publicKey
    return addKey publicKey.bytes (file.getD [])

/-- `n` further runs on a file that exists. -/
def rerun (host : Host) (script : String) (publicKey : ShellString) :
    (n : Nat) → Bytes → Except String Bytes
  | 0, content => .ok content
  | n + 1, content => do
    let content ← bootstrap host script publicKey (some content)
    rerun host script publicKey n content

def fileLines (content : Bytes) : List Bytes := Lines.lines isNewline content

/-! ### What a run leaves -/

variable {host : Host} {script : String} {key : ShellString} {file : Option Bytes}
variable {content after : Bytes}

theorem bootstrap_eq_ok (h : bootstrap host script key file = .ok after) :
    host.root = true ∧ key.bytes ≠ [] ∧ validatePublicKey host key = .ok () ∧
      after = addKey key.bytes (file.getD []) := by
  unfold bootstrap at h
  split at h
  · cases h
  · rename_i hKey
    split at h
    · cases h
    · rename_i hRoot
      cases hValid : validatePublicKey host key with
      | error message =>
        rw [hValid] at h
        cases h
      | ok _ =>
        rw [hValid] at h
        cases h
        exact ⟨by simpa using hRoot, hKey, rfl, rfl⟩

theorem bootstrap_ok (hRoot : host.root = true) (hKey : key.bytes ≠ [])
    (hValid : validatePublicKey host key = .ok ()) (file : Option Bytes) :
    bootstrap host script key file = .ok (addKey key.bytes (file.getD [])) := by
  rw [bootstrap, if_neg hKey, if_neg (by simp [hRoot]), hValid]
  rfl

/-- An accepted key is one line, for the file and for `grep`. -/
theorem oneLine_of_valid (hValid : validatePublicKey host key = .ok ()) :
    Lines.OneLine isNewline key.bytes ∧ Lines.OneLine endsGrepLine key.bytes := by
  unfold validatePublicKey at hValid
  split at hValid
  · cases hValid
  · rename_i hLine
    have oneLine : Lines.OneLine isNewline key.bytes := by
      intro b hb
      by_contra hNewline
      apply hLine
      rw [List.any_eq_true.mpr ⟨b, hb, by simpa using hNewline⟩]
      rfl
    refine ⟨oneLine, fun b hb => ?_⟩
    have hNul : b ≠ 0 := fun h => key.noNul (h ▸ hb)
    simp [endsGrepLine, oneLine b hb, hNul]

theorem grepLine_of_mem (oneLine : Lines.OneLine endsGrepLine key.bytes)
    (hLine : key.bytes ∈ fileLines content) : grepLine key.bytes content = true := by
  apply List.contains_iff_mem.mpr
  apply Lines.mem_lines_of_finer ?_ hLine oneLine
  intro b hb
  rw [endsGrepLine, hb]
  rfl

theorem addKey_of_grepLine {key : Bytes} (h : grepLine key content = true) :
    addKey key content = content := if_pos h

theorem addKey_of_not_grepLine {key : Bytes} (h : grepLine key content = false) :
    addKey key content = content ++ (key ++ [10]) := if_neg (by simp [h])

theorem rerun_fixed (hRun : bootstrap host script key (some content) = .ok content) (n : Nat) :
    rerun host script key n content = .ok content := by
  induction n with
  | zero => rfl
  | succ n ih =>
    rw [rerun, hRun]
    exact ih

/-- The key's line is there, or `grep` does not find it and the last line has its newline. -/
def Addable (key content : Bytes) : Prop :=
  key ∈ fileLines content ∨ grepLine key content = false ∧ Lines.Terminated isNewline content

/-- The lines that a run should leave. -/
def withKey (key : Bytes) (lines : List Bytes) : List Bytes :=
  lines ++ if key ∈ lines then [] else [key]

theorem fileLines_addKey {key : Bytes} (oneLine : Lines.OneLine isNewline key)
    (found : key ∈ fileLines content → grepLine key content = true)
    (addable : Addable key content) :
    fileLines (addKey key content) = withKey key (fileLines content) := by
  rcases addable with hMem | ⟨hGrep, terminated⟩
  · rw [addKey_of_grepLine (found hMem), withKey, if_pos hMem, List.append_nil]
  · have hMem : key ∉ fileLines content := fun h => by simp [found h] at hGrep
    rw [addKey_of_not_grepLine hGrep, withKey, if_neg hMem]
    exact Lines.lines_append_single terminated oneLine rfl

theorem addable_of_fileLines_addKey {key : Bytes} (oneLine : Lines.OneLine isNewline key)
    (h : fileLines (addKey key content) = withKey key (fileLines content)) :
    Addable key content := by
  by_cases hMem : key ∈ fileLines content
  · exact .inl hMem
  · rw [withKey, if_neg hMem] at h
    have hLength := congrArg List.length h
    rw [List.length_append, List.length_singleton] at hLength
    cases hGrep : grepLine key content with
    | true =>
      rw [addKey_of_grepLine hGrep] at hLength
      omega
    | false =>
      refine .inr ⟨hGrep, ?_⟩
      by_contra hOpen
      rw [addKey_of_not_grepLine hGrep, fileLines, fileLines,
        Lines.length_lines_joined hOpen oneLine rfl] at hLength
      omega

/-- A run keeps the lines of `authorized_keys` and adds the key once, and further runs change
nothing, if and only if the key is one of the lines, or `grep` does not find it and the last line
ends with a newline. -/
theorem bootstrap_keepsLines_iff (run : bootstrap host script key file = .ok after) :
    (fileLines after = withKey key.bytes (fileLines (file.getD [])) ∧
      ∀ n, rerun host script key n after = .ok after) ↔ Addable key.bytes (file.getD []) := by
  obtain ⟨hRoot, hKey, hValid, rfl⟩ := bootstrap_eq_ok run
  obtain ⟨oneLine, grepOneLine⟩ := oneLine_of_valid hValid
  constructor
  · exact fun keeps => addable_of_fileLines_addKey oneLine keeps.1
  · intro addable
    have hLines := fileLines_addKey oneLine (grepLine_of_mem grepOneLine) addable
    refine ⟨hLines, fun n => rerun_fixed ?_ n⟩
    have hMem : key.bytes ∈ fileLines (addKey key.bytes (file.getD [])) := by
      rw [hLines, withKey]
      split
      · rename_i hMem
        simpa using hMem
      · simp
    rw [bootstrap_ok hRoot hKey hValid, Option.getD_some,
      addKey_of_grepLine (grepLine_of_mem grepOneLine hMem)]

/-! ### A file whose last line has no newline -/

def exampleHost : Host := ⟨true, true, fun _ => true⟩

def exampleKey : ShellString := ⟨ascii "ssh-ed25519 AAAA deploy", by decide⟩

/-- The file has the entry of another key. -/
theorem otherEntry_keepsLines :
    fileLines (ascii "ssh-rsa BBBB ops\nssh-ed25519 AAAA deploy\n") =
        withKey exampleKey.bytes [ascii "ssh-rsa BBBB ops"] ∧
      ∀ n, rerun exampleHost "bootstrap" exampleKey n
        (ascii "ssh-rsa BBBB ops\nssh-ed25519 AAAA deploy\n") =
          .ok (ascii "ssh-rsa BBBB ops\nssh-ed25519 AAAA deploy\n") := by
  have run : bootstrap exampleHost "bootstrap" exampleKey (some (ascii "ssh-rsa BBBB ops\n")) =
      .ok (ascii "ssh-rsa BBBB ops\nssh-ed25519 AAAA deploy\n") := by decide
  have hLines : fileLines ((some (ascii "ssh-rsa BBBB ops\n")).getD []) =
      [ascii "ssh-rsa BBBB ops"] := by decide
  have keeps := (bootstrap_keepsLines_iff run).mpr (.inr ⟨by decide, by rintro byte ⟨⟩; rfl⟩)
  rwa [hLines] at keeps

theorem openLine_joined : ¬∀ (host : Host) (script : String) (key : ShellString)
    (file : Option Bytes) (after : Bytes), bootstrap host script key file = .ok after →
    fileLines after = withKey key.bytes (fileLines (file.getD [])) ∧
      ∀ n, rerun host script key n after = .ok after := by
  intro h
  have hRun := h exampleHost "bootstrap" exampleKey (some (ascii "ssh-rsa BBBB ops"))
    (ascii "ssh-rsa BBBB opsssh-ed25519 AAAA deploy\n") (by decide)
  exact absurd hRun.1 (by decide)

end HelloCounter.Server
