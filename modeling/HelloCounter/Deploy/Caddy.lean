import HelloCounter.Deploy.CertPairs
import HelloCounter.Library.BlockText
import Mathlib.Data.List.DropRight
import Mathlib.Data.List.TakeWhile

/-! Caddy's reading of a Caddyfile.  Caddy is a parameter, with what its documentation says of files
that consist of site blocks and plain words; of such a file every Caddy reads the same. -/

namespace HelloCounter.Deploy

open BlockText (Word Body)

/-- A character without a meaning of its own inside a word. -/
def plainChar (c : Char) : Bool := c.isAlphanum || "._-:/,@*".toList.contains c

/-- The rest of a word of plain characters and placeholders like `{uri}`, inside one or not. -/
def plainRest : (inside : Bool) → Word → Bool
  | inside, [] => !inside
  | true, c :: rest => if c = '\x7d' then plainRest false rest else c.isLower && plainRest true rest
  | false, c :: rest =>
    if c = '\x7b' then rest.head?.any Char.isLower && plainRest true rest
    else plainChar c && plainRest false rest

def plainWord (word : Word) : Bool := !word.isEmpty && plainRest false word

/-- A directive or a header of plain words, and no import of other files. -/
def plainLine (words : List Word) : Bool :=
  !words.isEmpty && words.all plainWord && words.head? != some "import".toList

def plainBody : Body → Bool
  | .done => true
  | .line words rest => plainLine words && plainBody rest
  | .block header inner rest => plainLine header && plainBody inner && plainBody rest

/-- The name of a host, in lower case. -/
def hostName (name : Text) : Bool :=
  name.contains '.' && name.all fun c => c.isLower || c.isDigit || c == '-' || c == '.'

/-- The addresses of a host name with one of the standard ports or schemes, or with neither. -/
def plainAddresses (name : Text) : List Text :=
  [name, name ++ ":80".toList, name ++ ":443".toList, "http://".toList ++ name]

/-- The host in a plain address. -/
def addressHost (address : Text) : Text := (address.rtakeWhile (· ≠ '/')).takeWhile (· ≠ ':')

/-- The addresses in front of a site block; a comma stands behind all but the last. -/
def siteAddresses (header : List Word) : List Text :=
  header.map fun address => if address.getLast? = some ',' then address.dropLast else address

def plainHeader (header : List Word) : Bool :=
  (siteAddresses header).all (fun address => hostName (addressHost address) &&
    (plainAddresses (addressHost address)).contains address) &&
  header.getLast?.all fun address => address.getLast? != some ','

/-- A file of site blocks with plain addresses and plain lines. -/
def plainFile (body : Body) : Bool :=
  plainBody body && body.onlyBlocks && body.blocks.all fun block => plainHeader block.1

structure Caddy where
  /-- The blocks of a file, word by word, when it can be read. -/
  parse : List Text → Option Body
  /-- The host in a site's address. -/
  host : Text → Text
  parse_plain : ∀ lines body, (∀ line ∈ lines, '\n' ∉ line) → plainFile body = true →
    BlockText.commandLines lines = body.lines → parse lines = some body
  host_plain : ∀ name, hostName name = true → ∀ address ∈ plainAddresses name, host address = name

namespace Caddy

def hosts (caddy : Caddy) (header : List Word) : List Text :=
  (siteAddresses header).map caddy.host

/-- Caddy reads these blocks in the host's file. -/
def Reads (caddy : Caddy) (dir : AppDir) (body : Body) : Prop :=
  ∃ lines, dir.caddyfile = some lines ∧ caddy.parse lines = some body

theorem Reads.unique {caddy : Caddy} {dir : AppDir} {body body' : Body}
    (reads : caddy.Reads dir body) (reads' : caddy.Reads dir body') : body = body' := by
  obtain ⟨lines, hLines, hBody⟩ := reads
  obtain ⟨lines', hLines', hBody'⟩ := reads'
  obtain rfl := Option.some.inj (hLines.symm.trans hLines')
  exact Option.some.inj (hBody.symm.trans hBody')

end Caddy

/-! ### A Caddy for plain files -/

/-- A brace alone is no plain word. -/
theorem plainWord_brace {word : Word} (h : plainWord word = true) :
    word ≠ BlockText.openBrace ∧ word ≠ BlockText.closeBrace := by
  constructor
  · rintro rfl
    exact absurd h (by decide)
  · rintro rfl
    exact absurd h (by decide)

theorem plainBody_regular {body : Body} (h : plainBody body = true) : body.Regular := by
  have hWord : ∀ {words}, plainLine words = true → words ≠ [] ∧
      ∀ word ∈ words, word ≠ BlockText.openBrace ∧ word ≠ BlockText.closeBrace := by
    intro words hLine
    simp only [plainLine, Bool.and_eq_true, List.all_eq_true, Bool.not_eq_true',
      List.isEmpty_eq_false_iff] at hLine
    exact ⟨hLine.1.1, fun word hMem => plainWord_brace (hLine.1.2 word hMem)⟩
  induction body with
  | done => trivial
  | line words rest ih =>
    simp only [plainBody, Bool.and_eq_true] at h
    obtain ⟨-, hBraces⟩ := hWord h.1
    refine ⟨?_, ?_, ih h.2⟩
    · rintro rfl
      exact (hBraces _ List.mem_cons_self).2 rfl
    · intro hLast
      exact (hBraces _ (List.mem_of_getLast? hLast)).1 rfl
  | block header inner rest ihInner ih =>
    simp only [plainBody, Bool.and_eq_true] at h
    exact ⟨(hWord h.1.1).1, ihInner h.1.2, ih h.2⟩

theorem addressHost_plain {name : Text} (h : hostName name = true) {address : Text}
    (hAddress : address ∈ plainAddresses name) : addressHost address = name := by
  have hChars : ∀ c ∈ name, c ≠ '/' ∧ c ≠ ':' := by
    simp only [hostName, Bool.and_eq_true, List.all_eq_true] at h
    intro c hc
    constructor
    · rintro rfl
      exact absurd (h.2 '/' hc) (by decide)
    · rintro rfl
      exact absurd (h.2 ':' hc) (by decide)
  have hSlash : ∀ {text : Text}, (∀ c ∈ text, c ≠ '/') → text.rtakeWhile (· ≠ '/') = text :=
    fun hText => List.rtakeWhile_eq_self_iff.mpr (by simpa using hText)
  have hName : name.takeWhile (· ≠ ':') = name :=
    List.takeWhile_eq_self_iff.mpr (by simpa using fun c hc => (hChars c hc).2)
  have hPort : ∀ port : Text, (name ++ ':' :: port).takeWhile (· ≠ ':') = name := by
    intro port
    rw [List.takeWhile_append_of_pos (by simpa using fun c hc => (hChars c hc).2),
      List.takeWhile_cons_of_neg (by simp), List.append_nil]
  have hNumber : ∀ number ∈ ["80".toList, "443".toList],
      addressHost (name ++ ':' :: number) = name := by
    intro number hNumber
    have hDigits : ∀ number ∈ ["80".toList, "443".toList], '/' ∉ ':' :: number := by decide
    have hText : ∀ c ∈ name ++ ':' :: number, c ≠ '/' := by
      intro c hc
      rcases List.mem_append.mp hc with hc | hc
      · exact (hChars c hc).1
      · rintro rfl
        exact hDigits number hNumber hc
    rw [addressHost, hSlash hText, hPort]
  simp only [plainAddresses, List.mem_cons, List.not_mem_nil, or_false] at hAddress
  rcases hAddress with rfl | rfl | rfl | rfl
  · rw [addressHost, hSlash fun c hc => (hChars c hc).1, hName]
  · exact hNumber "80".toList (by decide)
  · exact hNumber "443".toList (by decide)
  · have hLast : ("http://".toList ++ name).rtakeWhile (· ≠ '/') = name := by
      have hScheme : "http://".toList.reverse.takeWhile (· ≠ '/') = [] := by decide
      rw [List.rtakeWhile, List.reverse_append, List.takeWhile_append_of_pos, hScheme,
        List.append_nil, List.reverse_reverse]
      intro c hc
      simpa using (hChars c (List.mem_reverse.mp hc)).1
    rw [addressHost, hLast, hName]

/-- A Caddy that reads nothing else. -/
def Caddy.plain : Caddy where
  parse lines := BlockText.read (BlockText.commandLines lines)
  host := addressHost
  parse_plain lines body _ hPlain hLines := by
    simp only [plainFile, Bool.and_eq_true] at hPlain
    rw [hLines]
    exact BlockText.read_lines (plainBody_regular hPlain.1.1)
  host_plain _ hName _ hAddress := addressHost_plain hName hAddress

end HelloCounter.Deploy
