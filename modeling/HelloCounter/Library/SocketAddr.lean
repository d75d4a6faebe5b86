import Mathlib

/-! Socket addresses as text.  A reader takes what it can from the front of a text or fails; the
grammar says which texts are addresses, and `parse` accepts exactly these. -/

namespace Net

structure Ipv4Addr where
  a : UInt8
  b : UInt8
  c : UInt8
  d : UInt8
deriving DecidableEq

structure Ipv6Addr where
  groups : Vector UInt16 8
deriving DecidableEq

inductive SocketAddr where
  | v4 (ip : Ipv4Addr) (port : UInt16)
  | v6 (ip : Ipv6Addr) (port : UInt16) (scopeId : UInt32)
deriving DecidableEq

/-- A reader: the value that it reads and the rest of the text. -/
abbrev Parser (α : Type) := StateT (List Char) Option α

namespace Parser

def toDigit (radix : Nat) (c : Char) : Option Nat :=
  let value :=
    if '0' ≤ c ∧ c ≤ '9' then c.toNat - '0'.toNat
    else if 'a' ≤ c ∧ c ≤ 'z' then c.toNat - 'a'.toNat + 10
    else if 'A' ≤ c ∧ c ≤ 'Z' then c.toNat - 'A'.toNat + 10
    else radix
  if value < radix then some value else none

def readGivenChar (target : Char) : Parser Unit := fun
  | [] => none
  | c :: text => if c = target then some ((), text) else none

/-- With a largest number of digits the value is checked at the end, otherwise at every digit. -/
def exceeds (bound : Nat) (maxDigits : Option Nat) (count result : Nat) : Bool :=
  match maxDigits with
  | some maxDigits => maxDigits < count
  | none => bound ≤ result

/-- The digits at the front of a text: their value, their number and the rest of the text. -/
def readDigits (radix bound : Nat) (maxDigits : Option Nat) :
    Nat → Nat → List Char → Option (Nat × Nat × List Char)
  | result, count, [] => some (result, count, [])
  | result, count, c :: text =>
    match toDigit radix c with
    | none => some (result, count, c :: text)
    | some digit =>
      if exceeds bound maxDigits (count + 1) (radix * result + digit) then none
      else readDigits radix bound maxDigits (radix * result + digit) (count + 1) text

def readNumber (radix bound : Nat) (maxDigits : Option Nat) (allowZeroPrefix : Bool) :
    Parser Nat := fun text => do
  let (result, count, rest) ← readDigits radix bound maxDigits 0 0 text
  if count = 0 then none
  else if !allowZeroPrefix && text.head? = some '0' && 1 < count then none
  else if result < bound then some (result, rest)
  else none

def readSeparator {α : Type} (separator : Char) (index : Nat) (inner : Parser α) : Parser α :=
  if 0 < index then do
    readGivenChar separator
    inner
  else inner

def readOctet : Parser Nat := readNumber 10 256 (some 3) false

def readIpv4Addr : Parser Ipv4Addr := do
  let a ← readSeparator '.' 0 readOctet
  let b ← readSeparator '.' 1 readOctet
  let c ← readSeparator '.' 2 readOctet
  let d ← readSeparator '.' 3 readOctet
  return ⟨.ofNat a, .ofNat b, .ofNat c, .ofNat d⟩

def readGroup : Parser Nat := readNumber 16 65536 (some 4) true

/-- What `readGroups` read: the groups, whether the last two are an IPv4 address, and the rest. -/
structure Groups where
  groups : List UInt16
  ipv4 : Bool
  rest : List Char

def Ipv4Addr.groups (ip : Ipv4Addr) : List UInt16 :=
  [ip.a.toUInt16 * 256 + ip.b.toUInt16, ip.c.toUInt16 * 256 + ip.d.toUInt16]

/-- At most `left` groups, the next of which is group `index`.  An IPv4 address takes two. -/
def readGroups : Nat → Nat → List Char → Groups
  | 0, _, text => ⟨[], false, text⟩
  | left + 1, index, text =>
    match if 0 < left then (readSeparator ':' index readIpv4Addr).run text else none with
    | some (ip, rest) => ⟨Ipv4Addr.groups ip, true, rest⟩
    | none =>
      match (readSeparator ':' index readGroup).run text with
      | none => ⟨[], false, text⟩
      | some (group, rest) =>
        let next := readGroups left (index + 1) rest
        { next with groups := .ofNat group :: next.groups }

/-- The groups before and behind `::`, with zeros between them. -/
def ipv6Addr (head tail : List UInt16) : Ipv6Addr :=
  let groups := head ++ List.replicate (8 - head.length - tail.length) 0 ++ tail
  ⟨.ofFn fun i : Fin 8 => groups.getD i 0⟩

def readIpv6Addr : Parser Ipv6Addr := fun text =>
  let head := readGroups 8 0 text
  if head.groups.length = 8 then some (ipv6Addr head.groups [], head.rest)
  else if head.ipv4 then none
  else
    match head.rest with
    | ':' :: ':' :: rest =>
      let tail := readGroups (8 - (head.groups.length + 1)) 0 rest
      some (ipv6Addr head.groups tail.groups, tail.rest)
    | _ => none

def readPort : Parser UInt16 := do
  readGivenChar ':'
  let port ← readNumber 10 65536 none true
  return .ofNat port

def readScopeId : Parser UInt32 := do
  readGivenChar '%'
  let scopeId ← readNumber 10 (2 ^ 32) none true
  return .ofNat scopeId

def readSocketAddrV4 : Parser SocketAddr := do
  let ip ← readIpv4Addr
  let port ← readPort
  return .v4 ip port

def readSocketAddrV6 : Parser SocketAddr := do
  readGivenChar '['
  let ip ← readIpv6Addr
  let scopeId ← readScopeId <|> pure 0
  readGivenChar ']'
  let port ← readPort
  return .v6 ip port scopeId

def readSocketAddr : Parser SocketAddr := readSocketAddrV4 <|> readSocketAddrV6

end Parser

/-- The address that is the whole text. -/
def SocketAddr.parse (text : String) : Option SocketAddr :=
  match Parser.readSocketAddr.run text.toList with
  | some (address, []) => some address
  | _ => none

namespace Parser

/-! ### Readers in sequence -/

section

variable {α β : Type} {p : Parser α} {f : α → Parser β} {text rest : List Char}

theorem run_bind_eq_some_iff {b : β} : (p >>= f).run text = some (b, rest) ↔
    ∃ a mid, p.run text = some (a, mid) ∧ (f a).run mid = some (b, rest) := by
  rw [StateT.run_bind]
  exact Option.bind_eq_some_iff.trans Prod.exists

theorem run_pure_eq_some_iff {a b : α} :
    (pure a : Parser α).run text = some (b, rest) ↔ a = b ∧ text = rest := by
  show some (a, text) = some (b, rest) ↔ _
  rw [Option.some.injEq, Prod.mk.injEq]

theorem run_orElse (p q : Parser α) (text : List Char) :
    (p <|> q).run text = (p.run text).or (q.run text) := by
  show (p.run text).orElse (fun _ => q.run text) = _
  cases p.run text <;> rfl

theorem readGivenChar_eq_some_iff {target : Char} {u : Unit} :
    (readGivenChar target).run text = some (u, rest) ↔ text = target :: rest := by
  show readGivenChar target text = some (u, rest) ↔ _
  unfold readGivenChar
  cases text with
  | nil => simp
  | cons c text =>
    by_cases hc : c = target
    · simp [hc]
    · simp [hc]

end

/-! ### Numbers -/

def valueFrom (radix result : Nat) (digits : List Char) : Nat :=
  digits.foldl (fun value c => radix * value + (toDigit radix c).getD 0) result

/-- No digit stands at the front of the text. -/
def Ends (radix : Nat) (text : List Char) : Prop := ∀ c ∈ text.head?, toDigit radix c = none

structure IsNumber (radix bound : Nat) (maxDigits : Option Nat) (allowZeroPrefix : Bool)
    (digits : List Char) : Prop where
  isSome : ∀ c ∈ digits, (toDigit radix c).isSome = true
  ne_nil : digits ≠ []
  length_le : ∀ max ∈ maxDigits, digits.length ≤ max
  noZeroPrefix : allowZeroPrefix = false → digits.head? = some '0' → digits.length = 1
  lt : valueFrom radix 0 digits < bound

section

variable {radix bound : Nat} {maxDigits : Option Nat} {allowZeroPrefix : Bool}
  {digits text rest : List Char}

instance : Decidable (IsNumber radix bound maxDigits allowZeroPrefix digits) :=
  decidable_of_iff (digits.all (fun c => (toDigit radix c).isSome) = true ∧ digits ≠ [] ∧
      maxDigits.all (fun max => digits.length ≤ max) = true ∧
      (allowZeroPrefix = false → digits.head? = some '0' → digits.length = 1) ∧
      valueFrom radix 0 digits < bound)
    ⟨fun ⟨isSome, hNil, hLength, hPrefix, hLt⟩ => ⟨by simpa using isSome, hNil,
        by simpa [Option.all_eq_true] using hLength, hPrefix, hLt⟩,
      fun h => ⟨by simpa using h.isSome, h.ne_nil,
        by simpa [Option.all_eq_true] using h.length_le, h.noZeroPrefix, h.lt⟩⟩

theorem le_valueFrom (hRadix : 0 < radix) (result : Nat) (digits : List Char) :
    result ≤ valueFrom radix result digits := by
  induction digits generalizing result with
  | nil => exact le_rfl
  | cons c digits ih =>
    have hStep : result ≤ radix * result := Nat.le_mul_of_pos_left result hRadix
    have := ih (radix * result + (toDigit radix c).getD 0)
    rw [valueFrom, List.foldl_cons]
    rw [valueFrom] at this
    omega

theorem valueFrom_cons {c : Char} {digit : Nat} (hDigit : toDigit radix c = some digit)
    (result : Nat) (digits : List Char) :
    valueFrom radix result (c :: digits) = valueFrom radix (radix * result + digit) digits := by
  rw [valueFrom, List.foldl_cons, hDigit]
  rfl

theorem readDigits_sound {result count value n : Nat}
    (h : readDigits radix bound maxDigits result count text = some (value, n, rest)) :
    ∃ digits, text = digits ++ rest ∧ (∀ c ∈ digits, (toDigit radix c).isSome = true) ∧
      Ends radix rest ∧ value = valueFrom radix result digits ∧ n = count + digits.length ∧
      (digits ≠ [] → ∀ max ∈ maxDigits, n ≤ max) := by
  induction text generalizing result count with
  | nil =>
    cases h
    exact ⟨[], rfl, by simp, by simp [Ends], rfl, rfl, by simp⟩
  | cons c text ih =>
    rw [readDigits] at h
    cases hDigit : toDigit radix c with
    | none =>
      simp only [hDigit] at h
      cases h
      exact ⟨[], rfl, by simp, by simp [Ends, hDigit], rfl, rfl, by simp⟩
    | some digit =>
      simp only [hDigit] at h
      split at h
      · cases h
      · next hExceeds =>
        obtain ⟨digits, rfl, hDigits, ends, hValue, hCount, hMax⟩ := ih h
        refine ⟨c :: digits, rfl, List.forall_mem_cons.mpr ⟨by simp [hDigit], hDigits⟩, ends, ?_,
          ?_, fun _ max hMem => ?_⟩
        · rw [hValue, valueFrom_cons hDigit]
        · rw [hCount, List.length_cons]
          omega
        · cases digits with
          | nil =>
            obtain rfl := hMem
            simp only [exceeds, decide_eq_true_eq] at hExceeds
            simp only [List.length_nil] at hCount
            omega
          | cons => exact hMax (List.cons_ne_nil _ _) max hMem

theorem readDigits_complete {result count : Nat} (hRadix : 0 < radix)
    (hDigits : ∀ c ∈ digits, (toDigit radix c).isSome = true) (ends : Ends radix rest)
    (hMax : ∀ max ∈ maxDigits, count + digits.length ≤ max)
    (hBound : valueFrom radix result digits < bound) :
    readDigits radix bound maxDigits result count (digits ++ rest) =
      some (valueFrom radix result digits, count + digits.length, rest) := by
  induction digits generalizing result count with
  | nil =>
    cases rest with
    | nil => rfl
    | cons c rest =>
      have hNone : toDigit radix c = none := ends c rfl
      rw [List.nil_append, readDigits, hNone]
      rfl
  | cons c digits ih =>
    obtain ⟨hDigit, hDigits⟩ := List.forall_mem_cons.mp hDigits
    obtain ⟨digit, hDigit⟩ := Option.isSome_iff_exists.mp hDigit
    rw [valueFrom_cons hDigit] at hBound ⊢
    rw [List.length_cons] at hMax ⊢
    have hLe := le_valueFrom hRadix (radix * result + digit) digits
    have hExceeds : exceeds bound maxDigits (count + 1) (radix * result + digit) = false := by
      cases maxDigits with
      | none => simpa [exceeds] using hLe.trans_lt hBound
      | some max =>
        have := hMax max rfl
        simp only [exceeds, decide_eq_false_iff_not]
        omega
    rw [List.cons_append, readDigits, hDigit]
    simp only [hExceeds, Bool.false_eq_true, ↓reduceIte]
    rw [ih hDigits (fun max hMem => by have := hMax max hMem; omega) hBound]
    rw [Nat.add_assoc, Nat.add_comm 1]

theorem readNumber_eq_some_iff {value : Nat} (hRadix : 0 < radix) :
    (readNumber radix bound maxDigits allowZeroPrefix).run text = some (value, rest) ↔
      ∃ digits, text = digits ++ rest ∧ Ends radix rest ∧
        IsNumber radix bound maxDigits allowZeroPrefix digits ∧
        value = valueFrom radix 0 digits := by
  show readNumber radix bound maxDigits allowZeroPrefix text = some (value, rest) ↔ _
  unfold readNumber
  rw [Option.bind_eq_bind, Option.bind_eq_some_iff]
  constructor
  · rintro ⟨⟨result, count, rest'⟩, hDigits, h⟩
    simp only at h
    split at h
    · cases h
    split at h
    · cases h
    split at h
    · next hCount hPrefix hBound =>
      cases h
      obtain ⟨digits, rfl, hAll, ends, rfl, hLength, hMax⟩ := readDigits_sound hDigits
      rw [Nat.zero_add] at hLength
      have hNil : digits ≠ [] := by
        rintro rfl
        exact hCount hLength
      have hPos := List.length_pos_iff.mpr hNil
      refine ⟨digits, rfl, ends, ⟨hAll, hNil, hLength ▸ hMax hNil, ?_, hBound⟩, rfl⟩
      intro hAllow hHead
      rw [List.head?_append_of_ne_nil _ hNil, hAllow, hHead, hLength] at hPrefix
      simp only [Bool.not_false, decide_true, Bool.true_and, decide_eq_true_eq] at hPrefix
      omega
    · cases h
  · rintro ⟨digits, rfl, ends, isNumber, rfl⟩
    have hPos := List.length_pos_iff.mpr isNumber.ne_nil
    refine ⟨_, readDigits_complete hRadix isNumber.isSome ends (fun max hMem => ?_) isNumber.lt, ?_⟩
    · rw [Nat.zero_add]
      exact isNumber.length_le max hMem
    · simp only
      rw [if_neg (by omega), if_neg, if_pos isNumber.lt]
      rw [List.head?_append_of_ne_nil _ isNumber.ne_nil]
      intro hPrefix
      simp only [Bool.and_eq_true, Bool.not_eq_true', decide_eq_true_eq] at hPrefix
      have := isNumber.noZeroPrefix hPrefix.1.1 hPrefix.1.2
      omega

end

/-! ### Addresses -/

section

variable {α : Type} {p : Parser α} {text rest : List Char}

def separated (separator : Char) : Nat → List Char → List Char
  | 0, text => text
  | _ + 1, text => separator :: text

theorem readSeparator_eq_some_iff {separator : Char} {index : Nat} {a : α} :
    (readSeparator separator index p).run text = some (a, rest) ↔
      ∃ text', text = separated separator index text' ∧ p.run text' = some (a, rest) := by
  cases index with
  | zero => simp [readSeparator, separated]
  | succ index =>
    rw [readSeparator, if_pos (Nat.succ_pos index), run_bind_eq_some_iff]
    constructor
    · rintro ⟨u, text', hChar, h⟩
      exact ⟨text', readGivenChar_eq_some_iff.mp hChar, h⟩
    · rintro ⟨text', hChar, h⟩
      exact ⟨(), text', readGivenChar_eq_some_iff.mpr hChar, h⟩

theorem readSeparator_separated (separator : Char) (index : Nat) (p : Parser α)
    (text : List Char) :
    (readSeparator separator index p).run (separated separator index text) = p.run text := by
  apply Option.ext
  rintro ⟨a, rest⟩
  rw [readSeparator_eq_some_iff]
  constructor
  · rintro ⟨text', hText, h⟩
    cases index <;> simp_all [separated]
  · exact fun h => ⟨text, rfl, h⟩

def IsOctet (text : List Char) : Prop := IsNumber 10 256 (some 3) false text

/-- Four octets with dots between them. -/
def IsIpv4 (text : List Char) : Prop :=
  ∃ a b c d, text = a ++ '.' :: (b ++ '.' :: (c ++ '.' :: d)) ∧
    IsOctet a ∧ IsOctet b ∧ IsOctet c ∧ IsOctet d

theorem ends_cons {radix : Nat} {c : Char} (h : toDigit radix c = none) (text : List Char) :
    Ends radix (c :: text) := by
  intro c' hc'
  obtain rfl := Option.some.inj hc'
  exact h

theorem Ends.isSome_eq_false {radix : Nat} {c : Char} (ends : Ends radix text)
    (hHead : text.head? = some c) : (toDigit radix c).isSome = false := by
  rw [ends c hHead]
  rfl

theorem readOctet_eq_some_iff {value : Nat} : readOctet.run text = some (value, rest) ↔
    ∃ digits, text = digits ++ rest ∧ Ends 10 rest ∧ IsOctet digits ∧
      value = valueFrom 10 0 digits :=
  readNumber_eq_some_iff (by decide)

theorem readIpv4Addr_sound {ip : Ipv4Addr} (h : readIpv4Addr.run text = some (ip, rest)) :
    Ends 10 rest ∧ ∃ read, text = read ++ rest ∧ IsIpv4 read := by
  simp only [readIpv4Addr, readSeparator_eq_some_iff, separated, run_bind_eq_some_iff,
    readOctet_eq_some_iff, run_pure_eq_some_iff] at h
  obtain ⟨_, _, ⟨_, rfl, a, rfl, -, hA, -⟩, _, _, ⟨_, rfl, b, rfl, -, hB, -⟩,
    _, _, ⟨_, rfl, c, rfl, -, hC, -⟩, _, _, ⟨_, rfl, d, rfl, ends, hD, -⟩, -, rfl⟩ := h
  refine ⟨ends, _, ?_, a, b, c, d, rfl, hA, hB, hC, hD⟩
  simp only [List.append_assoc, List.cons_append]

theorem readIpv4Addr_complete (hText : IsIpv4 text) (ends : Ends 10 rest) :
    ∃ ip, readIpv4Addr.run (text ++ rest) = some (ip, rest) := by
  obtain ⟨a, b, c, d, rfl, hA, hB, hC, hD⟩ := hText
  refine ⟨⟨.ofNat (valueFrom 10 0 a), .ofNat (valueFrom 10 0 b), .ofNat (valueFrom 10 0 c),
    .ofNat (valueFrom 10 0 d)⟩, ?_⟩
  have dot : ∀ text, Ends 10 ('.' :: text) := ends_cons (by decide)
  simp only [readIpv4Addr, readSeparator_eq_some_iff, separated, run_bind_eq_some_iff,
    readOctet_eq_some_iff, run_pure_eq_some_iff, List.append_assoc, List.cons_append]
  exact ⟨_, _, ⟨_, rfl, a, rfl, dot _, hA, rfl⟩, _, _, ⟨_, rfl, b, rfl, dot _, hB, rfl⟩, _, _,
    ⟨_, rfl, c, rfl, dot _, hC, rfl⟩, _, _, ⟨_, rfl, d, rfl, ends, hD, rfl⟩, rfl, rfl⟩

def IsGroup (text : List Char) : Prop := IsNumber 16 65536 (some 4) true text

/-- Groups with colons between them, by their number.  The last two may be an IPv4 address. -/
inductive IsGroups : Bool → Nat → List Char → Prop
  | group {text : List Char} : IsGroup text → IsGroups false 1 text
  | ipv4 {text : List Char} : IsIpv4 text → IsGroups true 2 text
  | cons {ipv4 : Bool} {n : Nat} {group text : List Char} : IsGroup group → IsGroups ipv4 n text →
    IsGroups ipv4 (n + 1) (group ++ ':' :: text)

theorem readGroup_eq_some_iff {value : Nat} : readGroup.run text = some (value, rest) ↔
    ∃ digits, text = digits ++ rest ∧ Ends 16 rest ∧ IsGroup digits ∧
      value = valueFrom 16 0 digits :=
  readNumber_eq_some_iff (by decide)

/-- What was read is nothing, or groups behind their separator. -/
theorem readGroups_sound (left index : Nat) (text : List Char) :
    (readGroups left index text).groups.length ≤ left ∧
      ((readGroups left index text).groups = [] ∧ (readGroups left index text).ipv4 = false ∧
        (readGroups left index text).rest = text ∨
      ∃ read, text = separated ':' index (read ++ (readGroups left index text).rest) ∧
        IsGroups (readGroups left index text).ipv4 (readGroups left index text).groups.length
          read) := by
  induction left generalizing index text with
  | zero => exact ⟨le_rfl, .inl ⟨rfl, rfl, rfl⟩⟩
  | succ left ih =>
    rw [readGroups]
    split
    · next ip rest h =>
      split at h
      · next hLeft =>
        obtain ⟨text', rfl, hIp⟩ := readSeparator_eq_some_iff.mp h
        obtain ⟨-, read, rfl, hRead⟩ := readIpv4Addr_sound hIp
        exact ⟨Nat.succ_le_succ hLeft, .inr ⟨read, rfl, .ipv4 hRead⟩⟩
      · cases h
    · split
      · exact ⟨Nat.zero_le _, .inl ⟨rfl, rfl, rfl⟩⟩
      · next group rest h =>
        obtain ⟨text', rfl, hGroup⟩ := readSeparator_eq_some_iff.mp h
        obtain ⟨digits, rfl, -, isGroup, -⟩ := readGroup_eq_some_iff.mp hGroup
        obtain ⟨hLength, hNext⟩ := ih (index + 1) rest
        refine ⟨Nat.succ_le_succ hLength, .inr ?_⟩
        rcases hNext with ⟨hNil, hIpv4, hRest⟩ | ⟨read, hRead, isGroups⟩
        · refine ⟨digits, ?_, ?_⟩
          · simp only [hRest]
          · simp only [hNil, hIpv4]
            exact .group isGroup
        · refine ⟨digits ++ ':' :: read, ?_, .cons isGroup isGroups⟩
          rw [List.append_assoc]
          exact congrArg (fun rest => separated ':' index (digits ++ rest)) hRead

theorem toDigit_hex {c : Char} (h : (toDigit 10 c).isSome = true) :
    (toDigit 16 c).isSome = true := by
  unfold toDigit at h ⊢
  simp only at h ⊢
  split_ifs at h ⊢ <;> simp_all <;> omega

theorem IsNumber.head_isSome {radix bound : Nat} {maxDigits : Option Nat} {allow : Bool}
    {digits : List Char} (isNumber : IsNumber radix bound maxDigits allow digits) :
    ∃ c, (digits ++ rest).head? = some c ∧ (toDigit radix c).isSome = true := by
  obtain ⟨c, digits, rfl⟩ := List.exists_cons_of_ne_nil isNumber.ne_nil
  exact ⟨c, rfl, isNumber.isSome c List.mem_cons_self⟩

theorem IsIpv4.head_isSome (hText : IsIpv4 text) :
    ∃ c, (text ++ rest).head? = some c ∧ (toDigit 10 c).isSome = true := by
  obtain ⟨a, b, c, d, rfl, hA, -⟩ := hText
  rw [List.append_assoc]
  exact hA.head_isSome

theorem Ends.ten (ends : Ends 16 text) : Ends 10 text := by
  intro c hc
  have hHex := ends.isSome_eq_false hc
  by_contra hSome
  rw [toDigit_hex (Option.isSome_iff_ne_none.mpr hSome)] at hHex
  cases hHex

theorem readIpv4Addr_none (ends : Ends 10 text) : readIpv4Addr.run text = none := by
  rw [Option.eq_none_iff_forall_ne_some]
  rintro ⟨ip, rest⟩ h
  obtain ⟨-, read, rfl, hRead⟩ := readIpv4Addr_sound h
  obtain ⟨c, hHead, hDigit⟩ := hRead.head_isSome
  rw [ends.isSome_eq_false hHead] at hDigit
  cases hDigit

theorem readGroup_none (ends : Ends 16 text) : readGroup.run text = none := by
  rw [Option.eq_none_iff_forall_ne_some]
  rintro ⟨group, rest⟩ h
  obtain ⟨digits, rfl, -, isGroup, -⟩ := readGroup_eq_some_iff.mp h
  obtain ⟨c, hHead, hDigit⟩ := isGroup.head_isSome
  rw [ends.isSome_eq_false hHead] at hDigit
  cases hDigit

theorem readSeparator_none {separator : Char} {index : Nat}
    (h : ∀ text', text = separated separator index text' → p.run text' = none) :
    (readSeparator separator index p).run text = none := by
  rw [Option.eq_none_iff_forall_ne_some]
  rintro ⟨a, rest⟩ hRead
  obtain ⟨text', hText, hRead⟩ := readSeparator_eq_some_iff.mp hRead
  rw [h text' hText] at hRead
  cases hRead

/-- Where no digit stands, no address and no group is read. -/
theorem readGroups_none {index : Nat}
    (stop : ∀ text', text = separated ':' index text' → Ends 16 text') (left : Nat) :
    readGroups left index text = ⟨[], false, text⟩ := by
  cases left with
  | zero => rfl
  | succ left =>
    rw [readGroups, readSeparator_none fun text' h => readIpv4Addr_none (stop text' h).ten,
      readSeparator_none fun text' h => readGroup_none (stop text' h), ite_self]

theorem readGroups_first (ends : Ends 16 text) (left : Nat) :
    readGroups left 0 text = ⟨[], false, text⟩ := by
  apply readGroups_none
  intro text' hText
  rw [separated] at hText
  exact hText ▸ ends

/-- A group is no address, since no dot follows its digits. -/
theorem readIpv4Addr_group (isGroup : IsGroup text) (ends : Ends 16 rest)
    (hDot : rest.head? ≠ some '.') : readIpv4Addr.run (text ++ rest) = none := by
  rw [Option.eq_none_iff_forall_ne_some]
  rintro ⟨ip, rest'⟩ h
  obtain ⟨-, read, hText, a, b, c, d, rfl, hA, -⟩ := readIpv4Addr_sound h
  rw [List.append_assoc, List.append_eq_append_iff] at hText
  have hChar : toDigit 16 '.' = none := by decide
  rcases hText with ⟨digits, hRead, hRest⟩ | ⟨digits, rfl, hRest⟩
  · cases digits with
    | nil =>
      rw [List.nil_append] at hRest
      exact hDot (hRest ▸ rfl)
    | cons c digits =>
      have hDigit := toDigit_hex (hA.isSome c (hRead ▸ by simp))
      rw [ends.isSome_eq_false (hRest ▸ rfl)] at hDigit
      cases hDigit
  · cases digits with
    | nil =>
      rw [List.nil_append] at hRest
      exact hDot (hRest ▸ rfl)
    | cons c digits =>
      obtain ⟨rfl, -⟩ := List.cons.inj hRest
      have hDigit := isGroup.isSome '.' (by simp)
      rw [hChar] at hDigit
      cases hDigit

theorem readGroups_group {left index : Nat} (isGroup : IsGroup text) (ends : Ends 16 rest)
    (hDot : rest.head? ≠ some '.') :
    readGroups (left + 1) index (separated ':' index (text ++ rest)) =
      { readGroups left (index + 1) rest with
        groups := .ofNat (valueFrom 16 0 text) :: (readGroups left (index + 1) rest).groups } := by
  have hGroup : readGroup.run (text ++ rest) = some (valueFrom 16 0 text, rest) :=
    readGroup_eq_some_iff.mpr ⟨text, rfl, ends, isGroup, rfl⟩
  rw [readGroups, readSeparator_separated, readSeparator_separated,
    readIpv4Addr_group isGroup ends hDot, hGroup, ite_self]

theorem readGroups_complete {ipv4 : Bool} {n : Nat} (isGroups : IsGroups ipv4 n text)
    {left : Nat} (hLeft : n ≤ left) (index : Nat) (ends : Ends 16 rest)
    (hDot : rest.head? ≠ some '.') (stop : ∀ text', rest = ':' :: text' → Ends 16 text') :
    ∃ groups, groups.length = n ∧
      readGroups left index (separated ':' index (text ++ rest)) = ⟨groups, ipv4, rest⟩ := by
  induction isGroups generalizing left index with
  | group isGroup =>
    obtain ⟨left, rfl⟩ := Nat.exists_eq_succ_of_ne_zero (by omega : left ≠ 0)
    rw [readGroups_group isGroup ends hDot, readGroups_none stop]
    exact ⟨_, rfl, rfl⟩
  | ipv4 hText =>
    obtain ⟨left, rfl⟩ := Nat.exists_eq_succ_of_ne_zero (by omega : left ≠ 0)
    obtain ⟨ip, hIp⟩ := readIpv4Addr_complete hText ends.ten
    rw [readGroups, readSeparator_separated, if_pos (by omega), hIp]
    exact ⟨_, rfl, rfl⟩
  | cons isGroup isGroups ih =>
    obtain ⟨left, rfl⟩ := Nat.exists_eq_succ_of_ne_zero (by omega : left ≠ 0)
    obtain ⟨groups, hLength, hNext⟩ := ih (Nat.le_of_succ_le_succ hLeft) (index + 1)
    rw [separated] at hNext
    rw [List.append_assoc, List.cons_append,
      readGroups_group isGroup (ends_cons (by decide) _) (by simp), hNext]
    exact ⟨_ :: groups, congrArg Nat.succ hLength, rfl⟩

/-- Eight groups, or at most seven with `::` where at least one group of zeros is left out. -/
def IsIpv6 (text : List Char) : Prop :=
  (∃ ipv4, IsGroups ipv4 8 text) ∨
    ∃ head tail m n ipv4, text = head ++ ':' :: ':' :: tail ∧ m + n ≤ 7 ∧
      (head = [] ∧ m = 0 ∨ IsGroups false m head) ∧ (tail = [] ∧ n = 0 ∨ IsGroups ipv4 n tail)

theorem readIpv6Addr_sound {ip : Ipv6Addr} (h : readIpv6Addr.run text = some (ip, rest)) :
    ∃ read, text = read ++ rest ∧ IsIpv6 read := by
  replace h : readIpv6Addr text = some (ip, rest) := h
  obtain ⟨hMax, hHead⟩ := readGroups_sound 8 0 text
  unfold readIpv6Addr at h
  generalize readGroups 8 0 text = head at h hMax hHead
  obtain ⟨groups, ipv4, rest'⟩ := head
  simp only [separated] at h hMax hHead
  split at h
  · next hEight =>
    cases h
    rcases hHead with ⟨rfl, -, -⟩ | ⟨read, hRead, isGroups⟩
    · cases hEight
    · exact ⟨read, hRead, .inl ⟨ipv4, hEight ▸ isGroups⟩⟩
  split at h
  · cases h
  · next hEight hIpv4 =>
    rw [Bool.not_eq_true] at hIpv4
    subst hIpv4
    split at h
    · next rest'' =>
      cases h
      obtain ⟨hMax', hTail⟩ := readGroups_sound (8 - (groups.length + 1)) 0 rest''
      have hSeven : groups.length +
          (readGroups (8 - (groups.length + 1)) 0 rest'').groups.length ≤ 7 := by omega
      generalize readGroups (8 - (groups.length + 1)) 0 rest'' = tail at hTail hSeven
      obtain ⟨head, hText, hHead⟩ : ∃ head, text = head ++ ':' :: ':' :: rest'' ∧
          (head = [] ∧ groups.length = 0 ∨ IsGroups false groups.length head) := by
        rcases hHead with ⟨rfl, -, hRest⟩ | ⟨read, hRead, isGroups⟩
        · exact ⟨[], hRest.symm, .inl ⟨rfl, rfl⟩⟩
        · exact ⟨read, hRead, .inr isGroups⟩
      obtain ⟨last, hRest, hTail⟩ : ∃ last, rest'' = last ++ tail.rest ∧
          (last = [] ∧ tail.groups.length = 0 ∨ IsGroups tail.ipv4 tail.groups.length last) := by
        rcases hTail with ⟨hNil, -, hRest⟩ | ⟨read, hRead, isGroups⟩
        · exact ⟨[], hRest.symm, .inl ⟨rfl, by rw [hNil]; rfl⟩⟩
        · exact ⟨read, hRead, .inr isGroups⟩
      refine ⟨head ++ ':' :: ':' :: last, ?_, .inr
        ⟨head, last, _, _, _, rfl, hSeven, hHead, hTail⟩⟩
      rw [hText, List.append_assoc, List.cons_append, List.cons_append, ← hRest]
    · cases h

theorem readIpv6Addr_complete (hText : IsIpv6 text) (ends : Ends 16 rest)
    (hDot : rest.head? ≠ some '.') (hColon : rest.head? ≠ some ':') :
    ∃ ip, readIpv6Addr.run (text ++ rest) = some (ip, rest) := by
  have stop : ∀ text', rest = ':' :: text' → Ends 16 text' :=
    fun text' hRest => absurd (hRest ▸ rfl) hColon
  have colon : ∀ text, Ends 16 (':' :: text) := ends_cons (by decide)
  rcases hText with ⟨ipv4, isGroups⟩ | ⟨head, tail, m, n, ipv4, rfl, hSeven, hHead, hTail⟩
  · obtain ⟨groups, hLength, hRead⟩ := readGroups_complete isGroups le_rfl 0 ends hDot stop
    rw [separated] at hRead
    refine ⟨ipv6Addr groups [], ?_⟩
    show readIpv6Addr (text ++ rest) = _
    simp only [readIpv6Addr, hRead, hLength, ↓reduceIte]
  · have hRest : ∃ groups, groups.length = m ∧ readGroups 8 0
        (head ++ ':' :: ':' :: (tail ++ rest)) = ⟨groups, false, ':' :: ':' :: (tail ++ rest)⟩ := by
      rcases hHead with ⟨rfl, rfl⟩ | isGroups
      · exact ⟨[], rfl, readGroups_first (colon _) 8⟩
      · refine readGroups_complete isGroups (by omega) 0 (colon _) (by simp) ?_
        rintro text' ⟨⟩
        exact colon _
    have hLast : ∃ groups, groups.length = n ∧ ∃ ipv4, readGroups (8 - (m + 1)) 0 (tail ++ rest) =
        ⟨groups, ipv4, rest⟩ := by
      rcases hTail with ⟨rfl, rfl⟩ | isGroups
      · exact ⟨[], rfl, false, readGroups_first ends _⟩
      · obtain ⟨groups, hLength, hRead⟩ :=
          readGroups_complete isGroups (by omega : n ≤ 8 - (m + 1)) 0 ends hDot stop
        exact ⟨groups, hLength, ipv4, hRead⟩
    obtain ⟨groups, hLength, hRead⟩ := hRest
    obtain ⟨groups', hLength', ipv4', hRead'⟩ := hLast
    refine ⟨ipv6Addr groups groups', ?_⟩
    show readIpv6Addr _ = _
    rw [List.append_assoc, List.cons_append, List.cons_append, readIpv6Addr, hRead]
    simp only [hLength, hRead']
    rw [if_neg (by omega)]
    rfl

/-! ### Addresses with a port -/

def IsPort (text : List Char) : Prop := IsNumber 10 65536 none true text

def IsScope (text : List Char) : Prop :=
  text = [] ∨ ∃ digits, text = '%' :: digits ∧ IsNumber 10 (2 ^ 32) none true digits

/-- The part of a socket address before the port. -/
def IsHost (text : List Char) : Prop :=
  IsIpv4 text ∨ ∃ ip scope, text = '[' :: (ip ++ (scope ++ [']'])) ∧ IsIpv6 ip ∧ IsScope scope

theorem readPort_eq_some_iff {port : UInt16} : readPort.run text = some (port, rest) ↔
    ∃ digits, text = ':' :: (digits ++ rest) ∧ Ends 10 rest ∧ IsPort digits ∧
      port = .ofNat (valueFrom 10 0 digits) := by
  simp only [readPort, run_bind_eq_some_iff, readGivenChar_eq_some_iff,
    readNumber_eq_some_iff (show 0 < 10 by decide), run_pure_eq_some_iff]
  constructor
  · rintro ⟨_, _, rfl, _, _, ⟨digits, rfl, ends, isPort, rfl⟩, rfl, rfl⟩
    exact ⟨digits, rfl, ends, isPort, rfl⟩
  · rintro ⟨digits, rfl, ends, isPort, rfl⟩
    exact ⟨(), _, rfl, _, _, ⟨digits, rfl, ends, isPort, rfl⟩, rfl, rfl⟩

theorem readScopeId_eq_some_iff {scopeId : UInt32} :
    readScopeId.run text = some (scopeId, rest) ↔
      ∃ digits, text = '%' :: (digits ++ rest) ∧ Ends 10 rest ∧
        IsNumber 10 (2 ^ 32) none true digits ∧ scopeId = .ofNat (valueFrom 10 0 digits) := by
  simp only [readScopeId, run_bind_eq_some_iff, readGivenChar_eq_some_iff,
    readNumber_eq_some_iff (show 0 < 10 by decide), run_pure_eq_some_iff]
  constructor
  · rintro ⟨_, _, rfl, _, _, ⟨digits, rfl, ends, isNumber, rfl⟩, rfl, rfl⟩
    exact ⟨digits, rfl, ends, isNumber, rfl⟩
  · rintro ⟨digits, rfl, ends, isNumber, rfl⟩
    exact ⟨(), _, rfl, _, _, ⟨digits, rfl, ends, isNumber, rfl⟩, rfl, rfl⟩

theorem readSocketAddrV4_iff : (∃ address, readSocketAddrV4.run text = some (address, [])) ↔
    ∃ host port, text = host ++ ':' :: port ∧ IsIpv4 host ∧ IsPort port := by
  simp only [readSocketAddrV4, run_bind_eq_some_iff, readPort_eq_some_iff, run_pure_eq_some_iff]
  constructor
  · rintro ⟨_, ip, _, hIp, _, _, ⟨port, rfl, -, isPort, -⟩, -, rfl⟩
    obtain ⟨-, host, hText, isIpv4⟩ := readIpv4Addr_sound hIp
    rw [List.append_nil] at hText
    exact ⟨host, port, hText, isIpv4, isPort⟩
  · rintro ⟨host, port, rfl, isIpv4, isPort⟩
    obtain ⟨ip, hIp⟩ := readIpv4Addr_complete isIpv4
      (ends_cons (by decide : toDigit 10 ':' = none) port)
    refine ⟨_, ip, _, hIp, _, [], ⟨port, ?_, ?_, isPort, rfl⟩, rfl, rfl⟩
    · rw [List.append_nil]
    · simp [Ends]

theorem readScope_sound {scopeId : UInt32}
    (h : (readScopeId <|> pure 0).run text = some (scopeId, rest)) :
    ∃ scope, text = scope ++ rest ∧ IsScope scope := by
  rw [run_orElse, Option.or_eq_some_iff] at h
  rcases h with h | ⟨-, h⟩
  · obtain ⟨digits, rfl, -, isNumber, -⟩ := readScopeId_eq_some_iff.mp h
    exact ⟨'%' :: digits, rfl, .inr ⟨digits, rfl, isNumber⟩⟩
  · obtain ⟨-, rfl⟩ := run_pure_eq_some_iff.mp h
    exact ⟨[], rfl, .inl rfl⟩

theorem readScope_complete (isScope : IsScope text) (rest : List Char) :
    ∃ scopeId, (readScopeId <|> pure 0).run (text ++ ']' :: rest) =
      some (scopeId, ']' :: rest) := by
  simp only [run_orElse]
  rcases isScope with rfl | ⟨digits, rfl, isNumber⟩
  · have hNone : readScopeId.run (']' :: rest) = none := rfl
    exact ⟨0, by rw [List.nil_append, hNone]; rfl⟩
  · have hSome := readScopeId_eq_some_iff.mpr
      ⟨digits, rfl, ends_cons (by decide : toDigit 10 ']' = none) rest, isNumber, rfl⟩
    exact ⟨_, by rw [List.cons_append, hSome]; rfl⟩

theorem IsScope.head (isScope : IsScope text) (rest : List Char) :
    (text ++ ']' :: rest).head? = some '%' ∨ (text ++ ']' :: rest).head? = some ']' := by
  rcases isScope with rfl | ⟨digits, rfl, -⟩
  · exact .inr rfl
  · exact .inl rfl

theorem readSocketAddrV6_iff : (∃ address, readSocketAddrV6.run text = some (address, [])) ↔
    ∃ ip scope port, text = '[' :: (ip ++ (scope ++ ']' :: ':' :: port)) ∧ IsIpv6 ip ∧
      IsScope scope ∧ IsPort port := by
  simp only [readSocketAddrV6, run_bind_eq_some_iff, readGivenChar_eq_some_iff,
    readPort_eq_some_iff, run_pure_eq_some_iff]
  constructor
  · rintro ⟨_, _, _, rfl, _, _, hIp, _, _, hScope, _, _, rfl, _, _, ⟨port, rfl, -, isPort, -⟩, -,
      rfl⟩
    obtain ⟨ip, rfl, isIpv6⟩ := readIpv6Addr_sound hIp
    obtain ⟨scope, rfl, isScope⟩ := readScope_sound hScope
    exact ⟨ip, scope, port, by rw [List.append_nil], isIpv6, isScope, isPort⟩
  · rintro ⟨ip, scope, port, rfl, isIpv6, isScope, isPort⟩
    obtain ⟨scopeId, hScope⟩ := readScope_complete isScope (':' :: port)
    have hHead := isScope.head (':' :: port)
    obtain ⟨address, hIp⟩ : ∃ address, readIpv6Addr.run (ip ++ (scope ++ ']' :: ':' :: port)) =
        some (address, scope ++ ']' :: ':' :: port) := by
      apply readIpv6Addr_complete isIpv6
      · intro c hc
        rw [Option.mem_def] at hc
        rcases hHead with hHead | hHead <;> rw [hHead] at hc <;> cases hc <;> decide
      · rcases hHead with hHead | hHead <;> rw [hHead] <;> decide
      · rcases hHead with hHead | hHead <;> rw [hHead] <;> decide
    refine ⟨_, (), _, rfl, address, _, hIp, scopeId, _, hScope, (), _, rfl, _, [],
      ⟨port, ?_, ?_, isPort, rfl⟩, rfl, rfl⟩
    · rw [List.append_nil]
    · simp [Ends]

end

theorem parse_eq_some_iff {text : String} {address : SocketAddr} :
    SocketAddr.parse text = some address ↔
      readSocketAddr.run text.toList = some (address, []) := by
  unfold SocketAddr.parse
  split
  · next address' h => simp [h]
  · next h =>
    constructor
    · intro h'
      cases h'
    · exact fun h' => absurd h' (h address)

/-- `parse` accepts exactly an IPv4 address, or an IPv6 address in brackets, with a port. -/
theorem parse_isSome_iff {text : String} : (∃ address, SocketAddr.parse text = some address) ↔
    ∃ host port, text.toList = host ++ ':' :: port ∧ IsHost host ∧ IsPort port := by
  simp only [parse_eq_some_iff, readSocketAddr, run_orElse, Option.or_eq_some_iff]
  constructor
  · rintro ⟨address, h | ⟨-, h⟩⟩
    · obtain ⟨host, port, hText, isIpv4, isPort⟩ := readSocketAddrV4_iff.mp ⟨address, h⟩
      exact ⟨host, port, hText, .inl isIpv4, isPort⟩
    · obtain ⟨ip, scope, port, hText, isIpv6, isScope, isPort⟩ :=
        readSocketAddrV6_iff.mp ⟨address, h⟩
      refine ⟨'[' :: (ip ++ (scope ++ [']'])), port, ?_, .inr ⟨ip, scope, rfl, isIpv6, isScope⟩,
        isPort⟩
      rw [hText, List.cons_append, List.append_assoc, List.append_assoc]
      rfl
  · rintro ⟨host, port, hText, isIpv4 | ⟨ip, scope, rfl, isIpv6, isScope⟩, isPort⟩
    · obtain ⟨address, h⟩ := readSocketAddrV4_iff.mpr ⟨host, port, hText, isIpv4, isPort⟩
      exact ⟨address, .inl h⟩
    · rw [List.cons_append, List.append_assoc, List.append_assoc] at hText
      obtain ⟨address, h⟩ :=
        readSocketAddrV6_iff.mpr ⟨ip, scope, port, hText, isIpv6, isScope, isPort⟩
      have hNone : readSocketAddrV4.run text.toList = none := by
        rw [hText]
        rfl
      exact ⟨address, .inr ⟨hNone, h⟩⟩

/-! ### Printed ports -/

theorem toDigit_of_isDigit {c : Char} (h : c.isDigit = true) :
    toDigit 10 c = some (c.toNat - '0'.toNat) := by
  have hDigit : '0' ≤ c ∧ c ≤ '9' := by
    simpa [Char.isDigit, Char.le_def, UInt32.le_iff_toNat_le] using h
  have hNine : c.toNat ≤ '9'.toNat := hDigit.2
  have hLt : c.toNat - '0'.toNat < 10 := by
    rw [show '9'.toNat = 57 from rfl] at hNine
    rw [show '0'.toNat = 48 from rfl]
    omega
  rw [toDigit, if_pos hDigit]
  exact if_pos hLt

theorem valueFrom_ten {digits : List Char} (hDigits : ∀ c ∈ digits, c.isDigit = true)
    (result : Nat) : valueFrom 10 result digits = Nat.ofDigitChars 10 digits result := by
  induction digits generalizing result with
  | nil => rw [Nat.ofDigitChars_nil]; rfl
  | cons c digits ih =>
    obtain ⟨hDigit, hDigits⟩ := List.forall_mem_cons.mp hDigits
    rw [valueFrom_cons (toDigit_of_isDigit hDigit), ih hDigits, Nat.ofDigitChars_cons]

theorem isPort_toString (port : UInt16) : IsPort (toString port).toList := by
  have hText : (toString port).toList = Nat.toDigits 10 port.toNat := Nat.toList_repr
  have hDigits : ∀ c ∈ Nat.toDigits 10 port.toNat, c.isDigit = true := fun c hc =>
    Nat.isDigit_of_mem_toDigits (by decide) (by decide) hc
  rw [hText]
  refine ⟨?_, Nat.toDigits_ne_nil, by simp, by simp, ?_⟩
  · intro c hc
    rw [toDigit_of_isDigit (hDigits c hc)]
    rfl
  · rw [valueFrom_ten hDigits, Nat.ofDigitChars_ten_toDigits]
    exact port.toNat_lt

/-- The port is what stands behind the last colon. -/
theorem host_unique {host host' port port' : List Char} (isPort : IsPort port)
    (isPort' : IsPort port') (h : host ++ ':' :: port = host' ++ ':' :: port') : host = host' := by
  have noColon : ∀ port, IsPort port → ':' ∉ port := by
    intro port isPort hMem
    have := isPort.isSome ':' hMem
    rw [show toDigit 10 ':' = none from by decide] at this
    cases this
  rcases List.append_eq_append_iff.mp h with ⟨between, hHost, hRest⟩ | ⟨between, hHost, hRest⟩
  · cases between with
    | nil => rw [hHost, List.append_nil]
    | cons c between =>
      have hPort := (List.cons.inj hRest).2
      exact absurd (hPort ▸ by simp) (noColon port isPort)
  · cases between with
    | nil => rw [hHost, List.append_nil]
    | cons c between =>
      have hPort := (List.cons.inj hRest).2
      exact absurd (hPort ▸ by simp) (noColon port' isPort')

/-- A host with a printed port is an address exactly when the host is one. -/
theorem parse_toString_iff (host : String) (port : UInt16) :
    (∃ address, SocketAddr.parse (host ++ ":" ++ toString port) = some address) ↔
      IsHost host.toList := by
  have hText : (host ++ ":" ++ toString port).toList =
      host.toList ++ ':' :: (toString port).toList := by
    rw [String.toList_append, String.toList_append, List.append_assoc]
    rfl
  rw [parse_isSome_iff, hText]
  constructor
  · rintro ⟨host', port', h, isHost, isPort⟩
    rwa [host_unique (isPort_toString port) isPort h]
  · exact fun isHost => ⟨host.toList, _, rfl, isHost, isPort_toString port⟩

end Parser

end Net
