import Mathlib.Data.List.Basic

/-! Base64 with padding, wrapped lines, and the decoder of GNU `base64 --decode`, which ignores line
ends.  The decoder returns the bytes that are written, also those in front of the first invalid
character, and whether the whole text is valid. -/

namespace Base64

def alphabet : List Char :=
  "ABCDEFGHIJKLMNOPQRSTUVWXYZabcdefghijklmnopqrstuvwxyz0123456789+/".toList

def symbol (n : Nat) : Char := alphabet.getD n '='

def value (c : Char) : Option Nat := alphabet.findIdx? (· == c)

def encode : List UInt8 → List Char
  | a :: b :: c :: rest =>
    symbol (a.toNat / 4) :: symbol (a.toNat % 4 * 16 + b.toNat / 16) ::
      symbol (b.toNat % 16 * 4 + c.toNat / 64) :: symbol (c.toNat % 64) :: encode rest
  | [a, b] =>
    [symbol (a.toNat / 4), symbol (a.toNat % 4 * 16 + b.toNat / 16), symbol (b.toNat % 16 * 4), '=']
  | [a] => [symbol (a.toNat / 4), symbol (a.toNat % 4 * 16), '=', '=']
  | [] => []

/-- The bytes that at most four characters write, and whether they are a valid group: four
characters, of which the last one or two may be padding. -/
def group : List Char → List UInt8 × Bool
  | a :: b :: rest =>
    match value a, value b with
    | some x, some y =>
      let first : UInt8 := .ofNat (x * 4 + y / 16)
      match rest with
      | [] => ([first], false)
      | c :: rest =>
        if c = '=' then ([first], rest = ['='])
        else
          match value c with
          | none => ([first], false)
          | some z =>
            let second : UInt8 := .ofNat (y % 16 * 16 + z / 4)
            match rest with
            | [] => ([first, second], false)
            | d :: _ =>
              if d = '=' then ([first, second], true)
              else
                match value d with
                | none => ([first, second], false)
                | some w => ([first, second, .ofNat (z % 4 * 64 + w)], true)
    | _, _ => ([], false)
  | _ => ([], false)

/-- The bytes of the groups up to the first invalid one, with what that one writes.  A group may
follow padding. -/
def decodeGroups : List Char → List UInt8 × Bool
  | [] => ([], true)
  | a :: b :: c :: d :: rest =>
    match group [a, b, c, d] with
    | (bytes, true) => (bytes ++ (decodeGroups rest).1, (decodeGroups rest).2)
    | (bytes, false) => (bytes, false)
  | last => group last

def decode (text : List Char) : List UInt8 × Bool := decodeGroups (text.filter (· != '\n'))

/-- The text in lines of `width` characters, each ended by a newline, with `column` characters on
the first line already. -/
def wrapFrom (width : Nat) : (column : Nat) → List Char → List Char
  | column, [] => if column = 0 then [] else ['\n']
  | column, c :: rest =>
    if column + 1 < width then c :: wrapFrom width (column + 1) rest
    else c :: '\n' :: wrapFrom width 0 rest

/-- The output of `base64`, which wraps at 76 columns. -/
def encodeWrapped (bytes : List UInt8) : List Char := wrapFrom 76 0 (encode bytes)

/-! ### Characters -/

theorem value_symbol : ∀ n < 64, value (symbol n) = some n := by decide +kernel

theorem symbol_mem : ∀ n < 64, symbol n ∈ alphabet := by decide +kernel

theorem symbol_ne_pad : ∀ n < 64, symbol n ≠ '=' := by decide +kernel

def Encoded (c : Char) : Prop := c ∈ alphabet ∨ c = '='

theorem Encoded.ne_newline {c : Char} (h : Encoded c) : c ≠ '\n' := by
  rintro rfl
  revert h
  unfold Encoded
  decide

theorem encoded_symbol {n : Nat} (h : n < 64) : Encoded (symbol n) := .inl (symbol_mem n h)

theorem encoded_pad : Encoded '=' := .inr rfl

theorem sextets (a b c : UInt8) :
    a.toNat / 4 < 64 ∧ a.toNat % 4 * 16 + b.toNat / 16 < 64 ∧
      b.toNat % 16 * 4 + c.toNat / 64 < 64 ∧ c.toNat % 64 < 64 := by
  have := a.toNat_lt
  have := b.toNat_lt
  have := c.toNat_lt
  omega

theorem encode_encoded (bytes : List UInt8) : ∀ c ∈ encode bytes, Encoded c := by
  fun_induction encode bytes with
  | case1 a b c rest ih =>
    obtain ⟨h0, h1, h2, h3⟩ := sextets a b c
    simp only [List.forall_mem_cons]
    exact ⟨encoded_symbol h0, encoded_symbol h1, encoded_symbol h2, encoded_symbol h3, ih⟩
  | case2 a b =>
    obtain ⟨h0, h1, h2, -⟩ := sextets a b 0
    simp only [List.forall_mem_cons]
    exact ⟨encoded_symbol h0, encoded_symbol h1, encoded_symbol h2, encoded_pad, by simp⟩
  | case3 a =>
    obtain ⟨h0, h1, -, -⟩ := sextets a 0 0
    simp only [List.forall_mem_cons]
    exact ⟨encoded_symbol h0, encoded_symbol h1, encoded_pad, encoded_pad, by simp⟩
  | case4 => simp

theorem encode_ne_nil {bytes : List UInt8} (h : bytes ≠ []) : encode bytes ≠ [] := by
  fun_cases encode bytes <;> simp at h ⊢

/-! ### Round trip -/

theorem ofNat_of_toNat {a : UInt8} {n : Nat} (h : n = a.toNat) : UInt8.ofNat n = a := by
  subst h
  exact UInt8.ofNat_toNat

theorem group_three (a b c : UInt8) :
    group [symbol (a.toNat / 4), symbol (a.toNat % 4 * 16 + b.toNat / 16),
      symbol (b.toNat % 16 * 4 + c.toNat / 64), symbol (c.toNat % 64)] = ([a, b, c], true) := by
  obtain ⟨h0, h1, h2, h3⟩ := sextets a b c
  have hb := b.toNat_lt
  have hc := c.toNat_lt
  simp only [group, value_symbol _ h0, value_symbol _ h1, value_symbol _ h2, value_symbol _ h3,
    symbol_ne_pad _ h2, symbol_ne_pad _ h3, if_false]
  rw [ofNat_of_toNat (show _ = a.toNat by omega), ofNat_of_toNat (show _ = b.toNat by omega),
    ofNat_of_toNat (show _ = c.toNat by omega)]

theorem group_two (a b : UInt8) :
    group [symbol (a.toNat / 4), symbol (a.toNat % 4 * 16 + b.toNat / 16),
      symbol (b.toNat % 16 * 4), '='] = ([a, b], true) := by
  obtain ⟨h0, h1, -, -⟩ := sextets a b 0
  have h2 : b.toNat % 16 * 4 < 64 := by omega
  have hb := b.toNat_lt
  simp only [group, value_symbol _ h0, value_symbol _ h1, value_symbol _ h2, symbol_ne_pad _ h2,
    if_false, if_true]
  rw [ofNat_of_toNat (show _ = a.toNat by omega), ofNat_of_toNat (show _ = b.toNat by omega)]

theorem group_one (a : UInt8) :
    group [symbol (a.toNat / 4), symbol (a.toNat % 4 * 16), '=', '='] = ([a], true) := by
  obtain ⟨h0, -, -, -⟩ := sextets a 0 0
  have h1 : a.toNat % 4 * 16 < 64 := by omega
  simp only [group, value_symbol _ h0, value_symbol _ h1, if_true, decide_true]
  rw [ofNat_of_toNat (show _ = a.toNat by omega)]

theorem decodeGroups_encode (bytes : List UInt8) : decodeGroups (encode bytes) = (bytes, true) := by
  fun_induction encode bytes with
  | case1 a b c rest ih =>
    rw [decodeGroups, group_three, ih]
    rfl
  | case2 a b =>
    rw [decodeGroups, group_two]
    rfl
  | case3 a =>
    rw [decodeGroups, group_one]
    rfl
  | case4 => rfl

theorem filter_wrapFrom (width column : Nat) {text : List Char} (h : ∀ c ∈ text, c ≠ '\n') :
    (wrapFrom width column text).filter (· != '\n') = text := by
  fun_induction wrapFrom width column text with
  | case1 => rfl
  | case2 column hColumn => rfl
  | case3 column c rest hColumn ih =>
    obtain ⟨hc, hRest⟩ := List.forall_mem_cons.mp h
    simp [hc, ih hRest]
  | case4 column c rest hColumn ih =>
    obtain ⟨hc, hRest⟩ := List.forall_mem_cons.mp h
    simp [hc, ih hRest]

theorem filter_encode (bytes : List UInt8) :
    (encode bytes).filter (· != '\n') = encode bytes := by
  apply List.filter_eq_self.mpr
  intro c hc
  simpa using (encode_encoded bytes c hc).ne_newline

/-- Incomplete and invalid text is written up to the first character that is not base64, and text
may go on behind padding. -/
example : decode "YWI".toList = ([97, 98], false) ∧ decode "YWJj!".toList = ([97, 98, 99], false) ∧
    decode "YQ==\nYQ==".toList = ([97, 97], true) := by decide

theorem decode_encode (bytes : List UInt8) : decode (encode bytes) = (bytes, true) := by
  rw [decode, filter_encode, decodeGroups_encode]

theorem filter_encodeWrapped (bytes : List UInt8) :
    (encodeWrapped bytes).filter (· != '\n') = encode bytes :=
  filter_wrapFrom 76 0 fun c hc => (encode_encoded bytes c hc).ne_newline

end Base64
