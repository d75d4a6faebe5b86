import HelloCounter.Library.Gsub

/-! The parts of awk whose treatment of backslashes differs between implementations, with what all
of them do on text without backslashes. -/

namespace HelloCounter.Deploy

/-- An awk implementation. -/
structure Awk where
  /-- The value of a variable that `-v` sets. -/
  assign : List Char → List Char
  /-- What `gsub` writes for a match, from the replacement and the matched text. -/
  expand : List Char → List Char → List Char
  assign_plain : ∀ value, '\\' ∉ value → '\n' ∉ value → assign value = value
  expand_plain : ∀ replacement matched, '\\' ∉ replacement →
    expand replacement matched = replacement.flatMap fun c => if c = '&' then matched else [c]

namespace Awk

/-- An implementation that gives backslashes no meaning. -/
def plain : Awk where
  assign value := value
  expand replacement matched := replacement.flatMap fun c => if c = '&' then matched else [c]
  assign_plain _ _ _ := rfl
  expand_plain _ _ _ := rfl

/-- `gsub(/pattern/, replacement)` for a pattern without special characters. -/
def gsub (awk : Awk) (pattern : String) (replacement text : List Char) : List Char :=
  Gsub.gsub pattern.toList (awk.expand replacement pattern.toList) text

/-- `/pattern/` for a pattern without special characters. -/
def isMatch (pattern : String) (text : List Char) : Bool := pattern.toList <:+: text

theorem expand_self (awk : Awk) {replacement : List Char} (hBackslash : '\\' ∉ replacement)
    (hAmpersand : '&' ∉ replacement) (matched : List Char) :
    awk.expand replacement matched = replacement := by
  rw [awk.expand_plain replacement matched hBackslash]
  induction replacement with
  | nil => rfl
  | cons c replacement ih =>
    simp only [List.mem_cons, not_or] at hBackslash hAmpersand
    rw [List.flatMap_cons, if_neg (Ne.symm hAmpersand.1), ih hBackslash.2 hAmpersand.2]
    rfl

end Awk

end HelloCounter.Deploy
