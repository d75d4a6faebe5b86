import Mathlib.Data.List.Basic
import Mathlib.Data.List.Infix

/-! Chains of rules, where the first rule that decides an input decides the chain.  Two chains are
alike for an input when they contain the same rules that decide it, in the same order. -/

namespace FirstMatch

variable {R P V : Type} [DecidableEq R] (verdict : R → P → Option V)

def decide (chain : List R) (p : P) : Option V := chain.findSome? fun rule => verdict rule p

def relevant (chain : List R) (p : P) : List R := chain.filter fun rule => (verdict rule p).isSome

/-- The two chains have the same rules that decide `p`. -/
def Alike (p : P) (chain chain' : List R) : Prop :=
  relevant verdict chain p = relevant verdict chain' p

variable {verdict} {rule : R} {chain chain' : List R} {p : P}

omit [DecidableEq R] in
theorem decide_append (chain chain' : List R) (p : P) :
    decide verdict (chain ++ chain') p = (decide verdict chain p).or (decide verdict chain' p) :=
  List.findSome?_append

omit [DecidableEq R] in
theorem decide_eq_none (h : ∀ rule ∈ chain, verdict rule p = none) :
    decide verdict chain p = none :=
  List.findSome?_eq_none_iff.mpr h

omit [DecidableEq R] in
theorem decide_relevant (chain : List R) (p : P) :
    decide verdict (relevant verdict chain p) p = decide verdict chain p := by
  induction chain with
  | nil => rfl
  | cons rule chain ih =>
    unfold relevant decide at *
    cases h : verdict rule p <;> simp [h, ih]

omit [DecidableEq R] in
theorem Alike.decide (alike : Alike verdict p chain chain') :
    FirstMatch.decide verdict chain p = FirstMatch.decide verdict chain' p := by
  rw [← decide_relevant chain, alike, decide_relevant]

omit [DecidableEq R] in
theorem Alike.append (alike : Alike verdict p chain chain') (rules : List R) :
    Alike verdict p (chain ++ rules) (chain' ++ rules) := by
  unfold Alike relevant at *
  rw [List.filter_append, List.filter_append, alike]

theorem relevant_erase (rule : R) (chain : List R) (p : P) :
    relevant verdict (chain.erase rule) p = (relevant verdict chain p).erase rule :=
  List.erase_filter.symm

theorem Alike.erase (alike : Alike verdict p chain chain') (rule : R) :
    Alike verdict p (chain.erase rule) (chain'.erase rule) := by
  unfold Alike at *
  rw [relevant_erase, relevant_erase, alike]

theorem alike_erase (h : verdict rule p = none) : Alike verdict p (chain.erase rule) chain := by
  unfold Alike
  rw [relevant_erase]
  apply List.erase_of_not_mem
  intro hMem
  have := (List.mem_filter.mp hMem).2
  rw [h] at this
  cases this

omit [DecidableEq R] in
theorem alike_append (h : verdict rule p = none) : Alike verdict p (chain ++ [rule]) chain := by
  unfold Alike relevant
  rw [List.filter_append, List.filter_singleton, h]
  exact List.append_nil _

/-- Without a copy of a rule that does not give the chain's verdict, the verdict is the same. -/
theorem decide_erase {v : V} (hRule : verdict rule p ≠ some v)
    (h : decide verdict chain p = some v) : decide verdict (chain.erase rule) p = some v := by
  induction chain with
  | nil => exact h
  | cons first chain ih =>
    by_cases hFirst : first = rule
    · subst hFirst
      rw [List.erase_cons_head]
      cases hVerdict : verdict first p with
      | none => simpa [decide, hVerdict] using h
      | some w =>
        have hw : w = v := by simpa [decide, hVerdict] using h
        exact absurd (hw ▸ hVerdict) hRule
    · rw [List.erase_cons_tail (by simpa using hFirst)]
      cases hVerdict : verdict first p with
      | none =>
        have hChain : decide verdict chain p = some v := by simpa [decide, hVerdict] using h
        have := ih hChain
        simpa [decide, hVerdict] using this
      | some w => simpa [decide, hVerdict] using h

end FirstMatch
