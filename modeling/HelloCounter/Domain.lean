import Mathlib.Logic.Function.Basic
import Std.Data.String.ToNat

/-! The greeting rules of `crates/domain`: visitor counts are positive, and the greeting of a
numbered visitor contains the decimal form of the count. -/

namespace HelloCounter

/-- A `u64` that `VisitorCount::new` accepts. -/
structure VisitorCount where
  get : UInt64
  ne_zero : get ≠ 0
deriving DecidableEq

inductive GreetingError where
  | invalidVisitorCount
deriving DecidableEq

def VisitorCount.new (value : UInt64) : Except GreetingError VisitorCount :=
  if h : value = 0 then .error .invalidVisitorCount else .ok ⟨value, h⟩

theorem VisitorCount.new_get (count : VisitorCount) : VisitorCount.new count.get = .ok count :=
  dif_neg count.ne_zero

theorem VisitorCount.pos (count : VisitorCount) : 0 < count.get.toNat := by
  refine Nat.pos_of_ne_zero fun hZero => count.ne_zero ?_
  exact UInt64.toNat_inj.mp hZero

inductive Greeting where
  | plain
  | numbered (count : VisitorCount)
deriving DecidableEq

def Greeting.message : Greeting → String
  | .plain => "Hello World"
  | .numbered count =>
    "Hello visitor. You are the " ++ toString count.get ++ "'th visitor to this page"

/-- The greeting tells the count: no two counts share a message. -/
theorem Greeting.numbered_message_inj {m n : VisitorCount}
    (h : (Greeting.numbered m).message = (Greeting.numbered n).message) : m = n := by
  have hText := (String.append_right_inj _).mp ((String.append_left_inj _).mp h)
  have hGet : m.get = n.get := UInt64.toNat_inj.mp (Nat.repr_injective hText)
  cases m
  cases n
  cases hGet
  rfl

end HelloCounter
