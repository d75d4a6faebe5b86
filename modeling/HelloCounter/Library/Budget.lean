import HelloCounter.Library.Effect

/-! Bounds on a program that hold whatever the replies are: how many operations of a kind it calls,
and how many faults it meets before it returns a bad value. -/

namespace Effect.Prog

variable {E : Interface} {α β : Type}

/-- On every path the program calls at most `n` operations of the kind. -/
def Spends (kind : E.Op → Bool) : Prog E α → Nat → Prop
  | ret _, _ => True
  | call op next, n =>
    if kind op then 0 < n ∧ ∀ reply, (next reply).Spends kind (n - 1)
    else ∀ reply, (next reply).Spends kind n

variable {kind : E.Op → Bool} {p : Prog E α} {m n : Nat}

theorem Spends.call_of {op : E.Op} {next : E.Reply op → Prog E α}
    (h : (call op next).Spends kind n) (hKind : kind op = true) (reply : E.Reply op) :
    0 < n ∧ (next reply).Spends kind (n - 1) := by
  rw [Spends, if_pos hKind] at h
  exact ⟨h.1, h.2 reply⟩

theorem Spends.call_other {op : E.Op} {next : E.Reply op → Prog E α}
    (h : (call op next).Spends kind n) (hKind : kind op = false) (reply : E.Reply op) :
    (next reply).Spends kind n := by
  rw [Spends, if_neg (by simp [hKind])] at h
  exact h reply

theorem Spends.mono (h : p.Spends kind m) (hLe : m ≤ n) : p.Spends kind n := by
  induction p generalizing m n with
  | ret value => trivial
  | call op next ih =>
    unfold Spends at h ⊢
    split at h
    · next hKind =>
      rw [if_pos hKind]
      exact ⟨by omega, fun reply => ih reply (h.2 reply) (by omega)⟩
    · next hKind =>
      rw [if_neg hKind]
      exact fun reply => ih reply (h reply) hLe

theorem Spends.bind {f : α → Prog E β} (h : p.Spends kind m)
    (rest : ∀ value, (f value).Spends kind n) : (p >>= f).Spends kind (m + n) := by
  induction p generalizing m with
  | ret value => exact (rest value).mono (by omega)
  | call op next ih =>
    unfold Spends at h
    rw [call_bind, Spends]
    split at h
    · next hKind =>
      rw [if_pos hKind]
      refine ⟨by omega, fun reply => ?_⟩
      rw [show m + n - 1 = m - 1 + n by omega]
      exact ih reply (h.2 reply)
    · next hKind =>
      rw [if_neg hKind]
      exact fun reply => ih reply (h reply)

theorem Spends.map (h : p.Spends kind n) (f : α → β) :
    (p >>= fun value => ret (f value)).Spends kind n :=
  h.bind (n := 0) fun _ => trivial

/-! ### Faults -/

/-- The replies that are faults, and the ones to expect otherwise. -/
structure Weather (E : Interface) where
  fault : (op : E.Op) → E.Reply op → Prop
  usual : (op : E.Op) → E.Reply op → Prop

/-- With fewer than `n` faults, and usual replies otherwise, the program returns a good value. -/
def Endures (weather : Weather E) (good : α → Prop) : Prog E α → Nat → Prop
  | ret value, n => 0 < n → good value
  | call op next, n => ∀ reply,
    (weather.fault op reply → (next reply).Endures weather good (n - 1)) ∧
      (weather.usual op reply → (next reply).Endures weather good n)

variable {weather : Weather E} {good : α → Prop}

theorem Endures.mono (h : p.Endures weather good n) (hLe : m ≤ n) :
    p.Endures weather good m := by
  induction p generalizing m n with
  | ret value => exact fun hPos => h (by omega)
  | call op next ih =>
    exact fun reply => ⟨fun fault => ih reply ((h reply).1 fault) (by omega),
      fun usual => ih reply ((h reply).2 usual) hLe⟩

theorem Endures.map (h : p.Endures weather good n) {good' : β → Prop} {f : α → β}
    (keeps : ∀ value, good value → good' (f value)) :
    (p >>= fun value => ret (f value)).Endures weather good' n := by
  induction p generalizing n with
  | ret value => exact fun hPos => keeps value (h hPos)
  | call op next ih =>
    exact fun reply => ⟨fun fault => ih reply ((h reply).1 fault),
      fun usual => ih reply ((h reply).2 usual)⟩

end Effect.Prog
