import HelloCounter.Library.Effect

/-! Programs that keep to a protocol.  A protocol gives the operations that may be called in each of
its phases and the phases that a reply leads to, and `Prog.Obeys` is the weakest precondition of a
program on the phase in which it starts. -/

namespace Effect

structure Protocol (E : Interface) (τ : Type) where
  /-- The operations that may be called in a phase. -/
  may : τ → E.Op → Prop
  /-- The phases that a reply to an operation leads to. -/
  moves : τ → (op : E.Op) → E.Reply op → τ → Prop

namespace Prog

variable {E : Interface} {τ α β : Type} (protocol : Protocol E τ)

/-- Whatever the replies, the program calls what the phase allows, and returns with `post`. -/
def Obeys (post : α → τ → Prop) : Prog E α → τ → Prop
  | ret value, phase => post value phase
  | call op next, phase => protocol.may phase op ∧
      ∀ reply phase', protocol.moves phase op reply phase' → (next reply).Obeys post phase'

variable {protocol}

theorem Obeys.imp {post post' : α → τ → Prop} {p : Prog E α} {phase : τ}
    (h : p.Obeys protocol post phase)
    (hPost : ∀ value phase, post value phase → post' value phase) :
    p.Obeys protocol post' phase := by
  induction p generalizing phase with
  | ret value => exact hPost value phase h
  | call op next ih => exact ⟨h.1, fun reply phase' hMoves => ih reply (h.2 reply phase' hMoves)⟩

theorem Obeys.bind {post : β → τ → Prop} {p : Prog E α} {f : α → Prog E β} {phase : τ}
    (h : p.Obeys protocol (fun value => (f value).Obeys protocol post) phase) :
    (p >>= f).Obeys protocol post phase := by
  induction p generalizing phase with
  | ret value => exact h
  | call op next ih => exact ⟨h.1, fun reply phase' hMoves => ih reply (h.2 reply phase' hMoves)⟩

theorem obeys_perform {op : E.Op} {post : E.Reply op → τ → Prop} {phase : τ}
    (may : protocol.may phase op)
    (h : ∀ reply phase', protocol.moves phase op reply phase' → post reply phase') :
    (perform op).Obeys protocol post phase := ⟨may, h⟩

end Prog

end Effect
