import Mathlib.Data.List.Forall2

/-! Programs over an interface of operations.  A program is a tree: it returns a value, or calls an
operation and continues with the reply.  `Prog.run` answers every operation at once from a state,
and `Prog.Follows` says which replies decide the value that a program returns. -/

namespace Effect

/-- The operations of an interface, each with the type of its replies. -/
structure Interface where
  Op : Type
  Reply : Op → Type

/-- A program over the interface `E` that returns values of type `α`. -/
inductive Prog (E : Interface) (α : Type) where
  | ret (value : α)
  | call (op : E.Op) (next : E.Reply op → Prog E α)

namespace Prog

variable {E : Interface} {σ α β γ : Type}

def bind : Prog E α → (α → Prog E β) → Prog E β
  | ret value, f => f value
  | call op next, f => call op fun reply => (next reply).bind f

instance : Monad (Prog E) where
  pure := ret
  bind := bind

def perform (op : E.Op) : Prog E (E.Reply op) := call op ret

@[simp] theorem pure_eq (value : α) : (pure value : Prog E α) = ret value := rfl

@[simp] theorem ret_bind (value : α) (f : α → Prog E β) : (ret value >>= f) = f value := rfl

@[simp] theorem call_bind (op : E.Op) (next : E.Reply op → Prog E α) (f : α → Prog E β) :
    (call op next >>= f) = call op fun reply => next reply >>= f := rfl

theorem bind_assoc (p : Prog E α) (f : α → Prog E β) (g : β → Prog E γ) :
    (p >>= f >>= g) = p >>= fun value => f value >>= g := by
  induction p with
  | ret value => rfl
  | call op next ih => simp only [call_bind, ih]

/-- The value that `p` returns and the state that it leaves when `answer` replies to every
operation at once. -/
def run (answer : (op : E.Op) → σ → E.Reply op × σ) : Prog E α → σ → α × σ
  | ret value, s => (value, s)
  | call op next, s => (next (answer op s).1).run answer (answer op s).2

variable (answer : (op : E.Op) → σ → E.Reply op × σ)

@[simp] theorem run_ret (value : α) (s : σ) : (ret value : Prog E α).run answer s = (value, s) :=
  rfl

@[simp] theorem run_call (op : E.Op) (next : E.Reply op → Prog E α) (s : σ) :
    (call op next).run answer s = (next (answer op s).1).run answer (answer op s).2 := rfl

@[simp] theorem run_perform (op : E.Op) (s : σ) :
    (perform op : Prog E (E.Reply op)).run answer s = answer op s := rfl

@[simp] theorem run_bind (p : Prog E α) (f : α → Prog E β) (s : σ) :
    (p >>= f).run answer s = (f (p.run answer s).1).run answer (p.run answer s).2 := by
  induction p generalizing s with
  | ret value => rfl
  | call op next ih => simp only [call_bind, run_call, ih]

/-- The replies of `answer`, with the operations so far kept beside the state. -/
def traced (op : E.Op) (s : σ × List E.Op) : E.Reply op × (σ × List E.Op) :=
  ((answer op s.1).1, (answer op s.1).2, s.2 ++ [op])

theorem run_traced (p : Prog E α) (s : σ) (ops : List E.Op) :
    ∃ ops', p.run (traced answer) (s, ops) = ((p.run answer s).1, (p.run answer s).2, ops') := by
  induction p generalizing s ops with
  | ret value => exact ⟨ops, rfl⟩
  | call op next ih => exact ih (answer op s).1 (answer op s).2 (ops ++ [op])

/-- The operations of a run, in order. -/
def ops (p : Prog E α) (s : σ) : List E.Op := (p.run (traced answer) (s, [])).2.2

theorem run_of_traced {p : Prog E α} {s s' : σ} {value : α} {ops' : List E.Op}
    (h : p.run (traced answer) (s, []) = (value, s', ops')) :
    p.run answer s = (value, s') ∧ p.ops answer s = ops' := by
  obtain ⟨ops'', hRun⟩ := p.run_traced answer s []
  rw [h] at hRun
  obtain ⟨hValue, hState⟩ := Prod.mk.inj hRun
  refine ⟨Prod.ext hValue.symm (Prod.mk.inj hState).1.symm, ?_⟩
  rw [ops, h]

/-- The value of each request in order, with the state after it. -/
def results {ι : Type} (program : ι → Prog E α) : List ι → σ → List (α × σ)
  | [], _ => []
  | request :: requests, s =>
    (program request).run answer s :: results program requests ((program request).run answer s).2

/-- The state after all requests. -/
def stateAfter {ι : Type} (program : ι → Prog E α) (requests : List ι) (s : σ) : σ :=
  requests.foldl (fun s request => ((program request).run answer s).2) s

theorem stateAfter_append {ι : Type} (program : ι → Prog E α) (requests requests' : List ι)
    (s : σ) : stateAfter answer program (requests ++ requests') s =
      stateAfter answer program requests' (stateAfter answer program requests s) :=
  List.foldl_append

theorem results_getElem? {ι : Type} (program : ι → Prog E α) (requests : List ι) (s : σ) (k : Nat) :
    (results answer program requests s)[k]? = requests[k]?.map fun request =>
      (program request).run answer (stateAfter answer program (requests.take k) s) := by
  induction requests generalizing s k with
  | nil => rfl
  | cons request requests ih =>
    cases k with
    | zero => rfl
    | succ k => exact ih _ k

/-- Two services give related results when each request keeps a relation between their states, which
may depend on the requests to come. -/
theorem results_forall₂ {F : Interface} {ι τ : Type} (answer' : (op : F.Op) → τ → F.Reply op × τ)
    {program : ι → Prog E α} {program' : ι → Prog F β} {R : List ι → σ → τ → Prop}
    {Q : α × σ → β × τ → Prop}
    (step : ∀ request requests s s', R (request :: requests) s s' →
      Q ((program request).run answer s) ((program' request).run answer' s') ∧
        R requests ((program request).run answer s).2 ((program' request).run answer' s').2)
    (requests : List ι) (s : σ) (s' : τ) (start : R requests s s') :
    List.Forall₂ Q (results answer program requests s) (results answer' program' requests s') := by
  induction requests generalizing s s' with
  | nil => exact .nil
  | cons request requests ih =>
    obtain ⟨hResult, hState⟩ := step request requests s s' start
    exact .cons hResult (ih _ _ hState)

/-! ### Values decided by a reply -/

/-- Each reply with a value in `last` ends `p` at once with that value, and each value that `p`
returns otherwise satisfies `other`. -/
def Follows (last : (op : E.Op) → E.Reply op → Option α) (other : α → Prop) : Prog E α → Prop
  | ret value => other value
  | call op next => ∀ reply,
    match last op reply with
    | some value => next reply = ret value
    | none => (next reply).Follows last other

variable {last : (op : E.Op) → E.Reply op → Option α} {other : α → Prop}

theorem Follows.ended {op : E.Op} {next : E.Reply op → Prog E α}
    (h : (call op next).Follows last other) {reply : E.Reply op} {value : α}
    (hLast : last op reply = some value) : next reply = ret value := by
  have := h reply
  rwa [hLast] at this

theorem Follows.next {op : E.Op} {next : E.Reply op → Prog E α}
    (h : (call op next).Follows last other) {reply : E.Reply op}
    (hLast : last op reply = none) : (next reply).Follows last other := by
  have := h reply
  rwa [hLast] at this

theorem Follows.imp {p : Prog E α} (h : p.Follows last other) (other' : α → Prop)
    (hOther : ∀ value, other value → other' value) : p.Follows last other' := by
  induction p with
  | ret value => exact hOther value h
  | call op next ih =>
    intro reply
    cases hLast : last op reply with
    | none => exact ih reply (h.next hLast)
    | some value => exact h.ended hLast

theorem Follows.map {p : Prog E α} (h : p.Follows last other) (f : α → β) (other' : β → Prop)
    (hOther : ∀ value, other value → other' (f value)) :
    (p >>= fun value => ret (f value)).Follows (fun op reply => (last op reply).map f) other' := by
  induction p with
  | ret value => exact hOther value h
  | call op next ih =>
    intro reply
    show match (last op reply).map f with
      | some value => (next reply >>= fun value => ret (f value)) = ret value
      | none => (next reply >>= fun value => ret (f value)).Follows _ other'
    cases hLast : last op reply with
    | none => exact ih reply (h.next hLast)
    | some value =>
      rw [h.ended hLast]
      rfl

end Prog

end Effect
