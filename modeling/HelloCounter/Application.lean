import HelloCounter.Domain
import HelloCounter.Library.Effect

/-! The use cases of `crates/application` over any counter store.  A store is a pair of programs
over an interface `E`, as the trait `CounterStore` is a pair of asynchronous methods. -/

namespace HelloCounter

open Effect

inductive CounterStoreError where
  | unavailable (message : String)
deriving DecidableEq

structure CounterStore (E : Interface) where
  nextVisitorCount : Prog E (Except CounterStoreError UInt64)
  health : Prog E (Except CounterStoreError Unit)
  storageName : String

inductive ApplicationError where
  | counterStore (error : CounterStoreError)
  | greeting (error : GreetingError)
deriving DecidableEq

structure HelloResponse where
  message : String
  visitorCount : Option UInt64
deriving DecidableEq

structure HealthResponse where
  status : String
  storage : String
deriving DecidableEq

inductive GreetingMode where
  | plain
  | counter
deriving DecidableEq

structure HelloWorldService (E : Interface) where
  mode : GreetingMode
  counterStore : CounterStore E

namespace HelloWorldService

variable {E : Interface}

def numbered (count : VisitorCount) : HelloResponse :=
  { message := (Greeting.numbered count).message, visitorCount := some count.get }

/-- What `hello` makes of the store's result: both `?` and the greeting. -/
def counted : Except CounterStoreError UInt64 → Except ApplicationError HelloResponse
  | .error error => .error (.counterStore error)
  | .ok value =>
    match VisitorCount.new value with
    | .error error => .error (.greeting error)
    | .ok count => .ok (numbered count)

def hello (service : HelloWorldService E) : Prog E (Except ApplicationError HelloResponse) :=
  match service.mode with
  | .plain => return .ok { message := Greeting.plain.message, visitorCount := none }
  | .counter => do
    let result ← service.counterStore.nextVisitorCount
    return counted result

def health (service : HelloWorldService E) : Prog E (Except ApplicationError HealthResponse) := do
  match ← service.counterStore.health with
  | .error error => return .error (.counterStore error)
  | .ok () => return .ok { status := "ok", storage := service.counterStore.storageName }

theorem counted_ok (count : VisitorCount) : counted (.ok count.get) = .ok (numbered count) := by
  simp only [counted, count.new_get]

theorem counted_eq_ok {result : Except CounterStoreError UInt64} {response : HelloResponse}
    (h : counted result = .ok response) :
    ∃ count : VisitorCount, result = .ok count.get ∧ response = numbered count := by
  match result with
  | .error error => cases h
  | .ok value =>
    by_cases hz : value = 0
    · subst hz
      cases h
    · have hNew := counted_ok ⟨value, hz⟩
      exact ⟨⟨value, hz⟩, rfl, Except.ok.inj (h.symm.trans hNew)⟩

end HelloWorldService

end HelloCounter
