import HelloCounter.Application

/-! `MemoryCounterStore`: a counter behind a mutex.  A call waits for the lock, adds one, reads the
sum, and drops the guard as it returns. -/

namespace HelloCounter.Memory

open Effect

inductive Op where
  /-- `lock().await`. -/
  | lock
  /-- `*counter += 1`. -/
  | increment
  /-- The value of `*counter`. -/
  | read
  /-- The guard is dropped. -/
  | unlock
deriving DecidableEq

abbrev Op.Reply : Op → Type
  | .read => UInt64
  | _ => Unit

abbrev Mem : Interface := ⟨Op, Op.Reply⟩

def lock : Prog Mem Unit := Prog.perform (E := Mem) .lock

def increment : Prog Mem Unit := Prog.perform (E := Mem) .increment

def read : Prog Mem UInt64 := Prog.perform (E := Mem) .read

def unlock : Prog Mem Unit := Prog.perform (E := Mem) .unlock

theorem increment_toNat {counter : UInt64} (room : counter.toNat + 1 < UInt64.size) :
    (counter + 1).toNat = counter.toNat + 1 := by
  rw [UInt64.toNat_add]
  exact Nat.mod_eq_of_lt room

namespace MemoryCounterStore

def nextVisitorCount : Prog Mem (Except CounterStoreError UInt64) := do
  lock
  increment
  let counter ← read
  unlock
  return .ok counter

def health : Prog Mem (Except CounterStoreError Unit) := return .ok ()

def port : CounterStore Mem where
  nextVisitorCount := nextVisitorCount
  health := health
  storageName := "memory"

end MemoryCounterStore

end HelloCounter.Memory
