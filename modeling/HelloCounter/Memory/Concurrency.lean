import HelloCounter.Library.Tickets
import HelloCounter.Memory.Store

/-! Concurrent calls of `hello` over one memory store.  A call may be dropped while it waits for the
lock, the only point where it is suspended.  The counts returned are the tickets drawn inside the
lock, and the counter is the number of calls that have drawn one. -/

namespace HelloCounter.Memory

open Effect Schedule

structure Mutex where
  holder : Option Nat
  counter : UInt64
deriving DecidableEq

inductive Label where
  | acquired (task : Nat)
  | incremented (task : Nat)
  | loaded (task : Nat)
  | released (task : Nat)
deriving DecidableEq

inductive Reply : Nat → (op : Op) → op.Reply → Label → Mutex → Mutex → Prop
  | acquired {t counter} : Reply t .lock () (.acquired t) ⟨none, counter⟩ ⟨some t, counter⟩
  | incremented {t m} :
      Reply t .increment () (.incremented t) m { m with counter := m.counter + 1 }
  | loaded {t m} : Reply t .read m.counter (.loaded t) m m
  | released {t m} : Reply t .unlock () (.released t) m { m with holder := none }

/-- The mutex as a device: a waiter for the lock may be dropped. -/
def device : Device Mem Mutex Label where
  serve _ _ _ _ _ := False
  reply := Reply
  drift _ _ _ := False
  release _ op m m' := op = .lock ∧ m' = m

def Mutex.fresh : Mutex := ⟨none, 0⟩

abbrev Result := Except ApplicationError HelloResponse

abbrev Call := Event Unit Label Result

abbrev Calls := State Mem Mutex Result

/-- `hello` in counter mode over the memory store. -/
def hello (_ : Unit) : Prog Mem Result :=
  (HelloWorldService.mk .counter MemoryCounterStore.port).hello

/-! ### The phases of a call -/

def leaving (count : UInt64) : Prog Mem Result :=
  .call .unlock fun _ => .ret (HelloWorldService.counted (.ok count))

def incremented : Prog Mem Result := .call .read leaving

def locked : Prog Mem Result := .call .increment fun _ => incremented

def waiting : Prog Mem Result := .call .lock fun _ => locked

/-- A running call waits for the lock, holds it, or is about to return a positive count. -/
inductive Phase (m : Mutex) (t : Nat) : Prog Mem Result → Prop
  | waiting : Phase m t waiting
  | locked (holds : m.holder = some t) : Phase m t locked
  | incremented (holds : m.holder = some t) (positive : m.counter ≠ 0) : Phase m t incremented
  | leaving (holds : m.holder = some t) (positive : m.counter ≠ 0) : Phase m t (leaving m.counter)
  | done (count : VisitorCount) : Phase m t (.ret (.ok (HelloWorldService.numbered count)))

def Inv (s : Calls) : Prop := ∀ t p, s.tasks t = some (.running p) → Phase s.shared t p

/-- Every step from a state with the invariant. -/
inductive Move (s : Calls) : Call → Calls → Prop
  | start (t : Nat) (fresh : s.tasks t = none) : Move s (.start t ()) (s.set t (.running waiting))
  | acquire (t : Nat) (waits : s.tasks t = some (.running waiting))
      (free : s.shared.holder = none) :
      Move s (.device (.acquired t))
        ({ s with shared := { s.shared with holder := some t } }.set t (.running locked))
  | increment (t : Nat) (waits : s.tasks t = some (.running locked))
      (holds : s.shared.holder = some t) :
      Move s (.device (.incremented t))
        ({ s with shared := { s.shared with counter := s.shared.counter + 1 } }.set t
          (.running incremented))
  | load (t : Nat) (waits : s.tasks t = some (.running incremented))
      (holds : s.shared.holder = some t) (positive : s.shared.counter ≠ 0) :
      Move s (.device (.loaded t)) (s.set t (.running (leaving s.shared.counter)))
  | release (t : Nat) (count : VisitorCount) (hCount : s.shared.counter = count.get)
      (waits : s.tasks t = some (.running (leaving s.shared.counter)))
      (holds : s.shared.holder = some t) :
      Move s (.device (.released t)) ({ s with shared := { s.shared with holder := none } }.set t
        (.running (.ret (.ok (HelloWorldService.numbered count)))))
  | finish (t : Nat) (count : VisitorCount)
      (returns : s.tasks t = some (.running (.ret (.ok (HelloWorldService.numbered count))))) :
      Move s (.finish t (.ok (HelloWorldService.numbered count)))
        (s.set t (.finished (.ok (HelloWorldService.numbered count))))
  | drop (t : Nat) (waits : s.tasks t = some (.running waiting)) :
      Move s (.drop t) (s.set t .dropped)

theorem Inv.move {s s' : Calls} {event : Call} (inv : Inv s)
    (step : Step hello device s event s') : Move s event s' := by
  cases step with
  | start job fresh => exact .start _ fresh
  | serve waits served => exact served.elim
  | @reply t op next reply label shared waits replied =>
    have phase := inv t _ waits
    generalize hCall : Prog.call op next = p at phase
    generalize hShared : s.shared = m at replied
    cases phase with
    | waiting =>
      cases hCall
      cases replied with
      | acquired =>
        have := Move.acquire t waits (by rw [hShared])
        rw [hShared] at this
        exact this
    | locked holds =>
      cases hCall
      cases replied with
      | incremented => subst hShared; exact .increment t waits holds
    | incremented holds positive =>
      cases hCall
      cases replied with
      | loaded => subst hShared; exact .load t waits holds positive
    | leaving holds positive =>
      cases hCall
      cases replied with
      | released =>
        subst hShared
        have := Move.release t ⟨s.shared.counter, positive⟩ rfl waits holds
        rwa [← HelloWorldService.counted_ok] at this
    | done count => cases hCall
  | drift drifts => exact drifts.elim
  | @finish t value returns =>
    have phase := inv t _ returns
    generalize hRet : Prog.ret value = p at phase
    cases phase with
    | done count => cases hRet; exact .finish t count returns
    | _ => cases hRet
  | @drop t op next shared waits released =>
    obtain ⟨hLock, hSame⟩ := released
    subst hLock hSame
    have phase := inv t _ waits
    generalize hCall : (Prog.call _ next : Prog Mem Result) = p at phase
    cases phase with
    | waiting => cases hCall; exact .drop t waits
    | _ => cases hCall

variable {s s' : Calls} {event : Call}

/-- Another holder keeps the phase of a call that does not hold the lock. -/
theorem Phase.keep {m m' : Mutex} {t : Nat} {p : Prog Mem Result} (phase : Phase m t p)
    (same : m.holder = some t → m'.holder = some t ∧ m'.counter = m.counter) : Phase m' t p := by
  cases phase with
  | waiting => exact .waiting
  | locked holds => exact .locked (same holds).1
  | incremented holds positive =>
    obtain ⟨holds', hCounter⟩ := same holds
    exact .incremented holds' (hCounter ▸ positive)
  | leaving holds positive =>
    obtain ⟨holds', hCounter⟩ := same holds
    rw [← hCounter] at positive ⊢
    exact .leaving holds' positive
  | done count => exact .done count

theorem Inv.set (inv : Inv s) {m : Mutex} {t : Nat} {task : Task Mem Result}
    (own : ∀ p, task = .running p → Phase m t p)
    (same : ∀ u, u ≠ t → s.shared.holder = some u →
      m.holder = some u ∧ m.counter = s.shared.counter) :
    Inv (({ s with shared := m } : Calls).set t task) := by
  intro u p hTask
  rw [State.set_tasks] at hTask
  by_cases hu : u = t
  · subst hu
    rw [if_pos rfl] at hTask
    exact own p (Option.some.inj hTask)
  · rw [if_neg hu] at hTask
    exact (inv u p hTask).keep (same u hu)

def Room (s : Calls) : Prop := s.shared.counter.toNat + 1 < 2 ^ 64

theorem Room.counter_succ (room : Room s) :
    (s.shared.counter + 1).toNat = s.shared.counter.toNat + 1 :=
  increment_toNat room

theorem Move.inv (inv : Inv s) (move : Move s event s')
    (room : ∀ t, event = .device (.incremented t) → Room s) : Inv s' := by
  cases move with
  | start t fresh =>
    exact inv.set (by rintro p ⟨⟩; exact .waiting) fun u _ holds => ⟨holds, rfl⟩
  | acquire t waits free =>
    refine inv.set (by rintro p ⟨⟩; exact .locked rfl) fun u _ holds => ?_
    rw [free] at holds
    cases holds
  | increment t waits holds =>
    refine inv.set ?_ fun u hu holds' => absurd (Option.some.inj (holds'.symm.trans holds)) hu
    rintro p ⟨⟩
    refine .incremented holds fun hZero => ?_
    have := (room t rfl).counter_succ
    rw [show s.shared.counter + 1 = 0 from hZero] at this
    simp at this
  | load t waits holds positive =>
    exact inv.set (by rintro p ⟨⟩; exact .leaving holds positive) fun u _ holds => ⟨holds, rfl⟩
  | release t count hCount waits holds =>
    refine inv.set (by rintro p ⟨⟩; exact .done count) fun u hu holds' => ?_
    exact absurd (Option.some.inj (holds'.symm.trans holds)) hu
  | finish t count returns =>
    exact inv.set (by rintro p ⟨⟩) fun u _ holds => ⟨holds, rfl⟩
  | drop t waits => exact inv.set (by rintro p ⟨⟩) fun u _ holds => ⟨holds, rfl⟩

/-! ### How far each call has come -/

/-- A call starts, acquires the lock, adds one, and returns: stages 1 to 4. -/
def Call.mark : Call → Option (Nat × Nat)
  | .start t _ => some (t, 1)
  | .device (.acquired t) => some (t, 2)
  | .device (.incremented t) => some (t, 3)
  | .finish t _ => some (t, 4)
  | _ => none

def Call.reaches (k : Nat) (event : Call) : Option Nat :=
  event.mark.bind fun (t, j) => if k = j then some t else none

def stage : Option (Task Mem Result) → Nat
  | none => 0
  | some .dropped | some (.running (.call .lock _)) => 1
  | some (.running (.call .increment _)) => 2
  | some (.running _) => 3
  | some (.finished _) => 4

/-- One for a call that has come to stage `k`. -/
def reached (k : Nat) (task : Option (Task Mem Result)) : Nat := if k ≤ stage task then 1 else 0

theorem stage_set (s : Calls) (t u : Nat) (task : Task Mem Result) :
    stage ((s.set t task).tasks u) = if u = t then stage (some task) else stage (s.tasks u) := by
  rw [State.set_tasks]
  split <;> rfl

/-- A move takes one call to its next stage, or leaves every call at its stage. -/
theorem Move.stage_cases (move : Move s event s') :
    (∃ t j, stage (s.tasks t) = j ∧
      (∀ u, stage (s'.tasks u) = if u = t then j + 1 else stage (s.tasks u)) ∧
      ∀ k, event.reaches k = if k = j + 1 then some t else none) ∨
    ((∀ u, stage (s'.tasks u) = stage (s.tasks u)) ∧ ∀ k, event.reaches k = none) := by
  cases move with
  | start t fresh =>
    refine .inl ⟨t, 0, by rw [fresh]; rfl, (stage_set s t · _), fun k => rfl⟩
  | acquire t waits free =>
    refine .inl ⟨t, 1, by rw [waits]; rfl, (stage_set _ t · _), fun k => rfl⟩
  | increment t waits holds =>
    refine .inl ⟨t, 2, by rw [waits]; rfl, (stage_set _ t · _), fun k => rfl⟩
  | finish t count returns =>
    refine .inl ⟨t, 3, by rw [returns]; rfl, (stage_set s t · _), fun k => rfl⟩
  | load t waits holds positive =>
    refine .inr ⟨fun u => ?_, fun k => rfl⟩
    rw [stage_set]
    split
    · next hu => rw [hu, waits]; rfl
    · rfl
  | release t count hCount waits holds =>
    refine .inr ⟨fun u => ?_, fun k => rfl⟩
    rw [stage_set]
    split
    · next hu => rw [hu, waits]; rfl
    · rfl
  | drop t waits =>
    refine .inr ⟨fun u => ?_, fun k => rfl⟩
    rw [stage_set]
    split
    · next hu => rw [hu, waits]; rfl
    · rfl

theorem Move.reached (move : Move s event s') (u k : Nat) :
    reached k (s'.tasks u) =
      reached k (s.tasks u) + if event.reaches k = some u then 1 else 0 := by
  unfold Memory.reached
  rcases move.stage_cases with ⟨t, j, hStage, hStage', hReaches⟩ | ⟨hStage', hReaches⟩
  · rw [hStage', hReaches]
    by_cases hu : u = t
    · subst hu
      rw [if_pos rfl, hStage]
      by_cases hk : k = j + 1
      · simp [hk]
      · have : k ≤ j + 1 ↔ k ≤ j := by omega
        simp [hk, this]
    · by_cases hk : k = j + 1 <;> simp [hu, hk, Ne.symm hu]
  · simp [hStage', hReaches]

structure Counted (events : List Call) (s : Calls) : Prop where
  inv : Inv s
  reached : ∀ k t, 1 ≤ k → (events.filterMap (Call.reaches k)).count t = reached k (s.tasks t)
  counter : s.shared.counter.toNat = (events.filterMap (Call.reaches 3)).length

theorem reaches_length_le {events : List Call}
    (counts : ∀ k t, 1 ≤ k → (events.filterMap (Call.reaches k)).count t = reached k (s.tasks t))
    {j k : Nat} (hj : 1 ≤ j) (hjk : j ≤ k) :
    (events.filterMap (Call.reaches k)).length ≤ (events.filterMap (Call.reaches j)).length := by
  refine (List.subperm_ext_iff.mpr fun t _ => ?_).length_le
  rw [counts k t (by omega), counts j t hj]
  unfold reached
  split
  · rw [if_pos (by omega)]
  · exact Nat.zero_le _

theorem Counted.step {events : List Call} (counted : Counted events s)
    (step : Step hello device s event s')
    (bound : ((events ++ [event]).filterMap (Call.reaches 1)).length < 2 ^ 64) :
    Move s event s' ∧ (∀ t, event = .device (.incremented t) → Room s) ∧
      Counted (events ++ [event]) s' := by
  have move := counted.inv.move step
  have counts : ∀ k t, 1 ≤ k →
      ((events ++ [event]).filterMap (Call.reaches k)).count t = Memory.reached k (s'.tasks t) := by
    intro k t hk
    rw [count_filterMap_snoc, counted.reached k t hk, move.reached]
  have hLe := reaches_length_le counts (Nat.le_refl 1) (show 1 ≤ 3 by omega)
  have hCounter := counted.counter
  have room : ∀ t, event = .device (.incremented t) → Room s := by
    rintro t rfl
    rw [List.filterMap_append, List.length_append] at hLe
    have hOne : ([Event.device (.incremented t)].filterMap (Call.reaches 3)).length = 1 := rfl
    unfold Room
    omega
  refine ⟨move, room, move.inv counted.inv room, counts, ?_⟩
  rw [List.filterMap_append, List.length_append, ← hCounter]
  cases move with
  | increment t waits holds => exact (room t rfl).counter_succ
  | _ => rfl

theorem run_counted {events : List Call} (run : Run hello device (State.idle .fresh) events s)
    (bound : (events.filterMap (Call.reaches 1)).length < 2 ^ 64) : Counted events s := by
  induction run with
  | nil =>
    refine ⟨fun _ _ h => (nomatch h), fun k t hk => ?_, rfl⟩
    exact (if_neg (show ¬k ≤ 0 by omega)).symm
  | snoc run step ih =>
    have hPrefix := bound
    rw [List.filterMap_append, List.length_append] at hPrefix
    exact ((ih (by omega)).step step bound).2.2

end HelloCounter.Memory
