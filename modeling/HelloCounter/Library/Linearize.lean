import HelloCounter.Library.Schedule

/-! Tasks that work under one lock.  Each program returns at once or takes the lock, works while it
holds it, gives it back and returns.  Every run of such tasks is a sequential run of the tasks that
came so far, in the order in which they took the lock, and that order keeps the order of real
time. -/

namespace Linearize

open Effect Schedule

inductive Role where
  | acquire
  | inside
  | release
deriving DecidableEq

/-- A lock over a state of type `σ`, kept by a device with states `τ`. -/
structure Lock (E : Interface) (τ σ : Type) where
  role : E.Op → Role
  answer : (op : E.Op) → σ → E.Reply op × σ
  holder : τ → Option Nat
  content : τ → σ

section

variable {E : Interface} {σ τ Λ ι α : Type} (lock : Lock E τ σ)

/-- The holder of the lock after an operation of task `t`. -/
def Lock.passes (t : Nat) (m m' : τ) : Role → Prop
  | .acquire => lock.holder m = none ∧ lock.holder m' = some t
  | .inside => lock.holder m' = lock.holder m
  | .release => lock.holder m' = none

/-- The device answers each operation at once, hands the lock to one task at a time, and drops a
task only while it waits for the lock. -/
structure Lock.Guards (dev : Device E τ Λ) : Prop where
  serve : ∀ t op label m m', ¬dev.serve t op label m m'
  drift : ∀ label m m', ¬dev.drift label m m'
  reply : ∀ t op reply label m m', dev.reply t op reply label m m' →
    lock.answer op (lock.content m) = (reply, lock.content m') ∧ lock.passes t m m' (lock.role op)
  release : ∀ t op m m', dev.release t op m m' → lock.role op = .acquire ∧ m' = m

/-- A program that holds the lock, and gives it back before it returns. -/
inductive Inside : Prog E α → Prop
  | work {op next} (role : lock.role op = .inside) (rest : ∀ reply, Inside (next reply)) :
      Inside (.call op next)
  | leave {op next} (role : lock.role op = .release)
      (rest : ∀ reply, ∃ value, next reply = .ret value) : Inside (.call op next)

/-- A program that returns at once, or takes the lock first. -/
inductive Critical : Prog E α → Prop
  | skip (value : α) : Critical (.ret value)
  | enter {op next} (role : lock.role op = .acquire)
      (rest : ∀ reply, Inside lock (next reply)) : Critical (.call op next)

variable (program : ι → Prog E α)

/-- The tasks of a sequential run, each with the value that it returns. -/
def served : List (Nat × ι) → σ → List (Nat × α)
  | [], _ => []
  | (t, job) :: order, s =>
    (t, ((program job).run lock.answer s).1) ::
      served order ((program job).run lock.answer s).2

/-- The state after a sequential run. -/
def after (order : List (Nat × ι)) (s : σ) : σ :=
  Prog.stateAfter lock.answer program (order.map Prod.snd) s

/-- One task comes before another. -/
def Precedes (order : List (Nat × ι)) (t u : Nat) : Prop :=
  ∃ first rest, order = first ++ rest ∧ t ∈ first.map Prod.fst ∧ u ∈ rest.map Prod.fst

/-- The sequential run in the given order explains the events: each task in it has started, each
value is the one that its task returns there, a dropped task is not in it, and a task that returned
before another one started comes first. -/
structure Linearizes (events : List (Event ι Λ α)) (s₀ : σ) (order : List (Nat × ι)) : Prop where
  nodup : (order.map Prod.fst).Nodup
  started : ∀ t job, (t, job) ∈ order → .start t job ∈ events
  values : ∀ t value, .finish t value ∈ events → (t, value) ∈ served lock program order s₀
  dropped : ∀ t, .drop t ∈ events → t ∉ order.map Prod.fst
  realTime : ∀ before after t u value job, events = before ++ .start u job :: after →
    .finish t value ∈ before → u ∈ order.map Prod.fst → Precedes order t u

/-! ### One more task in a sequential run -/

theorem served_append_single (order : List (Nat × ι)) (t : Nat) (job : ι) (s : σ) :
    served lock program (order ++ [(t, job)]) s = served lock program order s ++
      [(t, ((program job).run lock.answer (after lock program order s)).1)] := by
  induction order generalizing s with
  | nil => rfl
  | cons entry order ih => exact congrArg _ (ih _)

theorem after_append_single (order : List (Nat × ι)) (t : Nat) (job : ι) (s : σ) :
    after lock program (order ++ [(t, job)]) s =
      ((program job).run lock.answer (after lock program order s)).2 := by
  rw [after, List.map_append, Prog.stateAfter_append]
  rfl

theorem served_fst (order : List (Nat × ι)) (s : σ) :
    (served lock program order s).map Prod.fst = order.map Prod.fst := by
  induction order generalizing s with
  | nil => rfl
  | cons entry order ih => exact congrArg _ (ih _)

theorem served_snd (order : List (Nat × ι)) (s : σ) :
    (served lock program order s).map Prod.snd =
      (Prog.results lock.answer program (order.map Prod.snd) s).map Prod.fst := by
  induction order generalizing s with
  | nil => rfl
  | cons entry order ih => exact congrArg _ (ih _)

variable {lock program}

theorem Inside.map {β : Type} {p : Prog E α} (inside : Inside lock p) (f : α → β) :
    Inside lock (p >>= fun value => .ret (f value)) := by
  induction inside with
  | work role rest ih => exact .work role ih
  | leave role rest =>
    refine .leave role fun reply => ?_
    obtain ⟨value, hRet⟩ := rest reply
    exact ⟨f value, by rw [hRet]; rfl⟩

/-- What a program does with its value after its work is no part of the critical section. -/
theorem Critical.map {β : Type} {p : Prog E α} (critical : Critical lock p) (f : α → β) :
    Critical lock (p >>= fun value => .ret (f value)) := by
  cases critical with
  | skip value => exact .skip (f value)
  | enter role rest => exact .enter role fun reply => (rest reply).map f

/-- The value of the task at a place of the sequential run. -/
theorem value_at {order : List (Nat × ι)} (nodup : (order.map Prod.fst).Nodup) {s : σ} {k t : Nat}
    {job : ι} {value : α} (hTask : order[k]? = some (t, job))
    (h : (t, value) ∈ served lock program order s) :
    ((Prog.results lock.answer program (order.map Prod.snd) s).map Prod.fst)[k]? = some value := by
  obtain ⟨j, hj⟩ := List.mem_iff_getElem?.mp h
  have hFst : (order.map Prod.fst)[j]? = some t := by
    rw [← served_fst lock program order s, List.getElem?_map, hj]
    rfl
  have hSame : (order.map Prod.fst)[k]? = (order.map Prod.fst)[j]? := by
    rw [hFst, List.getElem?_map, hTask]
    rfl
  have hLt : k < (order.map Prod.fst).length := by
    rw [List.length_map]
    exact (List.getElem?_eq_some_iff.mp hTask).1
  obtain rfl : k = j := (List.getElem?_inj hLt nodup).mp hSame
  rw [← served_snd, List.getElem?_map, hj]
  rfl

theorem mem_order_of_served {order : List (Nat × ι)} {s : σ} {t : Nat} {value : α}
    (h : (t, value) ∈ served lock program order s) : t ∈ order.map Prod.fst := by
  rw [← served_fst lock program order s]
  exact List.mem_map_of_mem h

/-- A longer sequential run that keeps the values of the tasks in `order`. -/
def Extends (lock : Lock E τ σ) (program : ι → Prog E α) (s₀ : σ)
    (order order' : List (Nat × ι)) : Prop :=
  ∀ entry ∈ served lock program order s₀, entry ∈ served lock program order' s₀

theorem Extends.refl (s₀ : σ) (order : List (Nat × ι)) : Extends lock program s₀ order order :=
  fun _ h => h

theorem Extends.single (s₀ : σ) (order : List (Nat × ι)) (t : Nat) (job : ι) :
    Extends lock program s₀ order (order ++ [(t, job)]) := by
  intro entry h
  rw [served_append_single]
  exact List.mem_append_left _ h

/-! ### Where a task stands -/

/-- A task waits for the lock, holds it, or has the value of the sequential run. -/
inductive Place (lock : Lock E τ σ) (program : ι → Prog E α) (events : List (Event ι Λ α))
    (s₀ : σ) (order : List (Nat × ι)) (holder : Option Nat) (t : Nat) : Task E α → Prop
  | waiting {job op next} (started : .start t job ∈ events) (hJob : program job = .call op next)
      (role : lock.role op = .acquire) (rest : ∀ reply, Inside lock (next reply))
      (unserved : t ∉ order.map Prod.fst) :
      Place lock program events s₀ order holder t (.running (.call op next))
  | holding {p} (holds : holder = some t) :
      Place lock program events s₀ order holder t (.running p)
  | returning {value} (served : (t, value) ∈ served lock program order s₀) :
      Place lock program events s₀ order holder t (.running (.ret value))
  | finished {value} (served : (t, value) ∈ served lock program order s₀) :
      Place lock program events s₀ order holder t (.finished value)
  | dropped (unserved : t ∉ order.map Prod.fst) :
      Place lock program events s₀ order holder t .dropped

variable {events : List (Event ι Λ α)} {event : Event ι Λ α} {s₀ : σ}
  {order order' : List (Nat × ι)} {holder holder' : Option Nat}

/-- A task keeps its place when the sequential run goes on without it and the lock is not taken from
it. -/
theorem Place.keep {t : Nat} {task : Task E α}
    (place : Place lock program events s₀ order holder t task)
    (hOrder : Extends lock program s₀ order order')
    (unserved : t ∉ order.map Prod.fst → t ∉ order'.map Prod.fst)
    (holds : holder = some t → holder' = some t) :
    Place lock program (events ++ [event]) s₀ order' holder' t task := by
  cases place with
  | waiting started hJob role rest hNot =>
    exact .waiting (List.mem_append_left _ started) hJob role rest (unserved hNot)
  | holding hHolds => exact .holding (holds hHolds)
  | returning h => exact .returning (hOrder _ h)
  | finished h => exact .finished (hOrder _ h)
  | dropped hNot => exact .dropped (unserved hNot)

/-- The state of a run as a sequential run of the tasks in `order`, of which the last to take the
lock may still be at work. -/
structure Inv (lock : Lock E τ σ) (program : ι → Prog E α) (s₀ : σ) (events : List (Event ι Λ α))
    (s : State E τ α) (order : List (Nat × ι)) : Prop where
  nodup : (order.map Prod.fst).Nodup
  started : ∀ t job, (t, job) ∈ order → .start t job ∈ events
  free : lock.holder s.shared = none → lock.content s.shared = after lock program order s₀
  held : ∀ t, lock.holder s.shared = some t → ∃ p, s.tasks t = some (.running p) ∧
    Inside lock p ∧
    (t, (p.run lock.answer (lock.content s.shared)).1) ∈ served lock program order s₀ ∧
    (p.run lock.answer (lock.content s.shared)).2 = after lock program order s₀
  fresh : ∀ t, s.tasks t = none → t ∉ order.map Prod.fst
  place : ∀ t task, s.tasks t = some task →
    Place lock program events s₀ order (lock.holder s.shared) t task

theorem Inv.idle {m₀ : τ} (free : lock.holder m₀ = none) :
    Inv lock program (lock.content m₀) ([] : List (Event ι Λ α)) (State.idle m₀) [] where
  nodup := List.nodup_nil
  started := fun _ _ h => nomatch h
  free := fun _ => rfl
  held := fun t h => by
    rw [show lock.holder (State.idle m₀ : State E τ α).shared = none from free] at h
    cases h
  fresh := fun _ _ h => nomatch h
  place := fun _ _ h => nomatch h

variable {s : State E τ α}

theorem not_mem_append_single {order : List (Nat × ι)} {t u : Nat} {job : ι} (hu : u ≠ t)
    (h : u ∉ order.map Prod.fst) : u ∉ (order ++ [(t, job)]).map Prod.fst := by
  rw [List.map_append, List.mem_append]
  rintro (h' | h')
  · exact h h'
  · exact hu (List.mem_singleton.mp h')

/-- A step of task `t` under a lock that no other task holds or gets: what is left to show is the
place of `t` and the lock's state. -/
theorem Inv.move (inv : Inv lock program s₀ events s order) {m : τ} {t : Nat} {task : Task E α}
    (hOrder : Extends lock program s₀ order order')
    (nodup : (order'.map Prod.fst).Nodup)
    (started : ∀ u job, (u, job) ∈ order' → .start u job ∈ events ++ [event])
    (unserved : ∀ u, u ≠ t → u ∉ order.map Prod.fst → u ∉ order'.map Prod.fst)
    (free : lock.holder m = none → lock.content m = after lock program order' s₀)
    (held : ∀ u, lock.holder m = some u →
      ∃ p, (({ s with shared := m } : State E τ α).set t task).tasks u = some (.running p) ∧
        Inside lock p ∧
        (u, (p.run lock.answer (lock.content m)).1) ∈ served lock program order' s₀ ∧
        (p.run lock.answer (lock.content m)).2 = after lock program order' s₀)
    (others : ∀ u, u ≠ t → lock.holder s.shared = some u → lock.holder m = some u)
    (place : Place lock program (events ++ [event]) s₀ order' (lock.holder m) t task) :
    Inv lock program s₀ (events ++ [event])
      (({ s with shared := m } : State E τ α).set t task) order' where
  nodup := nodup
  started := started
  free := free
  held := held
  fresh := by
    intro u hTask
    rw [State.set_tasks] at hTask
    by_cases hu : u = t
    · rw [if_pos hu] at hTask
      cases hTask
    · rw [if_neg hu] at hTask
      exact unserved u hu (inv.fresh u hTask)
  place := by
    intro u task' hTask
    rw [State.set_tasks] at hTask
    by_cases hu : u = t
    · rw [if_pos hu] at hTask
      cases hTask
      exact hu ▸ place
    · rw [if_neg hu] at hTask
      exact (inv.place u task' hTask).keep hOrder (unserved u hu) (others u hu)

/-- A step of task `t` that leaves the lock and the sequential run alone. -/
theorem Inv.quiet (inv : Inv lock program s₀ events s order) {t : Nat} {task : Task E α}
    (hHolder : lock.holder s.shared ≠ some t)
    (place : Place lock program (events ++ [event]) s₀ order (lock.holder s.shared) t task) :
    Inv lock program s₀ (events ++ [event]) (s.set t task) order := by
  refine inv.move (m := s.shared) (.refl s₀ order) inv.nodup
    (fun u job h => List.mem_append_left _ (inv.started u job h)) (fun _ _ h => h) inv.free
    (fun u hu => ?_) (fun _ _ h => h) place
  obtain ⟨p, hTask, rest⟩ := inv.held u hu
  refine ⟨p, ?_, rest⟩
  rw [State.set_tasks, if_neg, hTask]
  rintro rfl
  exact hHolder hu

/-- Task `t` joins the sequential run at its end. -/
theorem Inv.nodup_join (inv : Inv lock program s₀ events s order) {t : Nat} (job : ι)
    (unserved : t ∉ order.map Prod.fst) : ((order ++ [(t, job)]).map Prod.fst).Nodup := by
  rw [List.map_append]
  refine List.nodup_append.mpr ⟨inv.nodup, List.pairwise_singleton .., ?_⟩
  rintro u hu v hv rfl
  obtain rfl : u = t := List.mem_singleton.mp hv
  exact unserved hu

theorem Inv.started_join (inv : Inv lock program s₀ events s order) {t : Nat} {job : ι}
    (hStart : .start t job ∈ events ++ [event]) :
    ∀ u job', (u, job') ∈ order ++ [(t, job)] → .start u job' ∈ events ++ [event] := by
  intro u job' h
  rcases List.mem_append.mp h with h | h
  · exact List.mem_append_left _ (inv.started u job' h)
  · cases List.mem_singleton.mp h
    exact hStart

theorem Inv.start (inv : Inv lock program s₀ events s order) {t : Nat} {job : ι}
    (fresh : s.tasks t = none) (critical : Critical lock (program job)) :
    ∃ order', (order' = order ∨ order' = order ++ [(t, job)]) ∧
      Inv lock program s₀ (events ++ [.start t job]) (s.set t (.running (program job))) order' := by
  have hStart : .start t job ∈ events ++ [Event.start t job] :=
    List.mem_append_right _ List.mem_cons_self
  have hUnserved := inv.fresh t fresh
  have hHolder : lock.holder s.shared ≠ some t := by
    intro h
    obtain ⟨p, hTask, -⟩ := inv.held t h
    rw [fresh] at hTask
    cases hTask
  generalize hProgram : program job = p at critical
  cases critical with
  | enter role rest =>
    exact ⟨order, .inl rfl, inv.quiet hHolder (.waiting hStart hProgram role rest hUnserved)⟩
  | skip value =>
    -- The task takes no lock, so its place in the sequential run is its start.
    have hServed := served_append_single lock program order t job s₀
    have hAfter := after_append_single lock program order t job s₀
    rw [hProgram] at hServed hAfter
    have hMem : (t, value) ∈ served lock program (order ++ [(t, job)]) s₀ := by
      rw [hServed]
      exact List.mem_append_right _ List.mem_cons_self
    refine ⟨_, .inr rfl, inv.move (m := s.shared) (.single s₀ order t job)
      (inv.nodup_join job hUnserved) (inv.started_join hStart)
      (fun _ hu => not_mem_append_single hu) (fun h => (inv.free h).trans hAfter.symm)
      (fun u hu => ?_) (fun _ _ h => h) (.returning hMem)⟩
    obtain ⟨p, hTask, hInside, hValue, hState⟩ := inv.held u hu
    refine ⟨p, ?_, hInside, Extends.single s₀ order t job _ hValue,
      hState.trans hAfter.symm⟩
    rw [State.set_tasks, if_neg, hTask]
    rintro rfl
    exact hHolder hu

theorem Inv.reply (inv : Inv lock program s₀ events s order) {t : Nat} {op : E.Op}
    {next : E.Reply op → Prog E α} {reply : E.Reply op} {label : Λ} {m : τ}
    (waits : s.tasks t = some (.running (.call op next)))
    (answered : lock.answer op (lock.content s.shared) = (reply, lock.content m))
    (passes : lock.passes t s.shared m (lock.role op)) :
    ∃ order', (order' = order ∨ ∃ job, order' = order ++ [(t, job)]) ∧
      Inv lock program s₀ (events ++ [.device label])
        (({ s with shared := m } : State E τ α).set t (.running (next reply))) order' := by
  have hRun : (Prog.call op next).run lock.answer (lock.content s.shared) =
      (next reply).run lock.answer (lock.content m) := by
    rw [Prog.run_call, answered]
  have place := inv.place t _ waits
  generalize hTask : Task.running (Prog.call op next) = task at place
  cases place with
  | @waiting job _ _ started hJob role rest unserved =>
    cases hTask
    rw [role] at passes
    obtain ⟨hFree, hTaken⟩ := passes
    have hContent := inv.free hFree
    have hServed := served_append_single lock program order t job s₀
    have hAfter := after_append_single lock program order t job s₀
    rw [hJob, ← hContent, hRun] at hServed hAfter
    refine ⟨_, .inr ⟨job, rfl⟩, inv.move (.single s₀ order t job) (inv.nodup_join job unserved)
      (inv.started_join (List.mem_append_left _ started))
      (fun _ hu => not_mem_append_single hu) (fun h => by rw [hTaken] at h; cases h)
      (fun u hu => ?_) (fun u _ h => by rw [hFree] at h; cases h) (.holding hTaken)⟩
    obtain rfl : t = u := Option.some.inj (hTaken.symm.trans hu)
    refine ⟨next reply, State.set_tasks_same .., rest reply, ?_, hAfter.symm⟩
    rw [hServed]
    exact List.mem_append_right _ List.mem_cons_self
  | holding holds =>
    obtain ⟨p, hTask', hInside, hValue, hState⟩ := inv.held t holds
    cases hTask
    cases waits.symm.trans hTask'
    rw [hRun] at hValue hState
    have others : ∀ u, u ≠ t → lock.holder s.shared = some u → lock.holder m = some u :=
      fun u hu h => absurd (Option.some.inj (h.symm.trans holds)) hu
    refine ⟨order, .inl rfl, ?_⟩
    cases hInside with
    | work role rest =>
      rw [role] at passes
      have hHolder : lock.holder m = some t := Eq.trans passes holds
      refine inv.move (.refl s₀ order) inv.nodup
        (fun u job h => List.mem_append_left _ (inv.started u job h)) (fun _ _ h => h)
        (fun h => by rw [hHolder] at h; cases h) (fun u hu => ?_) others (.holding hHolder)
      obtain rfl : t = u := Option.some.inj (hHolder.symm.trans hu)
      exact ⟨next reply, State.set_tasks_same .., rest reply, hValue, hState⟩
    | leave role rest =>
      rw [role] at passes
      have hHolder : lock.holder m = none := passes
      obtain ⟨value, hRet⟩ := rest reply
      rw [hRet] at hValue hState ⊢
      exact inv.move (.refl s₀ order) inv.nodup
        (fun u job h => List.mem_append_left _ (inv.started u job h)) (fun _ _ h => h)
        (fun _ => hState) (fun u hu => by rw [hHolder] at hu; cases hu) others (.returning hValue)
  | returning h => cases hTask
  | finished h => cases hTask
  | dropped h => cases hTask

/-- A task that is about to return does not hold the lock. -/
theorem Inv.holder_ne (inv : Inv lock program s₀ events s order) {t : Nat} {value : α}
    (returns : s.tasks t = some (.running (.ret value))) : lock.holder s.shared ≠ some t := by
  intro h
  obtain ⟨p, hTask, hInside, -⟩ := inv.held t h
  cases returns.symm.trans hTask
  cases hInside

theorem Inv.finish (inv : Inv lock program s₀ events s order) {t : Nat} {value : α}
    (returns : s.tasks t = some (.running (.ret value))) :
    Inv lock program s₀ (events ++ [.finish t value]) (s.set t (.finished value)) order := by
  refine inv.quiet (inv.holder_ne returns) ?_
  have place := inv.place t _ returns
  generalize hTask : Task.running (Prog.ret value) = task at place
  cases place with
  | waiting started hJob role rest unserved => cases hTask
  | holding holds => exact absurd holds (inv.holder_ne returns)
  | returning h => cases hTask; exact .finished h
  | finished h => cases hTask
  | dropped h => cases hTask

theorem Inv.drop (inv : Inv lock program s₀ events s order) {t : Nat} {op : E.Op}
    {next : E.Reply op → Prog E α} (waits : s.tasks t = some (.running (.call op next)))
    (role : lock.role op = .acquire) :
    Inv lock program s₀ (events ++ [.drop t]) (s.set t .dropped) order := by
  have hHolder : lock.holder s.shared ≠ some t := by
    intro h
    obtain ⟨p, hTask, hInside, -⟩ := inv.held t h
    cases waits.symm.trans hTask
    cases hInside with
    | work role' rest => rw [role] at role'; cases role'
    | leave role' rest => rw [role] at role'; cases role'
  refine inv.quiet hHolder ?_
  have place := inv.place t _ waits
  generalize hTask : Task.running (Prog.call op next) = task at place
  cases place with
  | waiting started hJob role rest unserved => exact .dropped unserved
  | holding holds => exact absurd holds hHolder
  | returning h => cases hTask
  | finished h => cases hTask
  | dropped h => cases hTask

/-! ### Runs -/

variable {dev : Device E τ Λ} {s' : State E τ α}

/-- Every step leaves the sequential run as it is, or adds one task at its end. -/
theorem Inv.step (guards : lock.Guards dev) (critical : ∀ job, Critical lock (program job))
    (inv : Inv lock program s₀ events s order) (step : Step program dev s event s') :
    ∃ order', (order' = order ∨ ∃ entry, order' = order ++ [entry]) ∧
      Inv lock program s₀ (events ++ [event]) s' order' := by
  cases step with
  | @start t job fresh =>
    obtain ⟨order', hOrder, inv'⟩ := inv.start fresh (critical job)
    exact ⟨order', hOrder.imp id fun h => ⟨_, h⟩, inv'⟩
  | serve waits served => exact (guards.serve _ _ _ _ _ served).elim
  | reply waits replied =>
    obtain ⟨answered, passes⟩ := guards.reply _ _ _ _ _ _ replied
    obtain ⟨order', hOrder, inv'⟩ := inv.reply waits answered passes
    exact ⟨order', hOrder.imp id fun ⟨_, h⟩ => ⟨_, h⟩, inv'⟩
  | drift drifts => exact (guards.drift _ _ _ drifts).elim
  | finish returns => exact ⟨order, .inl rfl, inv.finish returns⟩
  | drop waits released =>
    obtain ⟨role, rfl⟩ := guards.release _ _ _ _ released
    exact ⟨order, .inl rfl, inv.drop waits role⟩

theorem Precedes.append {order : List (Nat × ι)} {t u : Nat} (h : Precedes order t u)
    (entry : Nat × ι) : Precedes (order ++ [entry]) t u := by
  obtain ⟨first, rest, rfl, ht, hu⟩ := h
  refine ⟨first, rest ++ [entry], List.append_assoc .., ht, ?_⟩
  rw [List.map_append]
  exact List.mem_append_left _ hu

theorem Precedes.last {order : List (Nat × ι)} {t u : Nat} {entry : Nat × ι}
    (ht : t ∈ order.map Prod.fst) (hu : u ∉ order.map Prod.fst)
    (h : u ∈ (order ++ [entry]).map Prod.fst) : Precedes (order ++ [entry]) t u := by
  refine ⟨order, [entry], rfl, ht, ?_⟩
  rw [List.map_append, List.mem_append] at h
  exact h.resolve_left hu

theorem Linearizes.of_inv {m₀ : τ} (inv : Inv lock program s₀ events s order)
    (run : Run program dev (State.idle m₀) events s)
    (realTime : ∀ before after t u value job, events = before ++ .start u job :: after →
      .finish t value ∈ before → u ∈ order.map Prod.fst → Precedes order t u) :
    Linearizes lock program events s₀ order where
  nodup := inv.nodup
  started := inv.started
  values := by
    intro t value h
    have place := inv.place t _ (run.finished h)
    cases place with
    | finished h => exact h
  dropped := by
    intro t h
    have place := inv.place t _ (run.dropped h)
    cases place with
    | dropped h => exact h
  realTime := realTime

/-- Every run of critical sections is explained by a sequential run, and leaves its state when the
lock is free. -/
theorem run_linearizes (guards : lock.Guards dev) (critical : ∀ job, Critical lock (program job))
    {m₀ : τ} (free : lock.holder m₀ = none) (run : Run program dev (State.idle m₀) events s) :
    ∃ order, Linearizes lock program events (lock.content m₀) order ∧
      (lock.holder s.shared = none →
        lock.content s.shared = after lock program order (lock.content m₀)) := by
  suffices h : ∃ order, Inv lock program (lock.content m₀) events s order ∧
      Linearizes lock program events (lock.content m₀) order by
    obtain ⟨order, inv, linearizes⟩ := h
    exact ⟨order, linearizes, inv.free⟩
  induction run with
  | nil =>
    refine ⟨[], .idle free, .of_inv (.idle free) (.nil : Run program dev (State.idle m₀) [] _) ?_⟩
    intro before after t u value job h
    simp at h
  | @snoc events event s s' run step ih =>
    obtain ⟨order, inv, linearizes⟩ := ih
    obtain ⟨order', hOrder, inv'⟩ := inv.step guards critical step
    refine ⟨order', inv', .of_inv inv' (run.snoc step) ?_⟩
    intro before after t u value job hEvents hFinish hu
    have served : ∀ t value, .finish t value ∈ events → t ∈ order.map Prod.fst :=
      fun t value h => mem_order_of_served (linearizes.values t value h)
    rcases split_snoc hEvents with ⟨rfl, rfl, rfl⟩ | ⟨after', rfl, hBefore⟩
    · -- The task that starts now is not in the sequential run yet.
      have hFresh : u ∉ order.map Prod.fst := by
        cases step with
        | start job fresh => exact inv.fresh u fresh
      rcases hOrder with rfl | ⟨entry, rfl⟩
      · exact absurd hu hFresh
      · exact .last (served t value hFinish) hFresh hu
    · have hFinish' : .finish t value ∈ events := by
        rw [hBefore]
        exact List.mem_append_left _ hFinish
      by_cases hOld : u ∈ order.map Prod.fst
      · have precedes := linearizes.realTime before after' t u value job hBefore hFinish hOld
        rcases hOrder with rfl | ⟨entry, rfl⟩
        · exact precedes
        · exact precedes.append entry
      · rcases hOrder with rfl | ⟨entry, rfl⟩
        · exact absurd hu hOld
        · exact .last (served t value hFinish') hOld hu

end

end Linearize
