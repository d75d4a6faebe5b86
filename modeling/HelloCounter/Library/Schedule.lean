import HelloCounter.Library.Effect

/-! Concurrent tasks on a shared device.  A task runs a program; the device serves the operation
that the task waits for, replies to it, and may do work of its own.  A run is a list of events in
the order of the steps, so that the order of two events is their order in real time. -/

namespace Schedule

open Effect

/-- What a device with states `σ` can do for the tasks that use it, each step with a label. -/
structure Device (E : Interface) (σ Λ : Type) where
  /-- Work on the operation that a task waits for, before the reply. -/
  serve : Nat → E.Op → Λ → σ → σ → Prop
  /-- The reply that completes the operation that a task waits for. -/
  reply : Nat → (op : E.Op) → E.Reply op → Λ → σ → σ → Prop
  /-- Work for which no task waits. -/
  drift : Λ → σ → σ → Prop
  /-- A task is dropped while it waits for an operation. -/
  release : Nat → E.Op → σ → σ → Prop

/-- A task that has started: its remaining program, its value, or nothing. -/
inductive Task (E : Interface) (α : Type) where
  | running (program : Prog E α)
  | finished (value : α)
  | dropped

/-- The device's state and the tasks that have started. -/
structure State (E : Interface) (σ α : Type) where
  shared : σ
  tasks : Nat → Option (Task E α)

/-- What an observer sees of one step. -/
inductive Event (ι Λ α : Type) where
  | start (task : Nat) (job : ι)
  | device (label : Λ)
  | finish (task : Nat) (value : α)
  | drop (task : Nat)

namespace State

variable {E : Interface} {σ α : Type}

def idle (shared : σ) : State E σ α := ⟨shared, fun _ => none⟩

def set (s : State E σ α) (t : Nat) (task : Task E α) : State E σ α :=
  { s with tasks := Function.update s.tasks t (some task) }

@[simp] theorem set_tasks_same (s : State E σ α) (t : Nat) (task : Task E α) :
    (s.set t task).tasks t = some task := Function.update_self ..

theorem set_tasks (s : State E σ α) (t u : Nat) (task : Task E α) :
    (s.set t task).tasks u = if u = t then some task else s.tasks u :=
  Function.update_apply ..

def AllFinished (s : State E σ α) : Prop :=
  ∀ t task, s.tasks t = some task → ∃ value, task = .finished value

end State

section

variable {E : Interface} {σ Λ ι α : Type} (program : ι → Prog E α) (dev : Device E σ Λ)

/-- One step: a task starts on a job, the device works, a task returns, or a task is dropped. -/
inductive Step : State E σ α → Event ι Λ α → State E σ α → Prop
  | start {s t} (job : ι) (fresh : s.tasks t = none) :
      Step s (.start t job) (s.set t (.running (program job)))
  | serve {s t op next label shared} (waits : s.tasks t = some (.running (.call op next)))
      (served : dev.serve t op label s.shared shared) :
      Step s (.device label) { s with shared }
  | reply {s t op next reply label shared} (waits : s.tasks t = some (.running (.call op next)))
      (replied : dev.reply t op reply label s.shared shared) :
      Step s (.device label) ({ s with shared }.set t (.running (next reply)))
  | drift {s label shared} (drifts : dev.drift label s.shared shared) :
      Step s (.device label) { s with shared }
  | finish {s t value} (returns : s.tasks t = some (.running (.ret value))) :
      Step s (.finish t value) (s.set t (.finished value))
  | drop {s t op next shared} (waits : s.tasks t = some (.running (.call op next)))
      (released : dev.release t op s.shared shared) :
      Step s (.drop t) ({ s with shared }.set t .dropped)

/-- Steps from `s`, with their events in order. -/
inductive Run (s : State E σ α) : List (Event ι Λ α) → State E σ α → Prop
  | nil : Run s [] s
  | snoc {events event s' s''} (run : Run s events s') (step : Step program dev s' event s'') :
      Run s (events ++ [event]) s''

variable {program dev}

theorem Run.append {s s' s'' : State E σ α} {events events' : List (Event ι Λ α)}
    (first : Run program dev s events s') (second : Run program dev s' events' s'') :
    Run program dev s (events ++ events') s'' := by
  induction second with
  | nil => rwa [List.append_nil]
  | snoc _ step ih => rw [← List.append_assoc]; exact ih.snoc step

theorem Step.start_eq {s : State E σ α} {t : Nat} {job : ι} {p : Prog E α}
    (fresh : s.tasks t = none) (h : program job = p) :
    Step program dev s (.start t job) (s.set t (.running p)) := by
  subst h
  exact .start job fresh

theorem Run.head {s s' s'' : State E σ α} {event : Event ι Λ α} {events : List (Event ι Λ α)}
    (step : Step program dev s event s') (run : Run program dev s' events s'') :
    Run program dev s (event :: events) s'' :=
  (Run.nil.snoc step).append run

/-- A task that no longer runs stays as it is. -/
theorem Step.keeps_settled {s s' : State E σ α} {event : Event ι Λ α} {t : Nat} {task : Task E α}
    (step : Step program dev s event s') (h : s.tasks t = some task)
    (settled : ∀ p, task ≠ .running p) : s'.tasks t = some task := by
  have other : ∀ {u : Nat} {task' : Task E α} {shared : σ}, s.tasks u ≠ some task →
      (({ s with shared := shared } : State E σ α).set u task').tasks t = some task := by
    intro u task' shared hu
    have hne : t ≠ u := by
      rintro rfl
      exact hu h
    rw [State.set_tasks, if_neg hne]
    exact h
  have running : ∀ {u : Nat} {p : Prog E α}, s.tasks u = some (.running p) →
      s.tasks u ≠ some task := by
    intro u p hu hTask
    exact settled p (Option.some.inj (hTask.symm.trans hu))
  cases step with
  | start job fresh => exact other (by rw [fresh]; simp)
  | serve waits served => exact h
  | reply waits replied => exact other (running waits)
  | drift drifts => exact h
  | finish returns => exact other (running returns)
  | drop waits released => exact other (running waits)

theorem Run.dropped {s s' : State E σ α} {events : List (Event ι Λ α)} {t : Nat}
    (run : Run program dev s events s') (h : .drop t ∈ events) : s'.tasks t = some .dropped := by
  induction run with
  | nil => cases h
  | snoc _ step ih =>
    rcases List.mem_append.mp h with h | h
    · exact step.keeps_settled (ih h) (by simp)
    · cases List.mem_singleton.mp h
      cases step with
      | drop waits released => exact State.set_tasks_same ..

theorem Run.finished {s s' : State E σ α} {events : List (Event ι Λ α)} {t : Nat} {value : α}
    (run : Run program dev s events s') (h : .finish t value ∈ events) :
    s'.tasks t = some (.finished value) := by
  induction run with
  | nil => cases h
  | snoc _ step ih =>
    rcases List.mem_append.mp h with h | h
    · exact step.keeps_settled (ih h) (by simp)
    · cases List.mem_singleton.mp h
      cases step with
      | finish returns => exact State.set_tasks_same ..

end

/-- Where an element sits in a list with one more element at the end. -/
theorem split_snoc {β : Type} {events before after : List β} {event x : β}
    (h : events ++ [event] = before ++ x :: after) :
    (before = events ∧ x = event ∧ after = []) ∨
      ∃ after', after = after' ++ [event] ∧ events = before ++ x :: after' := by
  rcases List.eq_nil_or_concat after with rfl | ⟨after', last, rfl⟩
  · obtain ⟨rfl, hx⟩ := List.append_inj' h rfl
    exact .inl ⟨rfl, (List.cons.inj hx).1.symm, rfl⟩
  · rw [List.concat_eq_append, ← List.cons_append, ← List.append_assoc] at h
    obtain ⟨hEvents, hLast⟩ := List.append_inj' h rfl
    exact .inr ⟨after', by rw [List.concat_eq_append, (List.cons.inj hLast).1], hEvents⟩

theorem count_filterMap_snoc {β : Type} (f : β → Option Nat) (events : List β) (event : β)
    (t : Nat) : ((events ++ [event]).filterMap f).count t =
      (events.filterMap f).count t + if f event = some t then 1 else 0 := by
  rw [List.filterMap_append, List.count_append]
  cases h : f event <;> simp [h, List.count_singleton]

end Schedule
