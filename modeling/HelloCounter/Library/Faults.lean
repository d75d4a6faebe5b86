import HelloCounter.Library.Budget
import HelloCounter.Library.Schedule

/-! Tasks that endure faults on a device that other tasks share.  What a program endures when it
runs alone it endures in every run, as long as the device's replies to it are faults that are
counted for it, or usual ones. -/

namespace Schedule

open Effect

variable {E : Interface} {σ Λ ι α : Type} {program : ι → Prog E α} {dev : Device E σ Λ}
  {weather : Prog.Weather E} {good : α → Prop} {fault : Λ → Option Nat}
  {s s' : State E σ α} {event : Event ι Λ α} {events : List (Event ι Λ α)}

/-- The task for which an event is a fault. -/
def Event.faultOf (fault : Λ → Option Nat) : Event ι Λ α → Option Nat
  | .device label => fault label
  | _ => none

def faults (fault : Λ → Option Nat) (events : List (Event ι Λ α)) (t : Nat) : Nat :=
  (events.filterMap (Event.faultOf fault)).count t

theorem faults_snoc (t : Nat) : faults fault (events ++ [event]) t =
    faults fault events t + if event.faultOf fault = some t then 1 else 0 :=
  count_filterMap_snoc ..

/-- A device whose faults are counted: only replies are faults, each for the task that gets it. -/
structure Device.Counted (dev : Device E σ Λ) (weather : Prog.Weather E) (fault : Λ → Option Nat)
    (shared : σ) : Prop where
  serve : ∀ t op label shared', dev.serve t op label shared shared' → fault label = none
  drift : ∀ label shared', dev.drift label shared shared' → fault label = none
  reply : ∀ t op reply label shared', dev.reply t op reply label shared shared' →
    fault label = some t ∧ weather.fault op reply ∨ fault label = none ∧ weather.usual op reply

/-- Whatever a task's program endures, the task endures with the faults that it met so far. -/
structure Enduring (program : ι → Prog E α) (weather : Prog.Weather E) (good : α → Prop)
    (fault : Λ → Option Nat) (events : List (Event ι Λ α)) (s : State E σ α) : Prop where
  fresh : ∀ t, s.tasks t = none → faults fault events t = 0
  running : ∀ t p, s.tasks t = some (.running p) → ∃ job, .start t job ∈ events ∧
    ∀ n, (program job).Endures weather good n →
      p.Endures weather good (n - faults fault events t)
  finished : ∀ t value, s.tasks t = some (.finished value) → ∃ job, .start t job ∈ events ∧
    ∀ n, (program job).Endures weather good n → faults fault events t < n → good value

theorem Enduring.idle (shared : σ) :
    Enduring program weather good fault [] (State.idle shared : State E σ α) :=
  ⟨fun _ _ => rfl, fun _ _ h => (nomatch h), fun _ _ h => nomatch h⟩

/-- A step that concerns task `t` only. -/
theorem Enduring.move (enduring : Enduring program weather good fault events s) (t : Nat)
    (tasks : ∀ u, u ≠ t → s'.tasks u = s.tasks u)
    (others : ∀ u, u ≠ t → event.faultOf fault ≠ some u)
    (fresh : s'.tasks t = none → faults fault (events ++ [event]) t = 0)
    (running : ∀ p, s'.tasks t = some (.running p) → ∃ job, .start t job ∈ events ++ [event] ∧
      ∀ n, (program job).Endures weather good n →
        p.Endures weather good (n - faults fault (events ++ [event]) t))
    (finished : ∀ value, s'.tasks t = some (.finished value) →
      ∃ job, .start t job ∈ events ++ [event] ∧ ∀ n, (program job).Endures weather good n →
        faults fault (events ++ [event]) t < n → good value) :
    Enduring program weather good fault (events ++ [event]) s' := by
  have same : ∀ u, u ≠ t → faults fault (events ++ [event]) u = faults fault events u := by
    intro u hu
    rw [faults_snoc, if_neg (others u hu), Nat.add_zero]
  refine ⟨fun u hTask => ?_, fun u p hTask => ?_, fun u value hTask => ?_⟩
  · by_cases hu : u = t
    · exact hu ▸ fresh (hu ▸ hTask)
    · rw [same u hu]
      exact enduring.fresh u ((tasks u hu).symm.trans hTask)
  · by_cases hu : u = t
    · exact hu ▸ running p (hu ▸ hTask)
    · obtain ⟨job, hStart, hEndures⟩ := enduring.running u p ((tasks u hu).symm.trans hTask)
      rw [same u hu]
      exact ⟨job, List.mem_append_left _ hStart, hEndures⟩
  · by_cases hu : u = t
    · exact hu ▸ finished value (hu ▸ hTask)
    · obtain ⟨job, hStart, hGood⟩ := enduring.finished u value ((tasks u hu).symm.trans hTask)
      rw [same u hu]
      exact ⟨job, List.mem_append_left _ hStart, hGood⟩

/-- A step that changes no task and is no fault. -/
theorem Enduring.quiet (enduring : Enduring program weather good fault events s) {shared : σ}
    (hFault : event.faultOf fault = none) :
    Enduring program weather good fault (events ++ [event]) { s with shared } := by
  have same : ∀ u, faults fault (events ++ [event]) u = faults fault events u := by
    intro u
    rw [faults_snoc, hFault, if_neg nofun, Nat.add_zero]
  refine ⟨fun u hTask => (same u).trans (enduring.fresh u hTask), fun u p hTask => ?_,
    fun u value hTask => ?_⟩
  · obtain ⟨job, hStart, hEndures⟩ := enduring.running u p hTask
    rw [same u]
    exact ⟨job, List.mem_append_left _ hStart, hEndures⟩
  · obtain ⟨job, hStart, hGood⟩ := enduring.finished u value hTask
    rw [same u]
    exact ⟨job, List.mem_append_left _ hStart, hGood⟩

theorem Enduring.reply (enduring : Enduring program weather good fault events s) {t : Nat}
    {op : E.Op} {next : E.Reply op → Prog E α} {reply : E.Reply op} {label : Λ} {shared : σ}
    (waits : s.tasks t = some (.running (.call op next)))
    (counted : fault label = some t ∧ weather.fault op reply ∨
      fault label = none ∧ weather.usual op reply) :
    Enduring program weather good fault (events ++ [.device label])
      (({ s with shared } : State E σ α).set t (.running (next reply))) := by
  obtain ⟨job, hStart, hEndures⟩ := enduring.running t _ waits
  refine enduring.move t (fun u hu => by rw [State.set_tasks, if_neg hu]) (fun u hu h => ?_)
    (fun h => ?_) (fun p h => ?_) (fun value h => ?_)
  · rcases counted with ⟨hFault, -⟩ | ⟨hFault, -⟩
    · exact hu (Option.some.inj (h.symm.trans hFault))
    · cases h.symm.trans hFault
  · rw [State.set_tasks_same] at h
    cases h
  · rw [State.set_tasks_same] at h
    cases h
    refine ⟨job, List.mem_append_left _ hStart, fun n hn => ?_⟩
    rw [faults_snoc, Event.faultOf]
    rcases counted with ⟨hFault, hReply⟩ | ⟨hFault, hReply⟩
    · rw [if_pos hFault, Nat.sub_add_eq]
      exact (hEndures n hn reply).1 hReply
    · rw [if_neg (fun h => by cases h.symm.trans hFault), Nat.add_zero]
      exact (hEndures n hn reply).2 hReply
  · rw [State.set_tasks_same] at h
    cases h

theorem Enduring.step (counted : dev.Counted weather fault s.shared)
    (enduring : Enduring program weather good fault events s)
    (step : Step program dev s event s') :
    Enduring program weather good fault (events ++ [event]) s' := by
  cases step with
  | @start t job fresh =>
    have hNone := enduring.fresh t fresh
    refine enduring.move t (fun u hu => by rw [State.set_tasks, if_neg hu]) (fun _ _ => nofun)
      (fun h => ?_) (fun p h => ?_) (fun value h => ?_)
    · rw [State.set_tasks_same] at h
      cases h
    · rw [State.set_tasks_same] at h
      cases h
      refine ⟨job, List.mem_append_right _ List.mem_cons_self, fun n hn => ?_⟩
      rw [faults_snoc, hNone, if_neg nofun]
      exact hn
    · rw [State.set_tasks_same] at h
      cases h
  | serve waits served => exact enduring.quiet (counted.serve _ _ _ _ served)
  | reply waits replied => exact enduring.reply waits (counted.reply _ _ _ _ _ replied)
  | drift drifts => exact enduring.quiet (counted.drift _ _ drifts)
  | @finish t value returns =>
    obtain ⟨job, hStart, hEndures⟩ := enduring.running t _ returns
    refine enduring.move t (fun u hu => by rw [State.set_tasks, if_neg hu]) (fun _ _ => nofun)
      (fun h => ?_) (fun p h => ?_) (fun value' h => ?_)
    · rw [State.set_tasks_same] at h
      cases h
    · rw [State.set_tasks_same] at h
      cases h
    · rw [State.set_tasks_same] at h
      cases h
      refine ⟨job, List.mem_append_left _ hStart, fun n hn hLt => ?_⟩
      rw [faults_snoc, if_neg nofun, Nat.add_zero] at hLt
      exact hEndures n hn (Nat.sub_pos_of_lt hLt)
  | @drop t op next shared waits released =>
    refine enduring.move t (fun u hu => by rw [State.set_tasks, if_neg hu]) (fun _ _ => nofun)
      (fun h => ?_) (fun p h => ?_) (fun value h => ?_) <;>
    · rw [State.set_tasks_same] at h
      cases h

end Schedule
