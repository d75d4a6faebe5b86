import HelloCounter.Memory.Concurrency

/-! The counts that concurrent calls return: exactly 1 to k for the k calls that acquired the lock,
in the order of real time. -/

namespace HelloCounter.Memory

open Effect Schedule

variable {s s' : Calls} {event : Call} {events : List Call}

def shownCount : Result → Option Nat
  | .ok response => response.visitorCount.map UInt64.toNat
  | .error _ => none

/-- The count that a call has drawn and not returned: the counter while the call holds the lock. -/
def held (m : Mutex) : Option (Task Mem Result) → Option Nat
  | some (.running (.ret result)) => shownCount result
  | some (.running (.call .read _)) | some (.running (.call .unlock _)) => some m.counter.toNat
  | _ => none

def dispenser (s : Calls) : Tickets.Dispenser Nat where
  top := (s.shared.counter.toNat : WithBot Nat)
  held t := held s.shared (s.tasks t)

def ticketEvent : Call → Tickets.Event Nat
  | .start t _ => .arrive t
  | .finish t result =>
    match shownCount result with
    | some n => .shown t n
    | none => .quiet
  | _ => .quiet

def counts (events : List Call) : List Nat :=
  events.filterMap fun
    | .finish _ result => shownCount result
    | _ => none

def acquisitions (events : List Call) : List Nat := events.filterMap (Call.reaches 2)

theorem counts_eq (events : List Call) :
    counts events = Tickets.shownNumbers (events.map ticketEvent) := by
  induction events with
  | nil => rfl
  | cons event events ih =>
    rcases event with _ | _ | ⟨t, result⟩ | _ <;> try exact ih
    cases h : shownCount result <;>
      simpa [counts, Tickets.shownNumbers, ticketEvent, h] using ih

theorem held_congr {m m' : Mutex} (h : m'.counter = m.counter)
    (task : Option (Task Mem Result)) : held m' task = held m task := by
  unfold held
  rw [h]

theorem dispenser_held_set {m : Mutex} (t u : Nat) (task : Task Mem Result) :
    (dispenser (({ s with shared := m } : Calls).set t task)).held u =
      if u = t then held m (some task) else held m (s.tasks u) := by
  show held m ((({ s with shared := m } : Calls).set t task).tasks u) = _
  rw [State.set_tasks]
  split <;> rfl

theorem quiet_set {m : Mutex} {t : Nat} {task : Task Mem Result}
    (hCounter : m.counter = s.shared.counter)
    (own : ∀ n, held m (some task) = some n → held s.shared (s.tasks t) = some n) :
    Tickets.Quiet (dispenser s) (dispenser (({ s with shared := m } : Calls).set t task)) := by
  refine ⟨?_, fun u n h => ?_⟩
  · show (s.shared.counter.toNat : WithBot Nat) ≤ (m.counter.toNat : WithBot Nat)
    rw [hCounter]
  · rw [dispenser_held_set] at h
    split at h
    · next hu => rw [hu]; exact own n h
    · exact (held_congr hCounter _).symm.trans h

theorem Move.tickets (inv : Inv s) (move : Move s event s')
    (room : ∀ t, event = .device (.incremented t) → Room s) :
    Tickets.Step (dispenser s) (ticketEvent event) (dispenser s') := by
  cases move with
  | start t fresh =>
    refine .arrive ?_ (quiet_set rfl fun n h => nomatch h)
    show held s.shared (s.tasks t) = none
    rw [fresh]
    rfl
  | acquire t waits free => exact .quiet (quiet_set rfl fun n h => nomatch h)
  | increment t waits holds =>
    have hNext := (room t rfl).counter_succ
    refine .draw t (s.shared.counter.toNat + 1) ?_ ?_ fun u n h => ?_
    · exact WithBot.coe_lt_coe.mpr (Nat.lt_succ_self _)
    · exact congrArg _ hNext
    · rw [dispenser_held_set] at h
      split at h
      · next hu => exact .inr ⟨hu, (Option.some.inj h).symm.trans hNext⟩
      · next hu =>
        -- Only the holder is between its increment and its release.
        refine .inl (Eq.trans ?_ h)
        show held s.shared (s.tasks u) = _
        rcases hTask : s.tasks u with _ | p | result | _ <;> try rfl
        have phase := inv u p hTask
        cases phase with
        | incremented holds' _ | leaving holds' _ =>
          exact absurd (Option.some.inj (holds'.symm.trans holds)) hu
        | _ => rfl
  | load t waits holds positive =>
    exact .quiet (quiet_set rfl fun n h => by rw [waits]; exact h)
  | release t count hCount waits holds =>
    refine .quiet (quiet_set rfl fun n h => ?_)
    rw [waits, ← h]
    show some s.shared.counter.toNat = some count.get.toNat
    rw [hCount]
  | finish t count returns =>
    refine .shown ?_ ?_ (quiet_set rfl fun n h => nomatch h)
    · show held s.shared (s.tasks t) = some count.get.toNat
      rw [returns]
      rfl
    · rw [dispenser_held_set]
      simp [held]
  | drop t waits => exact .quiet (quiet_set rfl fun n h => nomatch h)

theorem run_tickets (run : Run hello device (State.idle .fresh) events s)
    (bound : (events.filterMap (Call.reaches 1)).length < 2 ^ 64) :
    Tickets.Run (dispenser (State.idle .fresh)) (events.map ticketEvent) (dispenser s) := by
  induction run with
  | nil => exact .nil
  | snoc run step ih =>
    have hPrefix := bound
    rw [List.filterMap_append, List.length_append] at hPrefix
    have counted := run_counted run (by omega)
    obtain ⟨move, room, -⟩ := counted.step step bound
    rw [List.map_append]
    exact (ih (by omega)).snoc (move.tickets counted.inv room)

theorem run_finish (run : Run hello device (State.idle .fresh) events s)
    (bound : (events.filterMap (Call.reaches 1)).length < 2 ^ 64) {t : Nat} {result : Result}
    (h : .finish t result ∈ events) :
    ∃ count : VisitorCount, result = .ok (HelloWorldService.numbered count) := by
  induction run with
  | nil => cases h
  | snoc run step ih =>
    have hPrefix := bound
    rw [List.filterMap_append, List.length_append] at hPrefix
    rcases List.mem_append.mp h with h | h
    · exact ih (by omega) h
    · cases List.mem_singleton.mp h
      cases (run_counted run (by omega)).inv.move step with
      | finish t count returns => exact ⟨count, rfl⟩

theorem counts_pos (run : Run hello device (State.idle .fresh) events s)
    (bound : (events.filterMap (Call.reaches 1)).length < 2 ^ 64) {n : Nat}
    (h : n ∈ counts events) : 1 ≤ n := by
  obtain ⟨event, hEvent, hShown⟩ := List.mem_filterMap.mp h
  rcases event with _ | _ | ⟨t, result⟩ | _ <;> try cases hShown
  obtain ⟨count, rfl⟩ := run_finish run bound hEvent
  cases hShown
  exact count.pos

theorem mem_reaches_iff (counted : Counted events s) {k t : Nat} (hk : 1 ≤ k) :
    t ∈ events.filterMap (Call.reaches k) ↔ k ≤ stage (s.tasks t) := by
  rw [← List.count_pos_iff, counted.reached k t hk, reached]
  split <;> simp [*]

theorem reaches_nodup (counted : Counted events s) {k : Nat} (hk : 1 ≤ k) :
    (events.filterMap (Call.reaches k)).Nodup := by
  rw [List.nodup_iff_count_le_one]
  intro t
  rw [counted.reached k t hk, reached]
  split <;> omega

theorem mem_reaches {k t : Nat} :
    t ∈ events.filterMap (Call.reaches k) ↔ ∃ event ∈ events, event.mark = some (t, k) := by
  rw [List.mem_filterMap]
  refine exists_congr fun event => and_congr_right fun _ => ?_
  unfold Call.reaches
  rcases event.mark with _ | ⟨u, j⟩
  · simp
  · simp only [Option.bind_some, Option.ite_none_right_eq_some, Option.some.injEq, Prod.mk.injEq]
    constructor
    · rintro ⟨hk, hu⟩
      exact ⟨hu, hk.symm⟩
    · rintro ⟨hu, hj⟩
      exact ⟨hj.symm, hu⟩

theorem mem_acquisitions {t : Nat} : t ∈ acquisitions events ↔ .device (.acquired t) ∈ events := by
  rw [acquisitions, mem_reaches]
  constructor
  · rintro ⟨event, hEvent, hMark⟩
    rcases event with _ | label | _ | _ <;> try cases label
    all_goals cases hMark
    exact hEvent
  · exact fun h => ⟨_, h, rfl⟩

theorem returned_length (counted : Counted events s)
    (completed : ∀ t, .device (.acquired t) ∈ events → ∃ result, .finish t result ∈ events) :
    (acquisitions events).length = (events.filterMap (Call.reaches 4)).length := by
  refine Nat.le_antisymm ?_ (reaches_length_le counted.reached (by omega) (by omega))
  refine (List.subperm_of_subset (reaches_nodup counted (by omega)) fun t ht => ?_).length_le
  obtain ⟨result, hFinish⟩ := completed t (mem_acquisitions.mp ht)
  exact mem_reaches.mpr ⟨_, hFinish, rfl⟩

theorem counts_length (run : Run hello device (State.idle .fresh) events s)
    (bound : (events.filterMap (Call.reaches 1)).length < 2 ^ 64) :
    (counts events).length = (events.filterMap (Call.reaches 4)).length := by
  have shows : ∀ t result, .finish t result ∈ events → ∃ n, shownCount result = some n := by
    intro t result h
    obtain ⟨count, rfl⟩ := run_finish run bound h
    exact ⟨_, rfl⟩
  clear run bound
  induction events with
  | nil => rfl
  | cons event events ih =>
    have hTail := ih fun t result h => shows t result (List.mem_cons_of_mem _ h)
    rcases event with _ | label | ⟨t, result⟩ | _
    · exact hTail
    · cases label <;> exact hTail
    · obtain ⟨n, hn⟩ := shows t result List.mem_cons_self
      simpa [counts, hn, Call.reaches, Call.mark] using hTail
    · exact hTail

theorem perm_range' {l : List Nat} {k : Nat} (nodup : l.Nodup)
    (range : ∀ n ∈ l, 1 ≤ n ∧ n ≤ k) (length : l.length = k) : l.Perm (List.range' 1 k) := by
  refine (List.subperm_of_subset nodup fun n hn => ?_).perm_of_length_le ?_
  · have := range n hn
    exact List.mem_range'_1.mpr ⟨this.1, by omega⟩
  · rw [List.length_range', length]

/-- The counter is the number of calls that have added one to it, and a dropped call never has.
The calls that return show different positive counts, larger for a call that started after another
returned; and when every call that acquired the lock has returned, the counts are 1 to k and the
counter is k, for the k calls that acquired it. -/
theorem counts_gapless (run : Run hello device (State.idle .fresh) events s)
    (bound : (events.filterMap (Call.reaches 1)).length < 2 ^ 64) :
    (∀ t result, .finish t result ∈ events →
      ∃ count : VisitorCount, result = .ok (HelloWorldService.numbered count)) ∧
    ((counts events).Nodup ∧ (acquisitions events).Nodup) ∧
    ((∀ t, .device (.acquired t) ∈ events → ∃ result, .finish t result ∈ events) →
      (counts events).Perm (List.range' 1 (acquisitions events).length) ∧
      s.shared.counter.toNat = (acquisitions events).length) ∧
    (s.shared.counter.toNat = (events.filterMap (Call.reaches 3)).length ∧
      ∀ t, .drop t ∈ events →
        .device (.acquired t) ∉ events ∧ .device (.incremented t) ∉ events) ∧
    ∀ before after t u m n, events = before ++ .start u () :: after →
      .finish t (.ok (HelloWorldService.numbered m)) ∈ before →
      .finish u (.ok (HelloWorldService.numbered n)) ∈ after → m.get < n.get := by
  have counted := run_counted run bound
  have inv := (run_tickets run bound).inv fun _ => rfl
  have nodup : (counts events).Nodup := counts_eq events ▸ inv.nodup
  refine ⟨fun t result h => run_finish run bound h,
    ⟨nodup, reaches_nodup counted (by omega)⟩, fun completed => ?_, ⟨counted.counter, ?_⟩, ?_⟩
  · have hLength := returned_length counted completed
    have hCounts := counts_length run bound
    have hFour := reaches_length_le counted.reached (show 1 ≤ 3 by omega) (show 3 ≤ 4 by omega)
    have hThree := reaches_length_le counted.reached (show 1 ≤ 2 by omega) (show 2 ≤ 3 by omega)
    have hCounter : s.shared.counter.toNat = (acquisitions events).length := by
      have := counted.counter
      unfold acquisitions at hLength ⊢
      omega
    refine ⟨perm_range' nodup (fun n hn => ?_) (by omega), hCounter⟩
    have hPos : 1 ≤ n := counts_pos run bound hn
    rw [counts_eq] at hn
    obtain ⟨t, hShown⟩ := Tickets.mem_shownNumbers.mp hn
    have hTop : n ≤ s.shared.counter.toNat := WithBot.coe_le_coe.mp (inv.shownBound t n hShown)
    exact ⟨hPos, by omega⟩
  · intro t hDrop
    have hStage : stage (s.tasks t) = 1 := by rw [run.dropped hDrop]; rfl
    refine ⟨fun h => ?_, fun h => ?_⟩
    · have := (mem_reaches_iff counted (by omega)).mp (mem_reaches.mpr ⟨_, h, rfl⟩)
      omega
    · have := (mem_reaches_iff counted (by omega)).mp (mem_reaches.mpr ⟨_, h, rfl⟩)
      omega
  · intro before after t u m n hEvents hBefore hAfter
    subst hEvents
    apply UInt64.lt_iff_toNat_lt.mpr
    refine inv.shownOrder u n.get.toNat (before.map ticketEvent) (after.map ticketEvent) ?_ ?_ t
      m.get.toNat ?_
    · rw [List.map_append, List.map_cons]
      rfl
    · exact List.mem_map_of_mem hAfter
    · exact List.mem_map_of_mem hBefore

/-- Three calls, of which the second is dropped while the first holds the lock. -/
def droppedWaiter : List Call :=
  [.start 0 (), .start 1 (), .start 2 (), .device (.acquired 0), .drop 1, .device (.incremented 0),
    .device (.loaded 0), .device (.released 0), .device (.acquired 2),
    .finish 0 (.ok (HelloWorldService.numbered ⟨1, by decide⟩)), .device (.incremented 2),
    .device (.loaded 2), .device (.released 2),
    .finish 2 (.ok (HelloWorldService.numbered ⟨2, by decide⟩))]

theorem droppedWaiter_run : ∃ s, Run hello device (State.idle .fresh) droppedWaiter s :=
  ⟨_, .head (.start () (by rfl)) <| .head (.start () (by rfl)) <| .head (.start () (by rfl)) <|
    .head (.reply (by rfl) .acquired) <| .head (.drop (by rfl) ⟨rfl, rfl⟩) <|
    .head (.reply (by rfl) .incremented) <| .head (.reply (by rfl) .loaded) <|
    .head (.reply (by rfl) .released) <| .head (.reply (by rfl) .acquired) <|
    .head (.finish (by rfl)) <| .head (.reply (by rfl) .incremented) <|
    .head (.reply (by rfl) .loaded) <| .head (.reply (by rfl) .released) <|
    .head (.finish (by rfl)) .nil⟩

theorem droppedWaiter_counts :
    counts droppedWaiter = [1, 2] ∧ (counts droppedWaiter).Nodup := by
  obtain ⟨s, run⟩ := droppedWaiter_run
  exact ⟨by decide, (counts_gapless run (by decide)).2.1.1⟩

end HelloCounter.Memory
