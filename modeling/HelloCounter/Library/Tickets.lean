import HelloCounter.Library.Schedule
import Mathlib

/-! A ticket dispenser: customers draw numbers that rise, may throw a number away, and may show the
number that they hold.  Shown numbers are all different, and a customer who arrives after a number
was shown shows a larger one. -/

namespace Tickets

variable {α : Type}

/-- What an observer sees of one step. -/
inductive Event (α : Type) where
  | arrive (customer : Nat)
  | shown (customer : Nat) (number : α)
  | quiet

/-- The largest number so far, and the number that each customer holds. -/
structure Dispenser (α : Type) where
  top : WithBot α
  held : Nat → Option α

def shownNumbers (events : List (Event α)) : List α :=
  events.filterMap fun
    | .shown _ number => some number
    | _ => none

theorem mem_shownNumbers {events : List (Event α)} {n : α} :
    n ∈ shownNumbers events ↔ ∃ t, .shown t n ∈ events := by
  simp only [shownNumbers, List.mem_filterMap]
  constructor
  · rintro ⟨_ | ⟨t, m⟩ | _, hMem, hEq⟩ <;> cases hEq
    exact ⟨t, hMem⟩
  · rintro ⟨t, hMem⟩
    exact ⟨_, hMem, rfl⟩

variable [LinearOrder α]

structure Quiet (a a' : Dispenser α) : Prop where
  top : a.top ≤ a'.top
  held : ∀ t n, a'.held t = some n → a.held t = some n

inductive Step (a : Dispenser α) : Event α → Dispenser α → Prop
  | arrive {a' t} (empty : a.held t = none) (quiet : Quiet a a') : Step a (.arrive t) a'
  | quiet {a'} (quiet : Quiet a a') : Step a .quiet a'
  | draw {a'} (t : Nat) (n : α) (above : a.top < n) (top : a'.top = (n : WithBot α))
      (held : ∀ u m, a'.held u = some m → a.held u = some m ∨ u = t ∧ m = n) : Step a .quiet a'
  | shown {a' t n} (holds : a.held t = some n) (gone : a'.held t = none) (quiet : Quiet a a') :
      Step a (.shown t n) a'

/-- Steps from `a`, with their events in order. -/
inductive Run (a : Dispenser α) : List (Event α) → Dispenser α → Prop
  | nil : Run a [] a
  | snoc {events event a' a''} (run : Run a events a') (step : Step a' event a'') :
      Run a (events ++ [event]) a''

/-- What holds after `events` that started with no number held. -/
structure Inv (events : List (Event α)) (a : Dispenser α) : Prop where
  heldBound : ∀ t (n : α), a.held t = some n → (n : WithBot α) ≤ a.top
  shownBound : ∀ t (n : α), .shown t n ∈ events → (n : WithBot α) ≤ a.top
  distinct : ∀ t u n, a.held t = some n → a.held u = some n → t = u
  fresh : ∀ t u n, a.held t = some n → .shown u n ∉ events
  nodup : (shownNumbers events).Nodup
  heldOrder : ∀ t n before after, a.held t = some n → events = before ++ .arrive t :: after →
    ∀ u m, .shown u m ∈ before → m < n
  shownOrder : ∀ t n before after, events = before ++ .arrive t :: after → .shown t n ∈ after →
    ∀ u m, .shown u m ∈ before → m < n

theorem Inv.start {a : Dispenser α} (empty : ∀ t, a.held t = none) : Inv [] a := by
  constructor <;> simp [empty, shownNumbers]

/-- An event that shows no number keeps the invariant when the numbers held stay below the top,
stay different, stay fresh, and stay above what was shown before their holder arrived. -/
theorem Inv.silent {events : List (Event α)} {event : Event α} {a a' : Dispenser α}
    (inv : Inv events a) (silent : ∀ t n, event ≠ .shown t n) (hTop : a.top ≤ a'.top)
    (heldBound : ∀ t n, a'.held t = some n → (n : WithBot α) ≤ a'.top)
    (distinct : ∀ t u n, a'.held t = some n → a'.held u = some n → t = u)
    (fresh : ∀ t u n, a'.held t = some n → .shown u n ∉ events)
    (heldOrder : ∀ t n before after, a'.held t = some n →
      events ++ [event] = before ++ .arrive t :: after → ∀ u m, .shown u m ∈ before → m < n) :
    Inv (events ++ [event]) a' := by
  have old : ∀ {t n}, Event.shown t n ∈ events ++ [event] → Event.shown t n ∈ events := by
    intro t n h
    rcases List.mem_append.mp h with h | h
    · exact h
    · exact absurd (List.mem_singleton.mp h).symm (silent t n)
  refine ⟨heldBound, fun t n h => (inv.shownBound t n (old h)).trans hTop, distinct,
    fun t u n h hShown => fresh t u n h (old hShown), ?_, heldOrder, ?_⟩
  · cases event with
    | shown t n => exact absurd rfl (silent t n)
    | arrive t => simpa [shownNumbers] using inv.nodup
    | quiet => simpa [shownNumbers] using inv.nodup
  · intro t n before after hEq hShown
    rcases Schedule.split_snoc hEq with ⟨_, _, rfl⟩ | ⟨after', rfl, hEq'⟩
    · simp at hShown
    · apply inv.shownOrder t n before after' hEq'
      rcases List.mem_append.mp hShown with h | h
      · exact h
      · exact absurd (List.mem_singleton.mp h).symm (silent t n)

omit [LinearOrder α] in
/-- The events before an arrival in a longer list, when the arrival is not the last event. -/
theorem arrival_before {events before after : List (Event α)} {event : Event α} {t : Nat}
    (hEq : events ++ [event] = before ++ .arrive t :: after) (hEvent : event ≠ .arrive t) :
    ∃ after', events = before ++ .arrive t :: after' := by
  rcases Schedule.split_snoc hEq with ⟨_, h, _⟩ | ⟨after', _, hEq'⟩
  · exact absurd h.symm hEvent
  · exact ⟨after', hEq'⟩

theorem Inv.step {events : List (Event α)} {event : Event α} {a a' : Dispenser α}
    (inv : Inv events a) (step : Step a event a') : Inv (events ++ [event]) a' := by
  cases step with
  | @arrive _ t empty quiet =>
    apply inv.silent (by simp) quiet.top
    · exact fun u n h => (inv.heldBound u n (quiet.held u n h)).trans quiet.top
    · exact fun u v n hu hv => inv.distinct u v n (quiet.held u n hu) (quiet.held v n hv)
    · exact fun u v n h => inv.fresh u v n (quiet.held u n h)
    · intro u n before after h hEq
      have hu := quiet.held u n h
      have hne : u ≠ t := by
        rintro rfl
        rw [empty] at hu
        cases hu
      obtain ⟨after', hEq'⟩ := arrival_before hEq (by simpa using hne.symm)
      exact inv.heldOrder u n before after' hu hEq'
  | quiet quiet =>
    apply inv.silent (by simp) quiet.top
    · exact fun u n h => (inv.heldBound u n (quiet.held u n h)).trans quiet.top
    · exact fun u v n hu hv => inv.distinct u v n (quiet.held u n hu) (quiet.held v n hv)
    · exact fun u v n h => inv.fresh u v n (quiet.held u n h)
    · intro u n before after h hEq
      obtain ⟨after', hEq'⟩ := arrival_before hEq (by simp)
      exact inv.heldOrder u n before after' (quiet.held u n h) hEq'
  | draw t n above top held =>
    -- The drawn number is above every number that is held or was shown.
    have heldBelow : ∀ u m, a.held u = some m → m < n := fun u m h =>
      WithBot.coe_lt_coe.mp ((inv.heldBound u m h).trans_lt above)
    have shownBelow : ∀ u m, Event.shown u m ∈ events → m < n := fun u m h =>
      WithBot.coe_lt_coe.mp ((inv.shownBound u m h).trans_lt above)
    refine inv.silent (by simp) (top ▸ above.le) ?_ ?_ ?_ ?_
    · intro u m h
      rw [top]
      rcases held u m h with h | ⟨_, rfl⟩
      · exact WithBot.coe_le_coe.mpr (heldBelow u m h).le
      · exact le_rfl
    · intro u v m hu hv
      rcases held u m hu with hu | ⟨rfl, rfl⟩ <;> rcases held v m hv with hv | ⟨rfl, hm⟩
      · exact inv.distinct u v m hu hv
      · exact absurd (hm ▸ heldBelow u m hu) (lt_irrefl _)
      · exact absurd (heldBelow v m hv) (lt_irrefl _)
      · rfl
    · intro u v m h hShown
      rcases held u m h with h | ⟨rfl, rfl⟩
      · exact inv.fresh u v m h hShown
      · exact lt_irrefl _ (shownBelow v m hShown)
    · intro u m before after h hEq v k hShown
      obtain ⟨after', hEq'⟩ := arrival_before hEq (by simp)
      rcases held u m h with h | ⟨rfl, rfl⟩
      · exact inv.heldOrder u m before after' h hEq' v k hShown
      · exact shownBelow v k (hEq' ▸ List.mem_append_left _ hShown)
  | @shown _ t n holds gone quiet =>
    have hOther : ∀ u m, a'.held u = some m → u ≠ t ∧ a.held u = some m := by
      intro u m h
      refine ⟨?_, quiet.held u m h⟩
      rintro rfl
      rw [gone] at h
      cases h
    have mem : ∀ u m, Event.shown u m ∈ events ++ [.shown t n] →
        Event.shown u m ∈ events ∨ u = t ∧ m = n := by
      intro u m h
      rcases List.mem_append.mp h with h | h
      · exact .inl h
      · cases List.mem_singleton.mp h
        exact .inr ⟨rfl, rfl⟩
    refine ⟨?_, ?_, ?_, ?_, ?_, ?_, ?_⟩
    · exact fun u m h => (inv.heldBound u m (hOther u m h).2).trans quiet.top
    · intro u m h
      rcases mem u m h with h | ⟨rfl, rfl⟩
      · exact (inv.shownBound u m h).trans quiet.top
      · exact (inv.heldBound _ _ holds).trans quiet.top
    · exact fun u v m hu hv => inv.distinct u v m (hOther u m hu).2 (hOther v m hv).2
    · intro u v m h hShown
      obtain ⟨hne, h⟩ := hOther u m h
      rcases mem v m hShown with hShown | ⟨rfl, rfl⟩
      · exact inv.fresh u v m h hShown
      · exact hne (inv.distinct _ _ _ h holds)
    · have hNew : n ∉ shownNumbers events := fun h =>
        let ⟨u, hu⟩ := mem_shownNumbers.mp h
        inv.fresh t u n holds hu
      have hSnoc : shownNumbers (events ++ [.shown t n]) = shownNumbers events ++ [n] := by
        simp [shownNumbers]
      rw [hSnoc]
      exact inv.nodup.append (List.nodup_singleton n) (by simpa using hNew)
    · intro u m before after h hEq
      obtain ⟨after', hEq'⟩ := arrival_before hEq (by simp)
      exact inv.heldOrder u m before after' (hOther u m h).2 hEq'
    · intro u m before after hEq hShown v k hBefore
      obtain ⟨after', rfl, hEq'⟩ : ∃ after', after = after' ++ [.shown t n] ∧
          events = before ++ .arrive u :: after' := by
        rcases Schedule.split_snoc hEq with ⟨_, h, _⟩ | h
        · cases h
        · exact h
      rcases List.mem_append.mp hShown with h | h
      · exact inv.shownOrder u m before after' hEq' h v k hBefore
      · cases List.mem_singleton.mp h
        exact inv.heldOrder _ _ before after' holds hEq' v k hBefore

theorem Run.inv {a a' : Dispenser α} {events : List (Event α)} (empty : ∀ t, a.held t = none)
    (run : Run a events a') : Inv events a' := by
  induction run with
  | nil => exact Inv.start empty
  | snoc _ step ih => exact ih.step step

end Tickets
