import Mathlib.Data.List.Nodup
import Mathlib.Logic.Function.Basic

/-! A job that visits the hosts of a list in order, stops at the first visit that does not complete,
and runs again with the next release, one run at a time. -/

namespace Rollout

/-- What a visit with a release makes of a host's state, when it completes and when it ends on the
way. -/
structure Visit (Host State Release : Type) where
  completes : Release → Host → State → State → Prop
  stops : Release → Host → State → State → Prop

/-- The last visit to a host, with the number of its run. -/
inductive Mark where
  | untouched
  | complete (run : Nat)
  | stopped (run : Nat)
deriving DecidableEq

def Mark.run? : Mark → Option Nat
  | untouched => none
  | complete run | stopped run => some run

structure Fleet (Host State : Type) where
  state : Host → State
  mark : Host → Mark

variable {Host State Release : Type} [DecidableEq Host]

def Fleet.visit (fleet : Fleet Host State) (host : Host) (state : State) (mark : Mark) :
    Fleet Host State :=
  ⟨Function.update fleet.state host state, Function.update fleet.mark host mark⟩

/-- Run number `n` on the hosts that are left, and whether it comes to its end. -/
inductive Run (visit : Visit Host State Release) (n : Nat) (release : Release) :
    List Host → Fleet Host State → Fleet Host State → Bool → Prop where
  | done (fleet : Fleet Host State) : Run visit n release [] fleet fleet true
  | next {host : Host} {hosts : List Host} {fleet fleet' : Fleet Host State} {state : State}
      {ok : Bool} (completes : visit.completes release host (fleet.state host) state)
      (rest : Run visit n release hosts (fleet.visit host state (.complete n)) fleet' ok) :
      Run visit n release (host :: hosts) fleet fleet' ok
  | stop {host : Host} {hosts : List Host} {fleet : Fleet Host State} {state : State}
      (stops : visit.stops release host (fleet.state host) state) :
      Run visit n release (host :: hosts) fleet (fleet.visit host state (.stopped n)) false
  | cancelled (host : Host) (hosts : List Host) (fleet : Fleet Host State) :
      Run visit n release (host :: hosts) fleet fleet false

/-- The runs with the given releases, from hosts that no run has visited. -/
inductive History (visit : Visit Host State Release) (hosts : List Host) (start : Host → State) :
    List Release → Fleet Host State → Prop where
  | start : History visit hosts start [] ⟨start, fun _ => .untouched⟩
  | run {releases : List Release} {fleet fleet' : Fleet Host State} {release : Release} {ok : Bool}
      (history : History visit hosts start releases fleet)
      (run : Run visit releases.length release hosts fleet fleet' ok) :
      History visit hosts start (releases ++ [release]) fleet'

/-- A host's last visit is by a later run than that of a host behind it in the list, or by the same
run, which has then completed it. -/
def Ahead (fleet : Fleet Host State) (earlier later : Host) : Prop :=
  ∀ n, (fleet.mark later).run? = some n →
    fleet.mark earlier = .complete n ∨ ∃ m, (fleet.mark earlier).run? = some m ∧ n < m

variable {visit : Visit Host State Release} {n : Nat} {release : Release} {host : Host}
  {hosts : List Host} {fleet fleet' : Fleet Host State} {ok : Bool} {start : Host → State}
  {releases : List Release}

/-! ### One run -/

@[simp] theorem Fleet.visit_mark_self (fleet : Fleet Host State) (host : Host) (state : State)
    (mark : Mark) : (fleet.visit host state mark).mark host = mark := Function.update_self ..

@[simp] theorem Fleet.visit_state_self (fleet : Fleet Host State) (host : Host) (state : State)
    (mark : Mark) : (fleet.visit host state mark).state host = state := Function.update_self ..

theorem Fleet.visit_other (fleet : Fleet Host State) {host other : Host} (h : other ≠ host)
    (state : State) (mark : Mark) :
    (fleet.visit host state mark).mark other = fleet.mark other ∧
      (fleet.visit host state mark).state other = fleet.state other :=
  ⟨Function.update_of_ne h .., Function.update_of_ne h ..⟩

/-- A run leaves the hosts that are not on its list as they are. -/
theorem Run.frame (run : Run visit n release hosts fleet fleet' ok) (h : host ∉ hosts) :
    fleet'.mark host = fleet.mark host ∧ fleet'.state host = fleet.state host := by
  induction run with
  | done => exact ⟨rfl, rfl⟩
  | next completes rest ih =>
    obtain ⟨hMark, hState⟩ := ih (List.not_mem_of_not_mem_cons h)
    obtain ⟨hMark', hState'⟩ := Fleet.visit_other _ (List.ne_of_not_mem_cons h) _ _
    exact ⟨hMark.trans hMark', hState.trans hState'⟩
  | stop => exact Fleet.visit_other _ (List.ne_of_not_mem_cons h) _ _
  | cancelled => exact ⟨rfl, rfl⟩

/-- What a run does to one host: nothing, or one visit. -/
theorem Run.host_cases (nodup : hosts.Nodup) (run : Run visit n release hosts fleet fleet' ok)
    (host : Host) :
    (fleet'.mark host = fleet.mark host ∧ fleet'.state host = fleet.state host) ∨
    (fleet'.mark host = .complete n ∧
      visit.completes release host (fleet.state host) (fleet'.state host)) ∨
    (fleet'.mark host = .stopped n ∧
      visit.stops release host (fleet.state host) (fleet'.state host)) := by
  induction run with
  | done => exact .inl ⟨rfl, rfl⟩
  | @next first hosts fleet fleet' state ok completes rest ih =>
    obtain ⟨hFirst, hNodup⟩ := List.nodup_cons.mp nodup
    rcases eq_or_ne host first with rfl | hOther
    · obtain ⟨hMark, hState⟩ := rest.frame hFirst
      rw [hMark, hState, Fleet.visit_mark_self, Fleet.visit_state_self]
      exact .inr (.inl ⟨rfl, completes⟩)
    · obtain ⟨hMark, hState⟩ := Fleet.visit_other fleet hOther state (.complete n)
      have hCases := ih hNodup
      rwa [hMark, hState] at hCases
  | @stop first hosts fleet state stops =>
    rcases eq_or_ne host first with rfl | hOther
    · rw [Fleet.visit_mark_self, Fleet.visit_state_self]
      exact .inr (.inr ⟨rfl, stops⟩)
    · exact .inl (Fleet.visit_other fleet hOther state (.stopped n))
  | cancelled => exact .inl ⟨rfl, rfl⟩

/-- A run that comes to its end has completed every host. -/
theorem Run.reaches (nodup : hosts.Nodup) (run : Run visit n release hosts fleet fleet' ok)
    (hOk : ok = true) : ∀ host ∈ hosts, fleet'.mark host = .complete n := by
  induction run with
  | done => exact fun host h => absurd h List.not_mem_nil
  | next completes rest ih =>
    obtain ⟨hFirst, hNodup⟩ := List.nodup_cons.mp nodup
    refine List.forall_mem_cons.mpr ⟨?_, ih hNodup hOk⟩
    rw [(rest.frame hFirst).1, Fleet.visit_mark_self]
  | stop => cases hOk
  | cancelled => cases hOk

theorem Run.mark_le (nodup : hosts.Nodup) (run : Run visit n release hosts fleet fleet' ok)
    {m : Nat} (older : ∀ m, (fleet.mark host).run? = some m → m < n)
    (h : (fleet'.mark host).run? = some m) : m ≤ n := by
  rcases run.host_cases nodup host with ⟨hMark, -⟩ | ⟨hMark, -⟩ | ⟨hMark, -⟩ <;> rw [hMark] at h
  · exact Nat.le_of_lt (older m h)
  · exact Nat.le_of_eq (Option.some.inj h).symm
  · exact Nat.le_of_eq (Option.some.inj h).symm

omit [DecidableEq Host] in
theorem Ahead.congr {earlier later : Host} (h : Ahead fleet earlier later)
    (hEarlier : fleet'.mark earlier = fleet.mark earlier)
    (hLater : fleet'.mark later = fleet.mark later) : Ahead fleet' earlier later := by
  rw [Ahead, hEarlier, hLater]
  exact h

theorem Run.ordered (nodup : hosts.Nodup) (run : Run visit n release hosts fleet fleet' ok)
    (older : ∀ host ∈ hosts, ∀ m, (fleet.mark host).run? = some m → m < n)
    (ordered : hosts.Pairwise (Ahead fleet)) : hosts.Pairwise (Ahead fleet') := by
  induction run with
  | done => exact .nil
  | @next first hosts fleet fleet' state ok completes rest ih =>
    obtain ⟨hFirst, hNodup⟩ := List.nodup_cons.mp nodup
    obtain ⟨-, hOlder⟩ := List.forall_mem_cons.mp older
    have kept : ∀ host ∈ hosts, (fleet.visit first state (.complete n)).mark host =
        fleet.mark host := fun host hHost =>
      (fleet.visit_other (ne_of_mem_of_not_mem hHost hFirst) state (.complete n)).1
    refine List.pairwise_cons.mpr ⟨?_, ih hNodup ?_ ?_⟩
    · -- The hosts behind the first one are at this run or at earlier ones.
      intro later hLater m hm
      have hLe : m ≤ n := rest.mark_le hNodup (fun m h => by
        rw [kept later hLater] at h
        exact hOlder later hLater m h) hm
      rw [(rest.frame hFirst).1, Fleet.visit_mark_self]
      rcases Nat.lt_or_eq_of_le hLe with hLt | rfl
      · exact .inr ⟨n, rfl, hLt⟩
      · exact .inl rfl
    · intro host hHost m hm
      rw [kept host hHost] at hm
      exact hOlder host hHost m hm
    · exact (List.pairwise_cons.mp ordered).2.imp_of_mem fun hEarlier hLater ahead =>
        ahead.congr (kept _ hEarlier) (kept _ hLater)
  | @stop first hosts fleet state stops =>
    obtain ⟨hFirst, -⟩ := List.nodup_cons.mp nodup
    have kept : ∀ host ∈ hosts, (fleet.visit first state (.stopped n)).mark host =
        fleet.mark host := fun host hHost =>
      (fleet.visit_other (ne_of_mem_of_not_mem hHost hFirst) state (.stopped n)).1
    refine List.pairwise_cons.mpr ⟨?_, ?_⟩
    · intro later hLater m hm
      rw [kept later hLater] at hm
      rw [Fleet.visit_mark_self]
      exact .inr ⟨n, rfl, older later (List.mem_cons_of_mem _ hLater) m hm⟩
    · exact (List.pairwise_cons.mp ordered).2.imp_of_mem fun hEarlier hLater ahead =>
        ahead.congr (kept _ hEarlier) (kept _ hLater)
  | cancelled => exact ordered

/-! ### All runs -/

theorem History.mark_lt (nodup : hosts.Nodup)
    (history : History visit hosts start releases fleet) (host : Host) {m : Nat}
    (h : (fleet.mark host).run? = some m) : m < releases.length := by
  induction history generalizing m with
  | start => cases h
  | run history run ih =>
    rw [List.length_append, List.length_singleton, Nat.lt_succ_iff]
    exact run.mark_le nodup (fun m hm => ih hm) h

/-- At any time no host is ahead of one before it in the list. -/
theorem History.ordered (nodup : hosts.Nodup)
    (history : History visit hosts start releases fleet) : hosts.Pairwise (Ahead fleet) := by
  induction history with
  | start =>
    exact List.pairwise_of_forall fun _ _ _ h => nomatch h
  | run history run ih =>
    exact run.ordered nodup (fun host _ m hm => history.mark_lt nodup host hm) ih

/-- What every visit keeps holds of each host at any time. -/
theorem History.invariant (nodup : hosts.Nodup)
    (history : History visit hosts start releases fleet) (Inv : Host → State → Prop)
    (initial : ∀ host, Inv host (start host))
    (completes : ∀ release ∈ releases, ∀ host s s', visit.completes release host s s' →
      Inv host s → Inv host s')
    (stops : ∀ release ∈ releases, ∀ host s s', visit.stops release host s s' →
      Inv host s → Inv host s') :
    ∀ host, Inv host (fleet.state host) := by
  induction history with
  | start => exact initial
  | @run releases fleet fleet' release ok history run ih =>
    have hLast : release ∈ releases ++ [release] := by simp
    have hHost := ih (fun r hr => completes r (List.mem_append_left _ hr))
      fun r hr => stops r (List.mem_append_left _ hr)
    intro host
    rcases run.host_cases nodup host with ⟨-, hState⟩ | ⟨-, hVisit⟩ | ⟨-, hVisit⟩
    · rw [hState]
      exact hHost host
    · exact completes release hLast _ _ _ hVisit (hHost host)
    · exact stops release hLast _ _ _ hVisit (hHost host)

/-- A host that a run has completed, and none has visited since, is as that run's release left
it. -/
theorem History.complete (nodup : hosts.Nodup)
    (history : History visit hosts start releases fleet) {Post : Release → Host → State → Prop}
    (completes : ∀ release ∈ releases, ∀ host s s', visit.completes release host s s' →
      Post release host s')
    {n : Nat} (h : fleet.mark host = .complete n) :
    ∃ release, releases[n]? = some release ∧ Post release host (fleet.state host) := by
  induction history with
  | start => cases h
  | @run releases fleet fleet' release ok history run ih =>
    rcases run.host_cases nodup host with ⟨hMark, hState⟩ | ⟨hMark, hVisit⟩ | ⟨hMark, -⟩
    · rw [hMark] at h
      obtain ⟨earlier, hEarlier, hPost⟩ :=
        ih (fun r hr => completes r (List.mem_append_left _ hr)) h
      have hLt : n < releases.length := history.mark_lt nodup host (by rw [h]; rfl)
      rw [hState, List.getElem?_append_left hLt]
      exact ⟨earlier, hEarlier, hPost⟩
    · rw [hMark] at h
      cases h
      exact ⟨release, by simp, completes release (by simp) _ _ _ hVisit⟩
    · rw [hMark] at h
      cases h

end Rollout
