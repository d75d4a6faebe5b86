import HelloCounter.Deploy.Firewall
import Mathlib

/-! Completed runs of `apply-firewall.sh` one after another: the chain of the first one, which is
the other rules in their order with the sixteen new rules behind them, stays as it is. -/

namespace HelloCounter.Deploy

variable {F : Type} [DecidableEq F]

/-- The rules that the script deletes, in both forms, for every port. -/
def managedRules (cluster : Cluster) : List (Rule F) :=
  (ports.flatMap (staleSpecs cluster)).map .managed

/-- The rules that the script appends, port by port. -/
def freshRules (cluster : Cluster) : List (Rule F) :=
  (ports.flatMap (freshSpecs cluster)).map .managed

def otherRules (cluster : Cluster) (chain : List (Rule F)) : List (Rule F) :=
  chain.filter fun rule => rule ∉ managedRules cluster

/-- Every rule of the script occurs at most once. -/
def ManagedOnce (cluster : Cluster) (chain : List (Rule F)) : Prop :=
  ∀ rule ∈ managedRules cluster, chain.count rule ≤ 1

/-- `n` completed runs, each on the chain that the one before it left. -/
inductive Runs (cluster : Cluster) : (n : Nat) → (chain chain' : List (Rule F)) → Prop
  | none {chain} : Runs cluster 0 chain chain
  | next {n chain between chain'} (before : Runs cluster n chain between)
      (run : Reaches (commands cluster) between (.completed, chain')) :
      Runs cluster (n + 1) chain chain'

/-! ### One run -/

section

variable {α : Type} [DecidableEq α]

theorem erase_eq_filter {a : α} {l : List α} (once : l.count a ≤ 1) :
    l.erase a = l.filter (· ≠ a) := by
  induction l with
  | nil => rfl
  | cons b l ih =>
    by_cases hb : b = a
    · subst hb
      have hMem : b ∉ l := by
        rw [List.count_cons_self] at once
        exact List.count_eq_zero.mp (by omega)
      have hRest : l.filter (· ≠ b) = l := by
        rw [List.filter_eq_self]
        intro c hc
        simpa using fun h : c = b => hMem (h ▸ hc)
      rw [List.erase_cons_head, List.filter_cons_of_neg (by simp), hRest]
    · rw [List.count_cons_of_ne hb] at once
      rw [List.erase_cons_tail (by simpa using hb), List.filter_cons_of_pos (by simpa using hb),
        ih once]

theorem diff_eq_filter {l removed : List α} (once : ∀ a ∈ removed, l.count a ≤ 1) :
    l.diff removed = l.filter (· ∉ removed) := by
  induction removed generalizing l with
  | nil => simp
  | cons a removed ih =>
    have hOnce : ∀ b ∈ removed, (l.erase a).count b ≤ 1 := fun b hb =>
      (List.erase_sublist.count_le b).trans (once b (List.mem_cons_of_mem a hb))
    rw [List.diff_cons, ih hOnce, erase_eq_filter (once a List.mem_cons_self), List.filter_filter]
    apply List.filter_congr
    intro b _
    rw [Bool.and_comm]
    simp

end

variable {cluster : Cluster} {chain chain' : List (Rule F)}

theorem Reaches.completed_of_managedOnce (once : ManagedOnce cluster chain)
    (run : Reaches (commands cluster) chain (.completed, chain')) :
    chain' = otherRules cluster chain ++ freshRules cluster := by
  rw [run.completed, leftover]
  exact congrArg (· ++ _) (diff_eq_filter once)

/-! ### The chain that a run leaves -/

omit [DecidableEq F] in
theorem freshRules_subset : (freshRules cluster : List (Rule F)) ⊆ managedRules cluster := by
  apply List.map_subset
  intro spec hSpec
  obtain ⟨port, hPort, hFresh⟩ := List.mem_flatMap.mp hSpec
  apply List.mem_flatMap.mpr ⟨port, hPort, ?_⟩
  simp only [freshSpecs, staleSpecs, portSpecs, List.mem_append, List.mem_cons,
    List.not_mem_nil, or_false] at hFresh ⊢
  exact .inr hFresh.symm

omit [DecidableEq F] in
theorem freshRules_nodup (distinct : cluster.servers.Nodup) :
    (freshRules cluster : List (Rule F)).Nodup := by
  apply List.Nodup.map (fun _ _ h => Rule.managed.inj h)
  apply List.nodup_flatMap.mpr
  constructor
  · intro port _
    apply List.nodup_append'.mpr
    refine ⟨distinct.map fun _ _ h => ?_, List.nodup_singleton _, ?_⟩
    · exact Option.some.inj (Spec.mk.inj h).2.2.1
    · intro spec hAccept hDrop
      obtain ⟨server, _, rfl⟩ := List.mem_map.mp hAccept
      simp [acceptFrom, dropAll] at hDrop
  · have hPorts : ports.Nodup := by decide
    apply hPorts.imp
    intro port port' hNe spec h h'
    exact hNe ((freshSpecs_dport h).symm.trans (freshSpecs_dport h'))

theorem otherRules_append_fresh (chain : List (Rule F)) :
    otherRules cluster (otherRules cluster chain ++ freshRules cluster) =
      otherRules cluster chain := by
  have hFresh : otherRules cluster (freshRules cluster : List (Rule F)) = [] := by
    rw [otherRules, List.filter_eq_nil_iff]
    intro rule hRule
    simpa using freshRules_subset hRule
  have hOthers : otherRules cluster (otherRules cluster chain) = otherRules cluster chain := by
    simp [otherRules, List.filter_filter]
  rw [← hOthers, otherRules, List.filter_append, ← otherRules, ← otherRules, hFresh, hOthers,
    hOthers, List.append_nil]

theorem managedOnce_append_fresh (distinct : cluster.servers.Nodup) (chain : List (Rule F)) :
    ManagedOnce cluster (otherRules cluster chain ++ freshRules cluster) := by
  intro rule hRule
  have hOthers : (otherRules cluster chain).count rule = 0 := by
    apply List.count_eq_zero.mpr
    intro hMem
    simpa [hRule] using (List.mem_filter.mp hMem).2
  rw [List.count_append, hOthers, Nat.zero_add]
  exact List.nodup_iff_count_le_one.mp (freshRules_nodup distinct) rule

theorem Runs.chain_eq (distinct : cluster.servers.Nodup) {n : Nat}
    (runs : Runs cluster n chain chain') (once : ManagedOnce cluster chain) (pos : 1 ≤ n) :
    chain' = otherRules cluster chain ++ freshRules cluster := by
  induction runs with
  | none => exact absurd pos (by decide)
  | @next n chain between chain' before run ih =>
    rcases Nat.eq_zero_or_pos n with rfl | hPos
    · cases before
      exact run.completed_of_managedOnce once
    · obtain rfl := ih once hPos
      rw [run.completed_of_managedOnce (managedOnce_append_fresh distinct chain),
        otherRules_append_fresh]

/-- However often it has run, the script leaves the other rules in their order with the new rules
behind them, which is the chain after its first run. -/
theorem runs_chain (distinct : cluster.servers.Nodup) (once : ManagedOnce cluster chain) {n : Nat}
    (pos : 1 ≤ n) (runs : Runs cluster n chain chain') :
    chain' = otherRules cluster chain ++ freshRules cluster ∧
      ∀ first, Runs cluster 1 chain first → chain' = first := by
  have hChain := runs.chain_eq distinct once pos
  exact ⟨hChain, fun first run => hChain.trans (run.chain_eq distinct once le_rfl).symm⟩

/-! ### Two runs on a chain with a rule of the old form -/

def oldChain : List (Rule Unit) := [.managed (dropAll none 5432), .foreign ()]

theorem oldChain_twice :
    ∃ chain', Runs exampleCluster 2 oldChain chain' ∧
      chain' = otherRules exampleCluster oldChain ++ freshRules exampleCluster ∧
      ∀ first, Runs exampleCluster 1 oldChain first → chain' = first := by
  have runs := (Runs.none.next (exampleCluster_run oldChain)).next (exampleCluster_run _)
  have hNodup : oldChain.Nodup := by decide
  exact ⟨_, runs, runs_chain (by decide)
    (fun rule _ => List.nodup_iff_count_le_one.mp hNodup rule) (by decide) runs⟩

end HelloCounter.Deploy
