import HelloCounter.Deploy.FirewallRepeat
import HelloCounter.Deploy.FirewallRestart

/-! Histories of `apply-firewall.sh` under `restart: always`: each run may end anywhere, and others
may edit the chain between two runs.  Every chain of a history has each rule of the script once at
most, so the next run that completes leaves the other rules and the new ones, whatever happened
before; and the verdicts on other ports never change. -/

namespace HelloCounter.Deploy

variable {F X : Type} [DecidableEq F] {cluster : Cluster}

/-- Runs that end at any point, and edits of the chain between them. -/
inductive History (cluster : Cluster) (edit : List (Rule F) → List (Rule F) → Prop) :
    List (Rule F) → List (Rule F) → Prop
  | start {chain} : History cluster edit chain chain
  | run {chain between point} (before : History cluster edit chain between)
      (reaches : Reaches (commands cluster) between point) : History cluster edit chain point.2
  | edit {chain between chain'} (before : History cluster edit chain between)
      (edits : edit between chain') : History cluster edit chain chain'

/-! ### The commands for one rule -/

theorem portSpecs_nodup (distinct : cluster.servers.Nodup) (iface : Option String) (port : UInt16) :
    (portSpecs cluster iface port).Nodup := by
  refine List.nodup_cons.mpr ⟨?_, distinct.map fun _ _ h => Option.some.inj (Spec.mk.inj h).2.2.1⟩
  simp [dropAll, acceptFrom]

theorem staleSpecs_nodup (distinct : cluster.servers.Nodup) (port : UInt16) :
    (staleSpecs cluster port).Nodup := by
  refine List.nodup_append'.mpr
    ⟨portSpecs_nodup distinct _ port, portSpecs_nodup distinct _ port, ?_⟩
  intro spec h h'
  have hNone : spec.iface = none := by
    simp only [portSpecs, List.mem_cons, List.mem_map] at h
    rcases h with rfl | ⟨_, _, rfl⟩ <;> rfl
  have hSome : spec.iface = some cluster.extIf := by
    simp only [portSpecs, List.mem_cons, List.mem_map] at h'
    rcases h' with rfl | ⟨_, _, rfl⟩ <;> rfl
  rw [hNone] at hSome
  cases hSome

theorem freshSpecs_nodup (distinct : cluster.servers.Nodup) (port : UInt16) :
    (freshSpecs cluster port).Nodup :=
  (List.perm_append_singleton _ _).nodup_iff.mpr (portSpecs_nodup distinct _ port)

theorem filter_eq_of_nodup {α : Type} [DecidableEq α] {l : List α} (nodup : l.Nodup) (a : α) :
    l.filter (· = a) = if a ∈ l then [a] else [] := by
  rw [List.filter_eq, nodup.count]
  split <;> rfl

/-- A rule is deleted once at most, and appended once at most, after that. -/
theorem filter_portCommands (distinct : cluster.servers.Nodup) (port : UInt16) (spec : Spec) :
    (portCommands cluster port).filter (fun command => command.spec = spec) <+:
      [.delete spec, .append spec] := by
  have hCommands : portCommands cluster port =
      (staleSpecs cluster port).map .delete ++ (freshSpecs cluster port).map .append := rfl
  have hDelete : ((fun command : Command => decide (command.spec = spec)) ∘ .delete) =
      fun s => decide (s = spec) := rfl
  have hAppend : ((fun command : Command => decide (command.spec = spec)) ∘ .append) =
      fun s => decide (s = spec) := rfl
  rw [hCommands, List.filter_append, List.filter_map, List.filter_map, hDelete, hAppend,
    filter_eq_of_nodup (staleSpecs_nodup distinct port),
    filter_eq_of_nodup (freshSpecs_nodup distinct port)]
  have hSubset : spec ∈ freshSpecs cluster port → spec ∈ staleSpecs cluster port := by
    intro h
    refine List.mem_append_right _ ((List.perm_append_singleton _ _).mem_iff.mp h)
  by_cases hFresh : spec ∈ freshSpecs cluster port
  · rw [if_pos hFresh, if_pos (hSubset hFresh)]
    exact List.prefix_refl _
  · rw [if_neg hFresh]
    split
    · exact ⟨[.append spec], rfl⟩
    · exact List.nil_prefix

/-- Every command is about a rule that the script deletes. -/
theorem command_stale {command : Command} (hCommand : command ∈ commands cluster) :
    ∃ port ∈ ports, command.spec ∈ staleSpecs cluster port := by
  obtain ⟨port, hPort, hMem⟩ := List.mem_flatMap.mp hCommand
  refine ⟨port, hPort, ?_⟩
  simp only [portCommands, List.mem_append, List.mem_map, List.mem_singleton] at hMem
  rcases hMem with ((⟨spec, h, rfl⟩ | ⟨spec, h, rfl⟩) | ⟨_, ⟨server, h, rfl⟩, rfl⟩) | rfl
  · exact List.mem_append_left _ h
  · exact List.mem_append_right _ h
  · exact List.mem_append_right _ (List.mem_cons_of_mem _ (List.mem_map_of_mem h))
  · exact List.mem_append_right _ List.mem_cons_self

theorem command_dport {command : Command} (hCommand : command ∈ commands cluster) :
    command.spec.dport ∈ ports := by
  obtain ⟨port, hPort, hSpec⟩ := command_stale hCommand
  exact staleSpecs_dport hSpec ▸ hPort

omit [DecidableEq F] in
theorem command_managed {command : Command} (hCommand : command ∈ commands cluster) :
    Rule.managed (F := F) command.spec ∈ managedRules cluster :=
  List.mem_map_of_mem (List.mem_flatMap.mpr (command_stale hCommand))

theorem filter_commands_spec (distinct : cluster.servers.Nodup) (spec : Spec) :
    (commands cluster).filter (fun command => command.spec = spec) <+:
      [.delete spec, .append spec] := by
  have hPort : (commands cluster).filter (fun command => command.spec = spec) =
      ((commands cluster).filter fun command => command.spec.dport = spec.dport).filter
        fun command => command.spec = spec := by
    rw [List.filter_filter]
    apply List.filter_congr
    intro command _
    by_cases hSpec : command.spec = spec <;> simp [hSpec]
  by_cases hMem : spec.dport ∈ ports
  · rw [hPort, filter_commands cluster hMem]
    exact filter_portCommands distinct spec.dport spec
  · have hNil : (commands cluster).filter (fun command => command.spec = spec) = [] := by
      rw [List.filter_eq_nil_iff]
      intro command hCommand hSpec
      rw [decide_eq_true_eq] at hSpec
      exact hMem (hSpec ▸ command_dport hCommand)
    rw [hNil]
    exact List.nil_prefix

/-! ### The rules of the script at every point -/

theorem Command.exec_count (command : Command) {spec : Spec} (hSpec : command.spec ≠ spec)
    (chain : List (Rule F)) :
    (command.exec chain).count (.managed spec) = chain.count (.managed spec) := by
  have hNe : Rule.managed (F := F) command.spec ≠ .managed spec :=
    fun h => hSpec (Rule.managed.inj h)
  cases command with
  | delete spec' => exact List.count_erase_of_ne hNe.symm
  | append spec' =>
    show (chain ++ [Rule.managed spec']).count _ = _
    rw [List.count_append, List.count_singleton, if_neg (by rwa [beq_iff_eq]), Nat.add_zero]

/-- Only the commands for a rule matter for its copies. -/
theorem execAll_count (cmds : List Command) (spec : Spec) {chain chain' : List (Rule F)}
    (same : chain.count (.managed spec) = chain'.count (.managed spec)) :
    (execAll cmds chain).count (.managed spec) =
      (execAll (cmds.filter fun command => command.spec = spec) chain').count (.managed spec) := by
  induction cmds generalizing chain chain' with
  | nil => exact same
  | cons command cmds ih =>
    by_cases hSpec : command.spec = spec
    · rw [List.filter_cons_of_pos (by simpa using hSpec)]
      refine ih ?_
      subst hSpec
      cases command with
      | delete spec =>
        show (chain.erase _).count (.managed spec) = (chain'.erase _).count (.managed spec)
        rw [show (Command.delete spec).spec = spec from rfl] at same
        rw [List.count_erase_self, List.count_erase_self, same]
      | append spec =>
        show (chain ++ _).count (.managed spec) = (chain' ++ _).count (.managed spec)
        rw [show (Command.append spec).spec = spec from rfl] at same
        rw [List.count_append, List.count_append, same]
    · rw [List.filter_cons_of_neg (by simpa using hSpec)]
      exact ih ((command.exec_count hSpec chain).trans same)

theorem managedOnce_point (distinct : cluster.servers.Nodup) {chain : List (Rule F)}
    (once : ManagedOnce cluster chain) {point : Status × List (Rule F)}
    (reaches : Reaches (commands cluster) chain point) : ManagedOnce cluster point.2 := by
  intro rule hRule
  obtain ⟨done, rest, hSplit, hChain, -⟩ := reaches.prefix
  obtain ⟨spec, -, rfl⟩ := List.mem_map.mp hRule
  have hOnce := once _ hRule
  have hPrefix : done.filter (fun command => command.spec = spec) <+:
      [.delete spec, .append spec] := by
    refine List.IsPrefix.trans ?_ (filter_commands_spec distinct spec)
    rw [hSplit, List.filter_append]
    exact List.prefix_append _ _
  rw [hChain, execAll_count done spec rfl]
  have hDelete : (chain.erase (.managed spec)).count (Rule.managed spec) = 0 := by
    rw [List.count_erase_self]
    omega
  rcases List.prefix_cons_iff.mp hPrefix with hNil | ⟨rest, hCons, hRest⟩
  · rw [hNil]
    exact hOnce
  rcases List.prefix_cons_iff.mp hRest with hNil | ⟨last, hCons', hLast⟩
  · rw [hCons, hNil]
    show (chain.erase _).count (Rule.managed spec) ≤ 1
    omega
  · rw [hCons, hCons', List.prefix_nil.mp hLast]
    show (chain.erase _ ++ [Rule.managed spec]).count (Rule.managed spec) ≤ 1
    rw [List.count_append, hDelete, List.count_singleton_self]

theorem otherRules_exec {command : Command} (hCommand : command ∈ commands cluster)
    (chain : List (Rule F)) :
    otherRules cluster (command.exec chain) = otherRules cluster chain := by
  have hManaged : Rule.managed (F := F) command.spec ∈ managedRules cluster :=
    command_managed hCommand
  cases command with
  | delete spec =>
    show otherRules cluster (chain.erase _) = _
    rw [otherRules, ← List.erase_filter]
    refine List.erase_of_not_mem fun hMem => ?_
    simpa [show Rule.managed spec ∈ managedRules cluster from hManaged] using
      (List.mem_filter.mp hMem).2
  | append spec =>
    show otherRules cluster (chain ++ [_]) = _
    rw [otherRules, List.filter_append, List.filter_singleton]
    simp [show Rule.managed spec ∈ managedRules cluster from hManaged, otherRules]

theorem otherRules_execAll {done : List Command} (subset : done ⊆ commands cluster)
    (chain : List (Rule F)) :
    otherRules cluster (execAll done chain) = otherRules cluster chain := by
  induction done generalizing chain with
  | nil => rfl
  | cons command done ih =>
    obtain ⟨hCommand, hDone⟩ := List.cons_subset.mp subset
    exact (ih hDone (command.exec chain)).trans (otherRules_exec hCommand chain)

theorem otherRules_point {chain : List (Rule F)} {point : Status × List (Rule F)}
    (reaches : Reaches (commands cluster) chain point) :
    otherRules cluster point.2 = otherRules cluster chain := by
  obtain ⟨done, rest, hSplit, hChain, -⟩ := reaches.prefix
  rw [hChain]
  exact otherRules_execAll (hSplit ▸ List.subset_append_left done rest) chain

/-! ### Histories -/

variable {edit : List (Rule F) → List (Rule F) → Prop} {chain between : List (Rule F)}

theorem History.managedOnce (distinct : cluster.servers.Nodup)
    (edits : ∀ c c', edit c c' → ∀ rule ∈ managedRules cluster, c'.count rule ≤ c.count rule)
    (once : ManagedOnce cluster chain) (history : History cluster edit chain between) :
    ManagedOnce cluster between := by
  induction history with
  | start => exact once
  | run _ reaches ih => exact managedOnce_point distinct ih reaches
  | edit _ hEdit ih => exact fun rule hRule => (edits _ _ hEdit rule hRule).trans (ih rule hRule)

variable (act : F → Packet X → Option Verdict)

/-- After any history of runs that end anywhere and of edits that add no copy of the script's rules,
a run leaves the other rules and their order wherever it ends; and when it completes, the chain is
these with the new rules behind them, and drops exactly the external packets from outside the
cluster unless the other rules decide one of them wrongly. -/
theorem firewall_recovers (distinct : cluster.servers.Nodup)
    (edits : ∀ c c', edit c c' → ∀ rule ∈ managedRules cluster, c'.count rule ≤ c.count rule)
    (once : ManagedOnce cluster chain) (history : History cluster edit chain between) :
    (∀ point, Reaches (commands cluster) between point →
      otherRules cluster point.2 = otherRules cluster between) ∧
    ∀ chain', Reaches (commands cluster) between (.completed, chain') →
      chain' = otherRules cluster between ++ freshRules cluster ∧
      (AdmitsOnlyCluster act cluster chain' ↔ ∀ p : Packet X, External cluster p → ∀ decided,
        verdict act (otherRules cluster between) p = some decided →
          (decided = .drop ↔ p.source ∉ cluster.servers)) := by
  have hOnce := history.managedOnce distinct edits once
  refine ⟨fun point reaches => otherRules_point reaches, fun chain' completed => ?_⟩
  have hLeftover : leftover cluster between = otherRules cluster between := diff_eq_filter hOnce
  refine ⟨completed.completed_of_managedOnce hOnce, ?_⟩
  rw [applied_admitsOnlyCluster_iff act completed, hLeftover]

/-! ### What the firewall leaves alone -/

variable {p : Packet X}

theorem execAll_undecided {done : List Command}
    (undecided : ∀ command ∈ done, Rule.verdict act (.managed command.spec) p = none)
    (chain : List (Rule F)) :
    FirstMatch.Alike (Rule.verdict act) p (execAll done chain) chain := by
  induction done generalizing chain with
  | nil => exact Eq.refl _
  | cons command done ih =>
    obtain ⟨hNone, hDone⟩ := List.forall_mem_cons.mp undecided
    refine (ih hDone (command.exec chain)).trans ?_
    cases command with
    | delete spec => exact FirstMatch.alike_erase hNone
    | append spec => exact FirstMatch.alike_append hNone

theorem verdict_point_other (other : p.protocol ≠ .tcp ∨ p.dport ∉ ports)
    {point : Status × List (Rule F)} (reaches : Reaches (commands cluster) chain point) :
    verdict act point.2 p = verdict act chain p := by
  obtain ⟨done, rest, hSplit, hChain, -⟩ := reaches.prefix
  rw [hChain]
  refine (execAll_undecided act (fun command hCommand => if_neg fun hMatches => ?_) chain).decide
  have hMem : command ∈ commands cluster := by
    rw [hSplit]
    exact List.mem_append_left _ hCommand
  rcases other with hTcp | hPort
  · simp only [Spec.matches, Bool.and_eq_true, beq_iff_eq] at hMatches
    exact hTcp hMatches.1.1.1
  · exact hPort (Spec.matches_dport hMatches ▸ command_dport hMem)

omit [DecidableEq F] in
theorem freshRules_inside (inside : p.iface ≠ cluster.extIf) :
    verdict act (freshRules cluster) p = none := by
  apply FirstMatch.decide_eq_none
  intro rule hRule
  obtain ⟨spec, hSpec, rfl⟩ := List.mem_map.mp hRule
  obtain ⟨port, -, hFresh⟩ := List.mem_flatMap.mp hSpec
  have hIface : spec.iface = some cluster.extIf := by
    simp only [freshSpecs, List.mem_append, List.mem_map, List.mem_singleton] at hFresh
    rcases hFresh with ⟨_, _, rfl⟩ | rfl <;> rfl
  refine if_neg fun hMatches => ?_
  simp only [Spec.matches, hIface, Bool.and_eq_true, Option.all_some, beq_iff_eq] at hMatches
  exact inside hMatches.1.2.symm

/-- A packet of another port or protocol keeps its verdict at every point of every history; and once
a run completes, a packet that arrives on another interface gets the verdict of the other rules. -/
theorem firewall_frame (distinct : cluster.servers.Nodup)
    (edits : ∀ c c', edit c c' → ∀ rule ∈ managedRules cluster, c'.count rule ≤ c.count rule)
    (once : ManagedOnce cluster chain) (history : History cluster edit chain between)
    (p : Packet X) :
    ((p.protocol ≠ .tcp ∨ p.dport ∉ ports) →
      (∀ c c', edit c c' → verdict act c' p = verdict act c p) →
      verdict act between p = verdict act chain p) ∧
    (p.iface ≠ cluster.extIf → ∀ chain', Reaches (commands cluster) between (.completed, chain') →
      verdict act chain' p = verdict act (otherRules cluster between) p) := by
  constructor
  · intro other frame
    clear once edits
    induction history with
    | start => rfl
    | run _ reaches ih => exact (verdict_point_other act other reaches).trans ih
    | edit _ hEdit ih => exact (frame _ _ hEdit).trans ih
  · intro inside chain' completed
    rw [completed.completed_of_managedOnce (history.managedOnce distinct edits once), verdict,
      FirstMatch.decide_append]
    have hFresh := freshRules_inside (F := F) act inside
    unfold verdict at hFresh
    rw [hFresh, Option.or_none, verdict]

/-! ### A run that is killed on a chain of the old form -/

/-- A reboot empties the chain. -/
def reboot (_ chain' : List (Rule Unit)) : Prop := chain' = []

theorem reboot_edits (c c' : List (Rule Unit)) (h : reboot c c') :
    ∀ rule ∈ managedRules exampleCluster, c'.count rule ≤ c.count rule := by
  subst h
  exact fun _ _ => Nat.zero_le _

theorem oldChain_once : ManagedOnce exampleCluster oldChain :=
  fun rule _ => List.nodup_iff_count_le_one.mp (show oldChain.Nodup by decide) rule

def killedChain : List (Rule Unit) := execAll ((commands exampleCluster).take 20) oldChain

theorem killedChain_reached :
    Reaches (commands exampleCluster) oldChain (.stopped, killedChain) := by
  have before := reaches_prefix ((commands exampleCluster).take 20)
    ((commands exampleCluster).drop 20) oldChain
  rw [List.take_append_drop] at before
  exact before.step .killed

theorem killedChain_recovers :
    execAll (commands exampleCluster) killedChain =
      otherRules exampleCluster killedChain ++ freshRules exampleCluster :=
  ((firewall_recovers returnAll (by decide) reboot_edits oldChain_once
    (History.start.run killedChain_reached)).2 _ (exampleCluster_run killedChain)).1

theorem killedChain_frame : verdict returnAll killedChain ⟨"eth0", .other 17, 5432, 0#32, ()⟩ =
    verdict returnAll oldChain ⟨"eth0", .other 17, 5432, 0#32, ()⟩ := by
  have history : History exampleCluster (fun _ _ => False) oldChain killedChain :=
    History.start.run killedChain_reached
  have frame := firewall_frame returnAll (by decide) (fun _ _ h => h.elim) oldChain_once history
    ⟨"eth0", .other 17, 5432, 0#32, ()⟩
  exact frame.1 (.inl (by decide)) fun _ _ h => h.elim

end HelloCounter.Deploy
