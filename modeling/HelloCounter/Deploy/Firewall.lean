import HelloCounter.Library.FirstMatch

/-! `scripts/server/apply-firewall.sh`: for each cluster port the script deletes the first copies of
its old and new rules from the chain `DOCKER-USER` and appends the new ones.  It stops at the first
`iptables -A` that fails, and it may be killed. -/

namespace HelloCounter.Deploy

abbrev Address := BitVec 32

inductive Protocol where
  | tcp
  | other (number : Nat)
deriving DecidableEq

/-- A packet in the chain, with the data `X` that the script's rules do not look at. -/
structure Packet (X : Type) where
  iface : String
  protocol : Protocol
  dport : UInt16
  source : Address
  rest : X

inductive Verdict where
  | accept
  | drop
  | ret
deriving DecidableEq

inductive Target where
  | accept
  | drop
deriving DecidableEq

def Target.verdict : Target → Verdict
  | .accept => .accept
  | .drop => .drop

/-- A rule `-p tcp [-i iface] --dport dport [-s source] -j target`. -/
structure Spec where
  iface : Option String
  dport : UInt16
  source : Option Address
  target : Target
deriving DecidableEq

def Spec.matches {X : Type} (spec : Spec) (p : Packet X) : Bool :=
  p.protocol == .tcp && p.dport == spec.dport && spec.iface.all (· == p.iface) &&
    spec.source.all (· == p.source)

/-- A rule of the chain: of the script's form, or any other rule `F`. -/
inductive Rule (F : Type) where
  | managed (spec : Spec)
  | foreign (rule : F)
deriving DecidableEq

/-- The external interface and the addresses of the three servers. -/
structure Cluster where
  extIf : String
  server1 : Address
  server2 : Address
  server3 : Address

def Cluster.servers (cluster : Cluster) : List Address :=
  [cluster.server1, cluster.server2, cluster.server3]

def ports : List UInt16 := [5432, 8008, 2379, 2380]

inductive Command where
  | delete (spec : Spec)
  | append (spec : Spec)
deriving DecidableEq

def Command.spec : Command → Spec
  | .delete spec | .append spec => spec

def acceptFrom (iface : Option String) (port : UInt16) (server : Address) : Spec :=
  ⟨iface, port, some server, .accept⟩

def dropAll (iface : Option String) (port : UInt16) : Spec := ⟨iface, port, none, .drop⟩

/-- The rules for a port: the drop, and an exception for each server. -/
def portSpecs (cluster : Cluster) (iface : Option String) (port : UInt16) : List Spec :=
  dropAll iface port :: cluster.servers.map (acceptFrom iface port)

/-- The body of the loop. -/
def portCommands (cluster : Cluster) (port : UInt16) : List Command :=
  (portSpecs cluster none port).map .delete ++
  (portSpecs cluster (some cluster.extIf) port).map .delete ++
  (cluster.servers.map (acceptFrom (some cluster.extIf) port)).map .append ++
  [.append (dropAll (some cluster.extIf) port)]

def commands (cluster : Cluster) : List Command := ports.flatMap (portCommands cluster)

section

variable {F X : Type} [DecidableEq F]

/-- What a command that succeeds does to the chain; a deletion without a copy is ignored. -/
def Command.exec : Command → List (Rule F) → List (Rule F)
  | .delete spec, chain => chain.erase (.managed spec)
  | .append spec, chain => chain ++ [.managed spec]

def execAll (commands : List Command) (chain : List (Rule F)) : List (Rule F) :=
  commands.foldl (fun chain command => command.exec chain) chain

inductive Status where
  | running (rest : List Command)
  | completed
  | stopped

inductive Step : Status × List (Rule F) → Status × List (Rule F) → Prop
  | exec {command rest chain} :
      Step (.running (command :: rest), chain) (.running rest, command.exec chain)
  | appendFails {spec rest chain} :
      Step (.running (.append spec :: rest), chain) (.stopped, chain)
  | killed {rest chain} : Step (.running rest, chain) (.stopped, chain)
  | done {chain} : Step (.running [], chain) (.completed, chain)

/-- The points that a run of the commands on a chain can reach. -/
inductive Reaches (commands : List Command) (chain : List (Rule F)) :
    Status × List (Rule F) → Prop
  | start : Reaches commands chain (.running commands, chain)
  | step {point point'} (before : Reaches commands chain point) (step : Step point point') :
      Reaches commands chain point'

theorem execAll_append (first second : List Command) (chain : List (Rule F)) :
    execAll (first ++ second) chain = execAll second (execAll first chain) :=
  List.foldl_append

/-- At every point a part of the commands has run, and at the end all of them. -/
theorem Reaches.prefix {commands : List Command} {chain : List (Rule F)}
    {point : Status × List (Rule F)} (reaches : Reaches commands chain point) :
    ∃ done rest, commands = done ++ rest ∧ point.2 = execAll done chain ∧
      (∀ rest', point.1 = .running rest' → rest' = rest) ∧ (point.1 = .completed → rest = []) := by
  induction reaches with
  | start => exact ⟨[], commands, rfl, rfl, by rintro _ ⟨⟩; rfl, by rintro ⟨⟩⟩
  | step before step ih =>
    obtain ⟨done, rest, hSplit, hChain, hRest, -⟩ := ih
    cases step with
    | @exec command rest' chain' =>
      obtain rfl := hRest _ rfl
      refine ⟨done ++ [command], rest', by simp [hSplit], ?_, by rintro _ ⟨⟩; rfl, by rintro ⟨⟩⟩
      rw [execAll_append, ← hChain]
      rfl
    | appendFails => exact ⟨done, rest, hSplit, hChain, by rintro _ ⟨⟩, by rintro ⟨⟩⟩
    | killed => exact ⟨done, rest, hSplit, hChain, by rintro _ ⟨⟩, by rintro ⟨⟩⟩
    | done => exact ⟨done, rest, hSplit, hChain, by rintro _ ⟨⟩, fun _ => (hRest _ rfl).symm⟩

theorem reaches_prefix (done rest : List Command) (chain : List (Rule F)) :
    Reaches (done ++ rest) chain (.running rest, execAll done chain) := by
  induction done using List.reverseRecOn generalizing rest with
  | nil => exact .start
  | append_singleton done command ih =>
    have before := ih (command :: rest)
    rw [List.append_assoc, execAll_append]
    exact before.step .exec

/-! ### The chain after a completed run -/

theorem execAll_delete (specs : List Spec) (chain : List (Rule F)) :
    execAll (specs.map .delete) chain = chain.diff (specs.map .managed) := by
  induction specs generalizing chain with
  | nil => rfl
  | cons spec specs ih =>
    rw [List.map_cons, List.map_cons, List.diff_cons]
    exact ih _

theorem execAll_append_specs (specs : List Spec) (chain : List (Rule F)) :
    execAll (specs.map .append) chain = chain ++ specs.map .managed := by
  induction specs generalizing chain with
  | nil => exact (List.append_nil _).symm
  | cons spec specs ih => exact (ih _).trans (List.append_assoc ..)

/-- Deletions of rules that are not in the second part take place in the first. -/
theorem append_diff {chain added removed : List (Rule F)}
    (absent : ∀ rule ∈ removed, rule ∉ added) :
    (chain ++ added).diff removed = chain.diff removed ++ added := by
  induction removed generalizing chain with
  | nil => rfl
  | cons rule removed ih =>
    have hAbsent := absent rule List.mem_cons_self
    rw [List.diff_cons, List.diff_cons, List.erase_append, List.erase_of_not_mem hAbsent]
    have hErase : (if rule ∈ chain then chain.erase rule ++ added else chain ++ added) =
        chain.erase rule ++ added := by
      split
      · rfl
      · next h => rw [List.erase_of_not_mem h]
    rw [hErase]
    exact ih fun rule' h => absent rule' (List.mem_cons_of_mem _ h)

/-- The rules that the script deletes for a port, in both forms. -/
def staleSpecs (cluster : Cluster) (port : UInt16) : List Spec :=
  portSpecs cluster none port ++ portSpecs cluster (some cluster.extIf) port

def freshSpecs (cluster : Cluster) (port : UInt16) : List Spec :=
  cluster.servers.map (acceptFrom (some cluster.extIf) port) ++
    [dropAll (some cluster.extIf) port]

theorem execAll_portCommands (cluster : Cluster) (port : UInt16) (chain : List (Rule F)) :
    execAll (portCommands cluster port) chain =
      chain.diff ((staleSpecs cluster port).map .managed) ++
        (freshSpecs cluster port).map .managed := by
  have hCommands : portCommands cluster port =
      (staleSpecs cluster port).map .delete ++ (freshSpecs cluster port).map .append := rfl
  rw [hCommands, execAll_append, execAll_delete, execAll_append_specs]

theorem staleSpecs_dport {cluster : Cluster} {port : UInt16} {spec : Spec}
    (h : spec ∈ staleSpecs cluster port) : spec.dport = port := by
  simp [staleSpecs, portSpecs, dropAll, acceptFrom] at h
  rcases h with rfl | ⟨_, _, rfl⟩ | rfl | ⟨_, _, rfl⟩ <;> rfl

theorem freshSpecs_dport {cluster : Cluster} {port : UInt16} {spec : Spec}
    (h : spec ∈ freshSpecs cluster port) : spec.dport = port := by
  simp [freshSpecs, dropAll, acceptFrom] at h
  rcases h with ⟨_, _, rfl⟩ | rfl <;> rfl

/-- The rules of several ports leave the chain in order and join it at the end. -/
theorem execAll_ports (cluster : Cluster) {qs : List UInt16} (nodup : qs.Nodup)
    {chain : List (Rule F)} {added : List Spec} (other : ∀ spec ∈ added, spec.dport ∉ qs) :
    execAll (qs.flatMap (portCommands cluster)) (chain ++ added.map .managed) =
      chain.diff ((qs.flatMap (staleSpecs cluster)).map .managed) ++
        (added ++ qs.flatMap (freshSpecs cluster)).map .managed := by
  induction qs generalizing chain added with
  | nil => simp [execAll]
  | cons q qs ih =>
    obtain ⟨hq, nodup⟩ := List.nodup_cons.mp nodup
    have absent : ∀ rule ∈ (staleSpecs cluster q).map (Rule.managed (F := F)),
        rule ∉ added.map Rule.managed := by
      intro rule hStale hAdded
      obtain ⟨spec, hMem, rfl⟩ := List.mem_map.mp hStale
      obtain ⟨spec', hMem', hEq⟩ := List.mem_map.mp hAdded
      cases hEq
      exact other spec hMem' (staleSpecs_dport hMem ▸ List.mem_cons_self)
    have hPort : execAll (portCommands cluster q) (chain ++ added.map .managed) =
        chain.diff ((staleSpecs cluster q).map .managed) ++
          (added ++ freshSpecs cluster q).map .managed := by
      rw [execAll_portCommands, append_diff absent, List.append_assoc, ← List.map_append]
    have other' : ∀ spec ∈ added ++ freshSpecs cluster q, spec.dport ∉ qs := by
      intro spec hSpec
      rcases List.mem_append.mp hSpec with h | h
      · exact fun hMem => other spec h (List.mem_cons_of_mem _ hMem)
      · exact freshSpecs_dport h ▸ hq
    rw [List.flatMap_cons, execAll_append, hPort, ih nodup other']
    simp only [List.flatMap_cons, List.map_append, List.diff_append, List.append_assoc]

/-- What the script leaves of a chain: all but the first copies of its rules. -/
def leftover (cluster : Cluster) (chain : List (Rule F)) : List (Rule F) :=
  chain.diff ((ports.flatMap (staleSpecs cluster)).map .managed)

theorem Reaches.completed {cluster : Cluster} {chain chain' : List (Rule F)}
    (reaches : Reaches (commands cluster) chain (.completed, chain')) :
    chain' = leftover cluster chain ++ (ports.flatMap (freshSpecs cluster)).map .managed := by
  obtain ⟨done, rest, hSplit, hChain, -, hDone⟩ := reaches.prefix
  obtain rfl := hDone rfl
  rw [List.append_nil] at hSplit
  subst hSplit
  have hPorts : execAll (commands cluster) (chain ++ ([] : List Spec).map .managed) = _ :=
    execAll_ports cluster (by decide) (by simp)
  rw [List.map_nil, List.append_nil] at hPorts
  exact hChain.trans hPorts

variable (act : F → Packet X → Option Verdict)

def Rule.verdict : Rule F → Packet X → Option Verdict
  | .managed spec, p => if spec.matches p then some spec.target.verdict else none
  | .foreign rule, p => act rule p

/-- The chain's verdict: of the first rule that accepts, drops or returns the packet. -/
def verdict (chain : List (Rule F)) (p : Packet X) : Option Verdict :=
  FirstMatch.decide (Rule.verdict act) chain p

/-- A TCP packet that arrives on the external interface for a cluster port. -/
def External (cluster : Cluster) (p : Packet X) : Prop :=
  p.iface = cluster.extIf ∧ p.protocol = .tcp ∧ p.dport ∈ ports

/-- The chain drops exactly the external packets from outside the cluster. -/
def AdmitsOnlyCluster (cluster : Cluster) (chain : List (Rule F)) : Prop :=
  ∀ p : Packet X, External cluster p →
    (verdict act chain p = some .drop ↔ p.source ∉ cluster.servers)

variable {cluster : Cluster} {p : Packet X}

theorem Spec.matches_dport {spec : Spec} (h : spec.matches p = true) : p.dport = spec.dport := by
  simp only [Spec.matches, Bool.and_eq_true, beq_iff_eq] at h
  exact h.1.1.2

omit [DecidableEq F] in
theorem verdict_managed_of_dport {specs : List Spec} (h : ∀ spec ∈ specs, spec.dport ≠ p.dport) :
    verdict act (specs.map .managed) p = none := by
  apply FirstMatch.decide_eq_none
  intro rule hRule
  obtain ⟨spec, hSpec, rfl⟩ := List.mem_map.mp hRule
  exact if_neg fun hMatches => h spec hSpec (Spec.matches_dport hMatches).symm

omit [DecidableEq F] in
theorem verdict_accepts (external : External cluster p) (servers : List Address) :
    verdict act ((servers.map (acceptFrom (some cluster.extIf) p.dport)).map .managed) p =
      if p.source ∈ servers then some .accept else none := by
  obtain ⟨hIf, hTcp, -⟩ := external
  induction servers with
  | nil => rfl
  | cons server servers ih =>
    unfold verdict FirstMatch.decide at *
    rw [List.map_cons, List.map_cons, List.findSome?_cons, ih]
    by_cases hServer : server = p.source
    · simp [Rule.verdict, Spec.matches, acceptFrom, hIf, hTcp, hServer, Target.verdict]
    · simp [Rule.verdict, Spec.matches, acceptFrom, hServer, Ne.symm hServer]

omit [DecidableEq F] in
theorem verdict_freshSpecs (external : External cluster p) :
    verdict act ((freshSpecs cluster p.dport).map .managed) p =
      some (if p.source ∈ cluster.servers then .accept else .drop) := by
  have hAccepts := verdict_accepts act external cluster.servers
  have hDrop : verdict act [.managed (dropAll (some cluster.extIf) p.dport)] p = some .drop := by
    obtain ⟨hIf, hTcp, -⟩ := external
    simp [verdict, FirstMatch.decide, Rule.verdict, Spec.matches, dropAll, hIf, hTcp,
      Target.verdict]
  unfold freshSpecs verdict at *
  rw [List.map_append, FirstMatch.decide_append, hAccepts, List.map_singleton, hDrop]
  split <;> rfl

omit [DecidableEq F] in
theorem verdict_freshSpecs_all (external : External cluster p) :
    verdict act ((ports.flatMap (freshSpecs cluster)).map .managed) p =
      some (if p.source ∈ cluster.servers then .accept else .drop) := by
  have hPort := external.2.2
  have hEach : ∀ qs : List UInt16, p.dport ∈ qs →
      verdict act ((qs.flatMap (freshSpecs cluster)).map .managed) p =
        some (if p.source ∈ cluster.servers then .accept else .drop) := by
    intro qs hMem
    induction qs with
    | nil => cases hMem
    | cons q qs ih =>
      rw [List.flatMap_cons, List.map_append, verdict, FirstMatch.decide_append]
      by_cases hq : p.dport = q
      · subst hq
        rw [← verdict, verdict_freshSpecs act external]
        rfl
      · have hNone : verdict act ((freshSpecs cluster q).map .managed) p = none :=
          verdict_managed_of_dport act fun spec hSpec => freshSpecs_dport hSpec ▸ Ne.symm hq
        rw [← verdict, hNone, Option.none_or]
        exact ih ((List.mem_cons.mp hMem).resolve_left hq)
  exact hEach ports hPort

/-- After a completed run the chain drops exactly the external packets from outside the cluster if
and only if the rules left of the initial chain decide none of them wrongly. -/
theorem applied_admitsOnlyCluster_iff {chain chain' : List (Rule F)}
    (completed : Reaches (commands cluster) chain (.completed, chain')) :
    AdmitsOnlyCluster act cluster chain' ↔
      ∀ p : Packet X, External cluster p → ∀ decided,
        verdict act (leftover cluster chain) p = some decided →
          (decided = .drop ↔ p.source ∉ cluster.servers) := by
  rw [completed.completed]
  apply forall_congr'
  intro p
  apply forall_congr'
  intro external
  have hFresh := verdict_freshSpecs_all act external
  unfold verdict at *
  rw [FirstMatch.decide_append, hFresh]
  cases FirstMatch.decide (Rule.verdict act) (leftover cluster chain) p with
  | none => by_cases hMem : p.source ∈ cluster.servers <;> simp [hMem]
  | some decided => simp

end

/-! ### A chain with stale rules, and a chain that returns every packet -/

def exampleCluster : Cluster := ⟨"eth0", 0x5E820D73#32, 0x58639766#32, 0x8AC981AD#32⟩

/-- The only other rule of a chain that Docker creates: `-j RETURN`. -/
def returnAll (_ : Unit) (_ : Packet Unit) : Option Verdict := some .ret

theorem exampleCluster_run (chain : List (Rule Unit)) :
    Reaches (commands exampleCluster) chain
      (.completed, execAll (commands exampleCluster) chain) := by
  have before := reaches_prefix (commands exampleCluster) [] chain
  rw [List.append_nil] at before
  exact before.step .done

/-- The rule `-i docker0 -j RETURN`. -/
def returnInside (_ : Unit) (p : Packet Unit) : Option Verdict :=
  if p.iface = "docker0" then some .ret else none

/-- The rules of a run of the old script for a port, of an interrupted one of the new script for
another, and between them a rule for packets of containers. -/
def staleChain : List (Rule Unit) :=
  (portSpecs exampleCluster none 5432).map .managed ++ [.foreign ()] ++
    (portSpecs exampleCluster (some "eth0") 8008).map .managed

theorem staleChain_admitsOnlyCluster :
    AdmitsOnlyCluster returnInside exampleCluster
      (execAll (commands exampleCluster) staleChain) := by
  apply (applied_admitsOnlyCluster_iff returnInside (exampleCluster_run staleChain)).mpr
  intro p external decided h
  have hLeftover : leftover exampleCluster staleChain = [.foreign ()] := by decide
  have hOutside : p.iface ≠ "docker0" := external.1 ▸ by decide
  have hNone : verdict returnInside (leftover exampleCluster staleChain) p = none := by
    simp [hLeftover, verdict, FirstMatch.decide, Rule.verdict, returnInside, hOutside]
  rw [hNone] at h
  cases h

theorem returnAll_admitsOnlyCluster_false : ¬∀ (F X : Type) [DecidableEq F]
    (act : F → Packet X → Option Verdict) (cluster : Cluster) (chain chain' : List (Rule F)),
    cluster.servers.Nodup → Reaches (commands cluster) chain (.completed, chain') →
    AdmitsOnlyCluster act cluster chain' := by
  intro h
  have hAdmits := h Unit Unit returnAll exampleCluster [.foreign ()] _ (by decide)
    (exampleCluster_run _)
  have hPacket := (hAdmits ⟨"eth0", .tcp, 5432, 0x01010101#32, ()⟩ ⟨rfl, rfl, by decide⟩).mpr
    (by decide)
  revert hPacket
  decide

end HelloCounter.Deploy
