import HelloCounter.Deploy.Firewall

/-! A later run of `apply-firewall.sh` on a chain that drops external packets.  Only the deletions
of the two drops of a port can undrop a packet for it, and everything else that the run does before
or after keeps the packet dropped. -/

namespace HelloCounter.Deploy

variable {F X : Type} [DecidableEq F] (act : F → Packet X → Option Verdict)

def Drops (chain : List (Rule F)) (p : Packet X) : Prop := verdict act chain p = some .drop

/-- At every point of a run on `chain`, the external packets that `chain` drops are dropped. -/
def KeepsDrops (X : Type) (act : F → Packet X → Option Verdict) (cluster : Cluster)
    (chain : List (Rule F)) : Prop :=
  ∀ point, Reaches (commands cluster) chain point →
    ∀ p : Packet X, External cluster p → Drops act chain p → Drops act point.2 p

/-- The external packets that `chain` drops are dropped without its first unscoped drop for their
port, and without that drop, the first unscoped accepts and the first scoped drop. -/
def RestartSafe (X : Type) (act : F → Packet X → Option Verdict) (cluster : Cluster)
    (chain : List (Rule F)) : Prop :=
  ∀ p : Packet X, External cluster p → Drops act chain p →
    Drops act (chain.erase (.managed (dropAll none p.dport))) p ∧
    Drops act ((chain.diff ((portSpecs cluster none p.dport).map .managed)).erase
      (.managed (dropAll (some cluster.extIf) p.dport))) p

/-! ### The commands for the port of a packet -/

variable {cluster : Cluster} {p : Packet X}

theorem Command.exec_alike (command : Command) {chain chain' : List (Rule F)}
    (alike : FirstMatch.Alike (Rule.verdict act) p chain chain') :
    FirstMatch.Alike (Rule.verdict act) p (command.exec chain) (command.exec chain') := by
  cases command with
  | delete spec => exact alike.erase _
  | append spec => exact alike.append _

theorem Command.exec_other {command : Command} (other : command.spec.dport ≠ p.dport)
    (chain : List (Rule F)) :
    FirstMatch.Alike (Rule.verdict act) p (command.exec chain) chain := by
  have hNone : Rule.verdict act (.managed command.spec) p = none :=
    if_neg fun hMatches => other (Spec.matches_dport hMatches).symm
  cases command with
  | delete spec => exact FirstMatch.alike_erase hNone
  | append spec => exact FirstMatch.alike_append hNone

theorem execAll_alike (cmds : List Command) {chain chain' : List (Rule F)}
    (alike : FirstMatch.Alike (Rule.verdict act) p chain chain') :
    FirstMatch.Alike (Rule.verdict act) p (execAll cmds chain)
      (execAll (cmds.filter fun command => command.spec.dport = p.dport) chain') := by
  induction cmds generalizing chain chain' with
  | nil => exact alike
  | cons command cmds ih =>
    by_cases hPort : command.spec.dport = p.dport
    · rw [List.filter_cons_of_pos (by simpa using hPort)]
      exact ih (command.exec_alike act alike)
    · rw [List.filter_cons_of_neg (by simpa using hPort)]
      exact ih ((Command.exec_other act hPort chain).trans alike)

theorem filter_commands (cluster : Cluster) {port : UInt16} (h : port ∈ ports) :
    (commands cluster).filter (fun command => command.spec.dport = port) =
      portCommands cluster port := by
  simp only [ports, List.mem_cons, List.not_mem_nil, or_false] at h
  rcases h with rfl | rfl | rfl | rfl <;> rfl

/-! ### The points of a run -/

/-- A packet is dropped before, between and after the commands. -/
def Stays (p : Packet X) : List Command → List (Rule F) → Prop
  | [], chain => Drops act chain p
  | command :: cmds, chain => Drops act chain p ∧ Stays p cmds (command.exec chain)

theorem Stays.drops {cmds : List Command} {chain : List (Rule F)} (stays : Stays act p cmds chain) :
    Drops act chain p := by
  cases cmds with
  | nil => exact stays
  | cons command cmds => exact stays.1

theorem stays_append (first second : List Command) (chain : List (Rule F)) :
    Stays act p (first ++ second) chain ↔
      Stays act p first chain ∧ Stays act p second (execAll first chain) := by
  induction first generalizing chain with
  | nil => exact ⟨fun stays => ⟨stays.drops, stays⟩, fun stays => stays.2⟩
  | cons command first ih =>
    show _ ∧ Stays act p (first ++ second) (command.exec chain) ↔ (_ ∧ _) ∧ _
    rw [ih, and_assoc]
    rfl

theorem stays_iff_everywhere (cmds : List Command) (chain : List (Rule F)) :
    Stays act p cmds chain ↔
      ∀ done rest, cmds = done ++ rest → Drops act (execAll done chain) p := by
  constructor
  · rintro stays done rest rfl
    exact ((stays_append act done rest chain).mp stays).2.drops
  · intro h
    induction cmds generalizing chain with
    | nil => exact h [] [] rfl
    | cons command cmds ih =>
      refine ⟨h [] _ rfl, ih _ fun done rest hSplit => ?_⟩
      exact h (command :: done) rest (by rw [hSplit]; rfl)

def Command.Harmless : Command → Prop
  | .delete spec => spec.target ≠ .drop
  | .append _ => True

theorem Command.Harmless.drops {command : Command} (harmless : command.Harmless)
    {chain : List (Rule F)} (h : Drops act chain p) : Drops act (command.exec chain) p := by
  cases command with
  | delete spec =>
    refine FirstMatch.decide_erase ?_ h
    show (if spec.matches p then some spec.target.verdict else none) ≠ some .drop
    have hTarget : spec.target = .accept := by
      cases hSpec : spec.target with
      | accept => rfl
      | drop => exact absurd hSpec harmless
    rw [hTarget]
    split <;> simp [Target.verdict]
  | append spec =>
    show FirstMatch.decide (Rule.verdict act) (chain ++ [.managed spec]) p = some .drop
    rw [FirstMatch.decide_append, show FirstMatch.decide (Rule.verdict act) chain p = _ from h]
    rfl

theorem stays_harmless {cmds : List Command} (harmless : ∀ command ∈ cmds, command.Harmless)
    {chain : List (Rule F)} (h : Drops act chain p) : Stays act p cmds chain := by
  induction cmds generalizing chain with
  | nil => exact h
  | cons command cmds ih =>
    refine ⟨h, ih (fun command' h' => harmless command' (List.mem_cons_of_mem _ h')) ?_⟩
    exact (harmless command List.mem_cons_self).drops act h

def deleteAccepts (cluster : Cluster) (iface : Option String) (port : UInt16) : List Command :=
  (cluster.servers.map (acceptFrom iface port)).map .delete

theorem deleteAccepts_harmless (cluster : Cluster) (iface : Option String) (port : UInt16) :
    ∀ command ∈ deleteAccepts cluster iface port, command.Harmless := by
  intro command h
  simp only [deleteAccepts, List.mem_map] at h
  obtain ⟨_, ⟨_, _, rfl⟩, rfl⟩ := h
  exact fun hDrop => nomatch hDrop

/-- The commands for a port keep a packet dropped exactly when its two dangerous deletions do. -/
theorem stays_portCommands (cluster : Cluster) (port : UInt16) {chain : List (Rule F)}
    (h : Drops act chain p) :
    Stays act p (portCommands cluster port) chain ↔
      Drops act (chain.erase (.managed (dropAll none port))) p ∧
      Drops act ((chain.diff ((portSpecs cluster none port).map .managed)).erase
        (.managed (dropAll (some cluster.extIf) port))) p := by
  have hSplit : portCommands cluster port =
      (portSpecs cluster none port).map .delete ++
      (.delete (dropAll (some cluster.extIf) port) ::
        (deleteAccepts cluster (some cluster.extIf) port ++
          (freshSpecs cluster port).map .append)) := rfl
  have hRest : ∀ command ∈ deleteAccepts cluster (some cluster.extIf) port ++
      (freshSpecs cluster port).map .append, command.Harmless := by
    intro command hMem
    rcases List.mem_append.mp hMem with hMem | hMem
    · exact deleteAccepts_harmless _ _ _ command hMem
    · obtain ⟨_, _, rfl⟩ := List.mem_map.mp hMem
      trivial
  have hOld : Stays act p ((portSpecs cluster none port).map .delete) chain ↔
      Drops act (chain.erase (.managed (dropAll none port))) p :=
    ⟨fun stays => stays.2.drops,
      fun hErase => ⟨h, stays_harmless act (deleteAccepts_harmless cluster none port) hErase⟩⟩
  rw [hSplit, stays_append, hOld, execAll_delete]
  refine and_congr_right fun hErase => ⟨fun stays => stays.2.drops, fun hNew => ⟨?_, ?_⟩⟩
  · have := (stays_iff_everywhere act _ chain).mp (hOld.mpr hErase) _ [] (List.append_nil _).symm
    rwa [execAll_delete] at this
  · exact stays_harmless act hRest hNew

theorem verdict_execAll (done : List Command) (chain : List (Rule F)) :
    Drops act (execAll done chain) p ↔
      Drops act (execAll (done.filter fun command => command.spec.dport = p.dport) chain) p := by
  unfold Drops verdict
  rw [(execAll_alike act done (Eq.refl (FirstMatch.relevant _ chain p))).decide]

/-- A run keeps every external packet dropped that the chain drops before it, at every point, if and
only if the chain is safe for a restart. -/
theorem keepsDrops_iff (cluster : Cluster) (chain : List (Rule F)) :
    KeepsDrops X act cluster chain ↔ RestartSafe X act cluster chain := by
  constructor
  · intro keeps p external hDrops
    apply (stays_portCommands act cluster p.dport hDrops).mp
    rw [stays_iff_everywhere]
    intro done rest hSplit
    rw [← filter_commands cluster external.2.2] at hSplit
    obtain ⟨before, after, hCommands, rfl, -⟩ := List.filter_eq_append_iff.mp hSplit
    have reaches := reaches_prefix before after chain
    rw [← hCommands] at reaches
    exact (verdict_execAll act before chain).mp (keeps _ reaches p external hDrops)
  · intro safe point reaches p external hDrops
    obtain ⟨done, rest, hSplit, hChain, -⟩ := reaches.prefix
    have stays := (stays_portCommands act cluster p.dport hDrops).mpr (safe p external hDrops)
    rw [← filter_commands cluster external.2.2, hSplit, List.filter_append] at stays
    rw [hChain, verdict_execAll]
    exact (stays_iff_everywhere act _ chain).mp stays _ _ rfl

/-! ### A restart on the chain of a first run -/

theorem restart_undrops : ¬∀ (F X : Type) [DecidableEq F] (act : F → Packet X → Option Verdict)
    (cluster : Cluster) (chain chain' : List (Rule F)),
    Reaches (commands cluster) chain (.completed, chain') → KeepsDrops X act cluster chain' := by
  intro h
  have keeps := h Unit Unit returnAll exampleCluster [] _ (exampleCluster_run [])
  -- The first run leaves one drop for port 5432, and the restart deletes it before it appends one.
  have reaches := reaches_prefix ((commands exampleCluster).take 5)
    ((commands exampleCluster).drop 5) (execAll (commands exampleCluster) ([] : List (Rule Unit)))
  rw [List.take_append_drop] at reaches
  have hDrops := keeps _ reaches ⟨"eth0", .tcp, 5432, 0x01010101#32, ()⟩ ⟨rfl, rfl, by decide⟩
    (show verdict _ _ _ = _ by decide)
  revert hDrops
  unfold Drops
  decide

end HelloCounter.Deploy
