import HelloCounter.Standby.Entrypoint

/-! Histories of starts.  A `PG_VERSION` with a content stands for a complete base backup as long as
no copy is cut off after it, and no standby is started where a primary has been. -/

namespace HelloCounter.Standby

/-- What `PG_VERSION` stands for outside the loop around `pg_basebackup`. -/
def Settled (files : Files) (promoted : Bool) : Prop :=
  files.versioned = true → Initialised files ∨ promoted = true ∨ Ready files

/-- What holds of the files when the script is at a line. -/
def Line.Holds (role : Role) (files : Files) (promoted : Bool) : Line → Prop
  | .guard => Settled files promoted ∧
      (role = .standby → files.versioned = true → Ready files)
  | .rm => files.versioned = false
  | .basebackup | .copying _ | .cleaning | .sleep => True
  | .cat | .touch | .chown | .chmod => Ready files
  | .exec => Settled files promoted ∧ (role = .standby → Ready files)
  | .serving => Settled files promoted

def Inv (s : State) : Prop :=
  match s.running with
  | none => Settled s.files s.promoted
  | some (role, line) => line.Holds role s.files s.promoted

/-! ### Files that the script adds to -/

variable {files files' : Files}

theorem Ready.of_kept (ready : Ready files)
    (kept : ∀ name file, files name = some file → ∃ nonempty,
      files' name = some { file with nonempty }) : Ready files' := by
  obtain ⟨⟨backup, hFiles⟩, hSignal⟩ := ready
  constructor
  · refine ⟨backup, fun name hName => ?_⟩
    obtain ⟨nonempty, hFile⟩ := hFiles name hName
    exact kept name _ hFile
  · obtain ⟨file, hFile⟩ := Option.ne_none_iff_exists'.mp hSignal
    obtain ⟨nonempty, hKept⟩ := kept _ file hFile
    rw [hKept]
    exact Option.some_ne_none _

theorem Ready.append (ready : Ready files) (name : String) : Ready (files.append name) := by
  apply ready.of_kept
  intro other file hFile
  by_cases hOther : other = name
  · subst hOther
    refine ⟨true, ?_⟩
    rw [Files.append, Function.update_self, hFile]
  · refine ⟨file.nonempty, ?_⟩
    rw [Files.append, Function.update_of_ne hOther, hFile]

theorem Ready.touch (ready : Ready files) (name : String) : Ready (files.touch name) := by
  apply ready.of_kept
  intro other file hFile
  refine ⟨file.nonempty, ?_⟩
  cases hName : files name with
  | some _ => simpa only [Files.touch, hName] using hFile
  | none =>
    have hOther : other ≠ name := by
      rintro rfl
      rw [hFile] at hName
      cases hName
    simpa only [Files.touch, hName, Function.update_of_ne hOther] using hFile

theorem Ready.settled (ready : Ready files) (promoted : Bool) : Settled files promoted :=
  fun _ => .inr (.inr ready)

theorem settled_of_not_versioned (h : files.versioned = false) (promoted : Bool) :
    Settled files promoted := by
  intro hVersioned
  rw [h] at hVersioned
  cases hVersioned

theorem versioned_remove (name : String) (h : files.versioned = false) :
    Files.versioned (Function.update files name none) = false := by
  by_cases hName : "PG_VERSION" = name
  · subst hName
    rw [Files.versioned, Function.update_self]
  · rw [Files.versioned, Function.update_of_ne hName]
    exact h

theorem ready_of_copied {backup : Backup}
    (all : ∀ name ∈ backup.manifest, ∃ nonempty,
      files name = some ⟨.backup backup, nonempty, true⟩) :
    Ready (Function.update files "standby.signal" (some ⟨.backup backup, false, true⟩)) := by
  constructor
  · refine ⟨backup, fun name hName => ?_⟩
    have hOther : name ≠ "standby.signal" := by
      rintro rfl
      exact backup.noSignal hName
    rw [Function.update_of_ne hOther]
    exact all name hName
  · rw [Function.update_self]
    exact Option.some_ne_none _

theorem settled_of_made {promoted : Bool}
    (made : ∀ name file, files name = some file → file.origin = .initdb) :
    Settled files promoted := by
  intro hVersioned
  cases hFile : files "PG_VERSION" with
  | none => simp [Files.versioned, hFile] at hVersioned
  | some file => exact .inl ⟨file, hFile, made _ file hFile⟩

/-! ### Steps -/

theorem next_holds {role : Role} {promoted : Bool} {line line' : Line}
    (next : line.next role files = some (line', files')) (h : line.Holds role files promoted) :
    line'.Holds role files' promoted := by
  cases line with
  | guard =>
    cases next
    obtain ⟨hSettled, hReady⟩ := h
    split
    · rename_i hRm
      rw [Bool.and_eq_true, Bool.not_eq_true'] at hRm
      exact hRm.2
    · rename_i hExec
      refine ⟨hSettled, fun hRole => hReady hRole ?_⟩
      simpa [hRole] using hExec
  | sleep => cases next; trivial
  | cat => cases next; exact Ready.append h _
  | touch => cases next; exact Ready.touch h _
  | chown => cases next; exact h
  | chmod => cases next; exact ⟨Ready.settled h promoted, fun _ => h⟩
  | exec => cases next; exact h.1
  | rm | basebackup | copying | cleaning | serving => cases next

/-- When the script is killed outside the loop, the files are settled. -/
theorem settled_of_holds {role : Role} {promoted : Bool} {line : Line}
    (h : line.Holds role files promoted)
    (careful : line.inLoop = true → files.versioned = false) : Settled files promoted := by
  cases line with
  | guard | exec => exact h.1
  | rm => exact settled_of_not_versioned h promoted
  | basebackup | copying | cleaning | sleep => exact settled_of_not_versioned (careful rfl) promoted
  | cat | touch | chown | chmod => exact Ready.settled h promoted
  | serving => exact h

theorem Inv.holds {s : State} (inv : Inv s) {role : Role} {line : Line}
    (hAt : s.running = some (role, line)) : line.Holds role s.files s.promoted := by
  unfold Inv at inv
  rw [hAt] at inv
  exact inv

theorem inv_of_holds {s : State} {role : Role} {line : Line}
    (hAt : s.running = some (role, line)) (h : line.Holds role s.files s.promoted) : Inv s := by
  unfold Inv
  rw [hAt]
  exact h

theorem step_inv (s : State) (event : Event) (s' : State) (step : Step s event s')
    (careful : Careful s event) (inv : Inv s) : Inv s' := by
  cases step with
  | started role down =>
    have hSettled : Settled s.files s.promoted := by
      unfold Inv at inv
      rwa [down] at inv
    refine ⟨hSettled, ?_⟩
    rintro rfl hVersioned
    obtain ⟨hInitdb, hPromoted⟩ := careful hVersioned
    rcases hSettled hVersioned with h | h | h
    · exact absurd h hInitdb
    · rw [hPromoted] at h
      cases h
    · exact h
  | stopped =>
    show Settled s.files s.promoted
    cases hRunning : s.running with
    | none =>
      unfold Inv at inv
      rwa [hRunning] at inv
    | some running =>
      exact settled_of_holds (inv.holds hRunning) (careful running.1 running.2 hRunning)
  | ran hAt next => exact next_holds next (inv.holds hAt)
  | removed name hAt => exact inv_of_holds hAt (versioned_remove name (inv.holds hAt))
  | emptied hAt empty => trivial
  | refused hAt => trivial
  | copying backup hAt empty fresh => trivial
  | wrote name nonempty whole hAt listed version => exact inv_of_holds hAt trivial
  | completed hAt all => exact ready_of_copied all
  | aborted hAt => trivial
  | cleaned name hAt => exact inv_of_holds hAt trivial
  | failed hAt => trivial
  | initialised hAt empty made noSignal => exact inv_of_holds hAt (settled_of_made made)
  | promoted hAt signal => exact inv_of_holds hAt fun _ => .inr (.inl rfl)

/-- In a history of careful steps on a new volume, a standby that reaches the final `exec` has a
complete base backup and `standby.signal`. -/
theorem exec_ready {s : State} (run : Reach.Run Step Careful .new s)
    (hExec : s.running = some (.standby, .exec)) : Ready s.files := by
  have hNew : Inv .new := settled_of_not_versioned rfl false
  exact ((run.inv hNew step_inv).holds hExec).2 rfl

/-! ### A copy that completes, and one that is cut off -/

/-- A backup of two files. -/
def versionBackup : Backup := ⟨0, ["PG_VERSION", "base"], by simp, by simp⟩

theorem standby_ready : ∃ s, Reach.Run Step Careful .new s ∧ s.running = some (.standby, .exec) ∧
    Ready s.files := by
  have run : Reach.Run Step Careful .new .new := .refl
  have run := run.tail ⟨_, .started .standby rfl, fun h => nomatch h⟩
  have run := run.tail ⟨_, .ran rfl rfl, trivial⟩
  have run := run.tail ⟨_, .emptied rfl fun _ => rfl, trivial⟩
  have run := run.tail ⟨_, .copying versionBackup rfl (fun _ => rfl) rfl, trivial⟩
  have run := run.tail
    ⟨_, .wrote "PG_VERSION" true true rfl (by simp [versionBackup]) (by simp), trivial⟩
  have run := run.tail
    ⟨_, .wrote "base" true true rfl (by simp [versionBackup]) (by simp), trivial⟩
  have run := run.tail ⟨_, .completed rfl (by simp [versionBackup]), trivial⟩
  have run := run.tail ⟨_, .ran rfl rfl, trivial⟩
  have run := run.tail ⟨_, .ran rfl rfl, trivial⟩
  have run := run.tail ⟨_, .ran rfl rfl, trivial⟩
  have run := run.tail ⟨_, .ran rfl rfl, trivial⟩
  exact ⟨_, run, rfl, exec_ready run rfl⟩

/-- The container is killed between the two files, and started again. -/
theorem cut_copy_not_ready : ¬∀ s, Reach.Run Step (fun _ _ => True) .new s →
    s.running = some (.standby, .exec) → Ready s.files := by
  intro h
  have run : Reach.Run Step (fun _ _ => True) .new .new := .refl
  have run := run.tail ⟨_, .started .standby rfl, trivial⟩
  have run := run.tail ⟨_, .ran rfl rfl, trivial⟩
  have run := run.tail ⟨_, .emptied rfl fun _ => rfl, trivial⟩
  have run := run.tail ⟨_, .copying versionBackup rfl (fun _ => rfl) rfl, trivial⟩
  have run := run.tail
    ⟨_, .wrote "PG_VERSION" true true rfl (by simp [versionBackup]) (by simp), trivial⟩
  have run := run.tail ⟨_, .stopped, trivial⟩
  have run := run.tail ⟨_, .started .standby rfl, trivial⟩
  have run := run.tail ⟨_, .ran rfl rfl, trivial⟩
  exact (h _ run rfl).signal rfl

end HelloCounter.Standby
