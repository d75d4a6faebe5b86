import HelloCounter.Library.Reach
import Mathlib

/-! `postgres/replica-entrypoint.sh` on a data volume.  The container may be killed at any point and
started again with either role, and the volume keeps its files between the starts. -/

namespace HelloCounter.Standby

/-- `DB_ROLE`; every value other than `standby` counts as `primary`. -/
inductive Role where
  | primary
  | standby
deriving DecidableEq

/-- A run of `pg_basebackup`, with the files of the primary that it copies. -/
structure Backup where
  number : Nat
  manifest : List String
  hasVersion : "PG_VERSION" ∈ manifest
  noSignal : "standby.signal" ∉ manifest

/-- What made a file. -/
inductive Origin where
  | backup (backup : Backup)
  | initdb
  | script

structure File where
  origin : Origin
  /-- The test `-s`. -/
  nonempty : Bool
  /-- All of the original is in it. -/
  whole : Bool

/-- The contents of `PGDATA`. -/
abbrev Files := String → Option File

namespace Files

/-- `[ -s "${PGDATA}/PG_VERSION" ]`. -/
def versioned (files : Files) : Bool :=
  match files "PG_VERSION" with
  | some file => file.nonempty
  | none => false

/-- `cat >> file`. -/
def append (files : Files) (name : String) : Files :=
  Function.update files name <|
    match files name with
    | some file => some { file with nonempty := true }
    | none => some ⟨.script, true, true⟩

def touch (files : Files) (name : String) : Files :=
  match files name with
  | some _ => files
  | none => Function.update files name (some ⟨.script, false, true⟩)

def Empty (files : Files) : Prop := ∀ name, files name = none

end Files

/-- The command that runs, or the next one to run. -/
inductive Line where
  | guard
  | rm
  | basebackup
  | copying (backup : Backup)
  /-- `pg_basebackup` has failed and removes what it has written. -/
  | cleaning
  | sleep
  | cat
  | touch
  | chown
  | chmod
  | exec
  /-- What `docker-entrypoint.sh` runs in place of the script. -/
  | serving

/-- The commands that do the same on every run: the next one, and the files afterwards. -/
def Line.next (role : Role) (files : Files) : Line → Option (Line × Files)
  | .guard => some (if role = .standby && !files.versioned then .rm else .exec, files)
  | .sleep => some (.basebackup, files)
  | .cat => some (.touch, files.append "postgresql.auto.conf")
  | .touch => some (.chown, files.touch "standby.signal")
  | .chown => some (.chmod, files)
  | .chmod => some (.exec, files)
  | .exec => some (.serving, files)
  | _ => none

structure State where
  files : Files
  /-- The server was promoted on these files. -/
  promoted : Bool
  /-- How many times `pg_basebackup` has started to copy. -/
  backups : Nat
  /-- Nothing while the container is down. -/
  running : Option (Role × Line)

/-- A new volume. -/
def State.new : State := ⟨fun _ => none, false, 0, none⟩

inductive Event where
  | started (role : Role)
  /-- The container was killed, or its main process ended. -/
  | stopped
  /-- A command of the script. -/
  | ran
  /-- Work of `pg_basebackup`. -/
  | copied
  | initialised
  | promoted

/-- One step.  `pg_basebackup` wants an empty directory, writes the files in any order and
`standby.signal` last, and removes files again before it fails; `initdb` wants an empty directory
and may be cut off. -/
inductive Step : State → Event → State → Prop
  | started {s} (role : Role) (down : s.running = none) :
      Step s (.started role) { s with running := some (role, .guard) }
  | stopped {s} : Step s .stopped { s with running := none }
  | ran {s role line line' files} (hAt : s.running = some (role, line))
      (next : line.next role s.files = some (line', files)) :
      Step s .ran { s with files, running := some (role, line') }
  | removed {s role} (name : String) (hAt : s.running = some (role, .rm)) :
      Step s .ran { s with files := Function.update s.files name none }
  | emptied {s role} (hAt : s.running = some (role, .rm)) (empty : s.files.Empty) :
      Step s .ran { s with running := some (role, .basebackup) }
  | refused {s role} (hAt : s.running = some (role, .basebackup)) :
      Step s .copied { s with running := some (role, .sleep) }
  | copying {s role} (backup : Backup) (hAt : s.running = some (role, .basebackup))
      (empty : s.files.Empty) (fresh : backup.number = s.backups) :
      Step s .copied
        { s with backups := s.backups + 1, running := some (role, .copying backup) }
  | wrote {s role backup} (name : String) (nonempty whole : Bool)
      (hAt : s.running = some (role, .copying backup)) (listed : name ∈ backup.manifest)
      (version : name = "PG_VERSION" → whole = true → nonempty = true) :
      Step s .copied
        { s with files := Function.update s.files name (some ⟨.backup backup, nonempty, whole⟩) }
  | completed {s role backup} (hAt : s.running = some (role, .copying backup))
      (all : ∀ name ∈ backup.manifest, ∃ nonempty,
        s.files name = some ⟨.backup backup, nonempty, true⟩) :
      Step s .copied
        { s with
          files := Function.update s.files "standby.signal" (some ⟨.backup backup, false, true⟩)
          promoted := false
          running := some (role, .cat) }
  | aborted {s role backup} (hAt : s.running = some (role, .copying backup)) :
      Step s .copied { s with running := some (role, .cleaning) }
  | cleaned {s role} (name : String) (hAt : s.running = some (role, .cleaning)) :
      Step s .copied { s with files := Function.update s.files name none }
  | failed {s role} (hAt : s.running = some (role, .cleaning)) :
      Step s .copied { s with running := some (role, .sleep) }
  | initialised {s role files} (hAt : s.running = some (role, .serving)) (empty : s.files.Empty)
      (made : ∀ name file, files name = some file → file.origin = .initdb)
      (noSignal : files "standby.signal" = none) :
      Step s .initialised { s with files }
  | promoted {s role} (hAt : s.running = some (role, .serving))
      (signal : s.files "standby.signal" ≠ none) :
      Step s .promoted
        { s with files := Function.update s.files "standby.signal" none, promoted := true }

/-- A complete base backup and `standby.signal`. -/
structure Ready (files : Files) : Prop where
  backup : ∃ backup : Backup, ∀ name ∈ backup.manifest, ∃ nonempty,
    files name = some ⟨.backup backup, nonempty, true⟩
  signal : files "standby.signal" ≠ none

/-- `PG_VERSION` was written by `initdb`. -/
def Initialised (files : Files) : Prop :=
  ∃ file, files "PG_VERSION" = some file ∧ file.origin = .initdb

/-- The lines of the `until` loop. -/
def Line.inLoop : Line → Bool
  | .basebackup | .copying _ | .cleaning | .sleep => true
  | _ => false

/-- The container is not killed in the loop around `pg_basebackup` while `PG_VERSION` has a content,
and a standby is not started on files that `initdb` made or that a server was promoted on. -/
def Careful (s : State) : Event → Prop
  | .stopped => ∀ role line, s.running = some (role, line) → line.inLoop = true →
      s.files.versioned = false
  | .started .standby => s.files.versioned = true → ¬Initialised s.files ∧ s.promoted = false
  | _ => True

end HelloCounter.Standby
