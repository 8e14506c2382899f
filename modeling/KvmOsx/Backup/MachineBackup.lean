import KvmOsx.Backup.ListDisks
import KvmOsx.Backup.Restic

/-!
# `machine-backup`

For every line of `machine-list-disks` with a type it knows, `machine-backup` runs
`dd | xz | restic backup --stdin` on the device; a logical volume is read through a
snapshot that `lvm-snapshot-lv` creates. Then the machine's directory is backed up. No
step looks at the status of another one, and `restic` commits what its input delivers.

* `Attempt`: one run of the pipeline with what failed in it; `Attempt.Good`: nothing did.
* `machineBackup`: one run of the script.
* `disk_machineBackup`: it adds at most one snapshot to a disk.
-/

namespace KvmOsx.Backup

open Text Host Genconfig

/-! ## The pipeline -/

abbrev Bytes := List UInt8

/-- What happens to the steps of one disk: whether `lvcreate` succeeds, whether it
    also activates the snapshot, whether `lvchange -a ay` succeeds, and after how many
    bytes `dd` and `xz` fail, if they do. `date` names the snapshot. -/
structure Outcome where
  lvcreate : Bool
  active : Bool
  lvchange : Bool
  dd : Option ℕ
  xz : Option ℕ
  date : String

/-- No step fails. -/
def Outcome.ok (date : String) : Outcome := ⟨true, true, true, none, none, date⟩

/-- The first `n` bytes, or all. -/
def upTo (n : Option ℕ) (b : Bytes) : Bytes :=
  match n with
  | none => b
  | some n => b.take n

/-- One run of the pipeline: the line it works for, the content of the storage the
    line designates, and what happens to the steps. -/
structure Attempt where
  line : DiskLine
  source : Bytes
  outcome : Outcome

/-- The device `dd` reads is there. `lvm-snapshot-lv` prints the name of the snapshot
    also when it refuses or `lvcreate` fails, since its checks run in a subshell. -/
def Attempt.present (a : Attempt) : Bool :=
  if a.line.type = "blockdev-lvm" then
    a.line.designated ≠ none && a.outcome.lvcreate && (a.outcome.active || a.outcome.lvchange)
  else true

/-- What `dd` writes. -/
def Attempt.read (a : Attempt) : Bytes := if a.present then upTo a.outcome.dd a.source else []

/-- What `xz` writes, which is the data of the snapshot. -/
def Attempt.delivered (xz : Bytes → Bytes) (a : Attempt) : Bytes := upTo a.outcome.xz (xz a.read)

/-- The whole device was read and compressed. -/
def Attempt.Good (a : Attempt) : Prop :=
  a.present = true ∧ a.outcome.dd = none ∧ a.outcome.xz = none

instance (a : Attempt) : Decidable a.Good := inferInstanceAs (Decidable (_ ∧ _ ∧ _))

/-- `$DEV` of `backup-blockdev`. -/
def Attempt.dev (a : Attempt) : String :=
  if a.line.type = "blockdev-lvm" then
    "/dev/" ++ cut ':' 1 a.line.spec ++ "/snap-" ++ cut ':' 2 a.line.spec ++ "-" ++ a.outcome.date
  else a.line.spec

theorem Attempt.Good.delivered_eq {a : Attempt} (h : a.Good) (xz : Bytes → Bytes) :
    a.delivered xz = xz a.source := by
  obtain ⟨hpresent, hdd, hxz⟩ := h
  simp [Attempt.delivered, Attempt.read, upTo, hpresent, hdd, hxz]

/-- What delivers the data of a snapshot: a pipeline, or the files below a path. -/
inductive Origin
  | pipe (a : Attempt)
  | tree (files : Bytes)

/-- The data `restic` records. -/
def Origin.data (xz : Bytes → Bytes) : Origin → Bytes
  | .pipe a => a.delivered xz
  | .tree files => files

/-- `$TAGS` of `backup-blockdev` (line 20). -/
def blockdevTags (vm : String) (a : Attempt) : List Tag :=
  [⟨"bversion", "1"⟩, ⟨"machine", vm⟩, ⟨"disk", a.line.disk⟩, ⟨"path", a.dev⟩,
    ⟨"backup_type", "disk"⟩, ⟨"type", a.line.type⟩]

/-- `$TAGS` of `backup-fs` (line 17), called with `type:config`. -/
def fsTags (vm dev : String) : List Tag :=
  [⟨"bversion", "1"⟩, ⟨"machine", vm⟩, ⟨"path", dev⟩, ⟨"backup_type", "fs"⟩, ⟨"type", "config"⟩]

theorem hasTags_blockdevTags {machine d vm : String} {a : Attempt} :
    hasTags (diskQuery machine d) (blockdevTags vm a) = true ↔ machine = vm ∧ d = a.line.disk := by
  simp [hasTags, diskQuery, blockdevTags]

theorem hasTags_fsTags (machine d vm dev : String) :
    hasTags (diskQuery machine d) (fsTags vm dev) = false := by
  simp [hasTags, diskQuery, fsTags]

theorem pathOk_blockdev (vm : String) (a : Attempt) :
    PathOk (blockdevTags vm a) (diskFile vm a.line.disk "xz") := by
  intro machine d h
  obtain ⟨rfl, rfl⟩ := hasTags_blockdevTags.mp h
  rfl

theorem pathOk_fs (vm dev path : String) : PathOk (fsTags vm dev) path := by
  intro machine d h
  rw [hasTags_fsTags] at h
  cases h

/-- `backup-blockdev` (lines 33-35). -/
def backupBlockdev (vm : String) (a : Attempt) (r : Repo Origin) : Repo Origin :=
  r.commit (diskFile vm a.line.disk "xz") (blockdevTags vm a) (.pipe a) (pathOk_blockdev vm a)

/-- `backup-fs "$vm" "/srv/kvm/vms/$vm"`. -/
def backupFs (vm : String) (files : Bytes) (r : Repo Origin) : Repo Origin :=
  r.commit ("/srv/kvm/vms/" ++ vm) (fsTags vm ("/srv/kvm/vms/" ++ vm)) (.tree files)
    (pathOk_fs vm ("/srv/kvm/vms/" ++ vm) ("/srv/kvm/vms/" ++ vm))

/-! ## The script -/

/-- One run of `machine-backup`: the state of the machine and the host, and what
    happens to the steps of each disk. -/
structure BackupRun where
  env : Env
  hostname : String
  files : Files
  content : Storage → Bytes
  tree : Bytes
  outcome : String → Outcome

/-- `MACHINE`. -/
def BackupRun.machine (b : BackupRun) : String := b.env.val "MACHINE"

/-- The pipeline run for a line, if the `case "$t"` has a branch for its type. -/
def BackupRun.attempt (b : BackupRun) (l : DiskLine) : Option Attempt :=
  if l.saved then some ⟨l, (l.designated.map b.content).getD [], b.outcome l.disk⟩ else none

/-- The body of the loop (lines 13-53). -/
def BackupRun.line (b : BackupRun) (r : Repo Origin) (l : DiskLine) : Repo Origin :=
  backupFs b.machine b.tree (match b.attempt l with
    | some a => backupBlockdev b.machine a r
    | none => r)

/-- The lines of `machine-list-disks "$vm"`. -/
def BackupRun.lines (b : BackupRun) : List DiskLine := listDisks b.env b.hostname b.files b.machine

/-- `machine-backup MACHINE`. -/
def machineBackup (r : Repo Origin) (b : BackupRun) : Repo Origin := b.lines.foldl b.line r

/-- The pipelines one run starts for a disk. -/
def BackupRun.attempts (b : BackupRun) (d : String) : List Attempt :=
  (b.lines.filter fun l => l.disk = d).filterMap b.attempt

/-! ## What a run adds to the repository -/

theorem origins_backupBlockdev (vm : String) (a : Attempt) (r : Repo Origin) (machine d : String) :
    (backupBlockdev vm a r).origins machine d =
      r.origins machine d ++ if machine = vm ∧ d = a.line.disk then [.pipe a] else [] := by
  rw [backupBlockdev, Repo.origins_commit]
  simp only [hasTags_blockdevTags]

theorem origins_backupFs (vm : String) (files : Bytes) (r : Repo Origin) (machine d : String) :
    (backupFs vm files r).origins machine d = r.origins machine d := by
  rw [backupFs, Repo.origins_commit, hasTags_fsTags]
  simp

theorem BackupRun.attempt_line {b : BackupRun} {l : DiskLine} {a : Attempt}
    (h : b.attempt l = some a) : a.line = l := by
  unfold BackupRun.attempt at h
  split_ifs at h
  rw [← Option.some.inj h]

/-- One round of the loop. -/
theorem origins_line (b : BackupRun) (machine d : String) (r : Repo Origin) (l : DiskLine) :
    (b.line r l).origins machine d = r.origins machine d ++
      if machine = b.machine ∧ d = l.disk then (b.attempt l).toList.map .pipe else [] := by
  rw [BackupRun.line, origins_backupFs]
  cases ha : b.attempt l with
  | none => simp
  | some a =>
    dsimp only
    rw [origins_backupBlockdev, b.attempt_line ha]
    simp

/-- A run adds the pipelines it started for the disk. -/
theorem origins_machineBackup (r : Repo Origin) (b : BackupRun) (machine d : String) :
    (machineBackup r b).origins machine d = r.origins machine d ++
      if machine = b.machine then (b.attempts d).map .pipe else [] := by
  have hlog := Keyed.foldl_log (Repo.origins · machine d) (origins_line b machine d) b.lines r
  rw [machineBackup, hlog, BackupRun.attempts]
  congr 1
  induction b.lines with
  | nil => simp
  | cons l ls ih =>
    rw [List.flatMap_cons, ih]
    by_cases hm : machine = b.machine <;> by_cases hd : l.disk = d
    · cases ha : b.attempt l <;> simp [hm, hd, ha]
    · simp [hm, hd, Ne.symm hd]
    · simp [hm]
    · simp [hm]

/-- There is one pipeline for a disk at most. -/
theorem BackupRun.attempts_eq (b : BackupRun) (d : String) :
    b.attempts d = if d ∈ disks then
      ((backupDisks b.env b.hostname b.files b.machine d).bind b.attempt).toList else [] := by
  rw [BackupRun.attempts, BackupRun.lines, filter_listDisks]
  split_ifs with hd
  · cases backupDisks b.env b.hostname b.files b.machine d with
    | none => rfl
    | some l => cases ha : b.attempt l <;> simp [ha]
  · rfl

/-- A run starts one pipeline for a disk at most. -/
theorem BackupRun.attempts_unique {b : BackupRun} {d : String} {a : Attempt}
    (ha : a ∈ b.attempts d) : b.attempts d = [a] := by
  rw [b.attempts_eq] at ha ⊢
  split_ifs at ha ⊢ with hd
  · obtain ho := Option.mem_toList.mp ha
    rw [Option.mem_def.mp ho]
    rfl
  · cases ha

theorem BackupRun.mem_disks {b : BackupRun} {d : String} {a : Attempt} (ha : a ∈ b.attempts d) :
    d ∈ disks := by
  rw [b.attempts_eq] at ha
  by_contra hd
  simp [hd] at ha

/-- The device of a pipeline is there only if its line designates storage. -/
theorem Attempt.designated_of_present {a : Attempt} (hsaved : a.line.saved = true)
    (hpresent : a.present = true) : ∃ S, a.line.designated = some S := by
  by_cases hlvm : a.line.type = "blockdev-lvm"
  · have hne : a.line.designated ≠ none := by
      intro hnone
      simp [Attempt.present, hlvm, hnone] at hpresent
    exact Option.ne_none_iff_exists'.mp hne
  · have himage : a.line.type = "image-file-raw" ∨ a.line.type = "image-file-qcow2" := by
      have htype : a.line.type = "image-file-qcow2" ∨ a.line.type = "image-file-raw" := by
        simpa [DiskLine.saved, hlvm] using hsaved
      exact htype.symm
    exact ⟨_, by rw [DiskLine.designated, if_neg hlvm, if_pos himage]⟩

/-- A good pipeline read the storage that is to be saved. -/
theorem BackupRun.source_eq {b : BackupRun} {d : String} {a : Attempt} (ha : a ∈ b.attempts d)
    (hgood : a.Good) : ∃ S, savedStorage (b.files (diskFile b.machine d "raw"))
      (b.files (diskFile b.machine d "qcow2")) = some S ∧ a.source = b.content S := by
  rw [b.attempts_eq] at ha
  split_ifs at ha with hd
  · obtain ⟨l, hl, hla⟩ := Option.bind_eq_some_iff.mp (Option.mem_toList.mp ha)
    unfold BackupRun.attempt at hla
    split_ifs at hla with hsaved
    obtain rfl := Option.some.inj hla
    obtain ⟨S, hS⟩ := Attempt.designated_of_present hsaved hgood.1
    dsimp only at hS
    refine ⟨S, designated_backupDisks hl hsaved hS, ?_⟩
    rw [hS]
    rfl
  · cases ha

end KvmOsx.Backup
