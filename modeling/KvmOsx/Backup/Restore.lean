import KvmOsx.Backup.MachineBackup

/-!
# `restore-blockdev` and `machine-restore`

`restore-blockdev MACHINE DISK` writes the selected snapshot to `disks/DISK.raw`,
whatever the image was. `machine-restore` moves the disks directory away and restores
the disks one after the other.

* `restoreBlockdev_eq`: the newest snapshot of the disk is restored.
* `backup_restore_iff`: which disks come back as they were.
-/

namespace KvmOsx.Backup

open Host Genconfig

section Restore

variable (xz unxz : Bytes → Bytes)

/-- The image `restore-blockdev MACHINE DISK` leaves in `disks/DISK.raw`, if it writes
    one: every line of the query overwrites it. -/
def restoreBlockdev (r : Repo Origin) (machine d : String) : Option Bytes :=
  (r.select machine d).foldl
    (fun _ s => some (unxz ((r.dump (Origin.data xz) s.id s.path).getD []))) none

theorem restoreBlockdev_eq (r : Repo Origin) (machine d : String) :
    restoreBlockdev xz unxz r machine d =
      (r.origins machine d).getLast?.map fun o => unxz (o.data xz) := by
  rw [restoreBlockdev, r.select_eq, Repo.origins, List.getLast?_map]
  cases hlast : (r.disk machine d).getLast? with
  | none => rfl
  | some s =>
    have hs : s ∈ r.snaps := List.mem_of_mem_filter (List.mem_of_getLast? hlast)
    simp [r.dump_self (Origin.data xz) hs]

/-! ## The script -/

/-- The files of the host and the content of its storage. -/
structure Disks where
  files : Files
  content : Storage → Bytes

/-- `> PATH` where no file is. -/
def Disks.write (s : Disks) (p : AbsPath) (data : Bytes) : Disks where
  files := Function.update s.files p.text (.regular p)
  content := Function.update s.content (.image p.text) data

/-- `$target`: `/srv/kvm/vms/$MACHINE/disks/$DISK.raw`. -/
def target (machine d : String) : AbsPath where
  text := diskFile machine d "raw"
  abs := by simp [diskFile, disksPath]

/-- `mv "/srv/kvm/vms/$MACHINE/disks" …`: no file of the directory is left. -/
def moveDisks (machine : String) (s : Disks) : Disks where
  files p := if (disksPath machine ++ "/").toList.isPrefixOf p.toList then .absent else s.files p
  content := s.content

/-- `restore-blockdev $MACHINE $disk || true`. -/
def restoreDisk (r : Repo Origin) (machine : String) (s : Disks) (d : String) : Disks :=
  match restoreBlockdev xz unxz r machine d with
  | none => s
  | some data => s.write (target machine d) data

/-- `machine-restore MACHINE` (lines 18-26). `restore-fs` (line 16) brings back the
    config, and files of the disks directory that are then moved away with it. -/
def machineRestore (r : Repo Origin) (machine : String) (s : Disks) : Disks :=
  disks.foldl (restoreDisk xz unxz r machine) (moveDisks machine s)

theorem diskFile_inj {machine d d' ext : String} :
    diskFile machine d ext = diskFile machine d' ext ↔ d = d' := by
  simp [diskFile]

/-- The image of a disk that has a snapshot. -/
theorem machineRestore_disk {r : Repo Origin} {machine d : String} {data : Bytes}
    (hd : d ∈ disks) (hdata : restoreBlockdev xz unxz r machine d = some data) (s : Disks) :
    (machineRestore xz unxz r machine s).files (diskFile machine d "raw") =
        .regular (target machine d) ∧
      (machineRestore xz unxz r machine s).content (.image (diskFile machine d "raw")) = data := by
  have hread := Keyed.foldl_read (f := restoreDisk xz unxz r machine) (k := d)
    (v := (Node.regular (target machine d), data))
    (fun s => (s.files (diskFile machine d "raw"), s.content (.image (diskFile machine d "raw"))))
    ?_ ?_ hd (moveDisks machine s)
  · exact Prod.mk.inj hread
  · intro s
    simp [restoreDisk, hdata, Disks.write, target]
  · intro s d' hne
    have hfile : diskFile machine d "raw" ≠ diskFile machine d' "raw" := by
      simpa [diskFile_inj] using Ne.symm hne
    unfold restoreDisk
    cases restoreBlockdev xz unxz r machine d' with
    | none => rfl
    | some data => simp [Disks.write, target, Function.update_of_ne, hfile]

/-! ## Backup and restore -/

/-- The newest snapshot behind a run with a good pipeline is that pipeline's. -/
theorem restoreBlockdev_machineBackup (hxz : ∀ data, unxz (xz data) = data) (r : Repo Origin)
    {b : BackupRun} {d : String} {a : Attempt} (ha : a ∈ b.attempts d) (hgood : a.Good) :
    restoreBlockdev xz unxz (machineBackup r b) b.machine d = some a.source := by
  rw [restoreBlockdev_eq, origins_machineBackup, if_pos rfl, b.attempts_unique ha,
    List.map_singleton, List.getLast?_concat, Option.map_some, Origin.data, hgood.delivered_eq, hxz]

/-- The image a drive reads, by what the format makes of its content. -/
def guestView {γ : Type*} (denote : Format → Bytes → γ) (s : Disks) (a : DriveArg) : Option γ :=
  (s.files.opened a.file).map fun S => denote a.format (s.content S)

theorem guestView_diskFile {γ : Type*} (denote : Format → Bytes → γ) {s : Disks}
    {machine d ext : String} {S : Storage} (h : (s.files (diskFile machine d ext)).storage = some S)
    (format : Format) (opts : Option String) :
    guestView denote s ⟨diskFile machine d ext, format, opts⟩ = some (denote format (s.content S)) := by
  rw [guestView, opened_diskFile, h]
  rfl

/-- The drive of a disk is there before and after, in the same format and with the same
    content for the guest. -/
def ComesBack {γ : Type*} (denote : Format → Bytes → γ) (e : Env) (hostname d ctl : String)
    (before after : Disks) : Prop :=
  ∃ a a', diskarg e hostname before.files d ctl = some a ∧
    diskarg e hostname after.files d ctl = some a' ∧
    a'.format = a.format ∧ guestView denote after a' = guestView denote before a

/-- A disk is a local image: `NAME.raw` is a regular file or a logical volume, or there
    is no `NAME.raw` and `NAME.qcow2` is a regular file. -/
def LocalImage (e : Env) (fs : Files) (d : String) : Prop :=
  let node := fun ext => fs (diskFile (e.val "MACHINE") d ext)
  (diskKind e d).usesFiles ∧ (((node "raw").storage ≠ none ∧ (node "raw").foreign = false) ∨
    (node "raw" = .absent ∧ (node "qcow2").f = true))

/-- `$DISKS_PATH/$name.raw` as an operand. -/
def rawArg (e : Env) (d ctl : String) : DriveArg :=
  ⟨diskFile (e.val "MACHINE") d "raw", .raw, some (rawOpts e (diskKind e d) ctl)⟩

/-- The drive behind a restore: `NAME.raw` with what the pipeline read. -/
theorem restored_drive {γ : Type*} (hxz : ∀ data, unxz (xz data) = data)
    (denote : Format → Bytes → γ) (r : Repo Origin) {b : BackupRun} (now : Disks) {d : String}
    (ctl : String) {a : Attempt} (ha : a ∈ b.attempts d) (hgood : a.Good)
    (huses : (diskKind b.env d).usesFiles) :
    let after := machineRestore xz unxz (machineBackup r b) b.machine now
    diskarg b.env b.hostname after.files d ctl = some (rawArg b.env d ctl) ∧
      guestView denote after (rawArg b.env d ctl) = some (denote .raw a.source) := by
  intro after
  have hrestored := restoreBlockdev_machineBackup xz unxz hxz r ha hgood
  obtain ⟨hfile, hcontent⟩ := machineRestore_disk xz unxz (b.mem_disks ha) hrestored now
  have he : (after.files (diskFile b.machine d "raw")).e = true := by
    rw [hfile]
    rfl
  have hstorage : (after.files (diskFile b.machine d "raw")).storage =
      some (.image (diskFile b.machine d "raw")) := by
    rw [hfile]
    rfl
  refine ⟨diskarg_raw huses he, ?_⟩
  rw [← hcontent]
  exact guestView_diskFile denote hstorage _ _

/-- The attached disks of a machine are local images. -/
def LocalImages (b : BackupRun) : Prop :=
  ∀ d ∈ disks, ∀ ctl, diskarg b.env b.hostname b.files d ctl ≠ none → LocalImage b.env b.files d

/-- **A disk comes back from its backup exactly if** its image was `NAME.raw`: a file or
    a logical volume, and not a `NAME.qcow2`. For every content, every earlier state of
    the repository and every state the files are in when they are restored. -/
theorem backup_restore_iff {γ : Type*} (hxz : ∀ data, unxz (xz data) = data)
    (denote : Format → Bytes → γ) (r : Repo Origin) (b : BackupRun) (now : Disks)
    (hlocal : LocalImages b) (hgood : ∀ d, ∀ a ∈ b.attempts d, a.Good) (d ctl : String)
    (hd : b.attempts d ≠ []) :
    ComesBack denote b.env b.hostname d ctl ⟨b.files, b.content⟩
        (machineRestore xz unxz (machineBackup r b) b.machine now) ↔
      (b.files (diskFile b.machine d "raw")).e = true := by
  obtain ⟨a, ha⟩ := List.exists_mem_of_ne_nil _ hd
  obtain ⟨S, hS, hsource⟩ := b.source_eq ha (hgood d a ha)
  obtain ⟨huses, himage⟩ := hlocal d (b.mem_disks ha) ctl (diskarg_ne_none (e_of_savedStorage hS))
  obtain ⟨hafter, hview⟩ := restored_drive xz unxz hxz denote r now ctl ha (hgood d a ha) huses
  rcases himage with ⟨hraw, -⟩ | ⟨hraw, hqcow2⟩
  · have he := Node.e_of_storage hraw
    have hstorage : (b.files (diskFile b.machine d "raw")).storage = some S := by
      rcases savedStorage_iff.mp hS with ⟨h, -⟩ | ⟨h, -⟩
      · exact h
      · exact absurd h hraw
    refine iff_of_true ⟨_, _, diskarg_raw huses he, hafter, rfl, ?_⟩ he
    rw [hview, hsource]
    exact (guestView_diskFile denote (s := ⟨b.files, b.content⟩) hstorage _ _).symm
  · have he : (b.files (diskFile b.machine d "raw")).e = false := congrArg Node.e hraw
    refine iff_of_false ?_ (by simp [he])
    -- the drive was in the format `qcow2`, and is in the format `raw`
    rintro ⟨a₁, a₂, h₁, h₂, hformat, -⟩
    have hqe : (b.files (diskFile b.machine d "qcow2")).e = true := Node.e_of_f hqcow2
    obtain rfl := Option.some.inj ((diskarg_qcow2 huses he hqe).symm.trans h₁)
    obtain rfl := Option.some.inj (hafter.symm.trans h₂)
    cases hformat

end Restore

/-- A machine `mac` whose disk `system` is the file `system.EXT`, backed up without failure. -/
def systemFile (ext : String) : BackupRun where
  env v := [("MACHINE", "mac")].lookup v
  hostname := "kvm1"
  files p :=
    if p = diskFile "mac" "system" ext then
      .regular ⟨diskFile "mac" "system" ext, by simp [diskFile, disksPath]⟩
    else .absent
  content _ := [0x51, 0x46, 0x49, 0xfb]
  tree := []
  outcome _ := .ok "1582000000"

theorem systemFile_local {ext : String} (h : ext = "raw" ∨ ext = "qcow2") :
    LocalImages (systemFile ext) := by
  intro d hd ctl hne
  simp only [disks, List.mem_cons, List.not_mem_nil, or_false] at hd
  rcases h with rfl | rfl
  · rcases hd with rfl | rfl | rfl | rfl | rfl | rfl
    · exact ⟨⟨by decide, by decide⟩, Or.inl ⟨by decide, by decide⟩⟩
    all_goals exact absurd rfl hne
  · rcases hd with rfl | rfl | rfl | rfl | rfl | rfl
    · exact ⟨⟨by decide, by decide⟩, Or.inr ⟨by decide, by decide⟩⟩
    all_goals exact absurd rfl hne

theorem systemFile_good {ext : String} (h : ext = "raw" ∨ ext = "qcow2") (d : String) :
    ∀ a ∈ (systemFile ext).attempts d, a.Good := by
  have hgood : ∀ d ∈ disks, ∀ a ∈ (systemFile ext).attempts d, a.Good := by
    rcases h with rfl | rfl <;> decide
  exact fun a ha => hgood d (BackupRun.mem_disks ha) a ha

/-- An `xz` that only writes the magic bytes in front. -/
def xzMagic (data : Bytes) : Bytes := [0xfd, 0x37, 0x7a, 0x58, 0x5a, 0x00] ++ data

theorem backup_restore_raw_file :
    let b := systemFile "raw"
    ComesBack (fun _ data => data) b.env b.hostname "system" "ahci" ⟨b.files, b.content⟩
      (machineRestore xzMagic (List.drop 6) (machineBackup Repo.empty b) b.machine
        ⟨b.files, fun _ => []⟩) := by
  intro b
  exact (backup_restore_iff xzMagic (List.drop 6) (fun _ => rfl) _ Repo.empty b
    ⟨b.files, fun _ => []⟩ (systemFile_local (Or.inl rfl)) (systemFile_good (Or.inl rfl)) "system"
    "ahci" (by decide)).mpr (by decide)

/-- `system.qcow2` comes back as `system.raw`, and the guest sees the image file itself. -/
theorem backup_restore_fails_for_qcow2 :
    ¬ ∀ (xz unxz : Bytes → Bytes), (∀ data, unxz (xz data) = data) →
      ∀ (denote : Format → Bytes → Bytes) (r : Repo Origin) (b : BackupRun) (now : Disks),
        LocalImages b → (∀ d, ∀ a ∈ b.attempts d, a.Good) → ∀ d ctl, b.attempts d ≠ [] →
          ComesBack denote b.env b.hostname d ctl ⟨b.files, b.content⟩
            (machineRestore xz unxz (machineBackup r b) b.machine now) := by
  intro h
  let b := systemFile "qcow2"
  have hgood : ∀ d, ∀ a ∈ b.attempts d, a.Good := systemFile_good (Or.inr rfl)
  have hne : b.attempts "system" ≠ [] := by decide
  obtain ⟨a, ha⟩ := List.exists_mem_of_ne_nil _ hne
  obtain ⟨a₁, a₂, h₁, h₂, hformat, -⟩ := h xzMagic (List.drop 6) (fun _ => rfl) (fun _ data => data)
    Repo.empty b ⟨b.files, b.content⟩ (systemFile_local (Or.inr rfl)) hgood "system" "ahci" hne
  obtain ⟨hafter, -⟩ := restored_drive xzMagic (List.drop 6) (fun _ => rfl) (fun _ data => data)
    Repo.empty ⟨b.files, b.content⟩ "ahci" ha (hgood "system" a ha) ⟨by decide, by decide⟩
  obtain rfl := Option.some.inj (hafter.symm.trans h₂)
  have hbefore : a₁.format = .qcow2 := by
    obtain rfl := Option.some.inj h₁
    rfl
  rw [hbefore] at hformat
  cases hformat

end KvmOsx.Backup
