import KvmOsx.Genconfig.Diskarg
import KvmOsx.Genconfig.Passthrough
import KvmOsx.Lib.Keyed

/-!
# `machine-list-disks` and the disks a machine attaches

`machine-list-disks` classifies the files of the disks directory a second time, with
other tests than `diskarg`, and prints the lines `machine-backup` works on.

* `listDisks`: the lines; `filter_listDisks`: the ones of one name.
* `backedUp_iff`: the storage that is backed up under a name.
* `attached_backed_up_iff`: when that is the storage the machine writes to.
-/

namespace KvmOsx.Backup

open Text Host Genconfig

/-! ## The script -/

/-- `disks=( … )`. -/
def disks : List String := ["system", "data", "data1", "data2", "data3", "clover"]

/-- The words of a line `echo $vm $d $t $disk`. -/
structure DiskLine where
  vm : String
  disk : String
  type : String
  spec : String
  deriving DecidableEq, Repr

/-- `$path =~ ^/dev/dm-.*`. -/
def isDm (path : String) : Bool := "/dev/dm-".toList.isPrefixOf path.toList

/-- The type and the designation of a disk (lines 25-47), both empty if there is none. -/
def classify (raw qcow2 : Node) (pathRawdisk pathQcowdisk iscsiDisk : String) : String × String :=
  if raw.b && isDm pathRawdisk then
    let infoVg := raw.lvdisplay
    let path := cut ':' 1 infoVg
    let vg := cut ':' 2 infoVg
    ("blockdev-lvm", vg ++ ":" ++ basename path ++ ":" ++ path)
  else if raw.b then ("blockdev-raw", pathRawdisk)
  else if raw.f then ("image-file-raw", pathRawdisk)
  else if qcow2.f || raw.b then ("image-file-qcow2", pathQcowdisk)
  else if raw.b then ("blockdev-qcow2", pathQcowdisk)
  else if iscsiDisk ≠ "" then ("iscsi", iscsiDisk)
  else ("", "")

/-- `backup_disks "$HOST" "$MACHINE_PATH" "$vm" "$d"` (lines 7-52). -/
def backupDisks (e : Env) (hostname : String) (fs : Files) (vm d : String) : Option DiskLine :=
  if e.val "HOST" ≠ "" ∧ e.val "HOST" ≠ hostname then none
  else
    let raw := fs (diskFile vm d "raw")
    let qcow2 := fs (diskFile vm d "qcow2")
    let (t, disk) := classify raw qcow2 (raw.realpath (diskFile vm d "raw"))
      (qcow2.realpath (diskFile vm d "qcow2")) (diskVar e d)
    if disk ≠ "" then some ⟨vm, d, t, disk⟩ else none

/-- `machine-list-disks MACHINE`. -/
def listDisks (e : Env) (hostname : String) (fs : Files) (vm : String) : List DiskLine :=
  disks.filterMap (backupDisks e hostname fs vm)

/-- The `case "$t"` of `machine-backup` has a branch for the type. -/
def DiskLine.saved (l : DiskLine) : Bool :=
  l.type = "blockdev-lvm" || l.type = "image-file-qcow2" || l.type = "image-file-raw"

/-- The storage a line designates. `machine-backup` cuts the volume group and the
    volume out of the last word; without them `lvm-snapshot-lv` refuses. -/
def DiskLine.designated (l : DiskLine) : Option Storage :=
  if l.type = "blockdev-lvm" then
    if cut ':' 1 l.spec = "" ∨ cut ':' 2 l.spec = "" then none
    else some (.lv (cut ':' 1 l.spec) (cut ':' 2 l.spec))
  else if l.type = "image-file-raw" ∨ l.type = "image-file-qcow2" then some (.image l.spec)
  else if l.type = "blockdev-raw" ∨ l.type = "blockdev-qcow2" then some (.device l.spec)
  else none

/-! ## The lines of one name -/

section Listing

variable {e : Env} {hostname : String} {fs : Files} {vm d : String}

theorem backupDisks_disk {l : DiskLine} (h : backupDisks e hostname fs vm d = some l) :
    l.disk = d := by
  unfold backupDisks at h
  split_ifs at h
  dsimp only at h
  split_ifs at h
  rw [← Option.some.inj h]

/-- A name has the line of its own call, and no other. -/
theorem filter_listDisks (d : String) :
    (listDisks e hostname fs vm).filter (fun l => l.disk = d) =
      if d ∈ disks then (backupDisks e hostname fs vm d).toList else [] := by
  have hkey : ∀ d l, backupDisks e hostname fs vm d = some l → l.disk = d := fun d l hl =>
    backupDisks_disk hl
  have hnodup : disks.Nodup := by decide
  exact Keyed.filter_filterMap hkey hnodup d

end Listing

/-! ## What is backed up -/

/-- Exactly one line is printed for the name; it designates `S`, and `machine-backup`
    does not skip it. -/
def BackedUp (lines : List DiskLine) (name : String) (S : Storage) : Prop :=
  ∃ l, lines.filter (fun l => l.disk = name) = [l] ∧ l.designated = some S ∧ l.saved = true

/-- The machine belongs to this host, or to none. -/
def hostOk (e : Env) (hostname : String) : Prop := e.val "HOST" = "" ∨ e.val "HOST" = hostname

theorem isDm_device (lv : Lv) : isDm lv.device = true := by
  simp [isDm, Lv.device]

/-- `vg:lv:path` of a logical volume. -/
def lvSpec (lv : Lv) : String := lv.vg ++ ":" ++ lv.name ++ ":" ++ lv.path

theorem lvSpec_ne (lv : Lv) : lvSpec lv ≠ "" := by
  intro h
  have hlist := congrArg String.toList h
  simp [lvSpec] at hlist

/-- `machine-backup` reads the group and the volume back. -/
theorem designated_lvSpec (vm d : String) (lv : Lv) :
    (DiskLine.mk vm d "blockdev-lvm" (lvSpec lv)).designated = some (.lv lv.vg lv.name) := by
  have hvg : cut ':' 1 (lvSpec lv) = lv.vg :=
    cut_one (v := lv.name ++ ":" ++ lv.path) (by simp [lvSpec]) lv.vg_colon
  have hlv : cut ':' 2 (lvSpec lv) = lv.name :=
    cut_two (w := lv.path) (by simp [lvSpec]) lv.vg_colon lv.name_colon
  simp [DiskLine.designated, hvg, hlv, lv.vg_ne, lv.name_ne]

section Classify

variable {qcow2 : Node} {pathRawdisk pathQcowdisk iscsiDisk : String}

theorem classify_regular (r : AbsPath) :
    classify (.regular r) qcow2 r.text pathQcowdisk iscsiDisk = ("image-file-raw", r.text) := by
  simp [classify, Node.b, Node.f]

theorem classify_lvm (lv : Lv) :
    classify (.lvm lv) qcow2 lv.device pathQcowdisk iscsiDisk = ("blockdev-lvm", lvSpec lv) := by
  simp [classify, Node.b, isDm_device, Node.lvdisplay, lvSpec]

/-- A device-mapper node that is no logical volume is taken for one without a name. -/
theorem classify_blockdev (r : AbsPath) :
    classify (.blockdev r) qcow2 r.text pathQcowdisk iscsiDisk =
      if isDm r.text then ("blockdev-lvm", "::") else ("blockdev-raw", r.text) := by
  by_cases hdm : isDm r.text = true
  · have hcut : ∀ k, cut ':' k "" = "" := fun k => by simp [cut]
    simp [classify, Node.b, hdm, Node.lvdisplay, hcut, basename]
  · simp [classify, Node.b, hdm]

theorem classify_no_raw {raw : Node} (hraw : raw.storage = none) :
    classify raw qcow2 pathRawdisk pathQcowdisk iscsiDisk =
      if qcow2.f then ("image-file-qcow2", pathQcowdisk)
      else if iscsiDisk ≠ "" then ("iscsi", iscsiDisk) else ("", "") := by
  cases raw with
  | absent | directory => simp [classify, Node.b, Node.f]
  | regular | lvm | blockdev => cases hraw

end Classify

/-- A classification yields a line that makes `machine-backup` save `S`. -/
def Saves (vm name : String) (c : String × String) (S : Storage) : Prop :=
  c.2 ≠ "" ∧ (DiskLine.mk vm name c.1 c.2).designated = some S ∧
    (DiskLine.mk vm name c.1 c.2).saved = true

/-- The storage that is saved: that of `NAME.raw` if it is a regular file or a logical
    volume, and that of `NAME.qcow2` if it is a regular file and `NAME.raw` neither
    file nor device. -/
def savedStorage (raw qcow2 : Node) : Option Storage :=
  if raw.foreign then none
  else if raw.f ∨ raw.b then raw.storage
  else if qcow2.f then qcow2.storage
  else none

theorem savedStorage_iff {raw qcow2 : Node} {S : Storage} :
    savedStorage raw qcow2 = some S ↔ (raw.storage = some S ∧ raw.foreign = false) ∨
      (raw.storage = none ∧ qcow2.storage = some S ∧ qcow2.f = true) := by
  cases raw with
  | absent | directory =>
    cases qcow2 <;> simp [savedStorage, Node.foreign, Node.f, Node.b, Node.storage]
  | regular | lvm | blockdev => simp [savedStorage, Node.foreign, Node.f, Node.b, Node.storage]

theorem e_of_savedStorage {raw qcow2 : Node} {S : Storage} (h : savedStorage raw qcow2 = some S) :
    raw.e = true ∨ qcow2.e = true := by
  rcases savedStorage_iff.mp h with ⟨hraw, -⟩ | ⟨-, hqcow2, -⟩
  · exact Or.inl (Node.e_of_storage (by simp [hraw]))
  · exact Or.inr (Node.e_of_storage (by simp [hqcow2]))

theorem saves_classify (vm name : String) (raw qcow2 : Node) (pathRaw pathQcow2 iscsiDisk : String)
    (S : Storage) :
    Saves vm name (classify raw qcow2 (raw.realpath pathRaw) (qcow2.realpath pathQcow2) iscsiDisk) S ↔
      savedStorage raw qcow2 = some S := by
  have hno_raw : raw.storage = none → (Saves vm name
      (classify raw qcow2 (raw.realpath pathRaw) (qcow2.realpath pathQcow2) iscsiDisk) S ↔
        qcow2.f = true ∧ qcow2.storage = some S) := by
    intro hraw
    rw [classify_no_raw hraw]
    cases qcow2 with
    | regular r =>
      simp [Saves, Node.f, Node.realpath, Node.storage, DiskLine.designated, DiskLine.saved,
        r.ne_empty]
    | absent | directory | lvm | blockdev =>
      by_cases hd : iscsiDisk = "" <;> simp [Saves, Node.f, hd, DiskLine.saved]
  cases raw with
  | regular r =>
    rw [Node.realpath, classify_regular]
    simp [Saves, savedStorage, Node.foreign, Node.f, Node.storage, DiskLine.designated,
      DiskLine.saved, r.ne_empty]
  | lvm lv =>
    rw [Node.realpath, classify_lvm, Saves, designated_lvSpec]
    simp [savedStorage, Node.foreign, Node.b, Node.storage, DiskLine.saved, lvSpec_ne]
  | blockdev r =>
    have hcut : cut ':' 1 "::" = "" := by decide
    rw [Node.realpath, classify_blockdev]
    split_ifs <;> simp [Saves, savedStorage, Node.foreign, DiskLine.designated, DiskLine.saved, hcut]
  | absent | directory =>
    rw [hno_raw rfl, savedStorage]
    cases qcow2 <;> simp [Node.foreign, Node.f, Node.b, Node.storage]

/-- What `machine-backup` saves under a name. -/
theorem backedUp_iff {e : Env} {hostname : String} {fs : Files} {vm name : String} {S : Storage}
    (hname : name ∈ disks) (hhost : hostOk e hostname) :
    BackedUp (listDisks e hostname fs vm) name S ↔
      savedStorage (fs (diskFile vm name "raw")) (fs (diskFile vm name "qcow2")) = some S := by
  have hguard : ¬ (e.val "HOST" ≠ "" ∧ e.val "HOST" ≠ hostname) := by
    rcases hhost with h | h <;> simp [h]
  rw [← saves_classify vm name _ _ (diskFile vm name "raw") (diskFile vm name "qcow2") (diskVar e name),
    BackedUp, filter_listDisks, if_pos hname, backupDisks, if_neg hguard, Saves]
  dsimp only
  split_ifs with hspec
  · simp [hspec]
  · simp [hspec]

/-- A line that `machine-backup` saves designates the storage that is to be saved. -/
theorem designated_backupDisks {e : Env} {hostname : String} {fs : Files} {vm d : String}
    {l : DiskLine} {S : Storage} (h : backupDisks e hostname fs vm d = some l)
    (hsaved : l.saved = true) (hS : l.designated = some S) :
    savedStorage (fs (diskFile vm d "raw")) (fs (diskFile vm d "qcow2")) = some S := by
  unfold backupDisks at h
  split_ifs at h
  dsimp only at h
  split_ifs at h with hspec
  obtain rfl := Option.some.inj h
  exact (saves_classify vm d _ _ _ _ (diskVar e d) S).mp ⟨hspec, hS, hsaved⟩

/-! ## The main result -/

/-- The files and settings under which what is attached is also saved. -/
def SavedAsAttached (e : Env) (hostname : String) (fs : Files) (name : String) : Prop :=
  let node := fun ext => fs (diskFile (e.val "MACHINE") name ext)
  match diskKind e name with
  | .nbd => True
  | .iscsi =>
    let target := fs.opened (iscsiTarget e hostname name)
    -- a target that is a path of this host is saved only if it is one of the two files
    target = none ∨ (target = (node "raw").storage ∧ (node "raw").foreign = false) ∨
      ((node "raw").storage = none ∧ target = (node "qcow2").storage ∧ (node "qcow2").f = true)
  | kind =>
    if (node "raw").e then (node "raw").foreign = false
    else if (node "qcow2").e then (node "qcow2").b = false
    else if (node "qed").e then (node "qed").d = true
    else (node "vfat").d = true ∨ kind = .localKind ∨ fs.opened (diskVar e name) = none

/-- The files: the first one that is attached is the one that is saved. -/
theorem files_saved_iff (raw qcow2 qed vfat : Node) (isLocal : Prop) [Decidable isLocal]
    (direct : Option Storage) :
    (∀ S, (if raw.e then raw.storage else if qcow2.e then qcow2.storage
        else if qed.e then qed.storage else if vfat.d ∨ isLocal then none else direct) = some S →
      savedStorage raw qcow2 = some S) ↔
      if raw.e then raw.foreign = false else if qcow2.e then qcow2.b = false
      else if qed.e then qed.d = true else vfat.d = true ∨ isLocal ∨ direct = none := by
  simp only [savedStorage_iff]
  cases raw with
  | regular | lvm | blockdev => simp [Node.e, Node.storage, Node.foreign]
  | directory => simp [Node.e, Node.storage, Node.foreign]
  | absent =>
    cases qcow2 with
    | regular | lvm | blockdev => simp [Node.e, Node.storage, Node.f, Node.b]
    | directory => simp [Node.e, Node.storage, Node.b]
    | absent =>
      cases qed with
      | regular | lvm | blockdev => simp [Node.e, Node.storage, Node.d]
      | directory => simp [Node.e, Node.storage, Node.d]
      | absent =>
        by_cases hv : vfat.d = true ∨ isLocal
        · have hdirect : vfat.d = true ∨ isLocal ∨ direct = none := by tauto
          simp [Node.e, hv, hdirect]
        · obtain ⟨hvfat, hlocal⟩ := not_or.mp hv
          cases direct <;> simp [Node.e, Node.storage, hvfat, hlocal]

/-- **A disk is backed up as it is attached exactly if** `SavedAsAttached` holds: for
    every state of the disks directory and every setting. -/
theorem attached_saved_iff (e : Env) (hostname : String) (fs : Files) (name ctl : String)
    (hname : name ∈ diskNames) (hhost : hostOk e hostname) :
    (∀ S, attaches e hostname fs name ctl = some S →
      BackedUp (listDisks e hostname fs (e.val "MACHINE")) name S) ↔
      SavedAsAttached e hostname fs name := by
  have hdisks : name ∈ disks := by
    revert name
    decide
  simp only [backedUp_iff hdisks hhost]
  unfold SavedAsAttached
  cases hk : diskKind e name with
  | nbd => simp [attaches_nbd hk]
  | iscsi =>
    rw [attaches_iscsi hk]
    simp only [savedStorage_iff]
    cases fs.opened (iscsiTarget e hostname name) with
    | none => simp
    | some S => simp [@eq_comm _ (some S)]
  | localKind | directRaw | directQcow2 =>
    have huses : (diskKind e name).usesFiles := by simp [hk, DiskKind.usesFiles]
    rw [attaches_files huses, hk]
    exact files_saved_iff _ _ _ _ _ _

/-- `/dev/vg0/mac-system`, a logical volume. -/
def macSystem : Lv where
  vg := "vg0"
  name := "mac-system"
  minor := 3
  fields := "3:1:-1:1:209715200"
  vg_ne := by decide
  name_ne := by decide
  vg_colon := by decide
  name_colon := by decide
  name_slash := by decide

theorem attached_saved_lvm :
    let e : Env := fun v => [("MACHINE", "mac")].lookup v
    let fs : Files := fun p => if p = "/srv/kvm/vms/mac/disks/system.raw" then .lvm macSystem else .absent
    BackedUp (listDisks e "kvm1" fs "mac") "system" (.lv "vg0" "mac-system") := by
  intro e fs
  have hsaved : SavedAsAttached e "kvm1" fs "system" := rfl
  exact (attached_saved_iff e "kvm1" fs "system" "virtio_scsi_pci" (by decide) (Or.inl rfl)).mpr
    hsaved _ (by decide)

/-- A disk on a block device outside LVM is listed as `blockdev-raw`, which
    `machine-backup` skips. -/
theorem attached_not_saved_blockdev :
    ¬ ∀ (e : Env) (hostname : String) (fs : Files) (name ctl : String), name ∈ diskNames →
      hostOk e hostname → ∀ S, attaches e hostname fs name ctl = some S →
        BackedUp (listDisks e hostname fs (e.val "MACHINE")) name S := by
  intro h
  let e : Env := fun v => [("MACHINE", "mac")].lookup v
  let fs : Files := fun p =>
    if p = "/srv/kvm/vms/mac/disks/system.raw" then .blockdev ⟨"/dev/sdb", by decide⟩ else .absent
  obtain ⟨l, hl, -, hs⟩ := h e "kvm1" fs "system" "virtio_scsi_pci" (by decide) (Or.inl rfl)
    (.device "/dev/sdb") (by decide)
  have hlines : (listDisks e "kvm1" fs "mac").filter (fun l => l.disk = "system") =
      [⟨"mac", "system", "blockdev-raw", "/dev/sdb"⟩] := by decide
  obtain rfl := List.singleton_inj.mp (hlines.symm.trans hl)
  exact absurd hs (by decide)

end KvmOsx.Backup
