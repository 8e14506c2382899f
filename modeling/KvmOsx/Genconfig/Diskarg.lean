import KvmOsx.Host.Files
import KvmOsx.Genconfig.Disk

/-!
# `diskarg` (`kvm/lib-hdd.sh` lines 10-36 and 72-131)

The `-drive` operand of a disk: the type set in the machine's config comes first
for network disks, then the files `NAME.raw`, `NAME.qcow2`, `NAME.qed`,
`NAME.vfat` of the machine's disks directory, then a directly named image.

* `diskarg`: the operand, `none` for `err`; `diskargText` is what the emitters read.
* `attaches`: the local file or block device QEMU opens for it.
* `attaches_files`: a disk without network type attaches the first file found.
-/

namespace KvmOsx.Genconfig

open Text Host

/-! ## Operands -/

/-- The image formats. -/
inductive Format
  | raw
  | qcow2
  | qed
  deriving DecidableEq, Repr

/-- The value of `format=`. -/
def Format.text : Format → String
  | .raw => "raw"
  | .qcow2 => "qcow2"
  | .qed => "qed"

/-- `file=FILE,format=FORMAT`, and `,OPTS` if there are options. -/
structure DriveArg where
  file : String
  format : Format
  opts : Option String
  deriving DecidableEq, Repr

/-- The operand as it is echoed. -/
def DriveArg.text (a : DriveArg) : String :=
  "file=" ++ a.file ++ ",format=" ++ a.format.text ++
    match a.opts with
    | none => ""
    | some o => "," ++ o

/-! ## Settings -/

/-- `$kind`; without a `DISK_<name>_TYPE` it is `local`. -/
inductive DiskKind
  | localKind
  | nbd
  | iscsi
  | directRaw
  | directQcow2
  deriving DecidableEq, Repr

/-- The value of `$kind`. -/
def DiskKind.text : DiskKind → String
  | .localKind => "local"
  | .nbd => "nbd"
  | .iscsi => "iscsi"
  | .directRaw => "direct_raw"
  | .directQcow2 => "direct_qcow2"

/-- `case "$DISK_TYPE"` (lib-hdd.sh:88-106). -/
def DiskKind.ofType (diskType : String) : DiskKind :=
  if diskType = "nbd" then .nbd
  else if diskType = "iscsi-tgt" then .iscsi
  else if diskType = "direct-raw" then .directRaw
  else if diskType = "direct-qcow2" then .directQcow2
  else .localKind

/-- `DISK_<name>_TYPE` of a machine, as a kind. -/
def diskKind (e : Env) (name : String) : DiskKind :=
  DiskKind.ofType (e.val ("DISK_" ++ name ++ "_TYPE"))

/-- `$AIO_default`. -/
def aioDefault : String := "io_uring"

/-- `aio=$AIO_default,cache.direct=on,cache=MODE,discard=unmap,detect-zeroes=unmap`. -/
def aioOpts (cache : String) : String :=
  "aio=" ++ aioDefault ++ ",cache.direct=on,cache=" ++ cache ++ ",discard=unmap,detect-zeroes=unmap"

/-- The `RAW_OPTS_*` variables of `hdd_defaults`. -/
def hddDefaults : List (String × String) :=
  [ ("RAW_OPTS_local_default", aioOpts "none"),
    ("RAW_OPTS_local_ahci", "cache=none"),
    ("RAW_OPTS_local_virtio_blk_pci", aioOpts "none"),
    ("RAW_OPTS_local_virtio_scsi_pci", aioOpts "writethrough"),
    ("RAW_OPTS_iscsi_default", aioOpts "writeback"),
    ("RAW_OPTS_iscsi_ahci", aioOpts "writeback"),
    ("RAW_OPTS_iscsi_virtio_blk_pci", aioOpts "writeback"),
    ("RAW_OPTS_iscsi_virtio_scsi_pci", aioOpts "writeback"),
    ("RAW_OPTS_nbd_default_", aioOpts "writeback"),
    ("RAW_OPTS_nbd_virtio_blk_pci", aioOpts "writeback"),
    ("RAW_OPTS_nbd_virtio_scsi_pci", aioOpts "writeback") ]

/-- `$RAW_OPTS`: `${!controller}` with `controller=RAW_OPTS_${kind}_${2:default}`.
    The last part is a substring from `$default`, which is unset, so it is `$2`. -/
def rawOpts (e : Env) (kind : DiskKind) (ctl : String) : String :=
  let controller := "RAW_OPTS_" ++ kind.text ++ "_" ++ ctl
  (hddDefaults.lookup controller).getD (e.val controller)

def qcow2Opts : String := "cache=off,aio=threads,l2-cache-size=60M"

def qedOpts : String :=
  "cache=writethrough,aio=" ++ aioDefault ++ ",discard=on,detect-zeroes=discard,cache.direct=on"

/-! ## The disks directory -/

/-- `$VM_PREFIX/$MACHINE/disks`. -/
def disksPath (machine : String) : String := "/srv/kvm/vms/" ++ machine ++ "/disks"

/-- `$DISKS_PATH/$name.EXT`. -/
def diskFile (machine name ext : String) : String := disksPath machine ++ "/" ++ name ++ "." ++ ext

/-- `$ISCSI_TARGET` of a disk of type `iscsi-tgt` (lib-hdd.sh:97). -/
def iscsiTarget (e : Env) (hostname name : String) : String :=
  e.valOr ("HDD_" ++ name ++ "_ISCSI_TARGET")
    ("iscsi://127.0.0.1/iqn.2001-04.com." ++ hostname ++ "." ++ e.val "MACHINE" ++ ":" ++ name ++ "/1")

/-- `$DISK_<name>`. -/
def diskVar (e : Env) (name : String) : String := e.val ("DISK_" ++ name)

/-! ## The cascade -/

/-- `diskarg NAME CTL`. -/
def diskarg (e : Env) (hostname : String) (fs : Files) (name ctl : String) : Option DriveArg :=
  let kind := diskKind e name
  let opts := rawOpts e kind ctl
  let file := diskFile (e.val "MACHINE") name
  if kind = .nbd then
    some ⟨"nbd:unix:" ++ e.val "MACHINE_VAR" ++ "/" ++ name ++ ".nbd.sock", .raw, none⟩
  else if kind = .iscsi then some ⟨iscsiTarget e hostname name, .raw, some opts⟩
  else if (fs (file "raw")).e then some ⟨file "raw", .raw, some opts⟩
  else if (fs (file "qcow2")).e then some ⟨file "qcow2", .qcow2, some qcow2Opts⟩
  else if (fs (file "qed")).e then some ⟨file "qed", .qed, some qedOpts⟩
  else if (fs (file "vfat")).d then some ⟨"fat:rw:" ++ file "vfat", .raw, none⟩
  else if kind = .directRaw then some ⟨diskVar e name, .raw, some opts⟩
  else if kind = .directQcow2 then some ⟨diskVar e name, .qcow2, some qcow2Opts⟩
  else none

/-- What `diskarg` echoes. -/
def diskargText (e : Env) (hostname : String) (fs : Files) (name ctl : String) : String :=
  match diskarg e hostname fs name ctl with
  | none => "err"
  | some a => a.text

/-- The local file or block device the operand names. -/
def attaches (e : Env) (hostname : String) (fs : Files) (name ctl : String) : Option Storage :=
  (diskarg e hostname fs name ctl).bind fun a => fs.opened a.file

/-! ## Lemmas -/

/-- An operand is never the text `err`, so the emitters attach exactly what
    `diskarg` finds. -/
theorem diskargText_eq_err {e : Env} {hostname : String} {fs : Files} {name ctl : String} :
    diskargText e hostname fs name ctl = "err" ↔ diskarg e hostname fs name ctl = none := by
  unfold diskargText
  cases diskarg e hostname fs name ctl with
  | none => simp
  | some a =>
    have hne : a.text ≠ "err" := by
      intro h
      have hhead := congrArg (fun t => t.toList.head?) h
      simp [DriveArg.text] at hhead
    simp [hne]

theorem opened_diskFile (fs : Files) (machine name ext : String) :
    fs.opened (diskFile machine name ext) = (fs (diskFile machine name ext)).storage := by
  have hslash : localPath (diskFile machine name ext) = some (diskFile machine name ext) :=
    localPath_slash (by simp [diskFile, disksPath])
  rw [Files.opened, hslash]
  rfl

theorem opened_fat (fs : Files) (t : String) : fs.opened ("fat:rw:" ++ t) = none := by
  rw [Files.opened, localPath_fat]
  rfl

theorem opened_nbd (fs : Files) (t : String) : fs.opened ("nbd:unix:" ++ t) = none := by
  rw [Files.opened, localPath_nbd]
  rfl

section Attaches

variable {e : Env} {hostname : String} {fs : Files} {name ctl : String}

/-- The kinds for which the disks directory is looked at. -/
def DiskKind.usesFiles (k : DiskKind) : Prop := k ≠ .nbd ∧ k ≠ .iscsi

theorem attaches_nbd (h : diskKind e name = .nbd) : attaches e hostname fs name ctl = none := by
  have harg : diskarg e hostname fs name ctl =
      some ⟨"nbd:unix:" ++ e.val "MACHINE_VAR" ++ "/" ++ name ++ ".nbd.sock", .raw, none⟩ := by
    simp [diskarg, h]
  rw [attaches, harg]
  simp only [Option.bind_some, String.append_assoc]
  exact opened_nbd fs _

theorem attaches_iscsi (h : diskKind e name = .iscsi) :
    attaches e hostname fs name ctl = fs.opened (iscsiTarget e hostname name) := by
  simp [attaches, diskarg, h]

/-- What a disk without network type attaches: the first file of the disks
    directory, or the image that `DISK_<name>` names. -/
theorem attaches_files (h : (diskKind e name).usesFiles) :
    attaches e hostname fs name ctl =
      let node := fun ext => fs (diskFile (e.val "MACHINE") name ext)
      if (node "raw").e then (node "raw").storage
      else if (node "qcow2").e then (node "qcow2").storage
      else if (node "qed").e then (node "qed").storage
      else if (node "vfat").d ∨ diskKind e name = .localKind then none
      else fs.opened (diskVar e name) := by
  obtain ⟨hnbd, hiscsi⟩ := h
  dsimp only
  rw [attaches, diskarg, if_neg hnbd, if_neg hiscsi]
  split_ifs with hraw hqcow2 hqed hvfat hdr hq <;>
    simp_all [opened_diskFile, opened_fat]
  cases hk : diskKind e name <;> simp_all

theorem diskarg_raw (h : (diskKind e name).usesFiles)
    (hraw : (fs (diskFile (e.val "MACHINE") name "raw")).e = true) :
    diskarg e hostname fs name ctl = some ⟨diskFile (e.val "MACHINE") name "raw", .raw,
      some (rawOpts e (diskKind e name) ctl)⟩ := by
  simp [diskarg, h.1, h.2, hraw]

theorem diskarg_qcow2 (h : (diskKind e name).usesFiles)
    (hraw : (fs (diskFile (e.val "MACHINE") name "raw")).e = false)
    (hqcow2 : (fs (diskFile (e.val "MACHINE") name "qcow2")).e = true) :
    diskarg e hostname fs name ctl =
      some ⟨diskFile (e.val "MACHINE") name "qcow2", .qcow2, some qcow2Opts⟩ := by
  simp [diskarg, h.1, h.2, hraw, hqcow2]

/-- A disk with one of the two image files is attached. -/
theorem diskarg_ne_none (h : (fs (diskFile (e.val "MACHINE") name "raw")).e = true ∨
    (fs (diskFile (e.val "MACHINE") name "qcow2")).e = true) :
    diskarg e hostname fs name ctl ≠ none := by
  unfold diskarg
  dsimp only
  split_ifs <;> simp_all

end Attaches

end KvmOsx.Genconfig
