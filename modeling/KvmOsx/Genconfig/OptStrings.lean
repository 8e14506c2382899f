import KvmOsx.Genconfig.Diskarg
import KvmOsx.Genconfig.DiskLog
import KvmOsx.Genconfig.Fragments
import KvmOsx.Lib.OptString

/-!
# The option strings of a disk

QEMU gets the operands of `-drive` and of the SCSI controller's `-device` as option strings.
The emitters put them together from `$diskarg`, `$conarg` and `$virtarg` without doubling
a comma, `diskarg` appends `,$RAW_OPTS` also when there are none, and `virtioarg` glues
`$BS` to the virtio flags. It looks for the block size in `DISK_$DISK_BLOCKSIZE`, which is
`DISK_` with the value of `DISK_BLOCKSIZE`; `run-iscsi-tgt.sh` exports the disk with the one
in `DISK_<name>_BLOCKSIZE`.

* `OptionsMeant`: the options one `add_disk` appends say what was meant.
* `OptionsSafe`: the condition; `drive_meant_iff` and `controller_meant_iff` are its parts.
* `option_strings_iff`: for every `add_disk` of a run.
-/

namespace KvmOsx.Genconfig

open Script Text OptString
open KvmOsx.Host (Files)

/-! ## Operands -/

/-- An item as it stands in the operand. -/
def Item.text : Item → String
  | .kv k v => k ++ "=" ++ v
  | .raw t => t

/-- The operand of an option. -/
def Opt.operand (o : Opt) : String := ",".intercalate (o.items.map Item.text)

/-- The block size the disk is exported with, if one is configured (run-iscsi-tgt.sh:36-37). -/
def blockSize (e : Env) (name : String) : List (String × String) :=
  let bs := e.val ("DISK_" ++ name ++ "_BLOCKSIZE")
  if bs = "" then [] else [("logical_block_size", bs)]

/-- The flags of a virtio device but the last. -/
def virtioFlags (e : Env) : List (String × String) :=
  if e.val "VIRTIO_MODE" = "modern" then [("disable-legacy", "on"), ("disable-modern", "off")]
  else [("disable-legacy", "off")]

/-- The last one. -/
def lastFlag (e : Env) : String × String :=
  if e.val "VIRTIO_MODE" = "modern" then ("modern-pio-notify", "on") else ("disable-modern", "off")

/-- What a controller begins with behind its driver. -/
def controllerFront (e : Env) (name : String) (g : Gen) : List (String × String) :=
  ("iothread", iothread name) :: (if isMulti e then [] else [("num_queues", "4")]) ++
    [("id", vscsi g.vscsiIndex)]

/-! ## What was meant -/

section Meaning

variable (e : Env) (hostname : String) (fs : Files) (name : String)

/-- The controller argument of the disk's mode. -/
def diskCtl : Option String := (DiskMode.ofText (hddMode e name)).bind DiskMode.controller

/-- The image and format `diskarg` settles on. -/
def image : Option DriveArg := (diskCtl e name).bind (diskarg e hostname fs name)

/-- The pairs name the drive, the image and its format. -/
def DriveMeant (a : DriveArg) (o : Opt) : Prop :=
  ∃ ps, Reads [] (items o.operand.toList) ps ∧ ("id", hdd name) ∈ ps ∧ ("file", a.file) ∈ ps ∧
    ("format", a.format.text) ∈ ps

/-- Behind the driver there are pairs: the controller's own, those of the configuration, the
    virtio flags and, exactly if one is configured, the block size. -/
def ControllerMeant (g : Gen) (o : Opt) : Prop :=
  ∃ is ps, items o.operand.toList = "virtio-scsi-pci".toList :: is ∧
    Reads ["driver"] is (controllerFront e name g ++
      (ps ++ ((virtioFlags e ++ [lastFlag e]) ++ blockSize e name))) ∧
    "logical_block_size" ∉ ps.map Prod.fst

/-- The drives and controllers among some options are as meant. -/
def OptionsMeant (g : Gen) (os : List Opt) : Prop :=
  ∀ o ∈ os, (o.flag = .drive → ∃ a, image e hostname fs name = some a ∧ DriveMeant name a o) ∧
    (isKind .device "virtio-scsi-pci" o → ControllerMeant e name g o)

end Meaning

/-! ## The condition -/

section Condition

variable (e : Env) (fs : Files) (hostname name ctl : String)

/-- One of the four images is in the disks directory. -/
def hasImage : Bool :=
  let node := fun ext => fs (diskFile (e.val "MACHINE") name ext)
  (node "raw").e || (node "qcow2").e || (node "qed").e || (node "vfat").d

/-- The text is a list of pairs that can stand behind `id=…,if=…,file=…,format=…`. -/
def FurtherOpts (t : String) : Prop :=
  ∃ ps, Reads ["format", "file", "if", "id"] (items t.toList) ps

/-- No comma in the disk's name and in its image, and `RAW_OPTS` set where a directly named
    disk needs it. -/
structure DriveSafe : Prop where
  plainName : ',' ∉ name.toList
  nbd : diskKind e name = .nbd → ',' ∉ (e.val "MACHINE_VAR").toList
  iscsi : diskKind e name = .iscsi → ',' ∉ (iscsiTarget e hostname name).toList
  inDir : (diskKind e name).usesFiles → hasImage e fs name → ',' ∉ (e.val "MACHINE").toList
  named : (diskKind e name).usesFiles → hasImage e fs name = false →
    ',' ∉ (diskVar e name).toList
  opts : diskKind e name = .directRaw ∨ diskKind e name = .directQcow2 →
    ((fs (diskFile (e.val "MACHINE") name "raw")).e ∨
      hasImage e fs name = false ∧ diskKind e name = .directRaw) →
    FurtherOpts (e.val ("RAW_OPTS_" ++ (diskKind e name).text ++ "_" ++ ctl))

/-- The keys of a controller besides those of `CONTROLLER_ARG_virtio_scsi_pci`. -/
def controllerKeys : List String :=
  ["driver", "iothread"] ++ (if isMulti e then [] else ["num_queues"]) ++ ["id"] ++
    (virtioFlags e ++ [lastFlag e]).map Prod.fst ++ ["logical_block_size"]

/-- No block size is configured, none found, and no `add_vpci` has left a `BS`. -/
structure ControllerSafe (g : Gen) : Prop where
  conarg : e.val "CONTROLLER_ARG_virtio_scsi_pci" = "" ∨
    ∃ ps, Reads (controllerKeys e) (items (e.val "CONTROLLER_ARG_virtio_scsi_pci").toList) ps
  configured : e.val ("DISK_" ++ name ++ "_BLOCKSIZE") = ""
  found : e.val ("DISK_" ++ e.val "DISK_BLOCKSIZE") = ""
  left : g.bs = ""

/-- The condition on a call of `add_disk` for a disk that can be attached. -/
def OptionsSafe (g : Gen) : Prop :=
  ∀ mode ctl, DiskMode.ofText (hddMode e name) = some mode → mode.controller = some ctl →
    (diskKind e name ≠ .localKind ∨ hasImage e fs name) →
    DriveSafe e fs hostname name ctl ∧
      (mode = .virtioScsi → isMulti e ∨ g.vscsiIndex = 0 → ControllerSafe e name g)

end Condition

/-! ## Drives -/

section Drive

variable {e : Env} {fs : Files} {hostname name ctl : String}

theorem operand_driveOpt (name t : String) : (driveOpt name t).operand.toList =
    kv ("id", hdd name) ++ ',' :: (kv ("if", "none") ++ ',' :: t.toList) := by
  simp [driveOpt, Opt.operand, Item.text, kv, String.intercalate_cons_cons]

theorem text_driveArg (a : DriveArg) : a.text.toList =
    kv ("file", a.file) ++ ',' :: (kv ("format", a.format.text) ++
      match a.opts with
      | none => []
      | some o => ',' :: o.toList) := by
  unfold DriveArg.text
  cases a.opts <;> simp [kv]

theorem format_plain (f : Format) : ',' ∉ f.text.toList := by
  cases f <;> decide

/-- A `-drive` says what was meant exactly if nothing in it has a comma of its own. -/
theorem drive_reads_iff (a : DriveArg) : DriveMeant name a (driveOpt name a.text) ↔
    ',' ∉ name.toList ∧ ',' ∉ a.file.toList ∧ ∀ o, a.opts = some o → FurtherOpts o := by
  have hid : IsKey "id" := by decide
  have hif : IsKey "if" := by decide
  have hfile : IsKey "file" := by decide
  have hformat : IsKey "format" := by decide
  have hname : ',' ∉ (hdd name).toList ↔ ',' ∉ name.toList := by simp [hdd]
  have hnone : ',' ∉ "none".toList := by decide
  have more : ∀ {k : String} (v : String) (r : List Char), IsKey k →
      kv (k, v) ++ r ≠ [] ∧ ¬ Comma (kv (k, v) ++ r) :=
    fun v r hk => ⟨by simp [kv], not_comma_kv hk r⟩
  rw [DriveMeant, operand_driveOpt, text_driveArg]
  constructor
  · rintro ⟨ps, h, hmid, hmfile, hmformat⟩
    obtain ⟨hn, ps₁, rfl, h₁⟩ := (reads_item hid (more _ _ hif) (by simp)).mp ⟨h, hmid⟩
    obtain ⟨-, ps₂, rfl, h₂⟩ := (reads_step hif hnone (more _ _ hfile).2).mp h₁
    have hmfile : ("file", a.file) ∈ ps₂ := by simpa using hmfile
    obtain ⟨hf, ps₃, rfl, h₃⟩ :=
      (reads_item hfile (more _ _ hformat) (by simp)).mp ⟨h₂, hmfile⟩
    refine ⟨hname.mp hn, hf, ?_⟩
    intro o ho
    have hmformat : ("format", a.format.text) ∈ ps₃ := by simpa using hmformat
    rw [ho] at h₃
    obtain ⟨ps₄, -, h₄⟩ := (reads_plain hformat (format_plain _) (by simp)).mp ⟨h₃, hmformat⟩
    exact ⟨ps₄, h₄⟩
  · rintro ⟨hn, hf, ho⟩
    have hlast : ∃ ps, Reads ["file", "if", "id"] (items (kv ("format", a.format.text) ++
        match a.opts with
        | none => []
        | some o => ',' :: o.toList)) ps ∧ ("format", a.format.text) ∈ ps := by
      cases hopts : a.opts with
      | none =>
        have hplain : Plain ([] ++ [("format", a.format.text)]) := by
          intro p hp
          obtain rfl : p = ("format", a.format.text) := by simpa using hp
          exact ⟨hformat, format_plain _⟩
        refine ⟨[("format", a.format.text)], ?_, by simp⟩
        simpa using reads_front hplain (by simp) (by simp)
      | some o =>
        obtain ⟨ps, h⟩ := ho o hopts
        exact ⟨_, (reads_plain hformat (format_plain _) (by simp)).mpr ⟨ps, rfl, h⟩⟩
    obtain ⟨ps, h, hmem⟩ := hlast
    have h1 := (reads_item hfile (more _ _ hformat) (by simp)).mpr ⟨hf, ps, rfl, h⟩
    have h2 := (reads_step hif hnone (more _ _ hfile).2).mpr ⟨by simp, _, rfl, h1.1⟩
    have h3 := (reads_item hid (more _ _ hif) (by simp)).mpr ⟨hname.mpr hn, _, rfl, h2⟩
    exact ⟨_, h3.1, h3.2, by simp, by simp [hmem]⟩

/-- Plain pairs with distinct keys that are not among the first four. -/
theorem furtherOpts_front {t : String} (hs : List (String × String)) (p : String × String)
    (ht : t.toList = front hs (kv p)) (hp : Plain (hs ++ [p]))
    (hnodup : ((hs ++ [p]).map Prod.fst).Nodup)
    (hfresh : ∀ k ∈ (hs ++ [p]).map Prod.fst, k ∉ ["format", "file", "if", "id"]) :
    FurtherOpts t := ⟨hs ++ [p], by rw [ht]; exact reads_front hp hnodup hfresh⟩

theorem furtherOpts_aio {cache : String} (hc : ',' ∉ cache.toList) :
    FurtherOpts (aioOpts cache) := by
  apply furtherOpts_front [("aio", "io_uring"), ("cache.direct", "on"), ("cache", cache),
    ("discard", "unmap")] ("detect-zeroes", "unmap")
  · simp [aioOpts, aioDefault, kv]
  · simp [Plain, IsKey, hc]
  · simp
  · simp

theorem furtherOpts_qcow2 : FurtherOpts qcow2Opts := by
  apply furtherOpts_front [("cache", "off"), ("aio", "threads")] ("l2-cache-size", "60M")
  · simp only [qcow2Opts, front_cons, front_nil, kv]
    simp
  · simp [Plain, IsKey]
  · simp
  · simp

theorem furtherOpts_qed : FurtherOpts qedOpts := by
  have hany : ∀ aio : String, ',' ∉ aio.toList → FurtherOpts ("cache=writethrough,aio=" ++ aio ++
      ",discard=on,detect-zeroes=discard,cache.direct=on") := by
    intro aio haio
    apply furtherOpts_front [("cache", "writethrough"), ("aio", aio), ("discard", "on"),
      ("detect-zeroes", "discard")] ("cache.direct", "on")
    · simp [kv]
    · simp [Plain, IsKey, haio]
    · simp
    · simp
  exact hany aioDefault (by decide)

theorem furtherOpts_cache : FurtherOpts "cache=none" := by
  apply furtherOpts_front [] ("cache", "none")
  · simp [kv]
  · simp [Plain, IsKey]
  · simp
  · simp

/-- The defaults for files and iSCSI targets fit. -/
theorem furtherOpts_defaults {mode : DiskMode} (hm : mode.controller = some ctl)
    {kind : DiskKind} (hk : kind = .localKind ∨ kind = .iscsi) :
    FurtherOpts (rawOpts e kind ctl) := by
  have hnone : ',' ∉ "none".toList := by decide
  have hthrough : ',' ∉ "writethrough".toList := by decide
  have hback : ',' ∉ "writeback".toList := by decide
  rcases hk with rfl | rfl
  · cases mode with
    | virtioPci =>
      obtain rfl := Option.some.inj hm
      exact furtherOpts_aio hnone
    | virtioScsi =>
      obtain rfl := Option.some.inj hm
      exact furtherOpts_aio hthrough
    | ahci =>
      obtain rfl := Option.some.inj hm
      exact furtherOpts_cache
    | virtiofsd => cases hm
  · cases mode with
    | virtiofsd => cases hm
    | _ =>
      obtain rfl := Option.some.inj hm
      exact furtherOpts_aio hback

/-- There are none for directly named disks. -/
theorem rawOpts_direct {mode : DiskMode} (hm : mode.controller = some ctl)
    {kind : DiskKind} (hk : kind = .directRaw ∨ kind = .directQcow2) :
    rawOpts e kind ctl = e.val ("RAW_OPTS_" ++ kind.text ++ "_" ++ ctl) := by
  have hno : hddDefaults.lookup ("RAW_OPTS_" ++ kind.text ++ "_" ++ ctl) = none := by
    have hctl : ctl ∈ ["virtio_blk_pci", "virtio_scsi_pci", "ahci"] := by
      cases mode <;> simp_all [DiskMode.controller]
    simp only [List.mem_cons, List.not_mem_nil, or_false] at hctl
    rcases hk with rfl | rfl <;> rcases hctl with rfl | rfl | rfl <;> decide
  rw [rawOpts, hno]
  rfl

/-- `diskarg` finds no image. -/
theorem diskarg_eq_none : diskarg e hostname fs name ctl = none ↔
    diskKind e name = .localKind ∧ hasImage e fs name = false := by
  unfold diskarg hasImage
  dsimp only
  split_ifs <;> simp_all
  cases hk : diskKind e name <;> simp_all

theorem comma_not_mem_diskFile {machine name ext : String} (hext : ',' ∉ ext.toList) :
    ',' ∉ (diskFile machine name ext).toList ↔ ',' ∉ machine.toList ∧ ',' ∉ name.toList := by
  simp [diskFile, disksPath, hext]

/-- The image's text and its options are safe under the condition on the configuration. -/
theorem driveSafe_iff {mode : DiskMode} (hm : mode.controller = some ctl) {a : DriveArg}
    (ha : diskarg e hostname fs name ctl = some a) :
    (',' ∉ name.toList ∧ ',' ∉ a.file.toList ∧ ∀ o, a.opts = some o → FurtherOpts o) ↔
      DriveSafe e fs hostname name ctl := by
  have hraw : ',' ∉ "raw".toList := by decide
  have hqcow2 : ',' ∉ "qcow2".toList := by decide
  have hqed : ',' ∉ "qed".toList := by decide
  have hvfat : ',' ∉ "vfat".toList := by decide
  unfold diskarg at ha
  dsimp only at ha
  by_cases hk1 : diskKind e name = .nbd
  · rw [if_pos hk1] at ha
    obtain rfl := Option.some.inj ha
    constructor
    · rintro ⟨hn, hf, -⟩
      refine ⟨hn, fun _ => ?_, ?_, ?_, ?_, ?_⟩
      · simp_all
      all_goals simp_all [DiskKind.usesFiles]
    · intro h
      have hmv := h.nbd hk1
      have hn := h.plainName
      refine ⟨hn, ?_, by simp⟩
      simp [hmv, hn]
  rw [if_neg hk1] at ha
  by_cases hk2 : diskKind e name = .iscsi
  · rw [if_pos hk2] at ha
    obtain rfl := Option.some.inj ha
    have hopts : FurtherOpts (rawOpts e (diskKind e name) ctl) :=
      furtherOpts_defaults hm (Or.inr hk2)
    constructor
    · rintro ⟨hn, hf, -⟩
      refine ⟨hn, ?_, fun _ => hf, ?_, ?_, ?_⟩
      all_goals simp_all [DiskKind.usesFiles]
    · intro h
      refine ⟨h.plainName, h.iscsi hk2, ?_⟩
      intro o ho
      obtain rfl := Option.some.inj ho
      exact hopts
  rw [if_neg hk2] at ha
  have huse : (diskKind e name).usesFiles := ⟨hk1, hk2⟩
  -- The options of a raw image: the defaults, or those of a directly named disk.
  have hrawOpts : FurtherOpts (rawOpts e (diskKind e name) ctl) ↔
      (diskKind e name = .directRaw ∨ diskKind e name = .directQcow2 →
        FurtherOpts (e.val ("RAW_OPTS_" ++ (diskKind e name).text ++ "_" ++ ctl))) := by
    by_cases hd : diskKind e name = .directRaw ∨ diskKind e name = .directQcow2
    · rw [rawOpts_direct hm hd]
      exact ⟨fun h _ => h, fun h => h hd⟩
    · have hl : diskKind e name = .localKind := by
        cases hk : diskKind e name <;> simp_all
      exact ⟨fun _ h => absurd h hd, fun _ => furtherOpts_defaults hm (Or.inl hl)⟩
  -- An image in the disks directory.
  have hdir : ∀ {f : String} {opts : Prop}, hasImage e fs name = true →
      (',' ∉ f.toList ↔ ',' ∉ (e.val "MACHINE").toList ∧ ',' ∉ name.toList) →
      (opts ↔ (diskKind e name = .directRaw ∨ diskKind e name = .directQcow2 →
        (fs (diskFile (e.val "MACHINE") name "raw")).e = true →
        FurtherOpts (e.val ("RAW_OPTS_" ++ (diskKind e name).text ++ "_" ++ ctl)))) →
      ((',' ∉ name.toList ∧ ',' ∉ f.toList ∧ opts) ↔ DriveSafe e fs hostname name ctl) := by
    intro f opts himg hf hopts
    constructor
    · rintro ⟨hn, hff, ho⟩
      refine ⟨hn, fun h => absurd h hk1, fun h => absurd h hk2, fun _ _ => (hf.mp hff).1, ?_, ?_⟩
      · intro _ hno
        rw [himg] at hno
        cases hno
      · rintro hd (hr | ⟨hno, -⟩)
        · exact hopts.mp ho hd hr
        · rw [himg] at hno
          cases hno
    · intro h
      exact ⟨h.plainName, hf.mpr ⟨h.inDir huse himg, h.plainName⟩,
        hopts.mpr fun hd hr => h.opts hd (Or.inl hr)⟩
  -- A directly named image.
  have hnamed : ∀ {opts : Prop}, hasImage e fs name = false →
      (opts ↔ (diskKind e name = .directRaw →
        FurtherOpts (e.val ("RAW_OPTS_" ++ (diskKind e name).text ++ "_" ++ ctl)))) →
      ((',' ∉ name.toList ∧ ',' ∉ (diskVar e name).toList ∧ opts) ↔
        DriveSafe e fs hostname name ctl) := by
    intro opts hno hopts
    have hraw : (fs (diskFile (e.val "MACHINE") name "raw")).e = false := by
      simp only [hasImage, Bool.or_eq_false_iff] at hno
      exact hno.1.1.1
    constructor
    · rintro ⟨hn, hf, ho⟩
      refine ⟨hn, fun h => absurd h hk1, fun h => absurd h hk2, ?_, fun _ _ => hf, ?_⟩
      · intro _ himg
        rw [hno] at himg
        cases himg
      · rintro - (hr | ⟨-, hd⟩)
        · rw [hraw] at hr
          cases hr
        · exact hopts.mp ho hd
    · intro h
      exact ⟨h.plainName, h.named huse hno,
        hopts.mpr fun hd => h.opts (Or.inl hd) (Or.inr ⟨hno, hd⟩)⟩
  split_ifs at ha with h1 h2 h3 h4 h5 h6 <;> obtain rfl := Option.some.inj ha
  · apply hdir (by simp [hasImage, h1]) (comma_not_mem_diskFile hraw)
    simpa [h1] using hrawOpts
  · apply hdir (by simp [hasImage, h2]) (comma_not_mem_diskFile hqcow2)
    simp [h1, furtherOpts_qcow2]
  · apply hdir (by simp [hasImage, h3]) (comma_not_mem_diskFile hqed)
    simp [h1, furtherOpts_qed]
  · apply hdir (by simp [hasImage, h4])
    · simpa using comma_not_mem_diskFile hvfat
    · simp [h1]
  · apply hnamed (by simp [hasImage, h1, h2, h3, h4])
    simpa [h5] using hrawOpts
  · apply hnamed (by simp [hasImage, h1, h2, h3, h4])
    simp [h6, furtherOpts_qcow2]

end Drive

/-! ## Controllers -/

/-- What `vpci_template` can leave in `BS`: nothing, or a caller's variable name. -/
def BsLeft (g : Gen) : Prop := g.bs = "" ∨ ∃ v : ResultVar, g.bs = v.name

section Controller

variable {e : Env} {name : String} {g : Gen}

/-- `-device virtio-scsi-pci,…`. -/
def controllerOpt (e : Env) (name : String) (g : Gen) : Opt :=
  ⟨.device, .raw "virtio-scsi-pci" :: ((controllerFront e name g).map fun p => .kv p.1 p.2) ++
    rawItem (e.val "CONTROLLER_ARG_virtio_scsi_pci") ++ rawItem (virtioarg e g)⟩

/-- What `virtioarg` puts behind the flags. -/
def glued (e : Env) (g : Gen) : String :=
  let vblk := e.val ("DISK_" ++ e.val "DISK_BLOCKSIZE")
  if vblk = "" then g.bs else "logical_block_size=" ++ vblk

theorem virtioarg_toList : (virtioarg e g).toList =
    front (virtioFlags e) (kv (lastFlag e) ++ (glued e g).toList) := by
  unfold virtioarg virtioFlags lastFlag glued
  dsimp only
  by_cases hm : e.val "VIRTIO_MODE" = "modern" <;> simp [hm, kv]

theorem virtioarg_ne_empty : virtioarg e g ≠ "" := by
  intro h
  have hlist := congrArg String.toList h
  rw [virtioarg_toList] at hlist
  unfold virtioFlags at hlist
  split_ifs at hlist <;> simp [kv] at hlist

theorem operand_cons {flag : Flag} {i : Item} {is : List Item} (h : is ≠ []) :
    (Opt.mk flag (i :: is)).operand.toList =
      i.text.toList ++ ',' :: (Opt.mk flag is).operand.toList := by
  have hne : is.map Item.text ≠ [] := by simpa using h
  simp [Opt.operand, String.intercalate_cons_of_ne_nil hne]

theorem operand_front {flag : Flag} {is : List Item} (hs : List (String × String)) (h : is ≠ []) :
    (Opt.mk flag ((hs.map fun p => Item.kv p.1 p.2) ++ is)).operand.toList =
      front hs (Opt.mk flag is).operand.toList := by
  induction hs with
  | nil => rfl
  | cons p hs ih =>
    have hne : (hs.map fun p => Item.kv p.1 p.2) ++ is ≠ [] := by simp [h]
    rw [List.map_cons, List.cons_append, operand_cons hne, ih, front_cons]
    simp [Item.text, kv]

/-- `$conarg`, if there is one, and the flags. -/
def controllerTail (e : Env) (g : Gen) : List Char :=
  if e.val "CONTROLLER_ARG_virtio_scsi_pci" = "" then (virtioarg e g).toList
  else (e.val "CONTROLLER_ARG_virtio_scsi_pci").toList ++ ',' :: (virtioarg e g).toList

theorem operand_controllerOpt : (controllerOpt e name g).operand.toList =
    "virtio-scsi-pci".toList ++ ',' :: front (controllerFront e name g) (controllerTail e g) := by
  have hv : rawItem (virtioarg e g) = [.raw (virtioarg e g)] := by
    rw [rawItem, if_neg virtioarg_ne_empty]
  have hlast : ∀ t, (Opt.mk .device [.raw t]).operand = t := by
    intro t
    simp [Opt.operand, Item.text]
  rw [controllerOpt, hv, List.cons_append, List.cons_append, List.append_assoc,
    operand_cons (by simp), operand_front _ (by simp), controllerTail, rawItem]
  by_cases hc : e.val "CONTROLLER_ARG_virtio_scsi_pci" = ""
  · rw [if_pos hc, if_pos hc, List.nil_append, hlast]
    rfl
  · rw [if_neg hc, if_neg hc, List.singleton_append, operand_cons (by simp), hlast]
    rfl

/-! ### The text behind the flags -/

theorem lastFlag_key : IsKey (lastFlag e).1 := by
  unfold lastFlag
  split_ifs <;> decide

theorem lastFlag_plain : ',' ∉ (kv (lastFlag e)) := by
  unfold lastFlag
  split_ifs <;> decide

theorem virtioFlags_plain : Plain (virtioFlags e) := by
  unfold virtioFlags
  split_ifs <;> simp [Plain, IsKey]

theorem controllerFront_plain (hn : ',' ∉ name.toList) : Plain (controllerFront e name g) := by
  have hthread : ',' ∉ (iothread name).toList := by simp [iothread, hn]
  have hid : ',' ∉ (vscsi g.vscsiIndex).toList := by
    have hnum := not_mem_num_of_not_isDigit (x := ',') (by decide) g.vscsiIndex
    simp [vscsi, hnum]
  unfold controllerFront
  split_ifs <;> simp [Plain, IsKey, hthread, hid]

theorem glued_not_comma (hbs : BsLeft g) : ¬ Comma (glued e g).toList := by
  unfold glued
  dsimp only
  split_ifs
  · rcases hbs with h | ⟨v, h⟩
    · simp [h, Comma]
    · rw [h]
      cases v <;> simp [ResultVar.name, Comma]
  · simp [Comma]

theorem glued_eq_nil : (glued e g).toList = [] ↔
    e.val ("DISK_" ++ e.val "DISK_BLOCKSIZE") = "" ∧ g.bs = "" := by
  unfold glued
  dsimp only
  split_ifs with h <;> simp [h]

theorem virtioarg_not_comma : ¬ Comma (virtioarg e g).toList := by
  rw [virtioarg_toList]
  exact not_comma_front virtioFlags_plain (not_comma_kv lastFlag_key _)

/-- The items of the flags: all but the last, and what the last one became. -/
theorem items_virtioarg : items (virtioarg e g).toList =
    (virtioFlags e).map kv ++ items (kv (lastFlag e) ++ (glued e g).toList) := by
  rw [virtioarg_toList]
  exact items_front virtioFlags_plain (not_comma_kv lastFlag_key _)

/-! ### The whole operand -/

/-- The flags. -/
def flags (e : Env) : List (String × String) := virtioFlags e ++ [lastFlag e]

/-- The keys a controller begins with, and the driver's. -/
def frontKeys (e : Env) (name : String) (g : Gen) : List String :=
  (controllerFront e name g).map Prod.fst ++ ["driver"]

theorem flags_keys : (∀ p ∈ flags e, IsKey p.1) ∧ ((flags e).map Prod.fst).Nodup ∧
    "logical_block_size" ∉ (flags e).map Prod.fst := by
  unfold flags virtioFlags lastFlag
  split_ifs <;> simp [IsKey]

theorem front_keys (e : Env) (name : String) (g : Gen) :
    (∀ p ∈ controllerFront e name g, IsKey p.1) ∧
    ((controllerFront e name g).map Prod.fst).Nodup ∧
    ∀ k ∈ (controllerFront e name g).map Prod.fst, k ∉ ["driver"] := by
  unfold controllerFront
  split_ifs <;> simp [IsKey]

theorem flags_fresh : ∀ k ∈ (flags e).map Prod.fst, k ∉ frontKeys e name g := by
  unfold flags virtioFlags lastFlag frontKeys controllerFront
  split_ifs <;> simp

theorem mem_controllerKeys (name : String) (g : Gen) {k : String} : k ∈ controllerKeys e ↔
    k ∈ frontKeys e name g ∨ k ∈ (flags e).map Prod.fst ∨ k = "logical_block_size" := by
  unfold controllerKeys frontKeys controllerFront flags
  split_ifs <;> simp <;> tauto

/-- The pairs behind the controller's own are those of the rest of the operand. -/
theorem controller_meant_tail (hn : ',' ∉ name.toList) :
    ControllerMeant e name g (controllerOpt e name g) ↔
      ∃ ps, Reads (frontKeys e name g) (items (controllerTail e g))
          (ps ++ (flags e ++ blockSize e name)) ∧ "logical_block_size" ∉ ps.map Prod.fst := by
  have hplain : Plain (controllerFront e name g) := controllerFront_plain hn
  have hdriver : ',' ∉ "virtio-scsi-pci".toList := by decide
  have hfront : ∀ r, ¬ Comma (front (controllerFront e name g) r) := fun r =>
    not_comma_kv (hplain _ List.mem_cons_self).1 _
  have hitems : items (controllerOpt e name g).operand.toList =
      "virtio-scsi-pci".toList :: items (front (controllerFront e name g) (controllerTail e g)) := by
    rw [operand_controllerOpt, items_plain_cons hdriver (hfront _)]
  obtain ⟨hk, hnd, hf⟩ := front_keys e name g
  constructor
  · rintro ⟨is, ps, hi, h, hblock⟩
    rw [hitems] at hi
    obtain rfl := (List.cons.inj hi).2
    refine ⟨ps, ?_, hblock⟩
    have hT : ¬ Comma (controllerTail e g) := by
      -- The last of the controller's own pairs is its id, which is followed by the tail.
      generalize hid : ("id", vscsi g.vscsiIndex) = id at *
      obtain ⟨own, hown⟩ : ∃ own, controllerFront e name g = own ++ [id] := ⟨_, by rw [← hid]; rfl⟩
      rw [hown] at h hplain hk hnd hf
      have hpid : IsKey id.1 ∧ ',' ∉ id.2.toList := hplain id (by simp)
      have hpown : Plain own := fun p hp => hplain p (by simp [hp])
      have hcut : front [id] (controllerTail e g) = kv id ++ ',' :: controllerTail e g := rfl
      rw [front_append, hcut, items_front hpown (not_comma_kv hpid.1 _), List.append_assoc] at h
      rw [List.map_append, List.nodup_append] at hnd
      have hrest := (reads_append (fun p hp => hk p (by simp [hp])) hnd.1
        (fun k hk' => hf k (by simp only [List.map_append, List.mem_append, hk', true_or]))).mp h
      have hfresh : id.1 ∉ own.map Prod.fst ++ ["driver"] := by
        intro hmem
        rcases List.mem_append.mp hmem with hmem | hmem
        · exact hnd.2.2 _ hmem _ (by simp) rfl
        · exact hf id.1 (by simp) hmem
      obtain ⟨ps', -, hread⟩ := (reads_plain hpid.1 hpid.2 hfresh).mp ⟨hrest, by simp⟩
      exact not_comma_of_reads hread
    rw [items_front hplain hT] at h
    exact (reads_append hk hnd hf).mp h
  · rintro ⟨ps, h, hblock⟩
    refine ⟨_, ps, hitems, ?_, hblock⟩
    rw [items_front hplain (not_comma_of_reads h)]
    exact (reads_append hk hnd hf).mpr h

/-- Nothing is glued to the flags, and they end the operand. -/
theorem tail_reads_only {is : List (List Char)} {ps : List (String × String)} {avoid : List String}
    (hbs : BsLeft g)
    (h : Reads avoid (is ++ items (kv (lastFlag e) ++ (glued e g).toList))
      (ps ++ (flags e ++ blockSize e name))) :
    (glued e g).toList = [] ∧ blockSize e name = [] := by
  have hmem : lastFlag e ∈ ps ++ (flags e ++ blockSize e name) := by simp [flags]
  have hnil : (glued e g).toList = [] :=
    eq_nil_of_reads lastFlag_key lastFlag_plain (glued_not_comma hbs) h hmem
  refine ⟨hnil, ?_⟩
  rw [hnil, List.append_nil, items_plain lastFlag_plain] at h
  by_contra hne
  obtain ⟨bs, hbs⟩ : ∃ bs, blockSize e name = [("logical_block_size", bs)] := by
    unfold blockSize at hne ⊢
    dsimp only at hne ⊢
    split_ifs at hne ⊢
    · exact absurd rfl hne
    · exact ⟨_, rfl⟩
  -- The last item is the last flag, not the block size.
  have hlast := congrArg List.getLast? h.items
  rw [hbs] at hlast
  have hkv : kv (lastFlag e) = kv ("logical_block_size", bs) := by simpa using hlast
  have hlbs : IsKey "logical_block_size" := by decide
  have hkey := kv_key (p := lastFlag e) lastFlag_key hlbs hkv.symm
  have hno := (flags_keys (e := e)).2.2
  rw [flags, hkey] at hno
  simp at hno

/-- The flags are read as they are and nothing follows them. -/
theorem tail_reads_iff (hbs : BsLeft g) :
    (∃ ps, Reads (frontKeys e name g) (items (controllerTail e g))
      (ps ++ (flags e ++ blockSize e name)) ∧ "logical_block_size" ∉ ps.map Prod.fst) ↔
      ControllerSafe e name g := by
  have hflags : (glued e g).toList = [] →
      items (virtioarg e g).toList = (flags e).map kv := by
    intro hnil
    rw [items_virtioarg, hnil, List.append_nil, items_plain lastFlag_plain, flags]
    simp
  have hblock : blockSize e name = [] ↔ e.val ("DISK_" ++ name ++ "_BLOCKSIZE") = "" := by
    unfold blockSize
    dsimp only
    split_ifs with h <;> simp [h]
  obtain ⟨hk, hnd, hlbs⟩ := flags_keys (e := e)
  by_cases hc : e.val "CONTROLLER_ARG_virtio_scsi_pci" = ""
  · rw [controllerTail, if_pos hc]
    constructor
    · rintro ⟨ps, h, -⟩
      rw [items_virtioarg] at h
      obtain ⟨hnil, hbl⟩ := tail_reads_only hbs h
      obtain ⟨hfound, hleft⟩ := glued_eq_nil.mp hnil
      exact ⟨Or.inl hc, hblock.mp hbl, hfound, hleft⟩
    · intro h
      rw [hflags (glued_eq_nil.mpr ⟨h.found, h.left⟩), hblock.mpr h.configured]
      refine ⟨[], ⟨by simp, ?_, ?_, ?_⟩, by simp⟩
      · simpa using hk
      · simpa using hnd
      · simpa using flags_fresh
  · rw [controllerTail, if_neg hc]
    constructor
    · rintro ⟨ps, h, hps⟩
      have hitems := h.items
      have hdisj := h.nodup
      rw [List.map_append, List.nodup_append] at hdisj
      rcases items_append_cases (e.val "CONTROLLER_ARG_virtio_scsi_pci").toList
        (virtioarg_not_comma (e := e) (g := g)) with hl | ⟨is, i, hd, t, -, hh, ht⟩
      · rw [hl] at hitems
        rw [hl, items_virtioarg, ← List.append_assoc] at h
        obtain ⟨hnil, hbl⟩ := tail_reads_only hbs h
        obtain ⟨hfound, hleft⟩ := glued_eq_nil.mp hnil
        rw [hflags hnil, hbl, List.append_nil, List.map_append] at hitems
        have hconarg := List.append_cancel_right hitems
        refine ⟨Or.inr ⟨ps, hconarg, fun p hp => h.keys p (by simp [hp]), hdisj.1, ?_⟩,
          hblock.mp hbl, hfound, hleft⟩
        intro k hk hmem
        rcases (mem_controllerKeys name g).mp hmem with hmem | hmem | rfl
        · exact h.fresh k (by rw [List.map_append]; exact List.mem_append_left _ hk) hmem
        · exact hdisj.2.2 k hk k (by rw [List.map_append]; exact List.mem_append_left _ hmem) rfl
        · exact hps hk
      · -- The first flag would have ended up in the item across the join.
        exfalso
        obtain ⟨f, fs, hf⟩ : ∃ f fs, virtioFlags e = f :: fs := by
          unfold virtioFlags
          split_ifs <;> exact ⟨_, _, rfl⟩
        rw [items_virtioarg, hf, List.map_cons, List.cons_append] at hh
        obtain ⟨rfl, rfl⟩ := List.cons.inj hh
        have hsplit : is ++ (i ++ ',' :: kv f) ::
            (fs.map kv ++ items (kv (lastFlag e) ++ (glued e g).toList)) =
            (is ++ (i ++ ',' :: kv f) :: fs.map kv) ++
              items (kv (lastFlag e) ++ (glued e g).toList) := by simp
        rw [ht, hsplit] at h
        obtain ⟨hnil, hbl⟩ := tail_reads_only hbs h
        rw [ht, hnil, List.append_nil, items_plain lastFlag_plain, hbl, List.append_nil, flags, hf,
          List.map_append] at hitems
        have htail := (List.append_inj' hitems (by simp)).2
        have hhead : i ++ ',' :: kv f = kv f := (List.cons.inj htail).1
        have hlen := congrArg List.length hhead
        simp only [List.length_append, List.length_cons] at hlen
        omega
    · intro h
      obtain ⟨ps, hps⟩ := h.conarg.resolve_left hc
      have hfresh : ∀ k ∈ ps.map Prod.fst, k ∉ frontKeys e name g ∧
          k ∉ (flags e).map Prod.fst ∧ k ≠ "logical_block_size" := by
        intro k hk
        have hno := hps.fresh k hk
        rw [mem_controllerKeys name g] at hno
        simpa only [not_or] using hno
      refine ⟨ps, ?_, fun hmem => (hfresh _ hmem).2.2 rfl⟩
      rcases items_append_cases (e.val "CONTROLLER_ARG_virtio_scsi_pci").toList
        (virtioarg_not_comma (e := e) (g := g)) with hl | ⟨is, i, hd, t, ha, -, -⟩
      · rw [hl, hflags (glued_eq_nil.mpr ⟨h.found, h.left⟩), hblock.mpr h.configured,
          List.append_nil, hps.items]
        apply (reads_append hps.keys hps.nodup fun k hk => (hfresh k hk).1).mpr
        refine ⟨rfl, hk, hnd, ?_⟩
        intro k hkf hmem
        rcases List.mem_append.mp hmem with hmem | hmem
        · exact (hfresh k hmem).2.1 hkf
        · exact flags_fresh k hkf hmem
      · have hempty : [] ∈ ps.map kv := by
          rw [← hps.items, ha]
          simp
        obtain ⟨p, -, hp⟩ := List.mem_map.mp hempty
        simp [kv] at hp

theorem controller_meant_iff (hn : ',' ∉ name.toList) (hbs : BsLeft g) :
    ControllerMeant e name g (controllerOpt e name g) ↔ ControllerSafe e name g :=
  (controller_meant_tail hn).trans (tail_reads_iff hbs)

end Controller

/-! ## One disk -/

section Disk

variable {e : Env} {hostname : String} {fs : Files} {name : String} {g g' : Gen}

/-- The operand of any drive found is another option's business than a controller's. -/
theorem meant_cons {o : Opt} {os : List Opt} : OptionsMeant e hostname fs name g (o :: os) ↔
    ((o.flag = .drive → ∃ a, image e hostname fs name = some a ∧ DriveMeant name a o) ∧
      (isKind .device "virtio-scsi-pci" o → ControllerMeant e name g o)) ∧
    OptionsMeant e hostname fs name g os := List.forall_mem_cons

theorem meant_nil : OptionsMeant e hostname fs name g [] := fun o ho => by simp at ho

/-- An option that is neither. -/
theorem meant_other {o : Opt} {os : List Opt} (hd : o.flag ≠ .drive)
    (hc : isKind .device "virtio-scsi-pci" o = false) :
    OptionsMeant e hostname fs name g (o :: os) ↔ OptionsMeant e hostname fs name g os := by
  rw [meant_cons]
  simp [hd, hc]

theorem meant_drive {mode : DiskMode} {ctl : String} {a : DriveArg} {os : List Opt}
    (hm : DiskMode.ofText (hddMode e name) = some mode) (hctl : mode.controller = some ctl)
    (ha : diskarg e hostname fs name ctl = some a) :
    OptionsMeant e hostname fs name g (driveOpt name a.text :: os) ↔
      DriveSafe e fs hostname name ctl ∧ OptionsMeant e hostname fs name g os := by
  have himage : image e hostname fs name = some a := by
    simp [image, diskCtl, hm, hctl, ha]
  have hkind : isKind .device "virtio-scsi-pci" (driveOpt name a.text) = false := by
    simp [isKind, driveOpt]
  rw [meant_cons, himage, hkind, ← driveSafe_iff hctl ha, ← drive_reads_iff]
  simp [driveOpt]

theorem meant_controller {os : List Opt} (hn : ',' ∉ name.toList) (hbs : BsLeft g) :
    OptionsMeant e hostname fs name g (controllerOpt e name g :: os) ↔
      ControllerSafe e name g ∧ OptionsMeant e hostname fs name g os := by
  have hkind : isKind .device "virtio-scsi-pci" (controllerOpt e name g) = true := by
    simp [isKind, controllerOpt]
  rw [meant_cons, hkind, controller_meant_iff hn hbs]
  simp [controllerOpt]

/-- The drive and its device, behind what the controller appended. -/
theorem scsiDisk_opts (e : Env) (name arg : String) (g : Gen) : ∃ bus, (scsiDisk e name arg g).qemuOpts =
    g.qemuOpts ++ [driveOpt name arg, ⟨.device, .raw (devicearg e name) :: bus⟩] :=
  ⟨[.kv "bus" g.controller, .kv "lun" (num g.vscsiIndex), .kv "drive" (hdd name),
    .kv "bootindex" (num g.bootindex)], rfl⟩

theorem singleController_opts (name : String) (g : Gen) (h : isMulti e = false) : ∃ thread,
    (singleController e name g).qemuOpts =
      g.qemuOpts ++ [⟨.object, thread⟩, controllerOpt e name g] := by
  refine ⟨[.raw "iothread", .kv "id" (iothread name)], ?_⟩
  simp only [singleController, Gen.addOpts, controllerOpt, controllerFront, h]
  rfl

theorem multiController_opts {gc : Gen} (h : isMulti e = true)
    (hc : multiController e name g = some gc) : ∃ thread,
    gc.qemuOpts = g.qemuOpts ++ [⟨.object, thread⟩, controllerOpt e name g] := by
  obtain ⟨gv, hgv, rfl⟩ := Option.map_eq_some_iff.mp hc
  have hopts : gv.qemuOpts = g.qemuOpts := by rw [(addVpci_spec hgv).2]
  refine ⟨[.raw "iothread", .kv "id" (iothread name), .kv "poll-max-ns" "20",
    .kv "poll-grow" "4", .kv "poll-shrink" "0"], ?_⟩
  simp only [Gen.addOpts, controllerOpt, controllerFront, h, hopts]
  rfl

/-- The options `add_virtio_scsi_disk` appends. -/
theorem scsi_opts {diskarg : String → String → String} {arg : String}
    (harg : diskarg name "virtio_scsi_pci" = arg) (hne : arg ≠ "err")
    (h : addVirtioScsiDisk e diskarg name g = some g') :
    ∃ thread bus, g'.qemuOpts = g.qemuOpts ++
      ((if isMulti e ∨ g.vscsiIndex = 0 then [⟨.object, thread⟩, controllerOpt e name g] else []) ++
      [driveOpt name arg, ⟨.device, .raw (devicearg e name) :: bus⟩]) := by
  unfold addVirtioScsiDisk at h
  dsimp only at h
  rw [harg, if_neg hne] at h
  split_ifs at h with h0 hmulti
  · obtain rfl := Option.some.inj h
    obtain ⟨thread, hthread⟩ := singleController_opts name g h0.2
    obtain ⟨bus, hbus⟩ := scsiDisk_opts e name arg (singleController e name g)
    refine ⟨thread, bus, ?_⟩
    rw [hbus, hthread, if_pos (Or.inr h0.1), List.append_assoc]
  · obtain ⟨gc, hgc, rfl⟩ := Option.map_eq_some_iff.mp h
    obtain ⟨thread, hthread⟩ := multiController_opts hmulti hgc
    obtain ⟨bus, hbus⟩ := scsiDisk_opts e name arg gc
    refine ⟨thread, bus, ?_⟩
    rw [hbus, hthread, if_pos (Or.inl hmulti), List.append_assoc]
  · obtain rfl := Option.some.inj h
    have hno : ¬ (isMulti e = true ∨ g.vscsiIndex = 0) := by
      rintro (hm | hz)
      · exact hmulti hm
      · exact h0 ⟨hz, by simpa using hmulti⟩
    obtain ⟨bus, hbus⟩ := scsiDisk_opts e name arg g
    refine ⟨[], bus, ?_⟩
    rw [hbus, if_neg hno, List.nil_append]

theorem devicearg_ne (e : Env) (name : String) : devicearg e name ≠ "virtio-scsi-pci" := by
  unfold devicearg
  dsimp only
  split_ifs <;> decide

/-- One `add_disk`: the options it appends say what was meant exactly under the condition. -/
theorem addDisk_options (hbs : BsLeft g)
    (h : addDisk e (diskargText e hostname fs) g name = some g') :
    ∃ os, g'.qemuOpts = g.qemuOpts ++ os ∧
      (OptionsMeant e hostname fs name g os ↔ OptionsSafe e fs hostname name g) := by
  obtain ⟨mode, hmode, hg⟩ := Option.bind_eq_some_iff.mp h
  -- A disk that is not found, and a shared directory.
  have none_of : (∀ ctl, mode.controller = some ctl → diskarg e hostname fs name ctl = none) →
      OptionsSafe e fs hostname name g := by
    intro hno mode' ctl hm' hctl hfound
    obtain rfl := Option.some.inj (hmode.symm.trans hm')
    have hnone := diskarg_eq_none.mp (hno ctl hctl)
    rcases hfound with hk | himg
    · exact absurd hnone.1 hk
    · rw [hnone.2] at himg
      cases himg
  have safe_iff : ∀ ctl, mode.controller = some ctl → diskarg e hostname fs name ctl ≠ none →
      (OptionsSafe e fs hostname name g ↔ DriveSafe e fs hostname name ctl ∧
        (mode = .virtioScsi → isMulti e ∨ g.vscsiIndex = 0 → ControllerSafe e name g)) := by
    intro ctl hctl hfound
    have hfound' : diskKind e name ≠ .localKind ∨ hasImage e fs name = true := by
      by_contra hno
      rw [not_or, not_not, Bool.not_eq_true] at hno
      exact hfound (diskarg_eq_none.mpr hno)
    constructor
    · intro hs
      exact hs mode ctl hmode hctl hfound'
    · intro hs mode' ctl' hm' hctl' _
      obtain rfl := Option.some.inj (hmode.symm.trans hm')
      obtain rfl := Option.some.inj (hctl.symm.trans hctl')
      exact hs
  -- The operand the emitter reads, for a disk that is found.
  have text_of : ∀ {ctl a}, diskarg e hostname fs name ctl = some a →
      diskargText e hostname fs name ctl = a.text ∧ a.text ≠ "err" := by
    intro ctl a ha
    have htext : diskargText e hostname fs name ctl = a.text := by
      rw [diskargText, ha]
    refine ⟨htext, ?_⟩
    rw [← htext, ne_eq, diskargText_eq_err, ha]
    exact Option.some_ne_none a
  cases mode with
  | virtiofsd =>
    obtain rfl := Option.some.inj hg
    refine ⟨_, rfl, iff_of_true ?_ (none_of fun ctl hctl => by cases hctl)⟩
    rw [meant_other (by simp) (by simp [isKind]), meant_other (by simp) (by simp [isKind])]
    exact meant_nil
  | virtioPci =>
    obtain rfl := Option.some.inj hg
    cases ha : diskarg e hostname fs name "virtio_blk_pci" with
    | none =>
      have herr := diskargText_eq_err.mpr ha
      refine ⟨[], by simp [addVirtioPciDisk, herr], iff_of_true meant_nil (none_of ?_)⟩
      intro ctl hctl
      obtain rfl := Option.some.inj hctl
      exact ha
    | some a =>
      obtain ⟨htext, hne⟩ := text_of ha
      rw [safe_iff _ rfl (by rw [ha]; simp), addVirtioPciDisk]
      dsimp only
      rw [htext, if_neg hne]
      refine ⟨_, rfl, ?_⟩
      rw [meant_other (by simp) (by simp [isKind]), meant_other (by simp) (by simp [isKind]),
        meant_drive hmode rfl ha]
      simp [meant_nil]
  | ahci =>
    obtain rfl := Option.some.inj hg
    cases ha : diskarg e hostname fs name "ahci" with
    | none =>
      have herr := diskargText_eq_err.mpr ha
      refine ⟨[], by simp [addAhciDisk, herr], iff_of_true meant_nil (none_of ?_)⟩
      intro ctl hctl
      obtain rfl := Option.some.inj hctl
      exact ha
    | some a =>
      obtain ⟨htext, hne⟩ := text_of ha
      rw [safe_iff _ rfl (by rw [ha]; simp), addAhciDisk]
      dsimp only
      rw [htext, if_neg hne]
      refine ⟨_, rfl, ?_⟩
      rw [meant_other (by simp) (by simp [isKind]), meant_drive hmode rfl ha]
      simp [meant_nil]
  | virtioScsi =>
    cases ha : diskarg e hostname fs name "virtio_scsi_pci" with
    | none =>
      have herr := diskargText_eq_err.mpr ha
      have hsame : addVirtioScsiDisk e (diskargText e hostname fs) name g = some g := by
        rw [addVirtioScsiDisk]
        simp [herr]
      obtain rfl : g = g' := Option.some.inj (hsame.symm.trans hg)
      refine ⟨[], by simp, iff_of_true meant_nil (none_of ?_)⟩
      intro ctl hctl
      obtain rfl := Option.some.inj hctl
      exact ha
    | some a =>
      obtain ⟨htext, hne⟩ := text_of ha
      obtain ⟨thread, bus, hopts⟩ := scsi_opts htext hne hg
      have hdisk : isKind .device "virtio-scsi-pci" ⟨.device, .raw (devicearg e name) :: bus⟩ =
          false := by
        simp [isKind, devicearg_ne]
      have hdrive : OptionsMeant e hostname fs name g
          [driveOpt name a.text, ⟨.device, .raw (devicearg e name) :: bus⟩] ↔
            DriveSafe e fs hostname name "virtio_scsi_pci" := by
        rw [meant_drive hmode rfl ha, meant_other (by simp) hdisk]
        simp [meant_nil]
      refine ⟨_, hopts, ?_⟩
      rw [safe_iff _ rfl (by rw [ha]; simp)]
      by_cases hcreate : isMulti e = true ∨ g.vscsiIndex = 0
      · rw [if_pos hcreate, List.cons_append, meant_other (by simp) (by simp [isKind]),
          List.cons_append, List.nil_append]
        constructor
        · intro hm
          have hd := hdrive.mp (meant_cons.mp hm).2
          exact ⟨hd, fun _ _ => ((meant_controller hd.plainName hbs).mp hm).1⟩
        · rintro ⟨hd, hc⟩
          exact (meant_controller hd.plainName hbs).mpr ⟨hc rfl hcreate, hdrive.mpr hd⟩
      · rw [if_neg hcreate, List.nil_append, hdrive]
        exact ⟨fun hd => ⟨hd, fun _ hc => absurd hc hcreate⟩, And.left⟩

end Disk

/-! ## The states of a run -/

section Run

variable {e : Env} {g g' : Gen}

theorem BsLeft.addVpci {v : ResultVar} {port : String} (h : addVpci e v port g = some g') :
    BsLeft g' := by
  obtain ⟨-, rfl⟩ := addVpci_spec h
  exact Or.inr ⟨v, rfl⟩

theorem BsLeft.congr (h : BsLeft g) (hb : g'.bs = g.bs) : BsLeft g' := by
  unfold BsLeft
  rw [hb]
  exact h

theorem BsLeft.sourceLibPci (h : BsLeft g) : BsLeft (sourceLibPci g) := by
  obtain ⟨n, hn⟩ := (sourceLibPci_spec g).2
  apply h.congr
  rw [hn]

theorem usbOnPort_bs {pci addr : String} (hu : usbOnPort e pci addr g = some g') : BsLeft g' := by
  obtain ⟨gv, hgv, rfl⟩ := Option.map_eq_some_iff.mp hu
  exact (BsLeft.addVpci hgv).congr rfl

/-- The further controllers of `usb-pt.sh`. -/
theorem usbMore_bs {pci addr : String} (h : BsLeft g)
    (hu : (if pci = "" then some g
      else (usbOnPort e pci addr g).map (·.queueBind [fn0 pci])) = some g') : BsLeft g' := by
  split_ifs at hu
  · exact h.congr (by rw [Option.some.inj hu])
  · obtain ⟨gv, hgv, rfl⟩ := Option.map_eq_some_iff.mp hu
    exact (usbOnPort_bs hgv).congr rfl

theorem usbPtPc_bs (h : BsLeft g) : BsLeft (usbPtPc e g) := by
  unfold usbPtPc
  generalize pciPtDevs e = devs
  induction devs generalizing g with
  | nil => exact h
  | cons dev devs ih => exact ih (h.congr rfl)

theorem sourceUsb_bs {h : Host} (hbs : BsLeft g) (hu : sourceUsb e h g = some g') :
    BsLeft g' := by
  unfold sourceUsb usb at hu
  split_ifs at hu
  · unfold usbPt at hu
    obtain ⟨g₁, h₁, hu⟩ := Option.bind_eq_some_iff.mp hu
    obtain ⟨g₂, h₂, hu⟩ := Option.bind_eq_some_iff.mp hu
    obtain ⟨g₃, h₃, hu⟩ := Option.bind_eq_some_iff.mp hu
    rw [checkLspci_eq hu]
    exact usbMore_bs (usbMore_bs (usbOnPort_bs h₁) h₂) h₃
  · obtain rfl := Option.some.inj hu
    exact usbPtPc_bs hbs
  · exact hbs.congr (by rw [Option.some.inj hu])
  · obtain rfl := Option.some.inj hu
    exact hbs.congr rfl
  · exact hbs.congr (by rw [Option.some.inj hu])

theorem addVgpu_bs {vnc port : String} (hv : addVgpu vnc port g = some g') : g'.bs = g.bs := by
  unfold addVgpu at hv
  split_ifs at hv
  · rw [Option.some.inj hv]
  · obtain rfl := Option.some.inj hv
    rfl

theorem sourceGfx_bs {h : BootHost} (hbs : BsLeft g) (hg : sourceGfx e h g = some g') :
    BsLeft g' := by
  apply hbs.congr
  obtain ⟨mode, -, hg⟩ := Option.bind_eq_some_iff.mp hg
  dsimp only at hg
  have hlib : (if mode.sourcesLib then g.addOpts (libGfxOpts e h.toHost) else g).bs = g.bs := by
    split_ifs <;> rfl
  generalize (if mode.sourcesLib then g.addOpts (libGfxOpts e h.toHost) else g) = gl at hg hlib
  rw [← hlib]
  cases mode with
  | kvmgt =>
    obtain ⟨uuid, -, rfl⟩ := Option.map_eq_some_iff.mp hg
    rfl
  | ptI440 =>
    have heq := checkLspci_eq hg
    rw [heq]
    rfl
  | pt =>
    unfold gfxPt at hg
    dsimp only at hg
    split_ifs at hg <;> exact (addVgpu_bs hg).trans rfl
  | qxl | std | uni => exact addVgpu_bs hg
  | qxlSpice | virtioSpice =>
    obtain rfl := Option.some.inj hg
    rfl
  | off | vmware => rw [Option.some.inj hg]

theorem addDisk_bs {diskarg : String → String → String} {name : String} (hbs : BsLeft g)
    (h : addDisk e diskarg g name = some g') : BsLeft g' := by
  obtain ⟨mode, -, hg⟩ := Option.bind_eq_some_iff.mp h
  cases mode with
  | virtioPci =>
    obtain rfl := Option.some.inj hg
    apply hbs.congr
    simp only [addVirtioPciDisk]
    split_ifs <;> rfl
  | ahci =>
    obtain rfl := Option.some.inj hg
    apply hbs.congr
    simp only [addAhciDisk]
    split_ifs <;> rfl
  | virtiofsd =>
    obtain rfl := Option.some.inj hg
    exact hbs.congr rfl
  | virtioScsi =>
    simp only [addModeDisk, addVirtioScsiDisk] at hg
    split_ifs at hg
    · exact hbs.congr (by rw [Option.some.inj hg])
    · obtain rfl := Option.some.inj hg
      exact hbs.congr rfl
    · obtain ⟨gc, hgc, rfl⟩ := Option.map_eq_some_iff.mp hg
      obtain ⟨gv, hgv, rfl⟩ := Option.map_eq_some_iff.mp hgc
      exact (BsLeft.addVpci hgv).congr rfl
    · obtain rfl := Option.some.inj hg
      exact hbs.congr rfl

end Run

/-- The state of a run of `genconfig.sh` when some disks have been added: `hdd-uni.sh` is
    sourced behind the USB and graphics fragments. -/
def AfterDisks (os : CommonOs) (configured : List String) (e : Env) (h : BootHost)
    (names : List String) (g : Gen) : Prop :=
  ∃ gu gg, sourceUsb (os.env e) h.toHost (os.start (os.env e) configured) = some gu ∧
    sourceGfx (os.env e) h gu = some gg ∧
    Runs.run (addDisk (os.env e) h.diskarg) names (sourceLibPci gg) = some g

theorem AfterDisks.bsLeft {os : CommonOs} {configured : List String} {e : Env} {h : BootHost}
    {names : List String} {g : Gen} (hg : AfterDisks os configured e h names g) : BsLeft g := by
  obtain ⟨gu, gg, hu, hgg, hrun⟩ := hg
  have hstart : BsLeft (os.start (os.env e) configured) := Or.inl rfl
  have hgfx : BsLeft gg := sourceGfx_bs (sourceUsb_bs hstart hu) hgg
  have hkeep : ∀ g name g', BsLeft g → addDisk (os.env e) h.diskarg g name = some g' →
      BsLeft g' := fun _ _ _ hs hstep => addDisk_bs hs hstep
  exact Runs.run_invariant hgfx.sourceLibPci hkeep hrun

/-- In every run, whatever disks were added before: the options one more `add_disk` appends
    say what was meant exactly under the condition. -/
theorem option_strings_iff {os : CommonOs} {configured : List String} {e : Env} {h : BootHost}
    {hostname : String} {fs : Files} {names : List String} {name : String} {g g' : Gen}
    (hd : h.diskarg = diskargText (os.env e) hostname fs)
    (hg : AfterDisks os configured e h names g)
    (hadd : addDisk (os.env e) h.diskarg g name = some g') :
    OptionsMeant (os.env e) hostname fs name g (g'.qemuOpts.drop g.qemuOpts.length) ↔
      OptionsSafe (os.env e) fs hostname name g := by
  rw [hd] at hadd
  obtain ⟨new, hnew, hiff⟩ := addDisk_options hg.bsLeft hadd
  rw [hnew, List.drop_left]
  exact hiff

/-- A machine with one iSCSI disk whose blocks have 4096 bytes. -/
def blockMachine : Env := fun v =>
  [("MACHINE", "m"), ("USB_MODE", "virt"), ("GFX_MODE", "none"), ("HDD_MODE", "virtio_scsi"),
    ("DISK_system", "/dev/system"), ("DISK_system_TYPE", "iscsi-tgt"),
    ("DISK_system_BLOCKSIZE", "4096")].lookup v

/-- The variables of its run. -/
def blockEnv : Env := (CommonOs.pool .linux).env blockMachine

/-- Its host, without any image file. -/
def blockHost : BootHost where
  virtfn _ := none
  diskarg := diskargText blockEnv "host" fun _ => .absent
  lspci _ := true
  rom _ := ""
  pci _ := false
  mdev := none

/-- The state in front of its first disk. -/
def blockStart : Gen := sourceLibPci ((CommonOs.pool .linux).start blockEnv [])

theorem blockStart_after : AfterDisks (.pool .linux) [] blockMachine blockHost [] blockStart := by
  refine ⟨(CommonOs.pool .linux).start blockEnv [], (CommonOs.pool .linux).start blockEnv [],
    ?_, ?_, rfl⟩
  · rfl
  · rfl

theorem block_mode : DiskMode.ofText (hddMode blockEnv "system") = some .virtioScsi := by decide

theorem block_found : diskKind blockEnv "system" ≠ .localKind := by decide

theorem block_addDisk : ∃ g', addDisk blockEnv blockHost.diskarg blockStart "system" = some g' := by
  have hne : diskargText blockEnv "host" (fun _ => .absent) "system" "virtio_scsi_pci" ≠ "err" := by
    rw [ne_eq, diskargText_eq_err, diskarg_eq_none]
    exact fun h => block_found h.1
  have hsingle : blockStart.vscsiIndex = 0 ∧ isMulti blockEnv = false := by
    constructor
    · rfl
    · decide
  have harg : blockHost.diskarg = diskargText blockEnv "host" fun _ => .absent := rfl
  refine ⟨scsiDisk blockEnv "system"
    (diskargText blockEnv "host" (fun _ => .absent) "system" "virtio_scsi_pci")
    (singleController blockEnv "system" blockStart), ?_⟩
  rw [harg, addDisk, block_mode, Option.bind_some, addModeDisk, addVirtioScsiDisk]
  rw [if_neg hne, if_pos hsingle]

theorem option_strings_block : ∃ g', addDisk blockEnv blockHost.diskarg blockStart "system" = some g' ∧
    (OptionsMeant blockEnv "host" (fun _ => .absent) "system" blockStart
        (g'.qemuOpts.drop blockStart.qemuOpts.length) ↔
      OptionsSafe blockEnv (fun _ => .absent) "host" "system" blockStart) := by
  obtain ⟨g', hg'⟩ := block_addDisk
  exact ⟨g', hg', option_strings_iff rfl blockStart_after hg'⟩

/-- The controller of that disk lacks its block size. -/
theorem block_size_lost : ∃ g', AfterDisks (.pool .linux) [] blockMachine blockHost [] blockStart ∧
    addDisk blockEnv blockHost.diskarg blockStart "system" = some g' ∧
    ¬ OptionsMeant blockEnv "host" (fun _ => .absent) "system" blockStart
      (g'.qemuOpts.drop blockStart.qemuOpts.length) := by
  obtain ⟨g', hg'⟩ := block_addDisk
  refine ⟨g', blockStart_after, hg', ?_⟩
  obtain ⟨new, hnew, hiff⟩ := addDisk_options blockStart_after.bsLeft hg'
  rw [hnew, List.drop_left, hiff]
  intro hsafe
  have hone := (hsafe .virtioScsi _ block_mode rfl (Or.inl block_found)).2 rfl (Or.inr rfl)
  have hsize : blockEnv.val ("DISK_" ++ "system" ++ "_BLOCKSIZE") = "4096" := by decide
  have hempty := hone.configured
  rw [hsize] at hempty
  exact absurd hempty (by decide)

end KvmOsx.Genconfig
