import KvmOsx.Genconfig.Disk
import KvmOsx.Lib.Scope

/-!
# Consistency of the emitted disk arguments

`addDisk_cases` says what one `add_disk` does: nothing for a missing disk, two
options without drive for a shared directory, and one `-drive` with its
`-device` for an attached disk (`DiskBlock`), placed on a bus of its own
(`Placement`). `DiskLog` collects what follows about the arguments so far and is
kept by every call.
-/

namespace KvmOsx.Genconfig

open Script Text Scope

/-! ## Reading the arguments -/

/-- The drive and boot index of the options with a `bootindex`. -/
def bootOrder (os : List Opt) : List (List String × List String) :=
  (os.filter fun o => o.values "bootindex" ≠ []).map fun o =>
    (o.values "drive", o.values "bootindex")

/-- The bus of each device that has one, with its `lun`. -/
def placements (os : List Opt) : List (String × List String) :=
  os.flatMap fun o => (o.values "bus").map fun b => (b, o.values "lun")

/-- `-flag driver,…`. -/
def isKind (flag : Flag) (driver : String) (o : Opt) : Bool :=
  o.flag = flag ∧ o.items.head? = some (.raw driver)

/-- The ids of the options `-flag driver,…`. -/
def idsOf (flag : Flag) (driver : String) (os : List Opt) : List String :=
  (os.filter (isKind flag driver)).flatMap (Opt.values "id")

/-- The ids of the SCSI controllers. -/
abbrev controllerIds : List Opt → List String := idsOf .device "virtio-scsi-pci"

/-- The ids of the I/O threads. -/
abbrev threadIds : List Opt → List String := idsOf .object "iothread"

/-- `vscsiK.0`. -/
def scsiBus (k : ℕ) : String := vscsi k ++ ".0"

/-- `ide.N`. -/
def ideBus (n : ℕ) : String := "ide." ++ num n

/-- The buses an option provides: that of a SCSI controller. -/
def provided (o : Opt) : List String :=
  if isKind .device "virtio-scsi-pci" o then (o.values "id").map (· ++ ".0") else []

/-- The buses an option needs: that of a SCSI disk, which has a `lun`. -/
def wanted (o : Opt) : List String := if o.values "lun" = [] then [] else o.values "bus"

@[simp] theorem bootOrder_nil : bootOrder [] = [] := rfl
@[simp] theorem placements_nil : placements [] = [] := rfl
@[simp] theorem idsOf_nil (flag : Flag) (driver : String) : idsOf flag driver [] = [] := rfl

@[simp] theorem bootOrder_cons (o : Opt) (os : List Opt) :
    bootOrder (o :: os) = (if o.values "bootindex" = [] then [] else
      [(o.values "drive", o.values "bootindex")]) ++ bootOrder os := by
  by_cases h : o.values "bootindex" = [] <;> simp [bootOrder, h]

@[simp] theorem placements_cons (o : Opt) (os : List Opt) :
    placements (o :: os) = (o.values "bus").map (fun b => (b, o.values "lun")) ++ placements os :=
  rfl

@[simp] theorem idsOf_cons (flag : Flag) (driver : String) (o : Opt) (os : List Opt) :
    idsOf flag driver (o :: os) = (if isKind flag driver o then o.values "id" else []) ++
      idsOf flag driver os := by
  by_cases h : isKind flag driver o <;> simp [idsOf, h]

@[simp] theorem bootOrder_append (os os' : List Opt) :
    bootOrder (os ++ os') = bootOrder os ++ bootOrder os' := by simp [bootOrder]

@[simp] theorem placements_append (os os' : List Opt) :
    placements (os ++ os') = placements os ++ placements os' := by simp [placements]

@[simp] theorem idsOf_append (flag : Flag) (driver : String) (os os' : List Opt) :
    idsOf flag driver (os ++ os') = idsOf flag driver os ++ idsOf flag driver os' := by
  simp [idsOf]

theorem controllerIds_append (os os' : List Opt) :
    controllerIds (os ++ os') = controllerIds os ++ controllerIds os' := idsOf_append _ _ os os'

theorem threadIds_append (os os' : List Opt) :
    threadIds (os ++ os') = threadIds os ++ threadIds os' := idsOf_append _ _ os os'

theorem flatMap_provided (os : List Opt) :
    os.flatMap provided = (controllerIds os).map (· ++ ".0") := by
  induction os with
  | nil => rfl
  | cons o os ih =>
    rw [List.flatMap_cons, ih]
    by_cases h : isKind .device "virtio-scsi-pci" o <;> simp [provided, h]

theorem vscsi_inj {i j : ℕ} : vscsi i = vscsi j ↔ i = j := prefix_num_inj _

theorem ideBus_inj {i j : ℕ} : ideBus i = ideBus j ↔ i = j := prefix_num_inj _

/-! ## One call -/

/-- The arguments of one attached disk. -/
structure DiskBlock (name : String) (boot : ℕ) (os : List Opt) : Prop where
  drive : valuesOf .drive "id" os = [hdd name]
  device : valuesOf .device "drive" os = [hdd name]
  boot : bootOrder os = [([hdd name], [num boot])]
  threads : ∃ ts : List String, ts.Sublist [name] ∧ valuesOf .device "iothread" os = ts.map iothread ∧
    threadIds os = ts.map iothread

/-- Where the disk of a block sits, and what happens to the two bus counters and
    to `CONTROLLER`. A SCSI disk brings its controller (`own`) or reuses the last one. -/
inductive Placement (multi : Bool) (g g' : Gen) (os : List Opt) : Prop
  | pci (hp : placements os = []) (hc : controllerIds os = [])
      (hl : ∀ o ∈ os, o.values "lun" = []) (hv : g'.vscsiIndex = g.vscsiIndex)
      (ha : g'.ahciIndex = g.ahciIndex) (hco : g'.controller = g.controller)
  | ahci (hp : placements os = [(ideBus (g.ahciIndex + 1), [])]) (hc : controllerIds os = [])
      (hl : ∀ o ∈ os, o.values "lun" = []) (hv : g'.vscsiIndex = g.vscsiIndex)
      (ha : g'.ahciIndex = g.ahciIndex + 1)
      (hco : g'.controller = g.controller)
  | own (hp : placements os = [(scsiBus g.vscsiIndex, [num g.vscsiIndex])])
      (hc : controllerIds os = [vscsi g.vscsiIndex])
      (hw : ∀ seen, Scoped provided wanted seen os)
      (hl : ∀ o ∈ os, o.values "lun" ≠ [] → o.values "bus" = [scsiBus g.vscsiIndex])
      (hm : multi = true ∨ g.vscsiIndex = 0) (hv : g'.vscsiIndex = g.vscsiIndex + 1)
      (ha : g'.ahciIndex = g.ahciIndex) (hco : g'.controller = scsiBus g.vscsiIndex)
  | shared (hp : placements os = [(g.controller, [num g.vscsiIndex])])
      (hc : controllerIds os = []) (hw : ∀ o ∈ os, ∀ b ∈ wanted o, b = g.controller)
      (hl : ∀ o ∈ os, o.values "lun" ≠ [] → o.values "bus" = [g.controller])
      (hm : multi = false) (h0 : 0 < g.vscsiIndex) (hv : g'.vscsiIndex = g.vscsiIndex + 1)
      (ha : g'.ahciIndex = g.ahciIndex) (hco : g'.controller = g.controller)

/-- A call that attaches a disk. -/
structure DiskCall (e : Env) (name : String) (g g' : Gen) : Prop where
  block : ∃ os, g'.qemuOpts = g.qemuOpts ++ os ∧ DiskBlock name g.bootindex os ∧
    Placement (isMulti e) g g' os
  bootindex : g'.bootindex = g.bootindex + 1

/-- Options that name no drive, boot index, bus, thread or controller. -/
structure QuietOpts (os : List Opt) : Prop where
  drive : valuesOf .drive "id" os = []
  device : valuesOf .device "drive" os = []
  boot : bootOrder os = []
  threads : valuesOf .device "iothread" os = []
  objects : threadIds os = []
  placed : placements os = []
  controllers : controllerIds os = []
  luns : ∀ o ∈ os, o.values "lun" = []

/-- A call that attaches no disk: of a missing one, or of a shared directory. -/
structure QuietDisk (g g' : Gen) : Prop where
  opts : ∃ os, g'.qemuOpts = g.qemuOpts ++ os ∧ QuietOpts os
  bootindex : g'.bootindex = g.bootindex
  vscsi : g'.vscsiIndex = g.vscsiIndex
  ahci : g'.ahciIndex = g.ahciIndex
  controller : g'.controller = g.controller

theorem QuietOpts.nil : QuietOpts [] := by
  constructor <;> simp

theorem addVirtiofsdDisk_spec (e : Env) (name : String) (g : Gen) :
    QuietDisk g (addVirtiofsdDisk e name g) := by
  refine ⟨⟨_, rfl, ?_⟩, rfl, rfl, rfl, rfl⟩
  constructor <;> simp [valuesOf_cons, isKind]

theorem addVirtioPciDisk_spec (e : Env) {diskarg : String → String → String} {name : String}
    (g : Gen) (h : diskarg name "virtio_blk_pci" ≠ "err") :
    DiskCall e name g (addVirtioPciDisk diskarg name g) := by
  rw [addVirtioPciDisk, if_neg h]
  refine ⟨⟨_, rfl, ⟨?_, ?_, ?_, ⟨[name], ?_, ?_, ?_⟩⟩, .pci ?_ ?_ ?_ rfl rfl rfl⟩, rfl⟩
  all_goals simp [valuesOf_cons, isKind, driveOpt]

theorem addAhciDisk_spec (e : Env) {diskarg : String → String → String} {name : String}
    (g : Gen) (h : diskarg name "ahci" ≠ "err") :
    DiskCall e name g (addAhciDisk diskarg name g) := by
  rw [addAhciDisk, if_neg h]
  refine ⟨⟨_, rfl, ⟨?_, ?_, ?_, ⟨[], ?_, ?_, ?_⟩⟩, .ahci ?_ ?_ ?_ rfl rfl rfl⟩, rfl⟩
  all_goals simp [valuesOf_cons, isKind, driveOpt, ideBus]

/-- The controller of the single mode is `vscsi0` on bus `vscsi0.0`. -/
theorem single_bus {k : ℕ} (h : k = 0) : vscsi k ++ "." ++ num k = scsiBus k := by
  subst h
  decide

theorem singleController_spec (e : Env) {name arg : String} {g : Gen} (h0 : g.vscsiIndex = 0) :
    DiskCall e name g (scsiDisk e name arg (singleController e name g)) := by
  refine ⟨⟨_, List.append_assoc _ _ _, ⟨?_, ?_, ?_, ⟨[name], ?_, ?_, ?_⟩⟩,
    .own ?_ ?_ ?_ ?_ (Or.inr h0) rfl rfl (single_bus h0)⟩, rfl⟩
  case refine_9 =>
    intro seen
    simp [scoped_cons, isKind, driveOpt, wanted, provided, singleController, Gen.addOpts,
      single_bus h0]
    exact Or.inr rfl
  all_goals simp [valuesOf_cons, isKind, driveOpt, singleController, Gen.addOpts,
    single_bus h0]

theorem multiController_spec {e : Env} {name arg : String} {g gc : Gen}
    (hm : isMulti e = true) (h : multiController e name g = some gc) :
    DiskCall e name g (scsiDisk e name arg gc) := by
  obtain ⟨gv, hv, rfl⟩ := Option.map_eq_some_iff.mp h
  obtain ⟨-, rfl⟩ := addVpci_spec hv
  refine ⟨⟨_, List.append_assoc _ _ _, ⟨?_, ?_, ?_, ⟨[name], ?_, ?_, ?_⟩⟩,
    .own ?_ ?_ ?_ ?_ (Or.inl hm) rfl rfl rfl⟩, rfl⟩
  case refine_9 =>
    intro seen
    simp [scoped_cons, isKind, driveOpt, wanted, provided, Gen.addOpts]
  all_goals simp [valuesOf_cons, isKind, driveOpt, Gen.addOpts, scsiBus]

theorem sharedController_spec {e : Env} {name arg : String} {g : Gen} (hm : isMulti e = false)
    (h0 : 0 < g.vscsiIndex) : DiskCall e name g (scsiDisk e name arg g) := by
  refine ⟨⟨_, rfl, ⟨?_, ?_, ?_, ⟨[], ?_, ?_, ?_⟩⟩,
    .shared ?_ ?_ ?_ ?_ hm h0 rfl rfl rfl⟩, rfl⟩
  all_goals simp [valuesOf_cons, isKind, driveOpt, wanted]

theorem addVirtioScsiDisk_spec {e : Env} {diskarg : String → String → String} {name : String}
    {g g' : Gen} (ha : diskarg name "virtio_scsi_pci" ≠ "err")
    (h : addVirtioScsiDisk e diskarg name g = some g') : DiskCall e name g g' := by
  simp only [addVirtioScsiDisk, if_neg ha] at h
  split_ifs at h with h0 hm
  · obtain rfl := Option.some.inj h
    exact singleController_spec e h0.1
  · obtain ⟨gc, hgc, rfl⟩ := Option.map_eq_some_iff.mp h
    exact multiController_spec hm hgc
  · obtain rfl := Option.some.inj h
    have hm' : isMulti e = false := by simpa using hm
    exact sharedController_spec hm' (Nat.pos_of_ne_zero fun h => h0 ⟨h, hm'⟩)

/-- A missing disk: only `INDEX` may change. -/
theorem addModeDisk_missing {e : Env} {diskarg : String → String → String} {name ctl : String}
    {g g' : Gen} {m : DiskMode} (hc : m.controller = some ctl) (ha : diskarg name ctl = "err")
    (h : addModeDisk e diskarg name g m = some g') : g' = { g with index := g'.index } := by
  cases m with
  | virtiofsd => cases hc
  | virtioPci =>
    obtain rfl := Option.some.inj hc
    obtain rfl := Option.some.inj h
    rw [addVirtioPciDisk, if_pos ha]
  | virtioScsi =>
    obtain rfl := Option.some.inj hc
    rw [addModeDisk, addVirtioScsiDisk, if_pos ha] at h
    obtain rfl := Option.some.inj h
    rfl
  | ahci =>
    obtain rfl := Option.some.inj hc
    obtain rfl := Option.some.inj h
    rw [addAhciDisk, if_pos ha]

/-- Everything one `add_disk` can do. -/
theorem addDisk_cases {e : Env} {diskarg : String → String → String} {name : String} {g g' : Gen}
    (h : addDisk e diskarg g name = some g') :
    (attached e diskarg name = true ∧ DiskCall e name g g') ∨
      (attached e diskarg name = false ∧ QuietDisk g g') := by
  obtain ⟨m, hm, hg⟩ := Option.bind_eq_some_iff.mp h
  have hatt : attached e diskarg name =
      m.controller.elim false fun ctl => decide (diskarg name ctl ≠ "err") := by
    rw [attached, hm]
    cases m <;> rfl
  by_cases hmiss : ∃ ctl, m.controller = some ctl ∧ diskarg name ctl = "err"
  · obtain ⟨ctl, hc, ha⟩ := hmiss
    refine Or.inr ⟨by simp [hatt, hc, ha], ?_⟩
    rw [addModeDisk_missing hc ha hg]
    exact ⟨⟨[], by simp, QuietOpts.nil⟩, rfl, rfl, rfl, rfl⟩
  · cases m with
    | virtioPci =>
      have ha : diskarg name "virtio_blk_pci" ≠ "err" := fun ha => hmiss ⟨_, rfl, ha⟩
      obtain rfl := Option.some.inj hg
      exact Or.inl ⟨by simp [hatt, DiskMode.controller, ha], addVirtioPciDisk_spec e g ha⟩
    | virtioScsi =>
      have ha : diskarg name "virtio_scsi_pci" ≠ "err" := fun ha => hmiss ⟨_, rfl, ha⟩
      exact Or.inl ⟨by simp [hatt, DiskMode.controller, ha], addVirtioScsiDisk_spec ha hg⟩
    | ahci =>
      have ha : diskarg name "ahci" ≠ "err" := fun ha => hmiss ⟨_, rfl, ha⟩
      obtain rfl := Option.some.inj hg
      exact Or.inl ⟨by simp [hatt, DiskMode.controller, ha], addAhciDisk_spec e g ha⟩
    | virtiofsd =>
      obtain rfl := Option.some.inj hg
      exact Or.inr ⟨by simp [hatt, DiskMode.controller], addVirtiofsdDisk_spec e name g⟩

/-! ## The log -/

/-- Which drives, boot indices and threads the disks `done` brought. -/
structure DriveLog (e : Env) (diskarg : String → String → String) (done : List String)
    (g : Gen) : Prop where
  drives : valuesOf .drive "id" g.qemuOpts = (done.filter (attached e diskarg)).map hdd
  devices : valuesOf .device "drive" g.qemuOpts = (done.filter (attached e diskarg)).map hdd
  boot : bootOrder g.qemuOpts = ((done.filter (attached e diskarg)).zipIdx 1).map
    fun p => ([hdd p.1], [num p.2])
  bootindex : g.bootindex = 1 + (done.filter (attached e diskarg)).length
  threads : ∃ ts : List String, ts.Sublist (done.filter (attached e diskarg)) ∧
    valuesOf .device "iothread" g.qemuOpts = ts.map iothread ∧
    threadIds g.qemuOpts = ts.map iothread

/-- The places on the buses are taken once, below the counters. -/
structure BusLog (g : Gen) : Prop where
  placed : (placements g.qemuOpts).Nodup
  range : ∀ p ∈ placements g.qemuOpts, (∃ j ≤ g.ahciIndex, p = (ideBus j, [])) ∨
    ∃ k, ∃ l < g.vscsiIndex, p = (scsiBus k, [num l])

/-- The controllers differ, and come before the disks on them. -/
structure ControllerLog (multi : Bool) (g : Gen) : Prop where
  nodup : (controllerIds g.qemuOpts).Nodup
  range : ∀ x ∈ controllerIds g.qemuOpts, ∃ k < g.vscsiIndex, x = vscsi k
  luns : ∀ o ∈ g.qemuOpts, o.values "lun" ≠ [] → ∃ k, o.values "bus" = [scsiBus k]
  ordered : Scoped provided wanted [] g.qemuOpts
  single : multi = false → 0 < g.vscsiIndex →
    g.controller = scsiBus 0 ∧ scsiBus 0 ∈ g.qemuOpts.flatMap provided

/-- The invariant of a run of `add_disk`, after the disks `done`. -/
structure DiskLog (e : Env) (diskarg : String → String → String) (done : List String)
    (g : Gen) : Prop where
  drive : DriveLog e diskarg done g
  bus : BusLog g
  controller : ControllerLog (isMulti e) g

theorem DiskLog.init (e : Env) (diskarg : String → String → String) {g : Gen}
    (ho : g.qemuOpts = []) (hb : g.bootindex = 1) (hv : g.vscsiIndex = 0) :
    DiskLog e diskarg [] g where
  drive := by constructor <;> simp [ho, hb]
  bus := by constructor <;> simp [ho]
  controller := by constructor <;> simp [ho, hv]

theorem filter_snoc {p : String → Bool} {xs : List String} {x : String} :
    (xs ++ [x]).filter p = xs.filter p ++ if p x then [x] else [] := by
  by_cases h : p x <;> simp [h]

section Keep

variable {e : Env} {diskarg : String → String → String} {done : List String} {name : String}
  {g g' : Gen} {os : List Opt}

theorem DriveLog.attach (h : DriveLog e diskarg done g) (ha : attached e diskarg name = true)
    (hos : g'.qemuOpts = g.qemuOpts ++ os) (hb : DiskBlock name g.bootindex os)
    (hi : g'.bootindex = g.bootindex + 1) : DriveLog e diskarg (done ++ [name]) g' := by
  constructor
  · rw [filter_snoc, if_pos ha, hos, valuesOf_append, h.drives, hb.drive, List.map_append,
      List.map_singleton]
  · rw [filter_snoc, if_pos ha, hos, valuesOf_append, h.devices, hb.device, List.map_append,
      List.map_singleton]
  · rw [filter_snoc, if_pos ha, hos, bootOrder_append, h.boot, hb.boot, List.zipIdx_append,
      List.map_append, h.bootindex]
    rfl
  · rw [hi, h.bootindex, filter_snoc, if_pos ha, List.length_append, List.length_singleton]
    omega
  · obtain ⟨ts, hts, hd, ho⟩ := h.threads
    obtain ⟨us, hus, hd', ho'⟩ := hb.threads
    refine ⟨ts ++ us, ?_, ?_, ?_⟩
    · rw [filter_snoc, if_pos ha]
      exact hts.append hus
    · rw [hos, valuesOf_append, hd, hd', List.map_append]
    · rw [hos, threadIds_append, ho, ho', List.map_append]

theorem DriveLog.quiet (h : DriveLog e diskarg done g) (ha : attached e diskarg name = false)
    (hos : g'.qemuOpts = g.qemuOpts ++ os) (q : QuietOpts os)
    (hi : g'.bootindex = g.bootindex) : DriveLog e diskarg (done ++ [name]) g' := by
  have hf : (done ++ [name]).filter (attached e diskarg) = done.filter (attached e diskarg) := by
    simp [ha]
  constructor
  · rw [hf, hos, valuesOf_append, q.drive, List.append_nil, h.drives]
  · rw [hf, hos, valuesOf_append, q.device, List.append_nil, h.devices]
  · rw [hf, hos, bootOrder_append, q.boot, List.append_nil, h.boot]
  · rw [hf, hi, h.bootindex]
  · rw [hf, hos, valuesOf_append, threadIds_append, q.threads, q.objects, List.append_nil,
      List.append_nil]
    exact h.threads

/-- Options without a bus. -/
theorem BusLog.unplaced (h : BusLog g) (hos : g'.qemuOpts = g.qemuOpts ++ os)
    (hp : placements os = []) (hv : g'.vscsiIndex = g.vscsiIndex)
    (ha : g'.ahciIndex = g.ahciIndex) : BusLog g' := by
  constructor <;> rw [hos, placements_append, hp, List.append_nil]
  · exact h.placed
  · rw [hv, ha]
    exact h.range

/-- One more place, in the range of the new counters and not yet taken. -/
theorem BusLog.place (h : BusLog g) {p : String × List String}
    (hos : g'.qemuOpts = g.qemuOpts ++ os) (hp : placements os = [p])
    (hfree : p ∉ placements g.qemuOpts) (hv : g.vscsiIndex ≤ g'.vscsiIndex)
    (ha : g.ahciIndex ≤ g'.ahciIndex)
    (hr : (∃ j ≤ g'.ahciIndex, p = (ideBus j, [])) ∨
      ∃ k, ∃ l < g'.vscsiIndex, p = (scsiBus k, [num l])) : BusLog g' := by
  constructor <;> rw [hos, placements_append, hp]
  · exact h.placed.append (List.nodup_singleton p) (by simpa using hfree)
  · intro q hq
    rcases List.mem_append.mp hq with hq | hq
    · rcases h.range q hq with ⟨j, hj, hqj⟩ | ⟨k, l, hl, hqk⟩
      · exact Or.inl ⟨j, hj.trans ha, hqj⟩
      · exact Or.inr ⟨k, l, hl.trans_le hv, hqk⟩
    · rwa [List.mem_singleton.mp hq]

/-- The place of a new SCSI disk is free: its unit number is. -/
theorem BusLog.scsi_free (h : BusLog g) (b : String) :
    (b, [num g.vscsiIndex]) ∉ placements g.qemuOpts := by
  intro hp
  rcases h.range _ hp with ⟨j, -, hj⟩ | ⟨k, l, hl, hk⟩
  · simp at hj
  · simp only [Prod.mk.injEq, List.cons.injEq, num_inj, and_true] at hk
    omega

/-- The next AHCI port is free. -/
theorem BusLog.ahci_free (h : BusLog g) :
    (ideBus (g.ahciIndex + 1), []) ∉ placements g.qemuOpts := by
  intro hp
  rcases h.range _ hp with ⟨j, hj, hk⟩ | ⟨k, l, -, hk⟩
  · simp only [Prod.mk.injEq, ideBus_inj, and_true] at hk
    omega
  · simp at hk

/-- Options that are neither a controller nor a SCSI disk. -/
theorem ControllerLog.frame {multi : Bool} (h : ControllerLog multi g)
    (hos : g'.qemuOpts = g.qemuOpts ++ os) (hc : controllerIds os = [])
    (hl : ∀ o ∈ os, o.values "lun" = []) (hv : g'.vscsiIndex = g.vscsiIndex)
    (hco : g'.controller = g.controller) : ControllerLog multi g' := by
  constructor
  · rw [hos, controllerIds_append, hc, List.append_nil]
    exact h.nodup
  · rw [hos, controllerIds_append, hc, List.append_nil, hv]
    exact h.range
  · intro o ho hne
    rcases List.mem_append.mp (hos ▸ ho) with ho | ho
    · exact h.luns o ho hne
    · exact absurd (hl o ho) hne
  · rw [hos, scoped_append]
    exact ⟨h.ordered, scoped_of_no_uses fun o ho => if_pos (hl o ho)⟩
  · rw [hos, hv, hco, List.flatMap_append]
    intro hm h0
    exact ⟨(h.single hm h0).1, List.mem_append_left _ (h.single hm h0).2⟩

/-- A SCSI disk that brings its controller. -/
theorem ControllerLog.own {multi : Bool} (h : ControllerLog multi g)
    (hos : g'.qemuOpts = g.qemuOpts ++ os) (hc : controllerIds os = [vscsi g.vscsiIndex])
    (hw : ∀ seen, Scoped provided wanted seen os)
    (hl : ∀ o ∈ os, o.values "lun" ≠ [] → o.values "bus" = [scsiBus g.vscsiIndex])
    (hm : multi = true ∨ g.vscsiIndex = 0) (hv : g'.vscsiIndex = g.vscsiIndex + 1)
    (hco : g'.controller = scsiBus g.vscsiIndex) : ControllerLog multi g' := by
  constructor
  · rw [hos, controllerIds_append, hc]
    refine h.nodup.append (List.nodup_singleton _) ?_
    rw [List.disjoint_singleton]
    intro hmem
    obtain ⟨k, hk, hx⟩ := h.range _ hmem
    rw [vscsi_inj] at hx
    omega
  · intro x hx
    rw [hos, controllerIds_append, hc, List.mem_append, List.mem_singleton] at hx
    rcases hx with hx | rfl
    · obtain ⟨k, hk, rfl⟩ := h.range x hx
      exact ⟨k, by omega, rfl⟩
    · exact ⟨g.vscsiIndex, by omega, rfl⟩
  · intro o ho hne
    rcases List.mem_append.mp (hos ▸ ho) with ho | ho
    · exact h.luns o ho hne
    · exact ⟨_, hl o ho hne⟩
  · rw [hos, scoped_append]
    exact ⟨h.ordered, hw _⟩
  · intro hs _
    have h0 : g.vscsiIndex = 0 := hm.resolve_left (by simp [hs])
    rw [hos, hco, h0, List.flatMap_append, flatMap_provided os, hc, h0]
    exact ⟨rfl, by simp [scsiBus]⟩

/-- A SCSI disk on the controller of the single mode. -/
theorem ControllerLog.shared {multi : Bool} (h : ControllerLog multi g)
    (hos : g'.qemuOpts = g.qemuOpts ++ os) (hc : controllerIds os = [])
    (hw : ∀ o ∈ os, ∀ b ∈ wanted o, b = g.controller)
    (hl : ∀ o ∈ os, o.values "lun" ≠ [] → o.values "bus" = [g.controller])
    (hm : multi = false) (h0 : 0 < g.vscsiIndex) (hv : g'.vscsiIndex = g.vscsiIndex + 1)
    (hco : g'.controller = g.controller) : ControllerLog multi g' := by
  obtain ⟨hg, hmem⟩ := h.single hm h0
  constructor
  · rw [hos, controllerIds_append, hc, List.append_nil]
    exact h.nodup
  · rw [hos, controllerIds_append, hc, List.append_nil, hv]
    intro x hx
    obtain ⟨k, hk, rfl⟩ := h.range x hx
    exact ⟨k, by omega, rfl⟩
  · intro o ho hne
    rcases List.mem_append.mp (hos ▸ ho) with ho | ho
    · exact h.luns o ho hne
    · exact ⟨0, by rw [hl o ho hne, hg]⟩
  · rw [hos, scoped_append]
    refine ⟨h.ordered, scoped_of_uses_subset fun o ho b hb => ?_⟩
    rw [hw o ho b hb, hg, List.nil_append]
    exact hmem
  · rw [hos, hco, List.flatMap_append]
    exact fun _ _ => ⟨hg, List.mem_append_left _ hmem⟩

/-- **Every call keeps the log.** -/
theorem DiskLog.step (h : DiskLog e diskarg done g) (hc : addDisk e diskarg g name = some g') :
    DiskLog e diskarg (done ++ [name]) g' := by
  rcases addDisk_cases hc with ⟨ha, ⟨os, hos, hb, hp⟩, hi⟩ | ⟨ha, ⟨os, hos, q⟩, hi, hv, hah, hco⟩
  · refine ⟨h.drive.attach ha hos hb hi, ?_, ?_⟩
    · cases hp with
      | pci hp _ _ hv hah _ => exact h.bus.unplaced hos hp hv hah
      | ahci hp _ _ hv hah _ =>
        exact h.bus.place hos hp h.bus.ahci_free (by omega) (by omega)
          (Or.inl ⟨_, hah.ge, rfl⟩)
      | own hp _ _ _ _ hv hah _ =>
        exact h.bus.place hos hp (h.bus.scsi_free _) (by omega) (by omega)
          (Or.inr ⟨_, _, by omega, rfl⟩)
      | shared hp _ _ _ hm h0 hv hah _ =>
        refine h.bus.place hos hp (h.bus.scsi_free _) (by omega) (by omega) (Or.inr ?_)
        exact ⟨0, g.vscsiIndex, by omega, by rw [(h.controller.single hm h0).1]⟩
    · cases hp with
      | pci _ hc hl hv _ hco => exact h.controller.frame hos hc hl hv hco
      | ahci _ hc hl hv _ hco => exact h.controller.frame hos hc hl hv hco
      | own _ hc hw hl hm hv _ hco => exact h.controller.own hos hc hw hl hm hv hco
      | shared _ hc hw hl hm h0 hv _ hco => exact h.controller.shared hos hc hw hl hm h0 hv hco
  · exact ⟨h.drive.quiet ha hos q hi, h.bus.unplaced hos q.placed hv hah,
      h.controller.frame hos q.controllers q.luns hv hco⟩

end Keep

/-- The log of a whole run. -/
theorem DiskLog.run {e : Env} {diskarg : String → String → String} {g₀ g : Gen}
    {names : List String} (ho : g₀.qemuOpts = []) (hb : g₀.bootindex = 1)
    (hv : g₀.vscsiIndex = 0) (h : Runs.run (addDisk e diskarg) names g₀ = some g) :
    DiskLog e diskarg names g :=
  Runs.run_induction (P := DiskLog e diskarg) (DiskLog.init e diskarg ho hb hv)
    (fun _ _ _ _ _ ih hc => ih.step hc) h

/-! ## The main result -/

theorem Env.valOr_ne {e : Env} {name dflt : String} (h : dflt ≠ "") : e.valOr name dflt ≠ "" := by
  unfold Env.valOr
  split_ifs with h'
  · exact h
  · exact h'

/-- A disk with a known mode never ends the run. -/
theorem addDisk_isSome {e : Env} (diskarg : String → String → String) {name : String}
    {m : DiskMode} (h : DiskMode.ofText (hddMode e name) = some m) (g : Gen) :
    ∃ g', addDisk e diskarg g name = some g' := by
  rw [addDisk, h]
  cases m with
  | virtioPci | ahci | virtiofsd => exact ⟨_, rfl⟩
  | virtioScsi =>
    have hport : e.valOr "STORE_ROOT_PORT" "ioh3420" ≠ "" := Env.valOr_ne (by decide)
    obtain ⟨gv, hv⟩ := addVpci_isSome (e := e) (v := .scsiBus) (g := g) hport
    simp only [Option.bind_some, addModeDisk, addVirtioScsiDisk, multiController, hv]
    split_ifs <;> exact ⟨_, rfl⟩

/-- A block disk that `diskarg` does not find. -/
def missing (e : Env) (diskarg : String → String → String) (name : String) : Prop :=
  ∃ m ctl, DiskMode.ofText (hddMode e name) = some m ∧ m.controller = some ctl ∧
    diskarg name ctl = "err"

theorem hdd_injective : Function.Injective hdd := fun _ _ h => (String.append_left_inj _).mp h

theorem iothread_injective : Function.Injective iothread :=
  fun _ _ h => (String.append_right_inj _).mp h

/-- **Disk attachment is consistent.** For every list of distinct disk names with
    known modes, started with empty options and fresh counters, the run goes through;
    a missing disk adds no argument and moves no counter; drives and devices pair
    up; boot indices count the attached disks in order; every thread exists once;
    every SCSI disk has one controller, before it; no two devices share bus and
    unit number. -/
theorem disk_attachment_consistent (e : Env) (diskarg : String → String → String)
    (names : List String) (g₀ : Gen) (hn : names.Nodup)
    (hm : ∀ n ∈ names, (DiskMode.ofText (hddMode e n)).isSome)
    (ho : g₀.qemuOpts = []) (hb : g₀.bootindex = 1) (hv : g₀.vscsiIndex = 0) :
    ∃ g, Runs.run (addDisk e diskarg) names g₀ = some g ∧
      (∀ pre n post, names = pre ++ n :: post → missing e diskarg n →
        ∃ t t', Runs.run (addDisk e diskarg) pre g₀ = some t ∧ addDisk e diskarg t n = some t' ∧
          t'.qemuOpts = t.qemuOpts ∧ t'.bootindex = t.bootindex ∧
          t'.vscsiIndex = t.vscsiIndex ∧ t'.ahciIndex = t.ahciIndex) ∧
      (∀ x ∈ valuesOf .device "drive" g.qemuOpts,
        (valuesOf .drive "id" g.qemuOpts).count x = 1) ∧
      (∀ x ∈ valuesOf .drive "id" g.qemuOpts,
        (valuesOf .device "drive" g.qemuOpts).count x = 1) ∧
      bootOrder g.qemuOpts = ((names.filter (attached e diskarg)).zipIdx 1).map
        (fun p => ([hdd p.1], [num p.2])) ∧
      (∀ t ∈ valuesOf .device "iothread" g.qemuOpts, (threadIds g.qemuOpts).count t = 1) ∧
      (∀ pre o post, g.qemuOpts = pre ++ o :: post → o.values "lun" ≠ [] →
        ∃ k, o.values "bus" = [scsiBus k] ∧ (controllerIds pre).count (vscsi k) = 1 ∧
          (controllerIds g.qemuOpts).count (vscsi k) = 1) ∧
      (placements g.qemuOpts).Nodup := by
  have hstep : ∀ n ∈ names, ∀ s, ∃ s', addDisk e diskarg s n = some s' := by
    intro n hn s
    obtain ⟨m, hmode⟩ := Option.isSome_iff_exists.mp (hm n hn)
    exact addDisk_isSome diskarg hmode s
  obtain ⟨g, hg⟩ := Runs.run_isSome hstep g₀
  obtain ⟨hd, hbus, hc⟩ := DiskLog.run ho hb hv hg
  have hatt : ((names.filter (attached e diskarg)).map hdd).Nodup :=
    (hn.filter _).map hdd_injective
  refine ⟨g, hg, ?_, ?_, ?_, hd.boot, ?_, ?_, hbus.placed⟩
  · rintro pre n post rfl ⟨m, ctl, hmode, hctl, herr⟩
    obtain ⟨t, ht, hrest⟩ := Runs.run_split hg
    rw [Runs.run_cons] at hrest
    obtain ⟨t', ht', -⟩ := Option.bind_eq_some_iff.mp hrest
    have hsame := ht'
    rw [addDisk, hmode] at hsame
    have := addModeDisk_missing hctl herr hsame
    refine ⟨t, t', ht, ht', ?_, ?_, ?_, ?_⟩ <;> rw [this]
  · intro x hx
    rw [hd.drives, ← hd.devices]
    exact List.count_eq_one_of_mem (hd.devices ▸ hatt) hx
  · intro x hx
    rw [hd.devices, ← hd.drives]
    exact List.count_eq_one_of_mem (hd.drives ▸ hatt) hx
  · intro t ht
    obtain ⟨ts, hts, hdev, hobj⟩ := hd.threads
    rw [hobj]
    rw [hdev] at ht
    exact List.count_eq_one_of_mem (((hn.filter _).sublist hts).map iothread_injective) ht
  · intro pre o post hsplit hlun
    obtain ⟨k, hk⟩ := hc.luns o (by rw [hsplit]; simp) hlun
    have hmem : vscsi k ∈ controllerIds pre := by
      have := (hsplit ▸ hc.ordered).before (scsiBus k) (by simp [wanted, hlun, hk])
      rw [flatMap_provided, List.mem_map] at this
      obtain ⟨x, hx, hxk⟩ := this
      rwa [(String.append_left_inj _).mp hxk] at hx
    have hnodup := hc.nodup
    rw [hsplit, controllerIds_append] at hnodup
    refine ⟨k, hk, List.count_eq_one_of_mem hnodup.of_append_left hmem, ?_⟩
    rw [hsplit, controllerIds_append]
    exact List.count_eq_one_of_mem hnodup (List.mem_append_left _ hmem)

/-- An AHCI disk, a SCSI disk that is missing and one that is there, in multi mode. -/
theorem disk_attachment_consistent_mixed :
    let e : Env := fun v => [("HDD_MODE", "virtio_scsi"), ("DISK_clover_MODE", "ahci"),
      ("SCSI_CONTROLLER", "multi")].lookup v
    let diskarg := fun name (_ : String) => if name = "system" then "err" else "file=x,format=raw"
    ∃ g, Runs.run (addDisk e diskarg) ["clover", "system", "data"] (Gen.init ["1a.0:on"]) = some g ∧
      bootOrder g.qemuOpts = [(["cloverHDD"], ["1"]), (["dataHDD"], ["2"])] := by
  intro e diskarg
  obtain ⟨g, hg, -, -, -, hboot, -⟩ := disk_attachment_consistent e diskarg
    ["clover", "system", "data"] (Gen.init ["1a.0:on"]) (by decide) (by decide) rfl rfl rfl
  exact ⟨g, hg, hboot.trans (by decide)⟩

end KvmOsx.Genconfig
