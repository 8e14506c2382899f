import KvmOsx.Genconfig.Pci
import KvmOsx.Lib.Runs

/-!
# The disk emitters (`kvm/lib-hdd.sh`, `hdd-uni.sh`)

`add_disk NAME` picks the function `add_<mode>_disk` by the variable
`DISK_<NAME>_MODE` or `HDD_MODE`. The three block emitters ask `diskarg` for the
`-drive` operand and return early when it is `err`. `diskarg` looks at files of the host;
here it is a parameter `diskarg name controller`.

* `addDisk`: one call; `addDisk_none`: a missing disk changes no argument.
* `DiskLog`: the invariant that ties the counters to the emitted arguments.
-/

namespace KvmOsx.Genconfig

open Script Text

/-! ## Operands -/

/-- `virtioarg` (lib-hdd.sh:50-66). Without a block size `$BS` is the global that
    `vpci_template` left behind. -/
def virtioarg (e : Env) (g : Gen) : String :=
  let vtm :=
    if e.val "VIRTIO_MODE" = "modern" then
      "disable-legacy=on,disable-modern=off,modern-pio-notify=on"
    else "disable-legacy=off,disable-modern=off"
  let vblk := e.val ("DISK_" ++ e.val "DISK_BLOCKSIZE")
  vtm ++ if vblk = "" then g.bs else "logical_block_size=" ++ vblk

/-- `devicearg` (lib-hdd.sh:133-153). -/
def devicearg (e : Env) (name : String) : String :=
  let iscsiTarget := e.val ("HDD_" ++ name ++ "_ISCSI_TARGET")
  if iscsiTarget ≠ "" ∧ e.val "MACHINE_OS" = "win" then "scsi-block"
  else if iscsiTarget ≠ "" ∧ e.val "MACHINE_OS" = "linux" then "scsi-generic"
  else "scsi-hd"

/-- `${name}HDD`. -/
def hdd (name : String) : String := name ++ "HDD"

/-- `iothread$name`. -/
def iothread (name : String) : String := "iothread" ++ name

/-- `vscsi$K`. -/
def vscsi (k : ℕ) : String := "vscsi" ++ num k

/-- `-drive id=${name}HDD,if=none,$diskarg`. -/
def driveOpt (name diskarg : String) : Opt :=
  ⟨.drive, [.kv "id" (hdd name), .kv "if" "none", .raw diskarg]⟩

/-! ## The emitters -/

/-- `add_virtio_pci_disk` (lib-hdd.sh:157-180). -/
def addVirtioPciDisk (diskarg : String → String → String) (name : String) (g : Gen) : Gen :=
  let arg := diskarg name "virtio_blk_pci"
  if arg = "err" then g
  else
    { g.addOpts
        [ ⟨.object, [.raw "iothread", .kv "id" (iothread name), .kv "poll-max-ns" "20",
            .kv "poll-grow" "4", .kv "poll-shrink" "0"]⟩,
          ⟨.device, [.raw "virtio-blk-pci", .kv "ioeventfd" "on", .kv "num-queues" "8",
            .kv "drive" (hdd name), .kv "scsi" "off", .kv "bootindex" (num g.bootindex),
            .kv "iothread" (iothread name), .kv "multifunction" ("on" ++ g.vtm)]⟩,
          driveOpt name arg ] with
      bootindex := g.bootindex + 1
      index := g.index + 1
      vblkIndex := g.vblkIndex + 1 }

/-- The controller of the single mode (lib-hdd.sh:201-229). -/
def singleController (e : Env) (name : String) (g : Gen) : Gen :=
  let k := g.vscsiIndex
  { g.addOpts
      [ ⟨.object, [.raw "iothread", .kv "id" (iothread name)]⟩,
        ⟨.device, [.raw "virtio-scsi-pci", .kv "iothread" (iothread name), .kv "num_queues" "4",
            .kv "id" (vscsi k)] ++ rawItem (e.val "CONTROLLER_ARG_virtio_scsi_pci") ++
          rawItem (virtioarg e g)⟩ ] with
    controller := vscsi k ++ "." ++ num k }

/-- The controller of the multi mode (lib-hdd.sh:231-257); `virtarg` was computed
    before the call of `add_vpci`. -/
def multiController (e : Env) (name : String) (g : Gen) : Option Gen :=
  let k := g.vscsiIndex
  let virtarg := virtioarg e g
  (addVpci e .scsiBus (e.valOr "STORE_ROOT_PORT" "ioh3420") g).map fun g =>
    { g.addOpts
        [ ⟨.object, [.raw "iothread", .kv "id" (iothread name), .kv "poll-max-ns" "20",
            .kv "poll-grow" "4", .kv "poll-shrink" "0"]⟩,
          ⟨.device, [.raw "virtio-scsi-pci", .kv "iothread" (iothread name),
              .kv "id" (vscsi k)] ++ rawItem (e.val "CONTROLLER_ARG_virtio_scsi_pci") ++
            rawItem virtarg⟩ ] with
      controller := vscsi k ++ ".0" }

/-- The disk itself (lib-hdd.sh:259-284). -/
def scsiDisk (e : Env) (name arg : String) (g : Gen) : Gen :=
  { g.addOpts
      [ driveOpt name arg,
        ⟨.device, [.raw (devicearg e name), .kv "bus" g.controller,
          .kv "lun" (num g.vscsiIndex), .kv "drive" (hdd name),
          .kv "bootindex" (num g.bootindex)]⟩ ] with
    bootindex := g.bootindex + 1
    index := g.index + 1
    vscsiIndex := g.vscsiIndex + 1 }

/-- `SCSI_CONTROLLER=multi`. -/
def isMulti (e : Env) : Bool := e.val "SCSI_CONTROLLER" = "multi"

/-- `add_virtio_scsi_disk` (lib-hdd.sh:185-285). -/
def addVirtioScsiDisk (e : Env) (diskarg : String → String → String) (name : String) (g : Gen) :
    Option Gen :=
  let arg := diskarg name "virtio_scsi_pci"
  if arg = "err" then some g
  else if g.vscsiIndex = 0 ∧ isMulti e = false then
    some (scsiDisk e name arg (singleController e name g))
  else if isMulti e then (multiController e name g).map (scsiDisk e name arg)
  else some (scsiDisk e name arg g)

/-- `add_ahci_disk` (lib-hdd.sh:289-306); `INDEX` is reset also for a missing disk. -/
def addAhciDisk (diskarg : String → String → String) (name : String) (g : Gen) : Gen :=
  let arg := diskarg name "ahci"
  if arg = "err" then { g with index := 0 }
  else
    { g.addOpts
        [ ⟨.device, [.raw "ide-hd", .kv "bus" ("ide." ++ num (g.ahciIndex + 1)),
            .kv "drive" (hdd name), .kv "bootindex" (num g.bootindex)]⟩,
          driveOpt name arg ] with
      index := 1
      ahciIndex := g.ahciIndex + 1
      bootindex := g.bootindex + 1 }

/-- `add_virtiofsd_disk` (lib-hdd.sh:320-334). -/
def addVirtiofsdDisk (e : Env) (name : String) (g : Gen) : Gen :=
  g.addOpts
    [ ⟨.chardev, [.raw "socket", .kv "id" ("vfs-" ++ name),
        .kv "path" (e.val "MACHINE_VAR" ++ "/" ++ name ++ ".virtiofsd.sock")]⟩,
      ⟨.device, [.raw "vhost-user-fs-pci", .kv "chardev" ("vfs-" ++ name),
        .kv "tag" (e.val ("DISK_" ++ name)), .kv "queue-size" "1024"]⟩ ]

/-! ## Dispatch -/

/-- The modes with an `add_<mode>_disk` function, less the aliases. -/
inductive DiskMode
  | virtioPci
  | virtioScsi
  | ahci
  | virtiofsd
  deriving DecidableEq, Repr

/-- The function a mode text selects; the `-raw` functions call the plain ones. -/
def DiskMode.ofText (s : String) : Option DiskMode :=
  [("virtio_pci", virtioPci), ("virtio_scsi", virtioScsi), ("ahci", ahci),
    ("ahci-raw", ahci), ("virtio-blk-raw", virtioPci), ("virtio-scsi-raw", virtioScsi),
    ("virtiofsd", virtiofsd)].lookup s

/-- The controller argument a block mode passes to `diskarg`. -/
def DiskMode.controller : DiskMode → Option String
  | .virtioPci => some "virtio_blk_pci"
  | .virtioScsi => some "virtio_scsi_pci"
  | .ahci => some "ahci"
  | .virtiofsd => none

/-- `_HDD_MODE` (hdd-uni.sh:4-6). -/
def hddMode (e : Env) (name : String) : String :=
  e.valOr ("DISK_" ++ name ++ "_MODE") (e.val "HDD_MODE")

/-- `add_<mode>_disk NAME`. -/
def addModeDisk (e : Env) (diskarg : String → String → String) (name : String) (g : Gen) :
    DiskMode → Option Gen
  | .virtioPci => some (addVirtioPciDisk diskarg name g)
  | .virtioScsi => addVirtioScsiDisk e diskarg name g
  | .ahci => some (addAhciDisk diskarg name g)
  | .virtiofsd => some (addVirtiofsdDisk e name g)

/-- `add_disk` (hdd-uni.sh:3-10). A mode without a function ends the run. -/
def addDisk (e : Env) (diskarg : String → String → String) (g : Gen) (name : String) :
    Option Gen :=
  (DiskMode.ofText (hddMode e name)).bind (addModeDisk e diskarg name g)

/-- The disk is attached as a block device: its mode is a block mode and `diskarg`
    finds it. -/
def attached (e : Env) (diskarg : String → String → String) (name : String) : Bool :=
  match (DiskMode.ofText (hddMode e name)).bind DiskMode.controller with
  | some ctl => diskarg name ctl ≠ "err"
  | none => false

end KvmOsx.Genconfig
