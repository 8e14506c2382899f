import KvmOsx.Genconfig.RootPorts

/-!
# The whole of `genconfig.sh`

`genPci` leaves out the fragments that neither allocate a port nor queue a device for
`vfio-bind`. Here is the run with all fragments that append a `-device` or a
`-readconfig`, from `common.sh` to `fs-shared.sh`. The fragments for firmware, CPU and
memory append neither.

* `RepoCfg`: the cfg files of the repository that a run reads, with their devices.
* `CommonOs`: the `common-$OS.sh` scripts; what they assign and read, and which machine
  type QEMU gets.
* `genconfig`: the fragments in the order of `genconfig.sh`.
-/

namespace KvmOsx.Genconfig

open Script Text

/-- The host, with the answers of `/sys` on which the graphics fragments depend: which PCI
    functions there are, and the uuid of a mediated device if one can be created. -/
structure BootHost extends Host where
  pci : String → Bool
  mdev : Option String

/-! ## cfg files of the repository -/

/-- The files under `cfg/` that some fragment reads. -/
inductive RepoCfg
  | ipmi
  | q35Base
  | q35Mon
  | q35Gpu
  | q35Input
  | i440Base
  | i440Mon
  | i440Input
  | guestAgent
  | macInput
  deriving DecidableEq, Repr

/-- The name of the file without `.cfg`. -/
def RepoCfg.stem : RepoCfg → String
  | .ipmi => "ipmi"
  | .q35Base => "q35--base_default"
  | .q35Mon => "q35--mon"
  | .q35Gpu => "q35-addr2.0-port01-gpu"
  | .q35Input => "q35-addr3.0-port02-input"
  | .i440Base => "i440base"
  | .i440Mon => "i440mon"
  | .i440Input => "i440input"
  | .guestAgent => "guest-agent"
  | .macInput => "macinput"

/-- The ids in its `[device "ID"]` sections. -/
def RepoCfg.devices : RepoCfg → List String
  | .ipmi => ["bmc.0", "smbus.0"]
  | .q35Mon => ["vs0", "vsp1"]
  | .q35Gpu => ["gpu.1"]
  | .i440Input => ["usb"]
  | .guestAgent => ["ser0", "ga0"]
  | .q35Base | .q35Input | .i440Base | .i440Mon | .macInput => []

/-- All of them. -/
def RepoCfg.all : List RepoCfg :=
  [.ipmi, .q35Base, .q35Mon, .q35Gpu, .q35Input, .i440Base, .i440Mon, .i440Input, .guestAgent,
    .macInput]

/-- `-readconfig $SCRIPT_DIR/../cfg/NAME.cfg`. -/
def cfgOpt (e : Env) (c : RepoCfg) : Opt :=
  readconfig (e.val "SCRIPT_DIR" ++ "/../cfg/" ++ c.stem ++ ".cfg")

/-! ## `common.sh` and `common-$OS.sh` -/

/-- Assignments to variables, in order. -/
def Env.assigns (e : Env) (as : List (String × String)) : Env :=
  as.foldl (fun e a => Function.update e a.1 (some a.2)) e

/-- `common.sh` (lines 68-78). -/
def commonVars (e : Env) : List (String × String) :=
  [ ("GFXPT_BUS", "gpu.1"), ("GFXPT_ADDR", "0x0"), ("GFX_AUDIO", "pt"),
    ("USB_ROOT_PORT", e.valOr "USB_ROOT_PORT" "pcie-root-port"),
    ("NET_ROOT_PORT", (e "NET_ROOT_PORT").getD "pcie-root-port"),
    ("PT_ROOT_PORT", e.valOr "PT_ROOT_PORT" "ioh3420"),
    ("STORE_ROOT_PORT", e.valOr "STORE_ROOT_PORT" "ioh3420"),
    ("GFX_MODE", e.valOr "GFX_MODE" "uni") ]

/-- The scripts: those that install a pool, and `common-mac-i440.sh`. -/
inductive CommonOs
  | pool (os : Os)
  | macI440
  deriving DecidableEq, Repr

/-- `PT_ROOT_PORT=ioh3420 …` (common-mac.sh:35-38, common-bsd.sh:22-25). -/
def ioh3420Ports : List (String × String) :=
  [("PT_ROOT_PORT", "ioh3420"), ("USB_ROOT_PORT", "ioh3420"), ("NET_ROOT_PORT", "ioh3420"),
    ("STORE_ROOT_PORT", "ioh3420")]

/-- What a script assigns apart from `VPCI_BUS`. -/
def CommonOs.vars : CommonOs → List (String × String)
  | .pool .bsd => [("QEMU_MACHINE", "q35"), ("VIRTIO_MODE", "transitional")] ++ ioh3420Ports ++
      [("GFXPT_BUS", "pcie.8"), ("GFXPT_ADDR", "0x0")]
  | .pool .linux => [("QEMU_MACHINE", "pc-q35-5.0"), ("VIRTIO_MODE", "modern"),
      ("GFXPT_BUS", "gpu.1"), ("GFXPT_ADDR", "0x0"), ("MACHINE_OS", "linux")]
  | .pool .mac => ioh3420Ports ++ [("GFXPT_BUS", "gpu.1"), ("GFXPT_ADDR", "0x00"),
      ("MACHINE_OS", "mac")]
  | .pool .winI440 => [("QEMU_MACHINE", "pc-i440fx-4.2"), ("NET1_BUS", "pci.0"),
      ("NET1_ADDR", "0x0"), ("NET2_BUS", "pci.0"), ("NET2_ADDR", "0x0"), ("SCSI_BUS", "pci.0"),
      ("SCSI_ADDR", "0x0"), ("SCSI_CONTROLLER", "single"), ("MACHINE_OS", "win")]
  | .pool .winQ35 => [("GFXPT_BUS", "gpu.1"), ("GFXPT_ADDR", "0x0"), ("MACHINE_OS", "win")]
  | .macI440 => [("GFXPT_BUS", "pci.0"), ("SCSI_BUS", "pci.0"), ("NET_BUS", "pci.0"),
      ("MACHINE_OS", "mac")]

/-- The variables behind the two scripts; `e` is the machine's configuration. -/
def CommonOs.env (os : CommonOs) (e : Env) : Env := (e.assigns (commonVars e)).assigns os.vars

/-- `VPCI_BUS`; `common-mac-i440.sh` leaves it as the configuration has it. -/
def CommonOs.vpciBus (configured : List String) : CommonOs → List String
  | .pool os => os.vpciBus
  | .macI440 => configured

/-- The cfg files read, by the array the `-readconfig` is appended to: `QEMU_OPTS` by
    `common.sh` and by the script, `QEMU_CFG` and `CLOVER_OPTS` by the script. -/
structure ReadCfgs where
  common : List RepoCfg
  opts : List RepoCfg
  cfg : List RepoCfg
  clover : List RepoCfg

/-- The graphics port, for the mode `pt` only (common-linux.sh:60, common-mac.sh:18,
    common-win-q35.sh:31). -/
def gpuCfg (e : Env) : List RepoCfg := if e.val "GFX_MODE" = "pt" then [.q35Gpu] else []

/-- The files the two scripts read. `common-mac-i440.sh` begins with `QEMU_OPTS=(`, which
    drops what `common.sh` appended. -/
def CommonOs.reads (e : Env) : CommonOs → ReadCfgs
  | .pool .bsd => ⟨[.ipmi], [.q35Base, .q35Mon, .q35Input], [], []⟩
  | .pool .linux => ⟨[.ipmi], [], [.q35Base, .q35Input, .q35Mon] ++ gpuCfg e, []⟩
  | .pool .mac => ⟨[.ipmi], gpuCfg e, [.q35Base, .q35Input, .q35Mon, .macInput], []⟩
  | .pool .winI440 => ⟨[.ipmi], [], [.i440Base, .i440Mon, .i440Input, .guestAgent], []⟩
  | .pool .winQ35 => ⟨[.ipmi], [], [.q35Base, .q35Mon],
      gpuCfg e ++ if e.val "USB_MODE" = "pt" then [] else [.q35Input]⟩
  | .macI440 => ⟨[], [], [], []⟩

/-- `-device ipmi-bmc-sim,id=bmc` (common-bsd.sh:10). -/
def CommonOs.opts : CommonOs → List Opt
  | .pool .bsd => [⟨.device, [.raw "ipmi-bmc-sim", .kv "id" "bmc"]⟩]
  | _ => []

/-- The state behind the scripts. -/
def CommonOs.start (os : CommonOs) (e : Env) (configured : List String) : Gen :=
  { Gen.init (os.vpciBus configured) with
    qemuOpts := (os.reads e).common.map (cfgOpt e) ++ os.opts ++ (os.reads e).opts.map (cfgOpt e)
    qemuCfg := (os.reads e).cfg.map (cfgOpt e)
    cloverOpts := (os.reads e).clover.map (cfgOpt e) }

/-- The machine types QEMU gets. -/
inductive Machine
  | i440fx
  | q35
  deriving DecidableEq, Repr

/-- The type in the `[machine]` section the script reads (`q35--base_default.cfg`,
    `i440base.cfg`), or that of its `-machine` option. -/
def CommonOs.machine : CommonOs → Machine
  | .pool .winI440 => .i440fx
  | .macI440 => .i440fx
  | .pool _ => .q35

/-! ## USB -/

/-- `usb-spice.sh`: the companion controllers name their master's bus. -/
def usbSpiceOpts : List Opt :=
  [ ⟨.device, [.raw "ich9-usb-ehci1", .kv "id" "usb"]⟩,
    ⟨.device, [.raw "ich9-usb-uhci1", .kv "masterbus" "usb.0", .kv "firstport" "0",
      .kv "multifunction" "on"]⟩,
    ⟨.device, [.raw "ich9-usb-uhci2", .kv "masterbus" "usb.0", .kv "firstport" "2"]⟩,
    ⟨.device, [.raw "ich9-usb-uhci3", .kv "masterbus" "usb.0", .kv "firstport" "4"]⟩ ] ++
  ["1", "2", "3"].flatMap (fun k =>
    [ ⟨.chardev, [.raw "spicevmc", .kv "name" "usbredir", .kv "id" ("usbredirchardev" ++ k)]⟩,
      ⟨.device, [.raw "usb-redir", .kv "chardev" ("usbredirchardev" ++ k),
        .kv "id" ("usbredirdev" ++ k)]⟩ ]) ++
  [⟨.device, [.raw "usb-tablet"]⟩]

/-- `source kvm/usb-$USB_MODE.sh`; there is no other file. -/
def sourceUsb (e : Env) (h : Host) (g : Gen) : Option Gen :=
  if e.val "USB_MODE" = "pt" ∨ e.val "USB_MODE" = "pt-pc" then usb e h g
  else if e.val "USB_MODE" = "spice" then some (g.addOpts usbSpiceOpts)
  else if e.val "USB_MODE" = "virt" then some g
  else none

/-! ## Graphics -/

/-- The `gfx-$GFX_MODE.sh` files. -/
inductive GfxMode
  | kvmgt
  | off
  | ptI440
  | pt
  | qxlSpice
  | qxl
  | std
  | uni
  | virtioSpice
  | vmware
  deriving DecidableEq, Repr

/-- The file a text selects. -/
def GfxMode.ofText (s : String) : Option GfxMode :=
  [("kvmgt", kvmgt), ("none", off), ("pt-i440", ptI440), ("pt", pt), ("qxl-spice", qxlSpice),
    ("qxl", qxl), ("std", std), ("uni", uni), ("virtio-spice", virtioSpice),
    ("vmware", vmware)].lookup s

/-- The file begins with `source lib-gfx.sh`. -/
def GfxMode.sourcesLib : GfxMode → Bool
  | .ptI440 | .pt | .qxl | .std | .uni => true
  | _ => false

/-- The devices `lib-gfx.sh` adds (lines 86-121). -/
def libGfxOpts (e : Env) (h : Host) : List Opt :=
  let vgpu := e.val "GFX_ENABLE_VGPU"
  let pci := e.val "GFXPCI"
  (if vgpu = "sec" then [⟨.device, [.raw "secondary-vga"]⟩]
    else if vgpu = "bochs-display" then [⟨.device, [.raw "bochs-display"]⟩]
    else []) ++
  if pci = "" then []
  else [⟨.device, [.raw "vfio-pci-nohotplug", .kv "bus" "gpu.1", .kv "addr" "0x0.0",
      .kv "multifunction" "on", .kv "host" (pci ++ ".0" ++ h.rom pci ++ e.val "GFX_ARGS")]⟩]

/-- `add_vgpu` (lib-gfx.sh:57-84): VNC without a port ends the run. -/
def addVgpu (vnc port : String) (g : Gen) : Option Gen :=
  if vnc = "" then some g
  else if port = "" then none
  else some (g.addOpts [⟨.device, [.raw "usb-kbd"]⟩, ⟨.device, [.raw "usb-tablet"]⟩])

/-- `gfx-pt.sh` behind `source lib-gfx.sh`. Without the card `cat …/irq` fails. -/
def gfxPt (e : Env) (h : BootHost) (g : Gen) : Option Gen :=
  let dev := fn0 (e.val "GFXPCI")
  let audioDev := "0000:" ++ e.val "GFXPCI" ++ ".1"
  if !h.pci dev then none
  else
    let g := { g with preCmd := g.preCmd ++ [words ["vfio-bind", dev]] }
    let g := if h.pci audioDev then
        let g := { g with preCmd := g.preCmd ++ [words ["vfio-bind", audioDev]] }
        if e.val "GFX_AUDIO" = "pt" then
          g.addOpts [⟨.device, [.raw "vfio-pci", .kv "bus" (e.val "GFXPT_BUS"),
            .kv "addr" "0x00.0x1", .kv "host" (e.val "GFXPCI" ++ ".1")]⟩]
        else g
      else g
    addVgpu (e.val "GFX_ENABLE_VNC") (e.val "GFX_VNCPORT") g

/-- The devices of `gfx-qxl-spice.sh`. -/
def qxlSpiceOpts : List Opt :=
  [ ⟨.device, [.raw "qxl"]⟩,
    ⟨.device, [.raw "virtio-serial"]⟩,
    ⟨.device, [.raw "virtserialport", .kv "chardev" "spicechannel0",
      .kv "name" "com.redhat.spice.0"]⟩,
    ⟨.chardev, [.raw "spicevmc", .kv "id" "spicechannel0", .kv "debug" "0", .kv "name" "vdagent"]⟩,
    ⟨.device, [.raw "virtserialport", .kv "chardev" "charchannel2", .kv "id" "channel2",
      .kv "name" "org.spice-space.stream.0"]⟩,
    ⟨.chardev, [.raw "spiceport", .kv "name" "org.spice-space.stream.0",
      .kv "id" "charchannel2"]⟩ ]

/-- The devices of `gfx-virtio-spice.sh`. -/
def virtioSpiceOpts : List Opt :=
  [ ⟨.device, [.raw "virtio-serial-pci"]⟩,
    ⟨.device, [.raw "virtserialport", .kv "chardev" "spicechannel0",
      .kv "name" "com.redhat.spice.0"]⟩,
    ⟨.chardev, [.raw "spicevmc", .kv "id" "spicechannel0", .kv "debug" "0", .kv "name" "vdagent"]⟩,
    ⟨.device, [.raw "ich9-usb-ehci1", .kv "id" "susb"]⟩,
    ⟨.device, [.raw "ich9-usb-uhci1", .kv "masterbus" "susb.0", .kv "firstport" "0",
      .kv "multifunction" "on"]⟩,
    ⟨.device, [.raw "ich9-usb-uhci2", .kv "masterbus" "susb.0", .kv "firstport" "2"]⟩,
    ⟨.device, [.raw "ich9-usb-uhci3", .kv "masterbus" "susb.0", .kv "firstport" "4"]⟩,
    ⟨.device, [.raw "virtserialport", .kv "chardev" "charchannel1", .kv "id" "channel1",
      .kv "name" "org.spice-space.webdav.0"]⟩,
    ⟨.chardev, [.raw "spiceport", .kv "name" "org.spice-space.webdav.0",
      .kv "id" "charchannel1"]⟩,
    ⟨.device, [.raw "virtserialport", .kv "chardev" "charchannel2", .kv "id" "channel2",
      .kv "name" "org.spice-space.stream.0"]⟩,
    ⟨.chardev, [.raw "spiceport", .kv "name" "org.spice-space.stream.0",
      .kv "id" "charchannel2"]⟩ ]

/-- `gfx-kvmgt.sh`. -/
def gfxKvmgt (h : BootHost) (g : Gen) : Option Gen :=
  h.mdev.map fun uuid =>
    g.addOpts [⟨.device, [.raw "vfio-pci",
      .kv "sysfsdev" ("/sys/bus/pci/devices/0000:00:02.0/" ++ uuid), .kv "rombar" "0",
      .kv "display" "off"]⟩]

/-- `source kvm/gfx-$GFX_MODE.sh`. The branches of `gfx-uni.sh` and `gfx-std.sh` differ in
    the display only. -/
def sourceGfx (e : Env) (h : BootHost) (g : Gen) : Option Gen :=
  (GfxMode.ofText (e.val "GFX_MODE")).bind fun mode =>
    let g := if mode.sourcesLib then g.addOpts (libGfxOpts e h.toHost) else g
    match mode with
    | .kvmgt => gfxKvmgt h g
    | .ptI440 => gfxPtI440 e h.toHost g
    | .pt => gfxPt e h g
    | .qxl | .std | .uni => addVgpu "true" (e.val "GFX_VNCPORT") g
    | .qxlSpice => some (g.addOpts qxlSpiceOpts)
    | .virtioSpice => some (g.addOpts virtioSpiceOpts)
    | .off | .vmware => some g

/-! ## Networks -/

/-- `-device DRIVER,netdev=netK,…` without a bus. -/
def plainNic (driver net mac : String) (more : List Item) : Opt :=
  ⟨.device, [.raw driver, .kv "netdev" net] ++ more ++ [.kv "mac" mac]⟩

/-- `net-e1000.sh` and `net-e1000-82545em.sh`. -/
def e1000Opts (driver : String) (e : Env) : List Opt :=
  [ plainNic driver "net0" (e.val "NET_MACADDR") [.kv "id" "net0", .kv "addr" "10"],
    ⟨.netdev, [.raw "bridge", .kv "id" "net0", .kv "br" (e.val "NET_BR")]⟩ ]

/-- `net-e1000-dual.sh`. -/
def e1000DualOpts (e : Env) : List Opt :=
  [ plainNic "e1000" "net0" (e.val "NET1_MACADDR") [.kv "id" "net0"],
    ⟨.netdev, [.raw "bridge", .kv "id" "net0", .kv "br" "br0"]⟩,
    plainNic "e1000" "net1" (e.val "NET2_MACADDR") [.kv "id" "net1"],
    ⟨.netdev, [.raw "bridge", .kv "id" "net1", .kv "br" "br1"]⟩ ]

/-- `net-virtio.sh`. -/
def virtioOpts (e : Env) : List Opt :=
  [ plainNic "virtio-net-pci" "net0" (e.val "NET_MACADDR") [],
    ⟨.netdev, [.raw "bridge", .kv "id" "net0", .kv "br" (e.val "NET_BR")]⟩ ]

/-- `net-virtio-dual.sh` and `net-virtio-vhost-dual.sh`, which differ in the netdevs. -/
def virtioDualOpts (netdev : String → String → Opt) (e : Env) : List Opt :=
  [ plainNic "virtio-net-pci" "net0" (e.val "NET1_MACADDR") [], netdev "net0" (e.val "NET1_BR"),
    plainNic "virtio-net-pci" "net1" (e.val "NET2_MACADDR") [], netdev "net1" (e.val "NET2_BR") ]

/-- `-netdev bridge,id=netK,br=BR`. -/
def bridgeNetdev (net br : String) : Opt :=
  ⟨.netdev, [.raw "bridge", .kv "id" net, .kv "br" br]⟩

/-- `-netdev tap,id=netK,vhost=on,helper=…`. -/
def helperNetdev (net br : String) : Opt :=
  ⟨.netdev, [.raw "tap", .kv "id" net, .kv "vhost" "on",
    .kv "helper" ("\"/usr/lib/qemu/qemu-bridge-helper --br=" ++ br ++ "\"")]⟩

/-- The arguments of `net-macvtap-vmxnet.sh` for interface `n`. -/
def vmxnetArgs (e : Env) (n : String) : NetArgs :=
  ⟨e.val ("NET" ++ n ++ "_DEV"), e.val ("NET" ++ n ++ "_VF"), e.val ("NET" ++ n ++ "_MACADDR"),
    e.val ("NET" ++ n ++ "_BUS"), e.val ("NET" ++ n ++ "_ADDR"), ""⟩

/-- One line of `net-macvtap-vmxnet.sh`: the bus is the configuration's. -/
def vmxnetIface (e : Env) (h : Host) (g : Gen) (n : String) : Option Gen :=
  if e.val ("NET" ++ n ++ "_MODE") = "" then some g
  else (IfaceMode.ofText (e.val ("NET" ++ n ++ "_MODE"))).bind
    (addIface e h.virtfn (vmxnetArgs e n) g)

/-- `add_macvtap_iface "$BR" "" "$MACADDR"`: there is no fourth argument. -/
def macvtapArgs (br mac : String) : NetArgs := ⟨br, "", mac, "", "", ""⟩

/-- `net-macvtap-virtio-vhost.sh` and its `-dual` variant, over the variables of their
    calls. -/
def macvtapVhost (e : Env) (h : Host) (vars : List (String × String)) (g : Gen) : Option Gen :=
  Runs.run (fun g v => addIface e h.virtfn (macvtapArgs (e.val v.1) (e.val v.2)) g .macvtap) vars g

/-- The variables of `net-macvtap-virtio-vhost.sh`. -/
def vhostVars : List (String × String) := [("NET_BR", "NET_MACADDR")]

/-- The variables of `net-macvtap-virtio-vhost-dual.sh`. -/
def vhostDualVars : List (String × String) :=
  [("NET1_BR", "NET1_MACADDR"), ("NET2_BR", "NET2_MACADDR")]

/-- `source kvm/net-$NET_MODE.sh` for a mode that is set. `net-virtio-vhost.sh` passes the
    address as second argument, where `add_tap_iface` does not look for it. -/
def sourceNet (e : Env) (h : Host) (g : Gen) : Option Gen :=
  let mode := e.val "NET_MODE"
  if mode = "" then some g
  else if mode = "uni" then netUni e h g
  else if mode = "macvtap-vmxnet" then Runs.run (vmxnetIface e h) ["1", "2"] g
  else if mode = "macvtap-virtio-vhost" then macvtapVhost e h vhostVars g
  else if mode = "macvtap-virtio-vhost-dual" then macvtapVhost e h vhostDualVars g
  else if mode = "virtio-vhost" then
    some (addTapIface e ⟨e.val "NET_BR", e.val "NET_MACADDR", "", "", "", ""⟩ g)
  else if mode = "e1000" then some (g.addOpts (e1000Opts "e1000" e))
  else if mode = "e1000-82545em" then some (g.addOpts (e1000Opts "e1000-82545em" e))
  else if mode = "e1000-dual" then some (g.addOpts (e1000DualOpts e))
  else if mode = "virtio" then some (g.addOpts (virtioOpts e))
  else if mode = "virtio-dual" then some (g.addOpts (virtioDualOpts bridgeNetdev e))
  else if mode = "virtio-vhost-dual" then some (g.addOpts (virtioDualOpts helperNetdev e))
  else none

/-! ## The rest -/

/-- `vm-genid.sh`. -/
def vmGenid (e : Env) : List Opt :=
  [⟨.device, [.raw "vmgenid", .kv "guid" (e.val "UUID")]⟩]

/-- `source kvm/sound-$SOUND_MODE.sh` for a mode that is set. -/
def sourceSound (e : Env) (g : Gen) : Option Gen :=
  if e.val "SOUND_MODE" = "" then some g
  else if e.val "SOUND_MODE" = "intel-hda" then
    some (g.addOpts [⟨.device, [.raw "ich9-intel-hda"]⟩, ⟨.device, [.raw "hda-duplex"]⟩])
  else none

/-- `fs-shared.sh`. -/
def fsShared (e : Env) : List Opt :=
  if e.val "FS9P" = "" then []
  else [⟨.device, [.raw "virtio-9p-pci", .kv "id" "fs0", .kv "fsdev" "fsdev0",
    .kv "mount_tag" "shared"]⟩]

/-- The fragments behind `common-$OS.sh`, in the order `genconfig.sh` sources them. -/
def fragments (e : Env) (h : BootHost) (g : Gen) : Option Gen :=
  (sourceUsb e h.toHost g).bind fun g =>
  (sourceGfx e h g).bind fun g =>
  (hddUni e h.toHost g).bind fun g =>
  (teradici e h.toHost g).bind fun g =>
  (sourceNet e h.toHost (g.addOpts (vmGenid e))).bind fun g =>
  (if firstTwo e "NET" then netUni e h.toHost g else some g).bind fun g =>
  (if firstTwo e "PT" then pciPt e g else some g).bind fun g =>
  (sourceSound e g).map fun g => g.addOpts (fsShared e)

/-- One run of `genconfig.sh`, for a machine's configuration. -/
def genconfig (os : CommonOs) (configured : List String) (e : Env) (h : BootHost) : Option Gen :=
  fragments (os.env e) h (os.start (os.env e) configured)

end KvmOsx.Genconfig
