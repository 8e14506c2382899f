import KvmOsx.Genconfig.Disk
import KvmOsx.Genconfig.Net

/-!
# Passthrough and the order of `genconfig.sh`

The fragments that pass host PCI functions through (`usb-pt.sh`, `usb-pt-pc.sh`,
`gfx-pt-i440.sh`, `teradici.sh`, `pci-pt.sh` with `lib-pt.sh`) push
`vfio-bind ADDRESS…` onto `RUN_PRE_BOOT`; `usb-pt.sh`, `net-uni.sh` and
`pci-pt.sh` put devices on root ports that `add_vpci` returns.

* `Host`: what the fragments ask the running host.
* `genPci`: the fragments that allocate root ports or queue devices, in the order of
  `genconfig.sh`.
-/

namespace KvmOsx.Genconfig

open Script Text

/-- Answers of the host: the target of a virtual function's link, `diskarg`, whether
    `lspci -s` succeeds, and the ROM argument of a graphics card. -/
structure Host where
  virtfn : String → Option String
  diskarg : String → String → String
  lspci : String → Bool
  rom : String → String

/-- `-device vfio-pci,host=…,bus=…,addr=…` and further items. -/
def vfioPci (host bus addr : String) (more : List Item) : Opt :=
  ⟨.device, [.raw "vfio-pci", .kv "host" host, .kv "bus" bus, .kv "addr" addr] ++ more⟩

/-- `RUN_PRE_BOOT+=( vfio-bind … )`. -/
def Gen.queueBind (g : Gen) (addrs : List String) : Gen :=
  { g with runPreBoot := g.runPreBoot ++ "vfio-bind" :: addrs }

/-- A fragment's last command `lspci -s SLOT` under `set -e`. -/
def checkLspci (lspci : String → Bool) (slot : String) (g : Gen) : Option Gen :=
  if lspci slot then some g else none

/-! ## USB -/

/-- `0000:${pci}.0`. -/
def fn0 (pci : String) : String := "0000:" ++ pci ++ ".0"

/-- A port from `add_vpci USBPCI_BUS` with the controller on it (usb-pt.sh:9-13, 17-20, 28-31). -/
def usbOnPort (e : Env) (pci addr : String) (g : Gen) : Option Gen :=
  (addVpci e .usbpciBus (e.valOr "USB_ROOT_PORT" "pcie-root-port") g).map fun g =>
    g.addOpts [vfioPci (pci ++ ".0") (g.vars "USBPCI_BUS") addr [.kv "rombar" "1"]]

/-- `usb-pt.sh`. The first controller is queued before its port is allocated, the
    others after. -/
def usbPt (e : Env) (h : Host) (g : Gen) : Option Gen :=
  let pci := e.val "USBPCI"
  let pci1 := e.val "USBPCI_1"
  let pci2 := e.val "USBPCI_2"
  (usbOnPort e pci "0.0" ((sourceLibPci g).queueBind [fn0 pci])).bind fun g =>
  (if pci1 = "" then some g else (usbOnPort e pci1 "0" g).map (·.queueBind [fn0 pci1])).bind fun g =>
  (if pci2 = "" then some g else (usbOnPort e pci2 "0.0" g).map (·.queueBind [fn0 pci2])).bind
    (checkLspci h.lspci pci)

/-- `PCI_PT` (usb-pt-pc.sh:3-7): unquoted, so empty ones drop out. -/
def pciPtDevs (e : Env) : List String :=
  unquoted [e.val "USBPCI_1", e.val "USBPCI_2", e.val "USBPCI_3"]

/-- `usb-pt-pc.sh`. -/
def usbPtPc (e : Env) (g : Gen) : Gen :=
  (pciPtDevs e).foldl (fun g dev =>
    (g.addOpts [vfioPci (dev ++ ".0") "pci.0" (cut ':' 2 dev) []]).queueBind [fn0 dev]) g

/-- `source kvm/usb-$USB_MODE.sh`; the other modes touch nothing modelled here. -/
def usb (e : Env) (h : Host) (g : Gen) : Option Gen :=
  if e.val "USB_MODE" = "pt" then usbPt e h g
  else if e.val "USB_MODE" = "pt-pc" then some (usbPtPc e g)
  else some g

/-! ## Graphics and Teradici -/

/-- `gfx-pt-i440.sh`, without the display options. -/
def gfxPtI440 (e : Env) (h : Host) (g : Gen) : Option Gen :=
  let pci := e.val "GFXPCI"
  let xvga := if e.val "GFXVGA" = "on" then ",x-vga=on" else ""
  let g := g.queueBind [fn0 pci, "0000:" ++ pci ++ ".1"]
  checkLspci h.lspci pci
    { g with
      cloverOpts := g.cloverOpts ++ [⟨.device, [.raw "vfio-pci", .kv "host" (pci ++ ".0"),
        .kv "addr" ("04.0" ++ h.rom pci ++ xvga)]⟩] }

/-- `source kvm/gfx-$GFX_MODE.sh`; the other modes queue nothing. -/
def gfx (e : Env) (h : Host) (g : Gen) : Option Gen :=
  if e.val "GFX_MODE" = "pt-i440" then gfxPtI440 e h g else some g

/-- One function of the Teradici card. -/
def teradiciFn (pci fn : String) (more : List Item) : Opt :=
  vfioPci (pci ++ "." ++ fn) "pcie.5" ("0." ++ fn) more

/-- `teradici.sh`. -/
def teradici (e : Env) (h : Host) (g : Gen) : Option Gen :=
  let pci := e.val "TERADICI_PCI"
  if pci = "" then some g
  else
    let g := ["0", "1", "2", "3", "4"].foldl
      (fun g fn => g.queueBind ["0000:" ++ pci ++ "." ++ fn]) g
    checkLspci h.lspci pci
      (g.addOpts [teradiciFn pci "0" [.kv "multifunction" "on"], teradiciFn pci "1" [],
        teradiciFn pci "2" [], teradiciFn pci "3" [], teradiciFn pci "4" []])

/-! ## Disks and networks -/

/-- The disks `hdd-uni.sh` tries to attach (lines 20-24). -/
def diskNames : List String := ["clover", "system", "data", "data1", "data2"]

/-- `hdd-uni.sh`; it sources `lib-pci.sh` through `lib-hdd.sh`. -/
def hddUni (e : Env) (h : Host) (g : Gen) : Option Gen :=
  Runs.run (addDisk e h.diskarg) diskNames (sourceLibPci g)

/-- `add_${NETn_MODE}_iface "$NETn_DEV" … BUS ADDR "$NETn_VLAN"`; a mode without a
    function ends the run. -/
def netIface (e : Env) (h : Host) (n bus addr : String) (g : Gen) : Option Gen :=
  (IfaceMode.ofText (e.val ("NET" ++ n ++ "_MODE"))).bind
    (addIface e h.virtfn ⟨e.val ("NET" ++ n ++ "_DEV"), e.val ("NET" ++ n ++ "_VF"),
      e.val ("NET" ++ n ++ "_MACADDR"), bus, addr, e.val ("NET" ++ n ++ "_VLAN")⟩ g)

/-- `NET_PCI_BUS` (net-uni.sh:5-9). -/
def netPciBus (e : Env) : String :=
  if "pc-i440fx".toList <:+: (e.val "QEMU_MACHINE").toList then "pci.0" else "pcie.0"

/-- Line 12 of `net-uni.sh`: the first interface sits on the root bus. -/
def net1 (e : Env) (h : Host) (g : Gen) : Option Gen :=
  if e.val "NET1_MODE" = "" then some g else netIface e h "1" (netPciBus e) "0x19" g

/-- Lines 13-15 of `net-uni.sh`: the others sit on a port of their own.
    `NET_ROOT_PORT` is defaulted with `-`, so an empty value stays. -/
def netOnPort (e : Env) (h : Host) (g : Gen) (n : String) : Option Gen :=
  if e.val ("NET" ++ n ++ "_MODE") = "" then some g
  else (addVpci e .vpciName ((e "NET_ROOT_PORT").getD "pcie-root-port") g).bind fun g =>
    netIface e h n (g.vars "VPCI_NAME") "0x0" g

/-- `net-uni.sh`. -/
def netUni (e : Env) (h : Host) (g : Gen) : Option Gen :=
  (net1 e h (sourceLibPci g)).bind (Runs.run (netOnPort e h) ["2", "3", "4"])

/-! ## PCIe passthrough -/

/-- `add_io3420_port` (lib-pt.sh:12-20). -/
def addIo3420Port (name : String) (g : Gen) : Gen :=
  let cc := num g.chassisCount
  { g with
    qemuSw := g.qemuSw ++ [⟨.device, [.raw "pcie-root-port", .kv "id" (name ++ ".1"),
      .kv "chassis" ("1" ++ cc), .kv "addr" ("0x1" ++ cc ++ ".0"), .kv "bus" "pcie.0"]⟩]
    chassisCount := g.chassisCount + 1 }

/-- `add_pciept_dev` (lib-pt.sh:47-76); its third argument is not used. -/
def addPcieptDev (hostPciport vmBus : String) (g : Gen) : Gen :=
  if hostPciport = "" then g
  else
    let g := g.queueBind [hostPciport]
    let dev bus := vfioPci hostPciport bus "0x0" [.kv "romfile" ""]
    if vmBus = "" then
      let bus := "pt_" ++ num g.pciCurrentSlot
      let g := addIo3420Port bus g
      { g.addOpts [dev (bus ++ ".1")] with
        pciCurrentSlot := g.pciCurrentSlot + 1
        chassisCount := g.chassisCount + 1 }
    else g.addOpts [dev vmBus]

/-- One line of `pci-pt.sh`; `add_pciept_dev` is the only function `add_<mode>_dev`. -/
def ptOnPort (e : Env) (g : Gen) (n : String) : Option Gen :=
  let mode := e.val ("PT" ++ n ++ "_MODE")
  if mode = "" then some g
  else (addVpci e .ptBus (e.valOr "PT_ROOT_PORT" "ioh3420") g).bind fun g =>
    if mode = "pciept" then
      some (addPcieptDev (e.val ("PT" ++ n ++ "_PCI")) (g.vars "PT_BUS") g)
    else none

/-- `pci-pt.sh`. -/
def pciPt (e : Env) (g : Gen) : Option Gen :=
  Runs.run (ptOnPort e) ["1", "2", "3", "4", "5"] g

/-! ## `genconfig.sh` -/

/-- `[[ ! -z "$X1_MODE" ]] || [[ ! -z "$X2_MODE" ]]` (genconfig.sh:34, 39): only the
    first two modes decide whether the fragment is sourced. -/
def firstTwo (e : Env) (kind : String) : Bool :=
  e.val (kind ++ "1_MODE") ≠ "" ∨ e.val (kind ++ "2_MODE") ≠ ""

/-- The fragments above, in the order `genconfig.sh` sources them. -/
def genPci (e : Env) (h : Host) (g : Gen) : Option Gen :=
  (usb e h g).bind fun g =>
  (gfx e h g).bind fun g =>
  (hddUni e h g).bind fun g =>
  (teradici e h g).bind fun g =>
  (if firstTwo e "NET" then netUni e h g else some g).bind fun g =>
  if firstTwo e "PT" then pciPt e g else some g

end KvmOsx.Genconfig
