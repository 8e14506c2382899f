import KvmOsx.Genconfig.State

/-!
# The network emitters (`kvm/lib-net.sh`, `lib-net-ovs.sh`, `lib-net-vpp.sh`)

`net-uni.sh` calls `add_<mode>_iface DEV VF MAC BUS ADDR VLAN` for each
configured interface. The nine netdev emitters append one `-netdev` and, through
a device function, one `-device` that refers to it, and count `NET_INDEX`;
`add_sriov_iface` and `add_vfio_iface` pass a PCI function through.

Where a call leaves an argument unquoted, an empty text is no argument
(`unquoted`). `readlink sysfs` of a virtual function is a parameter `virtfn`: the
base name of the link's target, `none` when there is no such link, which ends
the run under `set -e`.
-/

namespace KvmOsx.Genconfig

open Script Text

/-! ## Arguments and names -/

/-- The arguments `net-uni.sh` passes to an emitter. -/
structure NetArgs where
  dev : String
  vf : String
  mac : String
  bus : String
  addr : String
  vlan : String
  deriving DecidableEq, Repr

/-- `$k` of a function called with `args`. -/
def arg (args : List String) (k : ℕ) : String := args.getD (k - 1) ""

/-- The arguments of a call that does not quote them. -/
def unquoted (args : List String) : List String := args.filter (· ≠ "")

/-- An entry of unquoted words: an empty expansion leaves no word in its text. -/
def entry (ws : List String) : Line := words (unquoted ws)

/-- `'text'`. -/
def quoted (text : String) : String := "'" ++ text ++ "'"

/-- The machine name without its hyphens, cut to 11 characters (lib-net.sh:75-76). -/
def vtapMachine (machine : String) : String :=
  String.ofList (((echo machine).toList.filter (· ≠ '-')).take 11)

/-- `VTAP_NAME` of the emitters that use a prefix letter (lib-net.sh:77, 151, 174,
    lib-net-ovs.sh:21, lib-net-vpp.sh:75). -/
def vtapName (pre machine : String) (i : ℕ) : String :=
  pre ++ "_" ++ vtapMachine machine ++ "n" ++ num i

/-- `VTAP_NAME` of `add_vpp_iface` (lib-net-vpp.sh:19-22). -/
def vppName (machine : String) (i : ℕ) : String := "qemu_" ++ machine ++ "_" ++ num i

/-- `/sys/class/net/NAME`. -/
def sysNet (name : String) : String := "/sys/class/net/" ++ name

/-- `net$NET_INDEX`. -/
def netId (i : ℕ) : String := "net" ++ num i

/-- `nchar$NET_INDEX`. -/
def ncharId (i : ℕ) : String := "nchar" ++ num i

/-- The variable `TAPNUM_${NET_INDEX}`. -/
def tapnum (i : ℕ) : String := "TAPNUM_" ++ num i

/-- `TAPNUM_${NET_INDEX}=$(< /sys/class/net/$VTAP_NAME/ifindex)`. -/
def readTapnum (i : ℕ) (vtap : String) : Line :=
  [.assign (tapnum i) ("$(< " ++ sysNet vtap ++ "/ifindex)")]

/-! ## The device functions -/

/-- `VTM` of `_add_virtio_device` (lib-net.sh:276-298); `DISABLE_OFFL` is empty. -/
def virtioVtm (mode : String) : String :=
  if mode = "modern" then
    ",disable-legacy=on,disable-modern=off,modern-pio-notify=on,ats=on" ++
      ",mq=on,vectors=8" ++ ",tx_queue_size=1024,rx_queue_size=1024"
  else if mode = "transitional" then
    ",disable-legacy=off,disable-modern=off,modern-pio-notify=off,ats=on" ++
      ",mq=on,vectors=8" ++ ",tx_queue_size=1024,rx_queue_size=1024"
  else ",disable-legacy=off,disable-modern=on" ++ ",tx_queue_size=1024,rx_queue_size=1024"

/-- `_add_virtio_device` (lib-net.sh:274-304). -/
def addVirtioDevice (e : Env) (args : List String) (g : Gen) : Gen :=
  let bus := if arg args 2 = "" then "virtio." ++ num g.netVirtioCurrentSlot else arg args 2
  let addr := if arg args 3 = "" then quoted "0" else arg args 3
  let device := if arg args 4 = "" then "virtio-net-pci" else arg args 4
  let vtm := virtioVtm (e.val "VIRTIO_MODE")
  { g.addOpts [⟨.device, [.raw (device ++ vtm), .kv "bus" bus, .kv "addr" addr,
      .kv "netdev" (netId g.netIndex), .kv "mac" (arg args 1)]⟩] with
    vtm := vtm
    netVirtioCurrentSlot := g.netVirtioCurrentSlot + 1 }

/-- `_add_e1000_device` and `_add_vmxnet_device` (lib-net.sh:19-46), which differ
    in the driver. -/
def addPlainDevice (driver : String) (args : List String) (g : Gen) : Gen :=
  { g.addOpts [⟨.device, [.raw driver, .kv "bus" (arg args 2), .kv "addr" (arg args 3),
      .kv "netdev" (netId g.netIndex), .kv "mac" (arg args 1)]⟩] with
    netPciCurrentSlot := g.netPciCurrentSlot + 1 }

/-- `_add_e1000_device`. -/
def addE1000Device : List String → Gen → Gen := addPlainDevice "e1000-82545em"

/-- `_add_vmxnet_device`. -/
def addVmxnetDevice : List String → Gen → Gen := addPlainDevice "vmxnet3"

/-- The function named by `CB`. -/
inductive NetCb
  | virtio
  | e1000
  | vmxnet
  deriving DecidableEq, Repr

/-- `$CB …`. -/
def NetCb.call (e : Env) : NetCb → List String → Gen → Gen
  | .virtio => addVirtioDevice e
  | .e1000 => addE1000Device
  | .vmxnet => addVmxnetDevice

/-! ## The emitters -/

/-- The guards `[[ -z "$NET_BR" ]] && … return` and `[[ -z "$NET_MACADDR" ]] && …
    return` at the head of every netdev emitter. -/
def NetArgs.rejected (a : NetArgs) : Bool := a.dev = "" || a.mac = ""

/-- The entries that prepare a virtual function for macvtap passthru
    (lib-net.sh:83-102). -/
def passthruPre (a : NetArgs) (pciport ptname : String) : List Line :=
  let lab := a.dev ++ "::" ++ a.vf
  [ words ["echo", quoted (lab ++ " -> macvtap passthru")],
    words ["drv-bind", "igbvf", pciport],
    words ["echo", quoted (lab ++ " -> bringing interface down")],
    words ["ip", "link", "set", ptname, "down"],
    words ["echo", quoted (lab ++ " -> setting mtu")],
    words ["ip", "link", "set", a.dev, "mtu", "1500"],
    words ["ip", "link", "set", ptname, "down"],
    words ["ip", "link", "set", ptname, "mtu", "1500"],
    words ["echo", quoted (lab ++ " -> setting macaddr " ++ a.mac)],
    entry ["ip", "link", "set", a.dev, "vf", a.vf, "mac", quoted a.mac],
    words ["echo", quoted (lab ++ " -> setting VLAN " ++ a.vlan)],
    entry ["ip", "link", "set", a.dev, "vf", a.vf, "vlan", a.vlan],
    words ["echo", quoted (lab ++ " -> disableing spoofchk")],
    entry ["ip", "link", "set", a.dev, "vf", a.vf, "spoofchk", "off"],
    words ["echo", quoted (lab ++ " -> setting trust")],
    entry ["ip", "link", "set", a.dev, "vf", a.vf, "trust", "on"],
    words ["echo", quoted (lab ++ " -> bringing interface up")],
    words ["ip", "link", "set", ptname, "up"] ]

/-- The entries that create a macvtap interface on `br` (lib-net.sh:106-114). -/
def macvtapPre (br mac netArgs vtap : String) (i : ℕ) : List Line :=
  [ words ["test", "-x", sysNet vtap] ++ [.andIf] ++
      words ["echo", "MACVTAP", "Device", "Exists:", vtap ++ ",", "...", "recreating", "it"] ++
      [.andIf] ++ words ["ip", "link", "del", "dev", vtap],
    words ["sleep", "1"],
    words ["echo", quoted (br ++ "::" ++ vtap ++ " -> setting mode " ++ netArgs)],
    words ["ip", "link", "add", "link", br, "name", vtap, "address", mac, "type", "macvtap",
      "mode", netArgs],
    words ["sleep", "1"],
    words ["ip", "link", "set", "dev", vtap, "up"],
    readTapnum i vtap ]

/-- The last part of `add_macvtap_iface` (lib-net.sh:106-134), on the interface
    `br` and after `pre` was appended to `PRE_CMD`. -/
def macvtapEmit (e : Env) (br : String) (pre : List Line) (a : NetArgs) (qemuDevice : String)
    (cb : NetCb) (netArgs : String) (g : Gen) : Gen :=
  let i := g.netIndex
  let vtap := vtapName "m" (e.val "MACHINE") i
  let fd := num (i + 3) ++ "0"
  let g := g.append
    { opts := [⟨.netdev, [.raw "tap", .kv "fd" fd, .kv "id" (netId i)]⟩]
      pre := pre ++ macvtapPre br a.mac netArgs vtap i
      post := [words ["ip", "link", "del", "dev", vtap]]
      fds := [⟨fd, "/dev/tap", some (tapnum i)⟩, ⟨num (i + 3) ++ "1", "/dev/vhost-net", none⟩] }
  let g := cb.call e [a.mac, a.bus, a.addr, qemuDevice] g
  { g with netIndex := i + 1 }

/-- `add_macvtap_iface` (lib-net.sh:61-135). -/
def addMacvtapIface (e : Env) (virtfn : String → Option String) (a : NetArgs)
    (qemuDevice : String) (cb : NetCb) (netArgs : String) (g : Gen) : Option Gen :=
  if a.rejected then some g
  else if netArgs = "passthru" then
    (virtfn (sysNet a.dev ++ "/device/virtfn" ++ a.vf)).map fun pciport =>
      let ptname := a.dev ++ "v" ++ a.vf
      macvtapEmit e ptname (passthruPre a pciport ptname) a qemuDevice cb netArgs g
  else some (macvtapEmit e a.dev [] a qemuDevice cb netArgs g)

/-- `add_bridge_iface` (lib-net.sh:137-159); the device call is unquoted. -/
def addBridgeIface (e : Env) (a : NetArgs) (g : Gen) : Gen :=
  if a.rejected then g
  else
    let i := g.netIndex
    let g := g.append
      { opts := [⟨.netdev, [.raw "bridge", .kv "id" (netId i), .kv "br" a.dev]⟩]
        pre := [], post := [], fds := [] }
    let g := addVirtioDevice e (unquoted [a.mac, a.bus, a.addr]) g
    { g with netIndex := i + 1 }

/-- `add_tap_iface` (lib-net.sh:161-182); the device call is unquoted. -/
def addTapIface (e : Env) (a : NetArgs) (g : Gen) : Gen :=
  if a.rejected then g
  else
    let i := g.netIndex
    let g := g.append
      { opts := [⟨.netdev, [.raw "tap", .kv "id" (netId i), .kv "downscript" "/etc/qemu/tapdown",
          .kv "script" "/etc/qemu/tapup", .kv "ifname" (vtapName "t" (e.val "MACHINE") i)]⟩]
        pre := [], post := [], fds := [] }
    let g := addVirtioDevice e (unquoted [a.mac, a.bus, a.addr]) g
    { g with netIndex := i + 1 }

/-- `test -x … && echo … && ip addr flush dev … && ip link set … down && ip link
    del …` (lib-net-ovs.sh:28, 39). -/
def ovsDestroy (lbl vtap : String) : Line :=
  words ["test", "-x", sysNet vtap] ++ [.andIf] ++
    words ["echo", lbl, "Device", "Exists:", vtap ++ ",", "...", "recreating", "it"] ++
    [.andIf] ++ words ["ip", "addr", "flush", "dev", vtap] ++ [.andIf] ++
    words ["ip", "link", "set", vtap, "down"] ++ [.andIf] ++ words ["ip", "link", "del", vtap]

/-- `(ovs-vsctl list-ports BR | grep NAME) && ovs-vsctl del-port BR NAME`
    (lib-net-ovs.sh:29, 40). -/
def ovsDelPort (br vtap : String) : Line :=
  [.lpar] ++ words ["ovs-vsctl", "list-ports", br] ++ [.pipe] ++ words ["grep", vtap] ++ [.rpar] ++
    [.andIf] ++ words ["ovs-vsctl", "del-port", br, vtap]

/-- `add_ovs_iface` (lib-net-ovs.sh:3-55). `P_VLAN` keeps the value of an earlier
    call when `VLAN` is empty. -/
def addOvsIface (e : Env) (a : NetArgs) (g : Gen) : Gen :=
  if a.rejected then g
  else
    let i := g.netIndex
    let vtap := vtapName "o" (e.val "MACHINE") i
    let lbl := "OVS[" ++ num i ++ "]"
    let pVlan := if a.vlan = "" then g.pVlan else "tag=" ++ a.vlan
    let g := { g with pVlan := pVlan }
    let g := g.append
      { opts := [⟨.netdev, [.raw "tap", .kv "ifname" vtap, .kv "script" "", .kv "downscript" "",
          .kv "id" (netId i)]⟩]
        pre :=
          [ ovsDestroy lbl vtap,
            ovsDelPort a.dev vtap,
            words ["sleep", "1"],
            words ["ip", "tuntap", "add", "mode", "tap", vtap],
            entry ["ovs-vsctl", "add-port", a.dev, vtap, pVlan],
            words ["sleep", "1"],
            words ["ip", "link", "set", "dev", vtap, "up"],
            readTapnum i vtap ]
        post := [ovsDestroy lbl vtap, ovsDelPort a.dev vtap]
        fds := [] }
    let g := addVirtioDevice e [a.mac, a.bus, a.addr, "virtio-net-pci"] g
    { g with netIndex := i + 1 }

/-- `VPPPORT=$( cat IFNAME )`. -/
def catVppport (ifname : String) : Tok := .assign "VPPPORT" ("$( cat " ++ ifname ++ " )")

/-- `[[ TEST FILE ]] && VPPPORT=… && vppctl delete KIND $VPPPORT && rm … && echo …`
    (lib-net-vpp.sh:31, 40, 79, 90). -/
def vppDestroy (test file kind ifname : String) (rms : List String) : Line :=
  words ["[[", test, file, "]]"] ++ [.andIf, catVppport ifname, .andIf] ++
    words ["vppctl", "delete", kind, "$VPPPORT"] ++ [.andIf] ++
    rms.flatMap (fun f => words ["rm", f] ++ [.andIf]) ++ words ["echo", "Destroyed", "$VPPPORT"]

/-- `[[ ! -S SOCK ]] && VPPPORT=$( vppctl create … ) || VPPPORT=$( cat IFNAME )`
    (lib-net-vpp.sh:32). -/
def vppCreate (sock ifname mac : String) : Line :=
  words ["[[", "!", "-S", sock, "]]"] ++ [.andIf, .assign "VPPPORT" ("$( vppctl create vhost socket "
    ++ sock ++ " hwaddr " ++ mac ++ " | tee  " ++ ifname ++ " )"), .orIf, catVppport ifname]

/-- `VPPPORT=$( vppctl create tap … )` (lib-net-vpp.sh:81). -/
def vpptapCreate (vtap ifname : String) : Line :=
  [.assign "VPPPORT" ("$( vppctl create tap host-if-name " ++ vtap ++
    " hw-addr 52:54:00:AB:2E:ED host-mac-addr 52:54:00:AB:2E:ED | tee " ++ ifname ++ " )")]

/-- The three `vppctl set interface` entries (lib-net-vpp.sh:33-35, 82-84). -/
def vppSetup (br : String) : List Line :=
  [ words ["vppctl", "set", "interface", "state", "$VPPPORT", "up"],
    words ["vppctl", "set", "interface", "mtu", "1500", "$VPPPORT"],
    words ["vppctl", "set", "interface", "l2", "bridge", "$VPPPORT", br] ]

/-- `add_vpp_iface` (lib-net-vpp.sh:3-59). -/
def addVppIface (e : Env) (a : NetArgs) (g : Gen) : Gen :=
  if a.rejected then g
  else
    let i := g.netIndex
    let name := vppName (e.val "MACHINE") i
    let sock := "/run/vpp/" ++ name ++ ".sock"
    let ifname := "/run/vpp/" ++ name ++ ".ifname"
    let destroy := vppDestroy "-S" sock "vhost-user" ifname [sock, ifname]
    let pVlan := if a.vlan = "" then g.pVlan else "tag=" ++ a.vlan
    let xtra := if e.val "VIRTIO_MODE" = "modern" then [Item.kv "queues" "3"] else []
    let g := { g with pVlan := pVlan }
    let g := g.append
      { opts :=
          [ ⟨.chardev, [.raw "socket", .kv "id" (ncharId i), .kv "path" sock,
              .kv "logfile" (sock ++ ".log"), .raw "nowait", .raw "server"]⟩,
            ⟨.netdev, [.raw "vhost-user", .kv "vhostforce" "on", .kv "chardev" (ncharId i),
              .kv "id" (netId i)] ++ xtra⟩ ]
        pre := [destroy, vppCreate sock ifname a.mac] ++ vppSetup a.dev
        post := [destroy]
        fds := [] }
    let g := addVirtioDevice e [a.mac, a.bus, a.addr, "virtio-net-pci"] g
    { g with netIndex := i + 1 }

/-- `add_vpptap_iface` (lib-net-vpp.sh:61-104). `NETDEV` is that of an earlier
    `add_sriov_iface` or `add_vfio_iface`. -/
def addVpptapIface (e : Env) (a : NetArgs) (g : Gen) : Gen :=
  if a.rejected then g
  else
    let i := g.netIndex
    let vtap := vtapName "t" (e.val "MACHINE") i
    let ifname := "/run/vpp/" ++ vtap ++ ".ifname"
    let destroy := vppDestroy "-e" ifname "tap" ifname [ifname]
    let fd := num (i + 3) ++ "0"
    let g := g.append
      { opts := [⟨.netdev, [.raw "tap", .kv "fd" fd, .kv "id" (netId i)]⟩]
        pre :=
          [ destroy,
            words ["echo", quoted (g.netdev ++ "::" ++ vtap ++ " * creating " ++ vtap)],
            vpptapCreate vtap ifname ] ++ vppSetup a.dev ++ [readTapnum i vtap]
        post := [destroy]
        fds := [⟨fd, "/dev/tap", some (tapnum i)⟩] }
    let g := addVirtioDevice e [a.mac, a.bus, a.addr, "virtio-net-pci", ""] g
    { g with netIndex := i + 1 }

/-- `_add_pcie_iface PCIPORT BUS ADDR` (lib-net.sh:185-206). -/
def addPcieIface (e : Env) (args : List String) (g : Gen) : Gen :=
  if arg args 1 = "" || arg args 2 = "" || arg args 3 = "" then g
  else
    { g.append
        { opts := [⟨.device, [.raw "vfio-pci", .kv "tx_queue_size" "1024",
            .kv "rx_queue_size" "1024", .kv "host" (arg args 1), .kv "bus" (arg args 2),
            .kv "addr" (arg args 3), .kv "csum" "off", .kv "gso" "off", .kv "guest_tso4" "off",
            .kv "guest_tso6" "off", .kv "guest_ecn" "off", .kv "mrg_rxbuf" "off",
            .kv "rombar" "0"]⟩]
          pre :=
            [ words ["echo", quoted ("PCIPORT: biding to " ++ arg args 1)],
              words [e.val "RUNTIME_PATH" ++ "/vfio-bind", arg args 1] ]
          post := []
          fds := [] } with
      netPciCurrentSlot := g.netPciCurrentSlot + 1 }

/-- `add_vfio_iface` (lib-net.sh:208-217). -/
def addVfioIface (e : Env) (a : NetArgs) (g : Gen) : Gen :=
  let g := { g with netdev := a.dev }
  if a.dev = "" then g else addPcieIface e (unquoted [a.dev, a.bus, a.addr]) g

/-- `add_sriov_iface` (lib-net.sh:219-272). -/
def addSriovIface (e : Env) (virtfn : String → Option String) (a : NetArgs) (g : Gen) :
    Option Gen :=
  let g := { g with netdev := a.dev }
  if a.dev = "" || a.vf = "" || a.mac = "" then some g
  else (virtfn (sysNet a.dev ++ "/device/virtfn" ++ a.vf)).map fun pciport =>
    let lab := a.dev ++ "::" ++ a.vf
    let set (what : List String) : Line := words (["ip", "link", "set", a.dev, "vf", a.vf] ++ what)
    let vlan : List Line :=
      if a.vlan = "" then
        [words ["echo", quoted (lab ++ " -> diable Vlan")], set ["vlan", "0"]]
      else [words ["echo", quoted (lab ++ " -> Vlan " ++ a.vlan)], set ["vlan", a.vlan]]
    let g := g.append
      { opts := []
        pre :=
          [ words ["echo", quoted ("Using Network SRV-IO from " ++ a.dev ++ " vf " ++ a.vf)],
            words ["echo", quoted (lab ++ " -> " ++ a.mac)],
            set ["mac", a.mac],
            words ["sleep", "1"],
            words ["echo", quoted (lab ++ " -> spoofchk off")],
            set ["spoofchk", "off"],
            words ["sleep", "1"],
            words ["echo", quoted (lab ++ " -> trust on")],
            set ["trust", "on"],
            words ["sleep", "1"] ] ++ vlan
        post :=
          [ words ["ip", "link", "set", "dev", a.dev, "vlan", "0"],
            words ["ip", "link", "set", "dev", a.dev, "vf", a.vf, "mac", "00:00:00:00:00:00"] ]
        fds := [] }
    addPcieIface e (unquoted [pciport, a.bus, a.addr]) g

/-! ## Dispatch -/

/-- The modes with an `add_<mode>_iface` function. -/
inductive IfaceMode
  | macvtap
  | macvtapPassthru
  | e1000
  | vmxnet
  | bridge
  | tap
  | ovs
  | vpp
  | vpptap
  | sriov
  | vfio
  deriving DecidableEq, Repr

/-- The mode a `NETn_MODE` text selects; for another text there is no function. -/
def IfaceMode.ofText (s : String) : Option IfaceMode :=
  [("macvtap", macvtap), ("macvtap_passthru", macvtapPassthru), ("e1000", e1000),
    ("vmxnet", vmxnet), ("bridge", bridge), ("tap", tap), ("ovs", ovs), ("vpp", vpp),
    ("vpptap", vpptap), ("sriov", sriov), ("vfio", vfio)].lookup s

/-- `add_<mode>_iface` with the arguments of `net-uni.sh`. -/
def addIface (e : Env) (virtfn : String → Option String) (a : NetArgs) (g : Gen) :
    IfaceMode → Option Gen
  | .macvtap => addMacvtapIface e virtfn a "virtio-net-pci" .virtio "bridge" g
  | .macvtapPassthru => addMacvtapIface e virtfn a "virtio-net" .virtio "passthru" g
  | .e1000 => addMacvtapIface e virtfn a "e1000-82545em" .e1000 "bridge" g
  | .vmxnet => addMacvtapIface e virtfn a "vmxnet" .vmxnet "bridge" g
  | .bridge => some (addBridgeIface e a g)
  | .tap => some (addTapIface e a g)
  | .ovs => some (addOvsIface e a g)
  | .vpp => some (addVppIface e a g)
  | .vpptap => some (addVpptapIface e a g)
  | .sriov => addSriovIface e virtfn a g
  | .vfio => some (addVfioIface e a g)

/-- The nine modes that emit a `-netdev`. -/
def IfaceMode.isNetdev : IfaceMode → Bool
  | .sriov => false
  | .vfio => false
  | _ => true

end KvmOsx.Genconfig
