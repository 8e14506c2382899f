import KvmOsx.Lib.Script

/-!
# The state of one `genconfig.sh` run

`boot.real` sources `kvm/genconfig.sh`, which sources one fragment after the
other into the same shell. The fragments share their variables: they append to
the arrays `QEMU_OPTS`, `QEMU_CFG`, `QEMU_SW`, `CLOVER_OPTS`, `PRE_CMD`,
`POST_CMD`, `OPEN_FD` and `RUN_PRE_BOOT`, and count in `SLOT_COUNT`,
`BOOTINDEX`, `VSCSI_INDEX`, `AHCI_INDEX`, `NET_INDEX` and others.

* `Env` holds the variables a run only reads (the machine's config).
* `Gen` holds the arrays and counters; a fragment is a function on it, and
  `none` stands for an `exit` (also one by `set -e`, which `boot.real` sets).
* `Opt` is one QEMU option word pair, with its comma-separated items.
-/

namespace KvmOsx.Genconfig

open Script Text

/-! ## Configuration variables -/

/-- Scalar shell variables; `none` is unset. -/
abbrev Env := String → Option String

/-- `$VAR`: an unset variable expands to the empty text. -/
def Env.val (e : Env) (name : String) : String := (e name).getD ""

/-- `${VAR:-dflt}`. -/
def Env.valOr (e : Env) (name dflt : String) : String :=
  if e.val name = "" then dflt else e.val name

/-! ## QEMU options -/

/-- The options whose operands the fragments assemble. -/
inductive Flag
  | device
  | drive
  | object
  | netdev
  | chardev
  | readconfig
  deriving DecidableEq, Repr

/-- A comma-separated item of an operand: `key=value`, or a text that is spliced
    in as it is (a driver name, `$diskarg`, `$virtarg`). -/
inductive Item
  | kv (key value : String)
  | raw (text : String)
  deriving DecidableEq, Repr

/-- `-flag item,item,…` -/
structure Opt where
  flag : Flag
  items : List Item
  deriving DecidableEq, Repr

/-- The value of an item that is `key=…`. -/
def Item.value? (key : String) : Item → Option String
  | .kv k v => if k = key then some v else none
  | .raw _ => none

@[simp] theorem filterMap_value?_raw (key text : String) (is : List Item) :
    (Item.raw text :: is).filterMap (Item.value? key) = is.filterMap (Item.value? key) := rfl

@[simp] theorem filterMap_value?_kv (key k v : String) (is : List Item) :
    (Item.kv k v :: is).filterMap (Item.value? key) =
      if k = key then v :: is.filterMap (Item.value? key) else is.filterMap (Item.value? key) := by
  by_cases h : k = key <;> simp [Item.value?, h]

/-- The values an option gives to `key`. -/
def Opt.values (key : String) (o : Opt) : List String := o.items.filterMap (Item.value? key)

/-- The values the options of kind `flag` in a list give to `key`, in order. -/
def valuesOf (flag : Flag) (key : String) (os : List Opt) : List String :=
  (os.filter fun o => o.flag = flag).flatMap (Opt.values key)

@[simp] theorem valuesOf_nil (flag : Flag) (key : String) : valuesOf flag key [] = [] := rfl

@[simp] theorem valuesOf_append (flag : Flag) (key : String) (os os' : List Opt) :
    valuesOf flag key (os ++ os') = valuesOf flag key os ++ valuesOf flag key os' := by
  simp [valuesOf]

theorem valuesOf_cons (flag : Flag) (key : String) (o : Opt) (os : List Opt) :
    valuesOf flag key (o :: os) =
      (if o.flag = flag then o.values key else []) ++ valuesOf flag key os := by
  by_cases h : o.flag = flag <;> simp [valuesOf, h]

/-- An unquoted `$text` item: dropped when the text is empty. -/
def rawItem (text : String) : List Item := if text = "" then [] else [.raw text]

@[simp] theorem filterMap_rawItem (key text : String) :
    (rawItem text).filterMap (Item.value? key) = [] := by
  unfold rawItem
  split_ifs <;> simp [Item.value?]

@[simp] theorem values_nil (key : String) (flag : Flag) : Opt.values key ⟨flag, []⟩ = [] := rfl

@[simp] theorem values_raw (key text : String) (flag : Flag) (is : List Item) :
    Opt.values key ⟨flag, .raw text :: is⟩ = Opt.values key ⟨flag, is⟩ := rfl

@[simp] theorem values_kv (key k v : String) (flag : Flag) (is : List Item) :
    Opt.values key ⟨flag, .kv k v :: is⟩ =
      if k = key then v :: Opt.values key ⟨flag, is⟩ else Opt.values key ⟨flag, is⟩ :=
  filterMap_value?_kv key k v is

@[simp] theorem values_append (key : String) (flag : Flag) (is is' : List Item) :
    Opt.values key ⟨flag, is ++ is'⟩ = Opt.values key ⟨flag, is⟩ ++ Opt.values key ⟨flag, is'⟩ :=
  List.filterMap_append

@[simp] theorem values_rawItem (key text : String) (flag : Flag) :
    Opt.values key ⟨flag, rawItem text⟩ = [] := filterMap_rawItem key text

/-! ## Files and descriptors -/

/-- The root port that `vpci_template` describes in a cfg file (lib-pci.sh:52-60). -/
structure RootPort where
  device : String
  driver : String
  bus : String
  addr : String
  port : ℕ
  chassis : ℕ
  multifunction : String
  deriving DecidableEq, Repr

/-- An `OPEN_FD` entry `fd<>path$var`. -/
structure OpenFd where
  fd : String
  path : String
  var : Option String
  deriving DecidableEq, Repr

/-! ## The state -/

/-- The variables the fragments write. `cfgFiles` lists the cfg files written so
    far with their paths, `vars` holds the result variables of `add_vpci`, `bs` is
    the global `BS` that `vpci_template` leaves behind. -/
structure Gen where
  qemuOpts : List Opt
  qemuCfg : List Opt
  qemuSw : List Opt
  cloverOpts : List Opt
  preCmd : List Line
  postCmd : List Line
  openFd : List OpenFd
  runPreBoot : List String
  sset : Bool
  slotCount : ℕ
  vpciBus : List String
  cfgFiles : List (String × RootPort)
  vars : String → String
  bs : String
  index : ℕ
  bootindex : ℕ
  vblkIndex : ℕ
  vscsiIndex : ℕ
  ahciIndex : ℕ
  controller : String
  vtm : String
  netIndex : ℕ
  netVirtioCurrentSlot : ℕ
  netPciCurrentSlot : ℕ
  pVlan : String
  netdev : String
  pciCurrentSlot : ℕ
  chassisCount : ℕ

/-- The arrays empty and every counter at the default its library gives it
    (`: ${INDEX:=0}`, `: ${BOOTINDEX:=1}`, `: ${NET_INDEX:=0}`, …), with the pool
    `VPCI_BUS` that the `common-$OS.sh` script installed. -/
def Gen.init (vpciBus : List String) : Gen where
  qemuOpts := []
  qemuCfg := []
  qemuSw := []
  cloverOpts := []
  preCmd := []
  postCmd := []
  openFd := []
  runPreBoot := []
  sset := false
  slotCount := 0
  vpciBus := vpciBus
  cfgFiles := []
  vars := fun _ => ""
  bs := ""
  index := 0
  bootindex := 1
  vblkIndex := 0
  vscsiIndex := 0
  ahciIndex := 0
  controller := ""
  vtm := ""
  netIndex := 0
  netVirtioCurrentSlot := 1
  netPciCurrentSlot := 1
  pVlan := ""
  netdev := ""
  pciCurrentSlot := 1
  chassisCount := 1

/-- `QEMU_OPTS+=( … )`. -/
def Gen.addOpts (g : Gen) (os : List Opt) : Gen := { g with qemuOpts := g.qemuOpts ++ os }

/-- The words one call appends to `QEMU_OPTS`, `PRE_CMD`, `POST_CMD` and `OPEN_FD`. -/
structure Block where
  opts : List Opt
  pre : List Line
  post : List Line
  fds : List OpenFd
  deriving DecidableEq, Repr

instance : Append Block where
  append b c := ⟨b.opts ++ c.opts, b.pre ++ c.pre, b.post ++ c.post, b.fds ++ c.fds⟩

@[simp] theorem Block.opts_append (b c : Block) : (b ++ c).opts = b.opts ++ c.opts := rfl
@[simp] theorem Block.pre_append (b c : Block) : (b ++ c).pre = b.pre ++ c.pre := rfl
@[simp] theorem Block.post_append (b c : Block) : (b ++ c).post = b.post ++ c.post := rfl
@[simp] theorem Block.fds_append (b c : Block) : (b ++ c).fds = b.fds ++ c.fds := rfl

/-- `QEMU_OPTS+=( … )`, `PRE_CMD+=( … )`, `POST_CMD+=( … )`, `OPEN_FD+=( … )`. -/
def Gen.append (g : Gen) (b : Block) : Gen :=
  { g with
    qemuOpts := g.qemuOpts ++ b.opts
    preCmd := g.preCmd ++ b.pre
    postCmd := g.postCmd ++ b.post
    openFd := g.openFd ++ b.fds }

end KvmOsx.Genconfig
