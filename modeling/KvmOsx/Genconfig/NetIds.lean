import KvmOsx.Genconfig.Net
import KvmOsx.Lib.Runs

/-!
# Consistency of the emitted network arguments

A netdev emitter that is not rejected appends one block of arguments whose
names are all built from the `NET_INDEX` it was called with (`NicBlock`), and
counts the index; a rejected call changes nothing (`addIface_rejected`). Blocks
of different indices share no name, so along any sequence of calls ids and
descriptors stay pairwise distinct (`NetLog`, kept by every call).
-/

namespace KvmOsx.Genconfig

open Script Text

/-! ## What a list of arguments defines -/

/-- The ids that `-netdev` and `-chardev` options define. -/
def definedIds (os : List Opt) : List String := os.flatMap (Opt.values "id")

@[simp] theorem definedIds_nil : definedIds [] = [] := rfl

@[simp] theorem definedIds_append (os os' : List Opt) :
    definedIds (os ++ os') = definedIds os ++ definedIds os' := by
  simp [definedIds]

/-- The variable a token assigns. -/
def assignedName? : Tok → Option String
  | .assign name _ => some name
  | _ => none

/-- The variables the entries of a command list assign, with repetitions. -/
def assigned (ls : List Line) : List String := ls.flatMap (List.filterMap assignedName?)

@[simp] theorem assigned_nil : assigned [] = [] := rfl

@[simp] theorem assigned_append (ls ls' : List Line) :
    assigned (ls ++ ls') = assigned ls ++ assigned ls' := by
  simp [assigned]

@[simp] theorem assigned_cons (l : Line) (ls : List Line) :
    assigned (l :: ls) = l.filterMap assignedName? ++ assigned ls := rfl

@[simp] theorem filterMap_assign (name value : String) (ts : List Tok) :
    (Tok.assign name value :: ts).filterMap assignedName? = name :: ts.filterMap assignedName? :=
  rfl

@[simp] theorem filterMap_andIf (ts : List Tok) :
    (Tok.andIf :: ts).filterMap assignedName? = ts.filterMap assignedName? := rfl

@[simp] theorem filterMap_orIf (ts : List Tok) :
    (Tok.orIf :: ts).filterMap assignedName? = ts.filterMap assignedName? := rfl

@[simp] theorem filterMap_pipe (ts : List Tok) :
    (Tok.pipe :: ts).filterMap assignedName? = ts.filterMap assignedName? := rfl

@[simp] theorem filterMap_lpar (ts : List Tok) :
    (Tok.lpar :: ts).filterMap assignedName? = ts.filterMap assignedName? := rfl

@[simp] theorem filterMap_rpar (ts : List Tok) :
    (Tok.rpar :: ts).filterMap assignedName? = ts.filterMap assignedName? := rfl

@[simp] theorem filterMap_words (ws : List String) : (words ws).filterMap assignedName? = [] := by
  induction ws with
  | nil => rfl
  | cons w ws ih => exact ih

@[simp] theorem filterMap_entry (ws : List String) : (entry ws).filterMap assignedName? = [] :=
  filterMap_words _

/-- The descriptors of the macvtap device and of vhost-net: `${FD_INDEX}0` and
    `${FD_INDEX}1` with `FD_INDEX = NET_INDEX + 3`. -/
def tapFd (i : ℕ) : String := num (i + 3) ++ "0"

/-- `${FD_INDEX}1`. -/
def vhostFd (i : ℕ) : String := num (i + 3) ++ "1"

theorem tapFd_eq (i : ℕ) : tapFd i = num (10 * (i + 3)) := by
  exact num_append_digit (n := i + 3) (d := 0) (by omega) (by norm_num)

theorem vhostFd_eq (i : ℕ) : vhostFd i = num (10 * (i + 3) + 1) := by
  exact num_append_digit (n := i + 3) (d := 1) (by omega) (by norm_num)

/-! ## One block -/

/-- A step from `g` to `g'` that appends the block `b`. -/
structure Emits (g g' : Gen) (b : Block) : Prop where
  opts : g'.qemuOpts = g.qemuOpts ++ b.opts
  pre : g'.preCmd = g.preCmd ++ b.pre
  post : g'.postCmd = g.postCmd ++ b.post
  fds : g'.openFd = g.openFd ++ b.fds

theorem Emits.trans {g₁ g₂ g₃ : Gen} {b c : Block} (h : Emits g₁ g₂ b) (h' : Emits g₂ g₃ c) :
    Emits g₁ g₃ (b ++ c) where
  opts := by rw [h'.opts, h.opts, List.append_assoc, Block.opts_append]
  pre := by rw [h'.pre, h.pre, List.append_assoc, Block.pre_append]
  post := by rw [h'.post, h.post, List.append_assoc, Block.post_append]
  fds := by rw [h'.fds, h.fds, List.append_assoc, Block.fds_append]

/-- A step that appends nothing. -/
theorem Emits.nothing {g g' : Gen} (ho : g'.qemuOpts = g.qemuOpts) (hp : g'.preCmd = g.preCmd)
    (hq : g'.postCmd = g.postCmd) (hf : g'.openFd = g.openFd) : Emits g g' ⟨[], [], [], []⟩ where
  opts := by rw [ho, List.append_nil]
  pre := by rw [hp, List.append_nil]
  post := by rw [hq, List.append_nil]
  fds := by rw [hf, List.append_nil]

/-- The arguments of one accepted netdev call with index `i`. -/
structure NicBlock (i : ℕ) (b : Block) : Prop where
  netdev : valuesOf .netdev "id" b.opts = [netId i]
  device : valuesOf .device "netdev" b.opts = [netId i]
  ids : definedIds b.opts = [netId i] ∨ definedIds b.opts = [ncharId i, netId i]
  opened : b.fds.map OpenFd.fd = [] ∨ b.fds.map OpenFd.fd = [tapFd i] ∨
    b.fds.map OpenFd.fd = [tapFd i, vhostFd i]
  used : ∀ x ∈ valuesOf .netdev "fd" b.opts, x = tapFd i ∧ tapFd i ∈ b.fds.map OpenFd.fd
  var : ∀ f ∈ b.fds, ∀ v, f.var = some v → v = tapnum i ∧ (assigned b.pre).count (tapnum i) = 1
  assigned : ∀ v ∈ assigned b.pre, v = tapnum i ∨ v = "VPPPORT"

theorem tapnum_ne_vppport (i : ℕ) : tapnum i ≠ "VPPPORT" := by
  intro h
  have := congrArg String.toList h
  simp [tapnum, String.toList_append] at this

/-- What a device function called with `args` does: it appends one `-device` on the
    current netdev, on the bus of its second argument. -/
structure DeviceCall (args : List String) (g g' : Gen) (o : Opt) : Prop where
  flag : o.flag = .device
  netdev : o.values "netdev" = [netId g.netIndex]
  id : o.values "id" = []
  bus : arg args 2 ≠ "" → o.values "bus" = [arg args 2]
  emits : Emits g g' ⟨[o], [], [], []⟩
  index : g'.netIndex = g.netIndex

theorem addVirtioDevice_spec (e : Env) (args : List String) (g : Gen) :
    ∃ o, DeviceCall args g (addVirtioDevice e args g) o := by
  refine ⟨_, rfl, ?_, ?_, ?_, ⟨rfl, ?_, ?_, ?_⟩, rfl⟩
  · simp [Opt.values]
  · simp [Opt.values]
  · intro hb
    simp [Opt.values, hb]
  all_goals simp [addVirtioDevice, Gen.addOpts]

theorem addPlainDevice_spec (driver : String) (args : List String) (g : Gen) :
    ∃ o, DeviceCall args g (addPlainDevice driver args g) o := by
  refine ⟨_, rfl, ?_, ?_, ?_, ⟨rfl, ?_, ?_, ?_⟩, rfl⟩
  · simp [Opt.values]
  · simp [Opt.values]
  · intro _
    simp [Opt.values]
  all_goals simp [addPlainDevice, Gen.addOpts]

theorem NetCb.call_spec (e : Env) (cb : NetCb) (args : List String) (g : Gen) :
    ∃ o, DeviceCall args g (cb.call e args g) o := by
  cases cb with
  | virtio => exact addVirtioDevice_spec e args g
  | e1000 => exact addPlainDevice_spec _ args g
  | vmxnet => exact addPlainDevice_spec _ args g

/-- An accepted netdev call: it appends the block of its index and counts it; the
    device sits on the bus it was given. -/
structure NicCall (a : NetArgs) (g g' : Gen) : Prop where
  index : g'.netIndex = g.netIndex + 1
  block : ∃ b, Emits g g' b ∧ NicBlock g.netIndex b ∧
    (a.bus ≠ "" → valuesOf .device "bus" b.opts = [a.bus])

/-- An emitter appends `b`, whose options have no device, then calls a device
    function, then counts. -/
theorem nicCall_of_device {a : NetArgs} {g gm gd : Gen} {b : Block} {args : List String}
    (hm : Emits g gm b) (hmi : gm.netIndex = g.netIndex) (hcall : ∃ o, DeviceCall args gm gd o)
    (hbus : a.bus ≠ "" → arg args 2 = a.bus)
    (hflag : ∀ x ∈ b.opts, x.flag ≠ .device)
    (hnet : valuesOf .netdev "id" b.opts = [netId g.netIndex])
    (hids : definedIds b.opts = [netId g.netIndex] ∨
      definedIds b.opts = [ncharId g.netIndex, netId g.netIndex])
    (hopen : b.fds.map OpenFd.fd = [] ∨ b.fds.map OpenFd.fd = [tapFd g.netIndex] ∨
      b.fds.map OpenFd.fd = [tapFd g.netIndex, vhostFd g.netIndex])
    (hused : ∀ x ∈ valuesOf .netdev "fd" b.opts, x = tapFd g.netIndex ∧
      tapFd g.netIndex ∈ b.fds.map OpenFd.fd)
    (hvar : ∀ f ∈ b.fds, ∀ v, f.var = some v → v = tapnum g.netIndex ∧
      (assigned b.pre).count (tapnum g.netIndex) = 1)
    (hass : ∀ v ∈ assigned b.pre, v = tapnum g.netIndex ∨ v = "VPPPORT") :
    NicCall a g { gd with netIndex := g.netIndex + 1 } := by
  obtain ⟨o, hd⟩ := hcall
  have hdev : ∀ key, valuesOf .device key b.opts = [] := by
    intro key
    rw [valuesOf, List.filter_eq_nil_iff.mpr (by simpa using hflag)]
    rfl
  have hnetdev : ∀ key, valuesOf .netdev key [o] = [] := by
    intro key
    simp [valuesOf_cons, hd.flag]
  refine ⟨rfl, b ++ ⟨[o], [], [], []⟩, ?_, ⟨?_, ?_, ?_, ?_, ?_, ?_, ?_⟩, ?_⟩
  · have := hm.trans hd.emits
    exact ⟨this.opts, this.pre, this.post, this.fds⟩
  · rw [Block.opts_append, valuesOf_append, hnetdev, hnet, List.append_nil]
  · rw [Block.opts_append, valuesOf_append, hdev, valuesOf_cons, if_pos hd.flag, hd.netdev, hmi]
    rfl
  · rw [Block.opts_append, definedIds_append, show definedIds [o] = [] by simp [definedIds, hd.id],
      List.append_nil]
    exact hids
  · simpa using hopen
  · rw [Block.opts_append, valuesOf_append, hnetdev, List.append_nil]
    simpa using hused
  · simpa using hvar
  · simpa using hass
  · intro hb
    rw [Block.opts_append, valuesOf_append, hdev, valuesOf_cons, if_pos hd.flag,
      hd.bus (by rw [hbus hb]; exact hb), hbus hb]
    rfl

/-! ## The emitters -/

theorem NetArgs.mac_ne {a : NetArgs} (h : a.rejected = false) : a.mac ≠ "" := by
  intro hm
  simp [rejected, hm] at h

/-- The bus is the second argument also of an unquoted call. -/
theorem arg_unquoted {a : NetArgs} (h : a.rejected = false) (hb : a.bus ≠ "") :
    arg (unquoted [a.mac, a.bus, a.addr]) 2 = a.bus := by
  simp [unquoted, arg, List.filter_cons, NetArgs.mac_ne h, hb]

theorem emits_append (g : Gen) (b : Block) : Emits g (g.append b) b := ⟨rfl, rfl, rfl, rfl⟩

theorem macvtapEmit_spec (e : Env) (br : String) (pre : List Line) (hpre : assigned pre = [])
    (a : NetArgs) (qemuDevice : String) (cb : NetCb) (netArgs : String) (g : Gen) :
    NicCall a g (macvtapEmit e br pre a qemuDevice cb netArgs g) := by
  refine nicCall_of_device (emits_append g _) rfl (cb.call_spec e _ _) (fun _ => rfl)
    ?_ ?_ ?_ (Or.inr (Or.inr rfl)) ?_ ?_ ?_
  · simp
  · simp [valuesOf_cons, Opt.values]
  · simp [definedIds, Opt.values]
  · simp [valuesOf_cons, Opt.values, tapFd]
  · intro f hf v hv
    simp only [List.mem_cons, List.not_mem_nil, or_false] at hf
    rcases hf with rfl | rfl
    · refine ⟨by simpa using hv.symm, ?_⟩
      simp [hpre, macvtapPre, readTapnum]
    · simp at hv
  · simp [hpre, macvtapPre, readTapnum]

theorem assigned_passthruPre (a : NetArgs) (pciport ptname : String) :
    assigned (passthruPre a pciport ptname) = [] := by
  simp [passthruPre]

theorem addMacvtapIface_spec {e : Env} {virtfn : String → Option String} {a : NetArgs}
    {qemuDevice : String} {cb : NetCb} {netArgs : String} {g g' : Gen}
    (ha : a.rejected = false)
    (h : addMacvtapIface e virtfn a qemuDevice cb netArgs g = some g') : NicCall a g g' := by
  unfold addMacvtapIface at h
  rw [if_neg (by simp [ha])] at h
  split_ifs at h with hp
  · obtain ⟨pciport, -, rfl⟩ := Option.map_eq_some_iff.mp h
    exact macvtapEmit_spec e _ _ (assigned_passthruPre a _ _) a _ cb _ g
  · obtain rfl := Option.some.inj h
    exact macvtapEmit_spec e _ _ rfl a _ cb _ g

theorem addBridgeIface_spec (e : Env) {a : NetArgs} (g : Gen) (ha : a.rejected = false) :
    NicCall a g (addBridgeIface e a g) := by
  rw [addBridgeIface, if_neg (by simp [ha])]
  refine nicCall_of_device (emits_append g _) rfl (addVirtioDevice_spec e _ _) (arg_unquoted ha)
    ?_ ?_ ?_ (Or.inl rfl) ?_ ?_ ?_
  all_goals simp [valuesOf_cons, definedIds, Opt.values]

theorem addTapIface_spec (e : Env) {a : NetArgs} (g : Gen) (ha : a.rejected = false) :
    NicCall a g (addTapIface e a g) := by
  rw [addTapIface, if_neg (by simp [ha])]
  refine nicCall_of_device (emits_append g _) rfl (addVirtioDevice_spec e _ _) (arg_unquoted ha)
    ?_ ?_ ?_ (Or.inl rfl) ?_ ?_ ?_
  all_goals simp [valuesOf_cons, definedIds, Opt.values]

/-- `P_VLAN=…` before the arguments are appended. -/
theorem emits_pVlan (g : Gen) (v : String) (b : Block) :
    Emits g (Gen.append { g with pVlan := v } b) b := ⟨rfl, rfl, rfl, rfl⟩

theorem addOvsIface_spec (e : Env) {a : NetArgs} (g : Gen) (ha : a.rejected = false) :
    NicCall a g (addOvsIface e a g) := by
  rw [addOvsIface, if_neg (by simp [ha])]
  refine nicCall_of_device (emits_pVlan g _ _) rfl (addVirtioDevice_spec e _ _) (fun _ => rfl)
    ?_ ?_ ?_ (Or.inl rfl) ?_ ?_ ?_
  · simp
  · simp [valuesOf_cons, Opt.values]
  · simp [definedIds, Opt.values]
  · simp [valuesOf_cons, Opt.values]
  · simp
  · simp [ovsDestroy, ovsDelPort, readTapnum]

theorem addVppIface_spec (e : Env) {a : NetArgs} (g : Gen) (ha : a.rejected = false) :
    NicCall a g (addVppIface e a g) := by
  rw [addVppIface, if_neg (by simp [ha])]
  refine nicCall_of_device (emits_pVlan g _ _) rfl (addVirtioDevice_spec e _ _) (fun _ => rfl)
    ?_ ?_ ?_ (Or.inl rfl) ?_ ?_ ?_
  · simp
  · split_ifs <;> simp [valuesOf_cons, Opt.values]
  · split_ifs <;> simp [definedIds, Opt.values]
  · split_ifs <;> simp [valuesOf_cons, Opt.values]
  · simp
  · simp [vppDestroy, vppCreate, vppSetup, catVppport]

theorem addVpptapIface_spec (e : Env) {a : NetArgs} (g : Gen) (ha : a.rejected = false) :
    NicCall a g (addVpptapIface e a g) := by
  rw [addVpptapIface, if_neg (by simp [ha])]
  refine nicCall_of_device (emits_append g _) rfl (addVirtioDevice_spec e _ _) (fun _ => rfl)
    ?_ ?_ ?_ (Or.inr (Or.inl rfl)) ?_ ?_ ?_
  · simp
  · simp [valuesOf_cons, Opt.values]
  · simp [definedIds, Opt.values]
  · simp [valuesOf_cons, Opt.values, tapFd]
  · intro f hf v hv
    obtain rfl := List.mem_singleton.mp hf
    refine ⟨by simpa using hv.symm, ?_⟩
    simp [vppDestroy, vpptapCreate, vppSetup, readTapnum, catVppport,
      (tapnum_ne_vppport g.netIndex).symm]
  · simp [vppDestroy, vpptapCreate, vppSetup, readTapnum, catVppport]

/-- An accepted call of a netdev mode. -/
theorem addIface_netdev {e : Env} {virtfn : String → Option String} {a : NetArgs} {g g' : Gen}
    {mode : IfaceMode} (hm : mode.isNetdev = true) (ha : a.rejected = false)
    (h : addIface e virtfn a g mode = some g') : NicCall a g g' := by
  cases mode with
  | macvtap | macvtapPassthru | e1000 | vmxnet => exact addMacvtapIface_spec ha h
  | bridge =>
    obtain rfl := Option.some.inj h
    exact addBridgeIface_spec e g ha
  | tap =>
    obtain rfl := Option.some.inj h
    exact addTapIface_spec e g ha
  | ovs =>
    obtain rfl := Option.some.inj h
    exact addOvsIface_spec e g ha
  | vpp =>
    obtain rfl := Option.some.inj h
    exact addVppIface_spec e g ha
  | vpptap =>
    obtain rfl := Option.some.inj h
    exact addVpptapIface_spec e g ha
  | sriov | vfio => cases hm

/-- A rejected call of a netdev mode changes nothing at all. -/
theorem addIface_rejected {e : Env} {virtfn : String → Option String} {a : NetArgs} {g : Gen}
    {mode : IfaceMode} (hm : mode.isNetdev = true) (ha : a.rejected = true) :
    addIface e virtfn a g mode = some g := by
  cases mode with
  | macvtap | macvtapPassthru | e1000 | vmxnet => simp [addIface, addMacvtapIface, ha]
  | bridge => simp [addIface, addBridgeIface, ha]
  | tap => simp [addIface, addTapIface, ha]
  | ovs => simp [addIface, addOvsIface, ha]
  | vpp => simp [addIface, addVppIface, ha]
  | vpptap => simp [addIface, addVpptapIface, ha]
  | sriov | vfio => cases hm

/-! ## Passed-through functions -/

/-- A block without names: no id, no netdev, no descriptor, no assignment; its
    devices sit on the bus of the call. -/
structure QuietBlock (a : NetArgs) (b : Block) : Prop where
  netdev : ∀ key, valuesOf .netdev key b.opts = []
  device : valuesOf .device "netdev" b.opts = []
  ids : definedIds b.opts = []
  fds : b.fds = []
  assigned : assigned b.pre = []
  bus : ∀ x ∈ valuesOf .device "bus" b.opts, x = a.bus
  busOnce : (valuesOf .device "bus" b.opts).length ≤ 1

/-- A call of `add_sriov_iface` or `add_vfio_iface`. -/
structure QuietCall (a : NetArgs) (g g' : Gen) : Prop where
  index : g'.netIndex = g.netIndex
  block : ∃ b, Emits g g' b ∧ QuietBlock a b

theorem QuietBlock.nil (a : NetArgs) : QuietBlock a ⟨[], [], [], []⟩ := by
  constructor <;> simp

/-- With three unquoted arguments of which one is empty there is no third; so the
    second is the bus whenever `_add_pcie_iface` goes on. -/
theorem arg_unquoted_three {x y z : String} (h : arg (unquoted [x, y, z]) 3 ≠ "") :
    arg (unquoted [x, y, z]) 2 = y := by
  by_cases hx : x = "" <;> by_cases hy : y = "" <;> by_cases hz : z = "" <;>
    simp_all [unquoted, arg]

theorem addPcieIface_spec (e : Env) {a : NetArgs} {x : String} {g gm : Gen} {b : Block}
    (hm : Emits g gm b) (hi : gm.netIndex = g.netIndex) (hb : b.opts = [])
    (hf : b.fds = []) (hp : assigned b.pre = []) :
    QuietCall a g (addPcieIface e (unquoted [x, a.bus, a.addr]) gm) := by
  unfold addPcieIface
  split_ifs with hc
  · refine ⟨hi, b, hm, ?_⟩
    constructor <;> simp [hb, hf, hp]
  · have hbus : arg (unquoted [x, a.bus, a.addr]) 2 = a.bus := by
      apply arg_unquoted_three
      simp only [Bool.or_eq_true, decide_eq_true_eq, not_or] at hc
      exact hc.2
    refine ⟨hi, b ++ ⟨_, _, _, _⟩, hm.trans ⟨rfl, rfl, rfl, rfl⟩, ?_⟩
    constructor <;> simp [hb, hf, hp, hbus, valuesOf_cons, definedIds, Opt.values]

theorem addVfioIface_spec (e : Env) (a : NetArgs) (g : Gen) :
    QuietCall a g (addVfioIface e a g) := by
  have hg : Emits g { g with netdev := a.dev } ⟨[], [], [], []⟩ := Emits.nothing rfl rfl rfl rfl
  unfold addVfioIface
  split_ifs with hd
  · exact ⟨rfl, _, hg, QuietBlock.nil a⟩
  · exact addPcieIface_spec e hg rfl rfl rfl rfl

theorem addSriovIface_spec {e : Env} {virtfn : String → Option String} {a : NetArgs} {g g' : Gen}
    (h : addSriovIface e virtfn a g = some g') : QuietCall a g g' := by
  unfold addSriovIface at h
  by_cases hr : (a.dev = "" || a.vf = "" || a.mac = "") = true
  · rw [if_pos hr] at h
    obtain rfl := Option.some.inj h
    exact ⟨rfl, _, Emits.nothing rfl rfl rfl rfl, QuietBlock.nil a⟩
  · rw [if_neg hr] at h
    obtain ⟨pciport, -, rfl⟩ := Option.map_eq_some_iff.mp h
    refine addPcieIface_spec e (b := ⟨_, _, _, _⟩) ⟨rfl, rfl, rfl, rfl⟩ rfl rfl rfl ?_
    split_ifs <;> simp

/-- A call of a passthrough mode. -/
theorem addIface_passthrough {e : Env} {virtfn : String → Option String} {a : NetArgs}
    {g g' : Gen} {mode : IfaceMode} (hm : mode.isNetdev = false)
    (h : addIface e virtfn a g mode = some g') : QuietCall a g g' := by
  cases mode with
  | sriov => exact addSriovIface_spec h
  | vfio =>
    obtain rfl := Option.some.inj h
    exact addVfioIface_spec e a g
  | macvtap | macvtapPassthru | e1000 | vmxnet | bridge | tap | ovs | vpp | vpptap => cases hm

/-! ## Sequences of calls -/

/-- Names and descriptors of a run of `k` accepted netdev calls from index `s`. -/
structure NicBlocks (s k : ℕ) (b : Block) : Prop where
  netdev : valuesOf .netdev "id" b.opts = (List.range' s k).map netId
  device : valuesOf .device "netdev" b.opts = (List.range' s k).map netId
  idsNodup : (definedIds b.opts).Nodup
  ids : ∀ x ∈ definedIds b.opts, ∃ j < s + k, x = netId j ∨ x = ncharId j
  openedNodup : (b.fds.map OpenFd.fd).Nodup
  opened : ∀ x ∈ b.fds.map OpenFd.fd, ∃ j < s + k, x = tapFd j ∨ x = vhostFd j
  used : ∀ x ∈ valuesOf .netdev "fd" b.opts, x ∈ b.fds.map OpenFd.fd
  var : ∀ f ∈ b.fds, ∀ v, f.var = some v →
    (∃ j < s + k, v = tapnum j) ∧ (assigned b.pre).count v = 1
  assigned : ∀ v ∈ assigned b.pre, v = "VPPPORT" ∨ ∃ j < s + k, v = tapnum j

theorem netId_inj {i j : ℕ} : netId i = netId j ↔ i = j := prefix_num_inj _

theorem ncharId_inj {i j : ℕ} : ncharId i = ncharId j ↔ i = j := prefix_num_inj _

theorem tapnum_inj {i j : ℕ} : tapnum i = tapnum j ↔ i = j := prefix_num_inj _

theorem netId_ne_ncharId (i j : ℕ) : netId i ≠ ncharId j := by
  intro h
  have := congrArg String.toList h
  simp [netId, ncharId, String.toList_append] at this

theorem tapFd_inj {i j : ℕ} : tapFd i = tapFd j ↔ i = j := by
  rw [tapFd_eq, tapFd_eq, num_inj]
  omega

theorem vhostFd_inj {i j : ℕ} : vhostFd i = vhostFd j ↔ i = j := by
  rw [vhostFd_eq, vhostFd_eq, num_inj]
  omega

theorem tapFd_ne_vhostFd (i j : ℕ) : tapFd i ≠ vhostFd j := by
  rw [tapFd_eq, vhostFd_eq, Ne, num_inj]
  omega

theorem NicBlocks.nil (s : ℕ) : NicBlocks s 0 ⟨[], [], [], []⟩ := by
  constructor <;> simp

/-- The ids of one block are fresh after those of lower indices. -/
theorem NicBlocks.ids_disjoint {s k : ℕ} {b c : Block} (h : NicBlocks s k b)
    (hc : NicBlock (s + k) c) : (definedIds b.opts).Disjoint (definedIds c.opts) := by
  intro x hx hx'
  obtain ⟨j, hj, rfl | rfl⟩ := h.ids x hx <;> rcases hc.ids with hi | hi <;> rw [hi] at hx' <;>
    simp only [List.mem_cons, List.not_mem_nil, or_false, netId_inj, ncharId_inj,
      netId_ne_ncharId, (netId_ne_ncharId _ _).symm, false_or] at hx' <;> omega

/-- The descriptors of one block are fresh after those of lower indices. -/
theorem NicBlocks.opened_disjoint {s k : ℕ} {b c : Block} (h : NicBlocks s k b)
    (hc : NicBlock (s + k) c) : (b.fds.map OpenFd.fd).Disjoint (c.fds.map OpenFd.fd) := by
  intro x hx hx'
  obtain ⟨j, hj, rfl | rfl⟩ := h.opened x hx <;> rcases hc.opened with hi | hi | hi <;>
    rw [hi] at hx' <;>
    simp only [List.mem_cons, List.not_mem_nil, or_false, tapFd_inj, vhostFd_inj,
      tapFd_ne_vhostFd, (tapFd_ne_vhostFd _ _).symm, false_or] at hx' <;> omega

/-- One more accepted call. -/
theorem NicBlocks.snoc {s k : ℕ} {b c : Block} (h : NicBlocks s k b) (hc : NicBlock (s + k) c) :
    NicBlocks s (k + 1) (b ++ c) := by
  have hidsc : (definedIds c.opts).Nodup := by
    rcases hc.ids with hi | hi <;> rw [hi] <;> simp [(netId_ne_ncharId _ _).symm]
  have hopenc : (c.fds.map OpenFd.fd).Nodup := by
    rcases hc.opened with hi | hi | hi <;> rw [hi] <;> simp [tapFd_ne_vhostFd]
  refine ⟨?_, ?_, ?_, ?_, ?_, ?_, ?_, ?_, ?_⟩
  · rw [Block.opts_append, valuesOf_append, h.netdev, hc.netdev, List.range'_concat]
    simp
  · rw [Block.opts_append, valuesOf_append, h.device, hc.device, List.range'_concat]
    simp
  · rw [Block.opts_append, definedIds_append]
    exact h.idsNodup.append hidsc (h.ids_disjoint hc)
  · intro x hx
    rw [Block.opts_append, definedIds_append, List.mem_append] at hx
    rcases hx with hx | hx
    · obtain ⟨j, hj, hxj⟩ := h.ids x hx
      exact ⟨j, by omega, hxj⟩
    · refine ⟨s + k, by omega, ?_⟩
      rcases hc.ids with hi | hi <;> rw [hi] at hx <;> simp at hx <;> tauto
  · rw [Block.fds_append, List.map_append]
    exact h.openedNodup.append hopenc (h.opened_disjoint hc)
  · intro x hx
    rw [Block.fds_append, List.map_append, List.mem_append] at hx
    rcases hx with hx | hx
    · obtain ⟨j, hj, hxj⟩ := h.opened x hx
      exact ⟨j, by omega, hxj⟩
    · refine ⟨s + k, by omega, ?_⟩
      rcases hc.opened with hi | hi | hi <;> rw [hi] at hx <;> simp at hx <;> tauto
  · intro x hx
    rw [Block.opts_append, valuesOf_append, List.mem_append] at hx
    rw [Block.fds_append, List.map_append, List.mem_append]
    rcases hx with hx | hx
    · exact Or.inl (h.used x hx)
    · obtain ⟨rfl, hmem⟩ := hc.used x hx
      exact Or.inr hmem
  · intro f hf v hv
    rw [Block.pre_append, assigned_append, List.count_append]
    rw [Block.fds_append, List.mem_append] at hf
    rcases hf with hf | hf
    · -- An earlier variable: the new entries assign a later one and `VPPPORT`.
      obtain ⟨⟨j, hj, rfl⟩, hone⟩ := h.var f hf v hv
      have hnew : tapnum j ∉ Genconfig.assigned c.pre := by
        intro hmem
        rcases hc.assigned _ hmem with hw | hw
        · rw [tapnum_inj] at hw
          omega
        · exact tapnum_ne_vppport _ hw
      exact ⟨⟨j, by omega, rfl⟩, by rw [List.count_eq_zero.mpr hnew, hone]⟩
    · obtain ⟨rfl, hone⟩ := hc.var f hf v hv
      have hnew : tapnum (s + k) ∉ Genconfig.assigned b.pre := by
        intro hmem
        rcases h.assigned _ hmem with hw | ⟨j, hj, hw⟩
        · exact tapnum_ne_vppport _ hw
        · rw [tapnum_inj] at hw
          omega
      exact ⟨⟨s + k, by omega, rfl⟩, by rw [List.count_eq_zero.mpr hnew, hone]⟩
  · intro v hv
    rw [Block.pre_append, assigned_append, List.mem_append] at hv
    rcases hv with hv | hv
    · rcases h.assigned v hv with hw | ⟨j, hj, hw⟩
      · exact Or.inl hw
      · exact Or.inr ⟨j, by omega, hw⟩
    · rcases hc.assigned v hv with hw | hw
      · exact Or.inr ⟨s + k, by omega, hw⟩
      · exact Or.inl hw

/-- A passthrough call between the netdev calls adds no name. -/
theorem NicBlocks.quiet {s k : ℕ} {a : NetArgs} {b c : Block} (h : NicBlocks s k b)
    (hc : QuietBlock a c) : NicBlocks s k (b ++ c) where
  netdev := by simpa [hc.netdev] using h.netdev
  device := by simpa [hc.device] using h.device
  idsNodup := by simpa [hc.ids] using h.idsNodup
  ids := by simpa [hc.ids] using h.ids
  openedNodup := by simpa [hc.fds] using h.openedNodup
  opened := by simpa [hc.fds] using h.opened
  used := by simpa [hc.netdev, hc.fds] using h.used
  var := by simpa [hc.fds, hc.assigned] using h.var
  assigned := by simpa [hc.assigned] using h.assigned

/-- A call: a mode and its arguments. -/
abbrev NetCall := IfaceMode × NetArgs

/-- A netdev call whose guards let it pass. -/
def accepted (c : NetCall) : Bool := c.1.isNetdev && !c.2.rejected

/-- One call. -/
def netStep (e : Env) (virtfn : String → Option String) (g : Gen) (c : NetCall) : Option Gen :=
  addIface e virtfn c.2 g c.1

/-- What a sequence of calls with `k` accepted ones appended to the arrays of `g₀`. -/
structure NetLog (g₀ : Gen) (k : ℕ) (g : Gen) : Prop where
  index : g.netIndex = g₀.netIndex + k
  blocks : ∃ b, Emits g₀ g b ∧ NicBlocks g₀.netIndex k b

theorem NetLog.init (g₀ : Gen) : NetLog g₀ 0 g₀ :=
  ⟨rfl, _, Emits.nothing rfl rfl rfl rfl, NicBlocks.nil _⟩

/-- Every call keeps the log, and counts when it was accepted. -/
theorem NetLog.step {e : Env} {virtfn : String → Option String} {g₀ g g' : Gen} {k : ℕ}
    {c : NetCall} (h : NetLog g₀ k g) (hc : netStep e virtfn g c = some g') :
    NetLog g₀ (k + if accepted c then 1 else 0) g' := by
  obtain ⟨mode, a⟩ := c
  obtain ⟨b, hb, hbs⟩ := h.blocks
  cases hm : mode.isNetdev with
  | false =>
    obtain ⟨hi, c, hec, hqc⟩ := addIface_passthrough hm hc
    simp only [accepted, hm, Bool.false_and, Bool.false_eq_true, if_false, Nat.add_zero]
    exact ⟨hi.trans h.index, _, hb.trans hec, hbs.quiet hqc⟩
  | true =>
    cases ha : a.rejected with
    | true =>
      obtain rfl := Option.some.inj ((addIface_rejected hm ha).symm.trans hc)
      simpa [accepted, ha] using h
    | false =>
      obtain ⟨hi, c, hec, hnc, -⟩ := addIface_netdev hm ha hc
      simp only [accepted, hm, ha, Bool.not_false, Bool.and_self, if_true]
      rw [h.index] at hnc hi
      exact ⟨hi, _, hb.trans hec, hbs.snoc hnc⟩

/-- The log of a whole run. -/
theorem NetLog.run {e : Env} {virtfn : String → Option String} {g₀ g : Gen} {cs : List NetCall}
    (h : Runs.run (netStep e virtfn) cs g₀ = some g) : NetLog g₀ (cs.countP accepted) g := by
  refine Runs.run_induction (P := fun cs g => NetLog g₀ (cs.countP accepted) g)
    (NetLog.init g₀) ?_ h
  intro cs c t t' _ ih hc
  rw [List.countP_append, List.countP_singleton]
  exact ih.step hc

end KvmOsx.Genconfig
