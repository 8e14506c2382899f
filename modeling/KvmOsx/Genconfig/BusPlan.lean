import KvmOsx.Genconfig.BusLedger

/-!
# Buses and devices as a configuration plans them

What a run names and adds can be told from the configuration, without the run.

* `Plan`: who calls `add_vpci`, which other buses are named, which other devices added.
* `Adds`: a step does to the ledger what a plan says; `Adds.trans`.
* `nicBus`, `addIface_addsOn`: the bus on which a network interface is put.
* `usbPlan`, `gfxPlan`: the plan of each fragment, with the lemma that it follows it.
-/

namespace KvmOsx.Genconfig

open Script Text References

/-! ## Plans -/

/-- The callers of `add_vpci`, in order; the buses named by others than root ports; the ids
    of the devices that are no root ports. -/
structure Plan where
  callers : List ResultVar
  uses : List String
  ids : List String

instance : Append Plan where
  append p q := ⟨p.callers ++ q.callers, p.uses ++ q.uses, p.ids ++ q.ids⟩

/-- Nothing is added. -/
def Plan.empty : Plan := ⟨[], [], []⟩

@[simp] theorem Plan.callers_append (p q : Plan) : (p ++ q).callers = p.callers ++ q.callers := rfl

@[simp] theorem Plan.uses_append (p q : Plan) : (p ++ q).uses = p.uses ++ q.uses := rfl

@[simp] theorem Plan.ids_append (p q : Plan) : (p ++ q).ids = p.ids ++ q.ids := rfl

@[simp] theorem Plan.mk_append (c c' : List ResultVar) (u u' i i' : List String) :
    (⟨c, u, i⟩ : Plan) ++ ⟨c', u', i'⟩ = ⟨c ++ c', u ++ u', i ++ i'⟩ := rfl

@[simp] theorem Plan.empty_append (p : Plan) : .empty ++ p = p := rfl

@[simp] theorem Plan.append_empty (p : Plan) : p ++ .empty = p := by
  show (⟨p.callers ++ [], p.uses ++ [], p.ids ++ []⟩ : Plan) = p
  rw [List.append_nil, List.append_nil, List.append_nil]

/-- The ids of the ports, numbered from `n`. -/
def Plan.ports (n : ℕ) (p : Plan) : List String :=
  (p.callers.zipIdx n).map fun c => portId c.1 c.2

/-- The plan as a ledger, if the next port gets the number `n`. -/
def Plan.ledger (e : Env) (n : ℕ) (p : Plan) : Ledger String Supplier :=
  ⟨p.callers.map (fun _ => rootBus e) ++ p.uses, (p.ports n ++ p.ids).map .device⟩

theorem Plan.ports_append (n : ℕ) (p q : Plan) :
    (p ++ q).ports n = p.ports n ++ q.ports (n + p.callers.length) := by
  simp [Plan.ports, List.zipIdx_append]

/-- A device without a bus is put on `virtio.N`, or on none. No device provides these. -/
def NoDefaultBus (ds : List Supplier) : Prop :=
  ¬ Resolved Provides ds "" ∧ ∀ s, ¬ Resolved Provides ds ("virtio." ++ num s)

/-- Both lists of buses are there, or neither is. -/
def SameFate (bs bs' : List String) : Prop :=
  ∀ ds, NoDefaultBus ds → (Supplied Provides ds bs ↔ Supplied Provides ds bs')

theorem SameFate.refl (bs : List String) : SameFate bs bs := fun _ _ => Iff.rfl

/-- The step follows the plan. -/
structure Adds (m : Machine) (e : Env) (g g' : Gen) (p : Plan) : Prop where
  sset : g.sset = true → g'.sset = true
  next : ∀ n, At n g → At (n + p.callers.length) g'
  ledger : ∀ n, At n g →
    Accounts Provides NoDefaultBus (busLedger m e g) (busLedger m e g') (p.ledger e n)

section Adds

variable {m : Machine} {e : Env} {g g' gv g₁ g₂ g₃ : Gen} {p q : Plan} {os : List Opt}

theorem Adds.refl (g : Gen) : Adds m e g g .empty :=
  ⟨id, fun _ hn => hn, fun _ _ => Accounts.refl _⟩

theorem Adds.trans (h : Adds m e g₁ g₂ p) (h' : Adds m e g₂ g₃ q) : Adds m e g₁ g₃ (p ++ q) where
  sset := fun hs => h'.sset (h.sset hs)
  next := by
    intro n hn
    have hnext := h'.next _ (h.next n hn)
    rwa [Nat.add_assoc, ← List.length_append] at hnext
  ledger := by
    intro n hn
    refine ((h.ledger n hn).trans (h'.ledger _ (h.next n hn))).congr ?_ ?_
    · intro d
      simp only [Plan.ledger, Ledger.defs_append, Plan.ports_append, Plan.ids_append,
        List.map_append, List.mem_append]
      tauto
    · intro ds _ _
      simp only [Plan.ledger, Ledger.uses_append, Plan.callers_append, Plan.uses_append,
        List.map_append, supplied_append]
      tauto

/-- The buses a plan names may be exchanged for others that its devices, or whatever
    devices there are, provide as well. -/
theorem Adds.congr (h : Adds m e g g' p) {bs : List String}
    (hbs : ∀ ds, NoDefaultBus ds → (∀ i ∈ p.ids, Supplier.device i ∈ ds) →
      (Supplied Provides ds p.uses ↔ Supplied Provides ds bs)) :
    Adds m e g g' ⟨p.callers, bs, p.ids⟩ where
  sset := h.sset
  next := h.next
  ledger := by
    intro n hn
    refine (h.ledger n hn).congr (fun _ => Iff.rfl) fun ds hfit hds => ?_
    have hids : ∀ i ∈ p.ids, Supplier.device i ∈ ds := fun i hi =>
      hds _ (List.mem_map.mpr ⟨i, List.mem_append_right _ hi, rfl⟩)
    simp only [Plan.ledger, supplied_append, hbs ds hfit hids]

theorem At.appends {n : ℕ} (hn : At n g) (h : Appends g g' os) : At n g' where
  slot := by rw [h.toSamePorts.source.slot, hn.slot]
  read := by
    intro f hf
    rw [h.files] at hf
    exact (h.options _).mpr (Or.inl (hn.read f hf))

/-- New options that read nothing. -/
theorem Appends.adds (h : Appends g g' os) (hr : ReadsNothing os) :
    Adds m e g g' ⟨[], namedBuses os, valuesOf .device "id" os⟩ where
  sset := fun hs => h.sset.trans hs
  next := fun _ hn => hn.appends h
  ledger := by
    intro n hn
    refine Accounts.of_mem ?_ ?_
    · intro d
      simp only [busLedger, Plan.ledger, Plan.ports, List.mem_append, List.mem_map,
        h.mem_deviceIds hr, or_and_right, exists_or, List.zipIdx_nil, List.map_nil,
        List.nil_append, or_assoc]
    · intro b
      simp only [busLedger, Plan.ledger, h.mem_busRefs, List.map_nil, List.nil_append]

theorem sourceLibPci_adds : Adds m e g (sourceLibPci g) .empty := by
  obtain ⟨hset, k, hk⟩ := sourceLibPci_spec g
  have hopt : (sourceLibPci g).options = g.options := by
    rw [hk]
    rfl
  have hidem : sourceLibPci (sourceLibPci g) = sourceLibPci g := if_pos hset
  refine ⟨fun _ => hset, fun n hn => ⟨?_, ?_⟩, fun n _ => ?_⟩
  · rw [hidem, hn.slot]
    rfl
  · rw [sourceLibPci_cfgFiles, hopt]
    exact hn.read
  · have hsame : busLedger m e (sourceLibPci g) = busLedger m e g := by
      rw [hk]
      rfl
    rw [hsame]
    exact Accounts.refl _

/-- A call of `add_vpci`. -/
theorem addVpci_adds {v : ResultVar} {port : String} (hs : g.sset = true)
    (h : addVpci e v port g = some gv) : Adds m e g gv ⟨[v], [], []⟩ := by
  have hgv := (addVpci_spec h).2
  have hset : gv.sset = true := by rw [hgv, hs]
  have hslot : ∀ n, At n g → g.slotCount = n := by
    intro n hn
    have := hn.slot
    rwa [sourceLibPci, if_pos hs] at this
  refine ⟨fun _ => hset, fun n hn => ⟨?_, ?_⟩, fun n hn => Accounts.of_mem ?_ ?_⟩
  · rw [sourceLibPci, if_pos hset, hgv, ← hslot n hn]
    rfl
  · intro f hf
    rw [addVpci_options h]
    rw [addVpci_cfgFiles h, List.mem_append, List.mem_singleton] at hf
    rcases hf with hf | rfl
    · exact Or.inl (hn.read f hf)
    · exact Or.inr rfl
  · intro d
    simp only [busLedger, Plan.ledger, Plan.ports, List.mem_append, List.mem_map,
      addVpci_deviceIds h hn.read, or_and_right, exists_or, exists_eq_left, exists_eq_left',
      hslot n hn, List.zipIdx_cons, List.zipIdx_nil, List.append_nil, List.mem_singleton, or_assoc]
  · intro b
    simp only [busLedger, Plan.ledger, addVpci_busRefs h, List.map_cons, List.map_nil,
      List.append_nil, List.mem_singleton]

/-- A call of `add_vpci` and options whose buses are there once the new port is. -/
theorem onPort_adds (bs : List String) {v : ResultVar} {port : String} (hs : g.sset = true)
    (h : addVpci e v port g = some gv) (ha : Appends gv g' os) (hr : ReadsNothing os)
    (hb : SameFate (namedBuses os) bs) (hbs : ∀ b ∈ bs, b = gv.vars v.name) :
    Adds m e g g' ⟨[v], [], valuesOf .device "id" os⟩ := by
  have halloc : Adds m e g gv ⟨[v], [], []⟩ := addVpci_adds hs h
  have hopts : Adds m e gv g' ⟨[], namedBuses os, valuesOf .device "id" os⟩ := ha.adds hr
  have hall := halloc.trans hopts
  refine ⟨hall.sset, hall.next, fun n hn => (hall.ledger n hn).congr (fun _ => Iff.rfl) ?_⟩
  intro ds hfit hds
  have hslot : g.slotCount = n := by
    have := hn.slot
    rwa [sourceLibPci, if_pos hs] at this
  have hport : Resolved Provides ds (gv.vars v.name) := by
    refine ⟨.device (portId v n), hds _ ?_, Or.inl ?_⟩
    · simp [Plan.ledger, Plan.ports]
    · rw [addVpci_var h, hslot]
  have hsup : Supplied Provides ds (namedBuses os) := by
    rw [hb ds hfit]
    intro b hmem
    rw [hbs b hmem]
    exact hport
  simp only [Plan.ledger, Plan.callers_append, Plan.uses_append, supplied_append, hsup,
    List.append_nil, supplied_nil, and_true]

/-- The steps of a run add up. -/
theorem run_adds {α : Type*} {step : Gen → α → Option Gen} {plans : α → Plan}
    (hstep : ∀ a g g', g.sset = true → step g a = some g' → Adds m e g g' (plans a))
    {acts : List α} (hs : g.sset = true) (h : Runs.run step acts g = some g') :
    Adds m e g g' (acts.foldr (fun a p => plans a ++ p) .empty) := by
  induction acts generalizing g with
  | nil =>
    obtain rfl := Option.some.inj h
    exact Adds.refl g
  | cons a acts ih =>
    obtain ⟨gm, hm, hrest⟩ := Option.bind_eq_some_iff.mp h
    have ha : Adds m e g gm (plans a) := hstep a g gm hs hm
    exact ha.trans (ih (ha.sset hs) hrest)

end Adds

/-! ## Network interfaces -/

/-- The bus of `_add_pcie_iface`, which adds nothing if an argument is missing. -/
def pcieBus (port : String) (a : NetArgs) : Option String :=
  if port = "" ∨ a.bus = "" ∨ a.addr = "" then none else some a.bus

/-- The bus a call hands to its device function, if it adds a device. Where the bus is empty
    and the call does not quote its arguments, the address takes its place. -/
def nicBus (virtfn : String → Option String) (a : NetArgs) : IfaceMode → Option String
  | .vfio => pcieBus a.dev a
  | .sriov =>
    if a.dev = "" || a.vf = "" || a.mac = "" then none
    else (virtfn (sysNet a.dev ++ "/device/virtfn" ++ a.vf)).bind fun port => pcieBus port a
  | .bridge | .tap => if a.rejected then none else some (arg (unquoted [a.mac, a.bus, a.addr]) 2)
  | _ => if a.rejected then none else some a.bus

/-- A bus that is given is kept. -/
theorem nicBus_eq {virtfn : String → Option String} {a : NetArgs} {mode : IfaceMode} {b : String}
    (ha : a.bus ≠ "") (h : nicBus virtfn a mode = some b) : b = a.bus := by
  have hpcie : ∀ port, pcieBus port a = some b → b = a.bus := by
    intro port hp
    unfold pcieBus at hp
    split_ifs at hp
    exact (Option.some.inj hp).symm
  cases mode with
  | vfio => exact hpcie _ h
  | sriov =>
    simp only [nicBus] at h
    split_ifs at h
    obtain ⟨port, -, hp⟩ := Option.bind_eq_some_iff.mp h
    exact hpcie port hp
  | bridge | tap =>
    simp only [nicBus] at h
    split_ifs at h with hr
    rw [← Option.some.inj h]
    exact arg_unquoted (by simpa using hr) ha
  | macvtap | macvtapPassthru | e1000 | vmxnet | ovs | vpp | vpptap =>
    simp only [nicBus] at h
    split_ifs at h
    exact (Option.some.inj h).symm

/-- Devices without an id are added, on buses with the fate of `bs`. -/
def AddsOn (g g' : Gen) (bs : List String) : Prop :=
  ∃ os, Appends g g' os ∧ ReadsNothing os ∧ valuesOf .device "id" os = [] ∧
    SameFate (namedBuses os) bs

section Nics

variable {e : Env} {virtfn : String → Option String} {a : NetArgs} {g g' g₁ g₂ g₃ : Gen}
  {bs bs' : List String}

theorem Appends.trans {os os' : List Opt} (h : Appends g₁ g₂ os) (h' : Appends g₂ g₃ os') :
    Appends g₁ g₃ (os ++ os') where
  sset := h'.sset.trans h.sset
  slot := h'.slot.trans h.slot
  vpci := h'.vpci.trans h.vpci
  files := h'.files.trans h.files
  cfg := h'.cfg.trans h.cfg
  sw := h'.sw.trans h.sw
  options := by
    intro o
    rw [h'.options, h.options, List.mem_append, or_assoc]

theorem AddsOn.trans (h : AddsOn g₁ g₂ bs) (h' : AddsOn g₂ g₃ bs') :
    AddsOn g₁ g₃ (bs ++ bs') := by
  obtain ⟨os, ha, hr, hi, hb⟩ := h
  obtain ⟨os', ha', hr', hi', hb'⟩ := h'
  refine ⟨os ++ os', ha.trans ha', ?_, ?_, fun ds hfit => ?_⟩
  · exact List.forall_mem_append.mpr ⟨hr, hr'⟩
  · rw [valuesOf_append, hi, hi', List.append_nil]
  · rw [supplied_append, ← hb ds hfit, ← hb' ds hfit, ← supplied_append]
    exact supplied_congr fun b => mem_namedBuses_append.trans List.mem_append.symm

/-- Options without a device, or none at all. -/
theorem AddsOn.of_quiet {os : List Opt} (hs : SamePorts g g') (hsw : g'.qemuSw = g.qemuSw)
    (hc : g'.cloverOpts = g.cloverOpts) (ho : g'.qemuOpts = g.qemuOpts ++ os)
    (hos : ∀ o ∈ os, o.flag ≠ .device ∧ o.flag ≠ .readconfig) : AddsOn g g' [] := by
  have hval : ∀ key, valuesOf .device key os = [] := by
    intro key
    rw [valuesOf, List.filter_eq_nil_iff.mpr fun o ho => by simpa using (hos o ho).1]
    rfl
  refine ⟨os, .of_opts hs hsw hc ho, fun o ho => (hos o ho).2, hval _, ?_⟩
  rw [namedBuses, hval, hval]
  exact SameFate.refl _

theorem AddsOn.refl (g : Gen) : AddsOn g g [] :=
  .of_quiet ⟨rfl, rfl, rfl, rfl, rfl⟩ rfl rfl (List.append_nil _).symm (by simp)

/-- `QEMU_OPTS+=( … )`, `PRE_CMD+=( … )`, … without a device. -/
theorem append_addsOn {b : Block}
    (hb : ∀ o ∈ b.opts, o.flag ≠ .device ∧ o.flag ≠ .readconfig) : AddsOn g (g.append b) [] :=
  .of_quiet ⟨rfl, rfl, rfl, rfl, rfl⟩ rfl rfl rfl hb

theorem addVirtioDevice_addsOn (args : List String) :
    AddsOn g (addVirtioDevice e args g) [arg args 2] := by
  refine ⟨_, .of_opts ⟨rfl, rfl, rfl, rfl, rfl⟩ rfl rfl rfl, ?_, ?_, ?_⟩
  · simp [ReadsNothing]
  · simp [valuesOf_cons]
  · intro ds hfit
    by_cases hb : arg args 2 = ""
    · simp [namedBuses, valuesOf_cons, hb, hfit.1, hfit.2]
    · simp [namedBuses, valuesOf_cons, hb]

theorem addPlainDevice_addsOn (driver : String) (args : List String) :
    AddsOn g (addPlainDevice driver args g) [arg args 2] := by
  refine ⟨_, .of_opts ⟨rfl, rfl, rfl, rfl, rfl⟩ rfl rfl rfl, ?_, ?_, fun ds _ => ?_⟩
  · simp [ReadsNothing]
  · simp [valuesOf_cons]
  · simp [namedBuses, valuesOf_cons]

theorem NetCb.call_addsOn (cb : NetCb) (args : List String) :
    AddsOn g (cb.call e args g) [arg args 2] := by
  cases cb with
  | virtio => exact addVirtioDevice_addsOn args
  | e1000 | vmxnet => exact addPlainDevice_addsOn _ args

/-- The counter of the interfaces is set. -/
theorem AddsOn.netIndex (h : AddsOn g g' bs) (i : ℕ) : AddsOn g { g' with netIndex := i } bs := by
  have hset : AddsOn g' { g' with netIndex := i } [] :=
    .of_quiet ⟨rfl, rfl, rfl, rfl, rfl⟩ rfl rfl (List.append_nil _).symm (by simp)
  have hall := h.trans hset
  rwa [List.append_nil] at hall

theorem macvtapEmit_addsOn (br : String) (pre : List Line) (qemuDevice : String) (cb : NetCb)
    (netArgs : String) : AddsOn g (macvtapEmit e br pre a qemuDevice cb netArgs g) [a.bus] :=
  ((append_addsOn (by simp)).trans (cb.call_addsOn [a.mac, a.bus, a.addr, qemuDevice])).netIndex _

theorem addMacvtapIface_addsOn {qemuDevice : String} {cb : NetCb} {netArgs : String}
    (h : addMacvtapIface e virtfn a qemuDevice cb netArgs g = some g') :
    AddsOn g g' (if a.rejected then none else some a.bus).toList := by
  unfold addMacvtapIface at h
  split_ifs at h ⊢
  · obtain rfl := Option.some.inj h
    exact AddsOn.refl g
  · obtain ⟨port, -, rfl⟩ := Option.map_eq_some_iff.mp h
    exact macvtapEmit_addsOn _ _ _ cb _
  · obtain rfl := Option.some.inj h
    exact macvtapEmit_addsOn _ _ _ cb _

/-- A passed-through function. -/
theorem addPcieIface_addsOn (port : String) :
    AddsOn g (addPcieIface e (unquoted [port, a.bus, a.addr]) g) (pcieBus port a).toList := by
  unfold addPcieIface pcieBus
  by_cases hp : port = "" ∨ a.bus = "" ∨ a.addr = ""
  · have hmiss : arg (unquoted [port, a.bus, a.addr]) 3 = "" := by
      by_contra hne
      by_cases h1 : port = "" <;> by_cases h2 : a.bus = "" <;> by_cases h3 : a.addr = "" <;>
        simp_all [unquoted, arg]
    rw [if_pos (by simp [hmiss]), if_pos hp]
    exact AddsOn.refl g
  · simp only [not_or] at hp
    obtain ⟨h1, h2, h3⟩ := hp
    have harg : unquoted [port, a.bus, a.addr] = [port, a.bus, a.addr] := by
      simp [unquoted, h1, h2, h3]
    rw [harg, if_neg (by simp [arg, h1, h2, h3]), if_neg (by simp [h1, h2, h3])]
    refine ⟨_, .of_opts ⟨rfl, rfl, rfl, rfl, rfl⟩ rfl rfl rfl, ?_, ?_, fun ds _ => ?_⟩
    · simp [ReadsNothing]
    · simp [valuesOf_cons]
    · simp [namedBuses, valuesOf_cons, arg]

/-- Every call adds its device on the bus of `nicBus`. -/
theorem addIface_addsOn {mode : IfaceMode} (h : addIface e virtfn a g mode = some g') :
    AddsOn g g' (nicBus virtfn a mode).toList := by
  -- `P_VLAN` and `NETDEV` are set before the options are appended.
  have hvlan : ∀ v, AddsOn g { g with pVlan := v } [] := fun v =>
    .of_quiet ⟨rfl, rfl, rfl, rfl, rfl⟩ rfl rfl (List.append_nil _).symm (by simp)
  have hdev : ∀ d, AddsOn g { g with netdev := d } [] := fun d =>
    .of_quiet ⟨rfl, rfl, rfl, rfl, rfl⟩ rfl rfl (List.append_nil _).symm (by simp)
  cases mode with
  | macvtap | macvtapPassthru | e1000 | vmxnet => exact addMacvtapIface_addsOn h
  | bridge =>
    obtain rfl := Option.some.inj h
    simp only [nicBus, addBridgeIface]
    split_ifs
    · exact AddsOn.refl g
    · exact ((append_addsOn (by simp)).trans (addVirtioDevice_addsOn _)).netIndex _
  | tap =>
    obtain rfl := Option.some.inj h
    simp only [nicBus, addTapIface]
    split_ifs
    · exact AddsOn.refl g
    · exact ((append_addsOn (by simp)).trans (addVirtioDevice_addsOn _)).netIndex _
  | ovs =>
    obtain rfl := Option.some.inj h
    simp only [nicBus, addOvsIface]
    split
    · exact AddsOn.refl g
    · exact (((hvlan _).trans (append_addsOn (by simp))).trans
        (addVirtioDevice_addsOn [a.mac, a.bus, a.addr, "virtio-net-pci"])).netIndex _
  | vpp =>
    obtain rfl := Option.some.inj h
    simp only [nicBus, addVppIface]
    split
    · exact AddsOn.refl g
    · exact (((hvlan _).trans (append_addsOn (by simp))).trans
        (addVirtioDevice_addsOn [a.mac, a.bus, a.addr, "virtio-net-pci"])).netIndex _
  | vpptap =>
    obtain rfl := Option.some.inj h
    simp only [nicBus, addVpptapIface]
    split_ifs
    · exact AddsOn.refl g
    · exact ((append_addsOn (by simp)).trans
        (addVirtioDevice_addsOn [a.mac, a.bus, a.addr, "virtio-net-pci", ""])).netIndex _
  | vfio =>
    obtain rfl := Option.some.inj h
    unfold addVfioIface
    split_ifs with hd
    · rw [nicBus, pcieBus, if_pos (Or.inl hd)]
      exact hdev _
    · exact (hdev _).trans (addPcieIface_addsOn a.dev)
  | sriov =>
    simp only [nicBus]
    unfold addIface addSriovIface at h
    by_cases hr : (a.dev = "" || a.vf = "" || a.mac = "") = true
    · rw [if_pos hr] at h
      rw [if_pos hr]
      obtain rfl := Option.some.inj h
      exact hdev _
    · rw [if_neg hr] at h
      rw [if_neg hr]
      obtain ⟨port, hport, rfl⟩ := Option.map_eq_some_iff.mp h
      rw [hport, Option.bind_some]
      exact ((hdev _).trans (append_addsOn (by simp))).trans (addPcieIface_addsOn port)

end Nics

theorem AddsOn.adds {m : Machine} {e : Env} {g g' : Gen} {bs : List String}
    (h : AddsOn g g' bs) : Adds m e g g' ⟨[], bs, []⟩ := by
  obtain ⟨os, ha, hr, hi, hb⟩ := h
  have hadds : Adds m e g g' ⟨[], namedBuses os, valuesOf .device "id" os⟩ := ha.adds hr
  rw [hi] at hadds
  exact hadds.congr fun ds hfit _ => hb ds hfit

/-! ## USB -/

/-- `usb-$USB_MODE.sh`. -/
def usbPlan (e : Env) : Plan :=
  if e.val "USB_MODE" = "pt" then
    ⟨(e.val "USBPCI" :: usbMore e).map fun _ => .usbpciBus, [], []⟩
  else if e.val "USB_MODE" = "pt-pc" then ⟨[], (pciPtDevs e).map fun _ => "pci.0", []⟩
  else if e.val "USB_MODE" = "spice" then
    ⟨[], [], ["usb", "usbredirdev1", "usbredirdev2", "usbredirdev3"]⟩
  else .empty

section Fragments

variable {m : Machine} {e : Env} {h : BootHost} {g g' : Gen}

/-- Devices on buses that they provide themselves. -/
theorem ownBus_adds {os : List Opt} {ids : List String} (hr : ReadsNothing os)
    (hi : valuesOf .device "id" os = ids)
    (hb : ∀ ds, (∀ i ∈ ids, Supplier.device i ∈ ds) → Supplied Provides ds (namedBuses os)) :
    Adds m e g (g.addOpts os) ⟨[], [], ids⟩ := by
  subst hi
  have hadds : Adds m e g (g.addOpts os) ⟨[], _, _⟩ := (appends_addOpts g os).adds hr
  exact hadds.congr fun ds _ hids => iff_of_true (hb ds hids) supplied_nil

theorem queueBind_addsOn (addrs : List String) : AddsOn g (g.queueBind addrs) [] :=
  .of_quiet ⟨rfl, rfl, rfl, rfl, rfl⟩ rfl rfl (List.append_nil _).symm (by simp)

theorem queueBind_adds (addrs : List String) : Adds m e g (g.queueBind addrs) .empty :=
  (queueBind_addsOn addrs).adds

theorem usbOnPort_adds {pci addr : String} (hs : g.sset = true)
    (hu : usbOnPort e pci addr g = some g') : Adds m e g g' ⟨[.usbpciBus], [], []⟩ := by
  obtain ⟨gv, hv, rfl⟩ := Option.map_eq_some_iff.mp hu
  refine onPort_adds [gv.vars "USBPCI_BUS"] (v := .usbpciBus) hs hv (appends_addOpts gv _)
    ?_ ?_ ?_
  · simp [ReadsNothing, vfioPci]
  · intro ds _
    simp [namedBuses, valuesOf_cons, vfioPci]
  · simp [ResultVar.name]

/-- One of the optional controllers. -/
theorem usbMore_adds {pci addr : String} (hs : g.sset = true)
    (hu : (if pci = "" then some g else (usbOnPort e pci addr g).map (·.queueBind [fn0 pci])) =
      some g') :
    Adds m e g g' ⟨(unquoted [pci]).map fun _ => .usbpciBus, [], []⟩ := by
  split_ifs at hu with hp
  · obtain rfl := Option.some.inj hu
    rw [unquoted, List.filter_cons_of_neg (by simp [hp])]
    exact Adds.refl g
  · obtain ⟨gu, hgu, rfl⟩ := Option.map_eq_some_iff.mp hu
    have hport : Adds m e g gu ⟨[.usbpciBus], [], []⟩ := usbOnPort_adds hs hgu
    have hall := hport.trans (queueBind_adds [fn0 pci])
    rw [unquoted, List.filter_cons_of_pos (by simp [hp])]
    rwa [Plan.append_empty] at hall

theorem usbPt_adds {h : Host} (hu : usbPt e h g = some g') :
    Adds m e g g' ⟨(e.val "USBPCI" :: usbMore e).map fun _ => .usbpciBus, [], []⟩ := by
  obtain ⟨g1, h1, hu⟩ := Option.bind_eq_some_iff.mp hu
  obtain ⟨g2, h2, hu⟩ := Option.bind_eq_some_iff.mp hu
  obtain ⟨g3, h3, hu⟩ := Option.bind_eq_some_iff.mp hu
  obtain rfl := checkLspci_eq hu
  have a0 : Adds m e g ((sourceLibPci g).queueBind [fn0 (e.val "USBPCI")]) .empty :=
    sourceLibPci_adds.trans (queueBind_adds _)
  have s0 : ((sourceLibPci g).queueBind [fn0 (e.val "USBPCI")]).sset = true := sourceLibPci_sset
  have a1 : Adds m e _ g1 ⟨[.usbpciBus], [], []⟩ := usbOnPort_adds s0 h1
  have s1 : g1.sset = true := a1.sset s0
  have a2 : Adds m e g1 g2 _ := usbMore_adds s1 h2
  have a3 : Adds m e g2 g' _ := usbMore_adds (a2.sset s1) h3
  have hall := ((a0.trans a1).trans a2).trans a3
  have hmore : usbMore e = unquoted [e.val "USBPCI_1"] ++ unquoted [e.val "USBPCI_2"] := by
    simp [usbMore, unquoted, ← List.filter_append]
  rw [hmore, List.map_cons, List.map_append]
  exact hall

theorem usbPtPc_adds :
    Adds m e g (usbPtPc e g) ⟨[], (pciPtDevs e).map fun _ => "pci.0", []⟩ := by
  unfold usbPtPc
  induction pciPtDevs e generalizing g with
  | nil => exact Adds.refl g
  | cons d ds ih =>
    have hd : Adds m e g (g.addOpts [vfioPci (d ++ ".0") "pci.0" (cut ':' 2 d) []])
        ⟨[], ["pci.0"], []⟩ := (appends_addOpts g _).adds (by simp [ReadsNothing, vfioPci])
    exact (hd.trans (queueBind_adds _)).trans ih

theorem sourceUsb_adds (hu : sourceUsb e h.toHost g = some g') : Adds m e g g' (usbPlan e) := by
  unfold sourceUsb usb at hu
  unfold usbPlan
  by_cases hpt : e.val "USB_MODE" = "pt"
  · simp only [hpt, true_or, if_true] at hu ⊢
    exact usbPt_adds hu
  by_cases hpc : e.val "USB_MODE" = "pt-pc"
  · simp only [hpc, or_true, if_true, if_false, String.reduceEq] at hu ⊢
    obtain rfl := Option.some.inj hu
    exact usbPtPc_adds
  simp only [hpt, hpc, or_self, if_false] at hu ⊢
  split_ifs at hu ⊢
  · obtain rfl := Option.some.inj hu
    refine ownBus_adds (by unfold ReadsNothing; decide) (by decide) fun ds hids => ?_
    -- The companion controllers sit on the bus of the first.
    have husb : Resolved Provides ds "usb.0" := ⟨.device "usb", hids _ (by decide), Or.inr rfl⟩
    simp [namedBuses, usbSpiceOpts, valuesOf_cons, husb]
  · obtain rfl := Option.some.inj hu
    exact Adds.refl g

/-! ## Graphics -/

/-- The ids of the devices a graphics mode adds. -/
def GfxMode.ids : GfxMode → List String
  | .qxlSpice => ["channel2"]
  | .virtioSpice => ["susb", "channel1", "channel2"]
  | _ => []

/-- The bus of the card, if `lib-gfx.sh` adds it. -/
def cardBus (e : Env) : List String := if e.val "GFXPCI" = "" then [] else ["gpu.1"]

/-- The bus of the card's audio function, if `gfx-pt.sh` adds it. -/
def audioBus (e : Env) (h : BootHost) : List String :=
  if h.pci ("0000:" ++ e.val "GFXPCI" ++ ".1") ∧ e.val "GFX_AUDIO" = "pt" then [e.val "GFXPT_BUS"]
  else []

/-- A graphics mode. -/
def GfxMode.plan (e : Env) (h : BootHost) (mode : GfxMode) : Plan :=
  ⟨[], (if mode.sourcesLib then cardBus e else []) ++ if mode = .pt then audioBus e h else [],
    mode.ids⟩

/-- `gfx-$GFX_MODE.sh`. -/
def gfxPlan (e : Env) (h : BootHost) : Plan :=
  (GfxMode.ofText (e.val "GFX_MODE")).elim .empty (GfxMode.plan e h)

theorem addOpts_addsOn (os : List Opt) (hr : ReadsNothing os)
    (hi : valuesOf .device "id" os = []) : AddsOn g (g.addOpts os) (namedBuses os) :=
  ⟨os, appends_addOpts g os, hr, hi, SameFate.refl _⟩

theorem libGfx_addsOn (h : Host) : AddsOn g (g.addOpts (libGfxOpts e h)) (cardBus e) := by
  refine ⟨_, appends_addOpts g _, ?_, ?_, fun ds _ => ?_⟩
  · simp only [libGfxOpts]
    split_ifs <;> simp [ReadsNothing]
  · simp only [libGfxOpts]
    split_ifs <;> simp [valuesOf_cons]
  · simp only [libGfxOpts, cardBus]
    split_ifs <;> simp [namedBuses, valuesOf_cons]

theorem addVgpu_addsOn {vnc port : String} (hg : addVgpu vnc port g = some g') :
    AddsOn g g' [] := by
  unfold addVgpu at hg
  split_ifs at hg
  · obtain rfl := Option.some.inj hg
    exact AddsOn.refl g
  · obtain rfl := Option.some.inj hg
    exact addOpts_addsOn _ (by simp [ReadsNothing]) (by simp [valuesOf_cons])

/-- `PRE_CMD+=( … )`. -/
theorem preCmd_addsOn (ls : List Line) : AddsOn g { g with preCmd := ls } [] :=
  .of_quiet ⟨rfl, rfl, rfl, rfl, rfl⟩ rfl rfl (List.append_nil _).symm (by simp)

theorem gfxPt_addsOn (hg : gfxPt e h g = some g') : AddsOn g g' (audioBus e h) := by
  simp only [gfxPt] at hg
  split_ifs at hg with hcard hdev hmode
  · rw [audioBus, if_pos ⟨hdev, hmode⟩]
    have haudio := addOpts_addsOn
      (g := { g with preCmd := (g.preCmd ++ [words ["vfio-bind", fn0 (e.val "GFXPCI")]]) ++
        [words ["vfio-bind", "0000:" ++ e.val "GFXPCI" ++ ".1"]] })
      [⟨.device, [.raw "vfio-pci", .kv "bus" (e.val "GFXPT_BUS"), .kv "addr" "0x00.0x1",
        .kv "host" (e.val "GFXPCI" ++ ".1")]⟩] (by simp [ReadsNothing]) (by simp [valuesOf_cons])
    exact ((preCmd_addsOn _).trans haudio).trans (addVgpu_addsOn hg)
  · rw [audioBus, if_neg (by simp [hmode])]
    exact (preCmd_addsOn _).trans (addVgpu_addsOn hg)
  · rw [audioBus, if_neg (by simp [hdev])]
    exact (preCmd_addsOn _).trans (addVgpu_addsOn hg)

/-- `CLOVER_OPTS+=( … )`. -/
theorem cloverOpts_addsOn (os : List Opt) (hr : ReadsNothing os)
    (hi : valuesOf .device "id" os = []) :
    AddsOn g { g with cloverOpts := g.cloverOpts ++ os } (namedBuses os) := by
  refine ⟨os, ⟨⟨rfl, rfl, rfl, rfl, rfl⟩, rfl, fun o => ?_⟩, hr, hi, SameFate.refl _⟩
  simp only [Gen.options, List.mem_append, or_assoc]

theorem gfxPtI440_addsOn {h : Host} (hg : gfxPtI440 e h g = some g') : AddsOn g g' [] := by
  obtain rfl := checkLspci_eq hg
  have hclover := cloverOpts_addsOn
    (g := g.queueBind [fn0 (e.val "GFXPCI"), "0000:" ++ e.val "GFXPCI" ++ ".1"])
    [⟨.device, [.raw "vfio-pci", .kv "host" (e.val "GFXPCI" ++ ".0"),
      .kv "addr" ("04.0" ++ h.rom (e.val "GFXPCI") ++
        if e.val "GFXVGA" = "on" then ",x-vga=on" else "")]⟩]
    (by simp [ReadsNothing]) (by simp [valuesOf_cons])
  exact (queueBind_addsOn _).trans hclover

theorem sourceGfx_adds (hg : sourceGfx e h g = some g') : Adds m e g g' (gfxPlan e h) := by
  obtain ⟨mode, hmode, hg⟩ := Option.bind_eq_some_iff.mp hg
  rw [gfxPlan, hmode, Option.elim_some]
  have hlib : AddsOn g (g.addOpts (libGfxOpts e h.toHost)) (cardBus e) := libGfx_addsOn h.toHost
  cases mode with
  | off | vmware =>
    obtain rfl := Option.some.inj hg
    exact Adds.refl g
  | kvmgt =>
    obtain ⟨uuid, -, rfl⟩ := Option.map_eq_some_iff.mp hg
    exact (addOpts_addsOn _ (by simp [ReadsNothing]) (by simp [valuesOf_cons])).adds
  | ptI440 => exact (hlib.trans (gfxPtI440_addsOn hg)).adds
  | pt => exact (hlib.trans (gfxPt_addsOn hg)).adds
  | qxl | std | uni => exact (hlib.trans (addVgpu_addsOn hg)).adds
  | qxlSpice =>
    obtain rfl := Option.some.inj hg
    exact ownBus_adds (by unfold ReadsNothing; decide) (by decide) (by simp [namedBuses,
      qxlSpiceOpts, valuesOf_cons])
  | virtioSpice =>
    obtain rfl := Option.some.inj hg
    refine ownBus_adds (by unfold ReadsNothing; decide) (by decide) fun ds hids => ?_
    have hsusb : Resolved Provides ds "susb.0" := ⟨.device "susb", hids _ (by decide), Or.inr rfl⟩
    simp [namedBuses, virtioSpiceOpts, valuesOf_cons, hsusb]

end Fragments

end KvmOsx.Genconfig
