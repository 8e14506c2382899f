import KvmOsx.Genconfig.BusRun

/-!
# Which buses dangle

* `ownName`, `resolved_reserved`: no device of a run has the name of a root bus, of an AHCI
  port or of the default bus `virtio.N`.
* `suppliers`, `noDangling_iff`: a run leaves no bus dangling exactly if what its plan names is
  supplied.
* `BusesKnown`: for which configurations that is so.
-/

namespace KvmOsx.Genconfig

open Script Text References

/-! ## Names of devices -/

/-- The name begins with neither `p` nor `i` nor `gp`, and its second letter is not `i`. -/
def ownName (name : String) : Bool :=
  match name.toList with
  | a :: b :: _ => a ≠ 'p' && a ≠ 'i' && b ≠ 'i' && !(a = 'g' && b = 'p')
  | _ => false

theorem ownName_append {s : String} (h : ownName s = true) (t : String) :
    ownName (s ++ t) = true := by
  unfold ownName at h ⊢
  rw [String.toList_append]
  match hs : s.toList with
  | [] | [_] => simp [hs] at h
  | a :: b :: _ => simpa [hs] using h

theorem ownName_portId (v : ResultVar) (n : ℕ) : ownName (portId v n) = true := by
  have hv : ownName v.name = true := by cases v <;> decide
  exact ownName_append (ownName_append hv _) _

theorem ownName_vscsi (k : ℕ) : ownName (vscsi k) = true := ownName_append (by decide) _

theorem not_ownName_virtio (s : ℕ) : ownName ("virtio." ++ num s) = false := by
  unfold ownName
  rw [String.toList_append, show "virtio.".toList = ['v', 'i', 'r', 't', 'i', 'o', '.'] by decide]
  rfl

theorem not_ownName_ideBus (k : ℕ) : ownName (ideBus k) = false := by
  unfold ownName ideBus
  rw [String.toList_append, show "ide.".toList = ['i', 'd', 'e', '.'] by decide]
  rfl

/-- The devices have names of their own, but for the graphics port. -/
def OwnNames (ds : List Supplier) : Prop :=
  ∀ i, Supplier.device i ∈ ds → ownName i = true ∨ i = "gpu.1"

/-- Other names are those of buses, or of the graphics port. -/
theorem resolved_reserved {ds : List Supplier} {b : String} (hds : OwnNames ds)
    (hb : ownName b = false) (hgpu : b ≠ "gpu.1.0") :
    Resolved Provides ds b ↔ .bus b ∈ ds ∨ b = "gpu.1" ∧ .device "gpu.1" ∈ ds := by
  constructor
  · rintro ⟨d, hd, hp⟩
    cases d with
    | bus name =>
      obtain rfl : b = name := hp
      exact Or.inl hd
    | device i =>
      rcases hds i hd with hi | rfl
      · have hown : ownName b = true := by
          rcases hp with rfl | rfl
          · exact hi
          · exact ownName_append hi _
        rw [hown] at hb
        cases hb
      · exact Or.inr ⟨hp.resolve_right hgpu, hd⟩
  · rintro (h | ⟨rfl, h⟩)
    · exact ⟨_, h, rfl⟩
    · exact ⟨_, h, Or.inl rfl⟩

/-! ## The suppliers of a configuration -/

/-- The cfg files of the repository that a run reads. -/
def ReadCfgs.all (r : ReadCfgs) : List RepoCfg := r.common ++ r.opts ++ r.cfg ++ r.clover

/-- The ids of the devices that `common-$OS.sh` adds. -/
def CommonOs.startIds (os : CommonOs) (e : Env) : List String :=
  valuesOf .device "id" os.opts ++ (os.reads e).all.flatMap RepoCfg.devices

/-- What the buses of a configuration are due to. -/
def suppliers (os : CommonOs) (e : Env) (h : BootHost) : List Supplier :=
  os.machine.suppliers ++
    (os.startIds e ++ (plan e h).ports 8 ++ (plan e h).ids).map Supplier.device

section Start

variable {e : Env} {os : CommonOs} {configured : List String}

theorem cfgOpt_inj {c c' : RepoCfg} : cfgOpt e c = cfgOpt e c' ↔ c = c' := by
  refine ⟨fun h => ?_, fun h => h ▸ rfl⟩
  simp only [cfgOpt, readconfig, Opt.mk.injEq, List.cons.injEq, Item.raw.injEq, true_and,
    and_true, String.append_left_inj, String.append_right_inj] at h
  cases c <;> cases c' <;> first | rfl | exact absurd h (by decide)

theorem mem_start_options {o : Opt} : o ∈ (os.start e configured).options ↔
    o ∈ os.opts ∨ ∃ c ∈ (os.reads e).all, cfgOpt e c = o := by
  simp only [CommonOs.start, Gen.options, ReadCfgs.all, List.mem_append, List.mem_map, or_and_right,
    exists_or]
  by_cases ho : o ∈ os.opts <;> simp [ho, or_assoc]

theorem opts_flag {o : Opt} (h : o ∈ os.opts) : o.flag = .device := by
  revert h
  cases os with
  | macI440 => simp [CommonOs.opts]
  | pool pool => cases pool <;> simp +contextual [CommonOs.opts]

theorem mem_start_deviceIds {i : String} :
    i ∈ deviceIds e (os.start e configured) ↔ i ∈ os.startIds e := by
  have hcfg : ∀ c, cfgOpt e c ∈ (os.start e configured).options ↔ c ∈ (os.reads e).all := by
    intro c
    rw [mem_start_options]
    constructor
    · rintro (h | ⟨c', hc', h⟩)
      · cases opts_flag h
      · rwa [← cfgOpt_inj.mp h]
    · exact fun h => Or.inr ⟨c, h, rfl⟩
  have hopt : i ∈ valuesOf .device "id" (os.start e configured).options ↔
      i ∈ valuesOf .device "id" os.opts := by
    simp only [mem_valuesOf, mem_start_options]
    constructor
    · rintro ⟨o, h | ⟨c, -, rfl⟩, hflag, hval⟩
      · exact ⟨o, h, hflag, hval⟩
      · cases hflag
    · rintro ⟨o, h, hflag, hval⟩
      exact ⟨o, Or.inl h, hflag, hval⟩
  rw [mem_deviceIds, hopt, CommonOs.startIds, List.mem_append, List.mem_flatMap]
  simp only [hcfg]
  refine or_congr_right ⟨?_, Or.inl⟩
  rintro (h | ⟨f, hf, -⟩)
  · exact h
  · cases hf

theorem namedBuses_opts : namedBuses os.opts = [] := by
  cases os with
  | macI440 => rfl
  | pool pool => cases pool <;> decide

theorem start_busRefs : busRefs (os.start e configured) = [] := by
  refine List.eq_nil_iff_forall_not_mem.mpr fun b hb => ?_
  -- What reads a file names no bus.
  have hval : ∀ key, b ∈ valuesOf .device key (os.start e configured).options →
      b ∈ valuesOf .device key os.opts := by
    intro key h
    obtain ⟨o, ho, hflag, hmem⟩ := mem_valuesOf.mp h
    rcases mem_start_options.mp ho with ho | ⟨c, -, rfl⟩
    · exact mem_valuesOf.mpr ⟨o, ho, hflag, hmem⟩
    · cases hflag
  rcases mem_busRefs.mp hb with h | h | ⟨f, hf, -⟩
  · have hopts : b ∈ namedBuses os.opts := by
      rw [mem_namedBuses] at h ⊢
      exact h.imp (hval _) (hval _)
    rw [namedBuses_opts] at hopts
    cases hopts
  · cases h
  · cases hf

/-- The plan accounts for the whole run. -/
theorem genconfig_accounts {h : BootHost} {g : Gen}
    (hg : genconfig os configured e h = some g) :
    Accounts Provides NoDefaultBus
      (busLedger os.machine (os.env e) (os.start (os.env e) configured))
      (busLedger os.machine (os.env e) g) ((plan (os.env e) h).ledger (os.env e) 8) :=
  (fragments_adds rfl hg).ledger 8 ⟨rfl, fun _ hf => by cases hf⟩

/-- The devices of a run. -/
theorem mem_defs {h : BootHost} {g : Gen} (hg : genconfig os configured e h = some g)
    (d : Supplier) :
    d ∈ (busLedger os.machine (os.env e) g).defs ↔ d ∈ suppliers os (os.env e) h := by
  rw [(genconfig_accounts hg).defs]
  simp only [busLedger, Plan.ledger, suppliers, List.mem_append, List.mem_map, mem_start_deviceIds,
    or_and_right, exists_or, or_assoc]

/-- What `common-$OS.sh` adds has names of its own. -/
theorem startIds_names {i : String} (hi : i ∈ os.startIds e) : ownName i = true ∨ i = "gpu.1" := by
  have hrepo : ∀ c : RepoCfg, ∀ i ∈ c.devices, ownName i = true ∨ i = "gpu.1" := by
    intro c
    cases c <;> decide
  have hopts : ∀ i ∈ valuesOf .device "id" os.opts, ownName i = true ∨ i = "gpu.1" := by
    cases os with
    | macI440 => simp [CommonOs.opts]
    | pool pool => cases pool <;> decide
  rw [CommonOs.startIds, List.mem_append, List.mem_flatMap] at hi
  rcases hi with hi | ⟨c, -, hi⟩
  · exact hopts i hi
  · exact hrepo c i hi

end Start

/-! ## Names of the planned devices -/

/-- All planned devices have names of their own. -/
def Plan.Own (p : Plan) : Prop := ∀ i ∈ p.ids, ownName i = true

theorem Plan.Own.append {p q : Plan} (hp : p.Own) (hq : q.Own) : (p ++ q).Own := by
  intro i hi
  rcases List.mem_append.mp hi with hi | hi
  · exact hp i hi
  · exact hq i hi

theorem Plan.Own.empty : Plan.empty.Own := by simp [Plan.Own, Plan.empty]

/-- Without further devices. -/
theorem Plan.Own.of_nil {p : Plan} (hp : p.ids = []) : p.Own := by simp [Plan.Own, hp]

theorem Plan.Own.foldr {α : Type*} {f : α → Plan} (hf : ∀ a, (f a).Own) (as : List α) :
    (as.foldr (fun a p => f a ++ p) .empty).Own := by
  induction as with
  | nil => exact .empty
  | cons a as ih => exact (hf a).append ih

section Own

variable {e : Env} {h : BootHost}

theorem usbPlan_own : (usbPlan e).Own := by
  unfold usbPlan Plan.Own
  split_ifs
  · simp
  · simp
  · decide
  · simp [Plan.empty]

theorem gfxPlan_own : (gfxPlan e h).Own := by
  unfold gfxPlan
  cases GfxMode.ofText (e.val "GFX_MODE") with
  | none => exact .empty
  | some mode => cases mode <;> simp [Plan.Own, GfxMode.plan, GfxMode.ids] <;> decide

theorem disksPlan_own (diskarg : String → String → String) (c : DiskCount) (names : List String) :
    (disksPlan e diskarg c names).Own := by
  induction names generalizing c with
  | nil => exact .empty
  | cons name names ih =>
    refine Plan.Own.append ?_ (ih _)
    unfold diskPlan scsiPlan Plan.Own
    split_ifs <;> simp [Plan.empty, ownName_vscsi]

theorem teradiciPlan_own : (teradiciPlan e).Own := by
  unfold teradiciPlan
  split_ifs
  · exact .empty
  · exact .of_nil rfl

theorem netUniPlan_own {h : Host} : (netUniPlan e h).Own := by
  refine Plan.Own.append ?_ (.foldr (fun n => ?_) _)
  · unfold net1Plan
    split_ifs
    · exact .empty
    · exact .of_nil rfl
  · unfold netOnPortPlan
    split_ifs
    · exact .empty
    · exact .of_nil rfl

theorem netPlan_own {h : Host} : (netPlan e h).Own := by
  unfold netPlan
  dsimp only
  split_ifs
  · exact netUniPlan_own
  · refine .foldr (fun n => ?_) _
    unfold vmxnetPlan
    split_ifs
    · exact .empty
    · exact .of_nil rfl
  · exact .foldr (fun v => .of_nil rfl) _
  · exact .foldr (fun v => .of_nil rfl) _
  · exact .of_nil rfl
  · simp [Plan.Own]; decide
  · simp [Plan.Own]; decide
  · exact .empty

theorem ptPlan_own : (ptPlan e).Own := by
  refine .foldr (fun n => ?_) _
  unfold ptOnPortPlan
  split_ifs
  · exact .empty
  · exact .of_nil rfl

theorem fsPlan_own : (fsPlan e).Own := by
  unfold fsPlan
  split_ifs
  · exact .empty
  · simp [Plan.Own]; decide

theorem plan_own : (plan e h).Own := by
  have hif : ∀ {c : Bool} {p : Plan}, p.Own → (if c then p else .empty).Own := by
    intro c p hp
    cases c with
    | true => exact hp
    | false => exact .empty
  exact ((((((usbPlan_own.append gfxPlan_own).append (disksPlan_own _ _ _)).append
    teradiciPlan_own).append netPlan_own).append (hif netUniPlan_own)).append
      (hif ptPlan_own)).append fsPlan_own

end Own

/-! ## What is supplied -/

section Supplied

variable {os : CommonOs} {e : Env} {h : BootHost}

theorem mem_ports {n : ℕ} {p : Plan} {i : String} (hi : i ∈ p.ports n) :
    ∃ v k, i = portId v k := by
  obtain ⟨c, -, rfl⟩ := List.mem_map.mp hi
  exact ⟨c.1, c.2, rfl⟩

theorem device_mem_suppliers {i : String} : .device i ∈ suppliers os e h ↔
    i ∈ os.startIds e ∨ i ∈ (plan e h).ports 8 ∨ i ∈ (plan e h).ids := by
  have hmachine : Supplier.device i ∉ os.machine.suppliers := by
    cases os.machine <;> simp [Machine.suppliers]
  simp [suppliers, hmachine]

theorem bus_mem_suppliers {b : String} : .bus b ∈ suppliers os e h ↔
    .bus b ∈ os.machine.suppliers := by
  simp [suppliers]

theorem suppliers_ownNames : OwnNames (suppliers os e h) := by
  intro i hi
  rcases device_mem_suppliers.mp hi with hi | hi | hi
  · exact startIds_names hi
  · obtain ⟨v, k, rfl⟩ := mem_ports hi
    exact Or.inl (ownName_portId v k)
  · exact Or.inl (plan_own i hi)

/-- Only the graphics port in a cfg file of the repository has its name. -/
theorem gpu_mem_suppliers :
    .device "gpu.1" ∈ suppliers os e h ↔ RepoCfg.q35Gpu ∈ (os.reads e).all := by
  have hown : ownName "gpu.1" = false := by decide
  have hports : "gpu.1" ∉ (plan e h).ports 8 := by
    intro hi
    obtain ⟨v, k, hvk⟩ := mem_ports hi
    rw [hvk, ownName_portId] at hown
    cases hown
  have hids : "gpu.1" ∉ (plan e h).ids := by
    intro hi
    rw [plan_own _ hi] at hown
    cases hown
  have hopts : "gpu.1" ∉ valuesOf .device "id" os.opts := by
    cases os with
    | macI440 => simp [CommonOs.opts]
    | pool pool => cases pool <;> decide
  have hdev : ∀ c : RepoCfg, "gpu.1" ∈ c.devices ↔ c = .q35Gpu := by
    intro c
    cases c <;> decide
  simp [device_mem_suppliers, hports, hids, CommonOs.startIds, hopts, hdev]

theorem resolved_fixed {b : String} (hb : ownName b = false) (hgpu : b ≠ "gpu.1.0")
    (hne : b ≠ "gpu.1") :
    Resolved Provides (suppliers os e h) b ↔ .bus b ∈ os.machine.suppliers := by
  rw [resolved_reserved suppliers_ownNames hb hgpu, bus_mem_suppliers]
  simp [hne]

theorem suppliers_noDefaultBus : NoDefaultBus (suppliers os e h) := by
  have hbus : ∀ b, ownName b = false → b.toList.head? ≠ some 'p' → b.toList.head? ≠ some 'i' →
      b.toList.head? ≠ some 'g' → ¬ Resolved Provides (suppliers os e h) b := by
    intro b hb hp hi hg
    have h0 : b ≠ "gpu.1.0" := by rintro rfl; exact hg (by decide)
    have h1 : b ≠ "gpu.1" := by rintro rfl; exact hg (by decide)
    rw [resolved_fixed hb h0 h1]
    cases os.machine with
    | i440fx =>
      simp only [Machine.suppliers, List.mem_singleton, Supplier.bus.injEq]
      rintro rfl
      exact hp (by decide)
    | q35 =>
      simp only [Machine.suppliers, List.mem_cons, List.mem_map, Supplier.bus.injEq]
      rintro (rfl | ⟨k, -, rfl⟩)
      · exact hp (by decide)
      · exact hi (by simp [ideBus])
  refine ⟨hbus "" (by decide) (by decide) (by decide) (by decide), fun s => ?_⟩
  have hhead : ("virtio." ++ num s).toList.head? = some 'v' := by simp
  refine hbus _ (not_ownName_virtio s) ?_ ?_ ?_
  all_goals simp

theorem resolved_rootBus {m : Machine} :
    Resolved Provides (suppliers os e h) m.rootBus ↔ os.machine = m := by
  rw [resolved_fixed (by cases m <;> decide) (by cases m <;> decide) (by cases m <;> decide)]
  cases os.machine <;> cases m <;> decide

theorem resolved_ideBus {k : ℕ} (hk : k < 6) :
    Resolved Provides (suppliers os e h) (ideBus k) ↔ os.machine = .q35 := by
  have hne : ∀ s : String, s.toList.head? ≠ some 'i' → ideBus k ≠ s := by
    rintro s hs rfl
    exact hs (by simp [ideBus])
  rw [resolved_fixed (not_ownName_ideBus k) (hne _ (by decide)) (hne _ (by decide))]
  have hroot : ideBus k ≠ "pci.0" := hne _ (by decide)
  cases os.machine with
  | i440fx => simp [Machine.suppliers, hroot]
  | q35 =>
    simp only [Machine.suppliers, List.mem_cons, List.mem_map, Supplier.bus.injEq, iff_true]
    exact Or.inr ⟨k, List.mem_range.mpr hk, rfl⟩

/-- No machine has more buses below its root bus. -/
theorem not_resolved_pcie {b : String} (hb : b = "pcie.5" ∨ b = "pcie.8") :
    ¬ Resolved Provides (suppliers os e h) b := by
  rcases hb with rfl | rfl
  all_goals
    rw [resolved_fixed (by decide) (by decide) (by decide)]
    cases os.machine <;> decide

theorem resolved_gpu :
    Resolved Provides (suppliers os e h) "gpu.1" ↔ RepoCfg.q35Gpu ∈ (os.reads e).all := by
  have hno : Supplier.bus "gpu.1" ∉ os.machine.suppliers := by cases os.machine <;> decide
  rw [resolved_reserved suppliers_ownNames (by decide) (by decide), bus_mem_suppliers,
    gpu_mem_suppliers]
  simp [hno]

end Supplied

/-- Whether a run leaves a bus dangling can be read off its plan. -/
theorem noDangling_iff {os : CommonOs} {configured : List String} {e : Env} {h : BootHost} {g : Gen}
    (hg : genconfig os configured e h = some g) :
    NoDangling os e g ↔ Supplied Provides (suppliers os (os.env e) h)
      ((plan (os.env e) h).callers.map (fun _ => rootBus (os.env e)) ++
        (plan (os.env e) h).uses) := by
  have hacc := genconfig_accounts hg
  have hfit : NoDefaultBus (busLedger os.machine (os.env e) g).defs := by
    have hres : ∀ b, Resolved Provides (busLedger os.machine (os.env e) g).defs b →
        Resolved Provides (suppliers os (os.env e) h) b := fun b hb =>
      hb.mono fun d => (mem_defs hg d).mp
    exact ⟨fun hb => suppliers_noDefaultBus.1 (hres _ hb),
      fun s hb => suppliers_noDefaultBus.2 s (hres _ hb)⟩
  have hstart : (busLedger os.machine (os.env e) (os.start (os.env e) configured)).uses = [] :=
    start_busRefs
  have hmem : ∀ d, d ∈ (busLedger os.machine (os.env e) (os.start (os.env e) configured) ++
      (plan (os.env e) h).ledger (os.env e) 8).defs ↔ d ∈ suppliers os (os.env e) h := fun d => by
    rw [Ledger.defs_append, List.mem_append, ← hacc.defs, mem_defs hg]
  rw [NoDangling, hacc.closed_iff hstart hfit, Closed, Ledger.uses_append, hstart,
    List.nil_append]
  exact ⟨fun hs => hs.mono fun d => (hmem d).mp, fun hs => hs.mono fun d => (hmem d).mpr⟩

/-! ## The condition -/

/-- `net-uni.sh` is sourced. -/
def SourcesNetUni (e : Env) : Prop := e.val "NET_MODE" = "uni" ∨ firstTwo e "NET" = true

/-- Somebody calls `add_vpci`. -/
inductive WantsPort (e : Env) (h : BootHost) : Prop
  | usb (hmode : e.val "USB_MODE" = "pt")
  | disk (name : String) (hname : name ∈ diskNames) (hmulti : isMulti e = true)
      (hby : attachedBy e h.diskarg .virtioScsi name = true)
  | net (n : String) (hn : n ∈ ["2", "3", "4"]) (huni : SourcesNetUni e)
      (hmode : e.val ("NET" ++ n ++ "_MODE") ≠ "")
  | pt (hpt : firstTwo e "PT" = true)

/-- The call adds a device, on this bus. -/
def NicOn (virtfn : String → Option String) (mode : String) (a : NetArgs) (b : String) : Prop :=
  ∃ iface, IfaceMode.ofText mode = some iface ∧ nicBus virtfn a iface = some b

/-- The calls of the `macvtap-virtio-vhost` modes, which hand over no bus. -/
def buslessArgs (e : Env) : List NetArgs :=
  if e.val "NET_MODE" = "macvtap-virtio-vhost" then
    vhostVars.map fun v => macvtapArgs (e.val v.1) (e.val v.2)
  else if e.val "NET_MODE" = "macvtap-virtio-vhost-dual" then
    vhostDualVars.map fun v => macvtapArgs (e.val v.1) (e.val v.2)
  else []

/-- The script reads the cfg file with the graphics port, for the mode `pt`. -/
def CommonOs.hasGpuPort : CommonOs → Bool
  | .pool .linux | .pool .mac | .pool .winQ35 => true
  | _ => false

/-- Where the buses of a configuration come from. -/
structure BusesKnown (os : CommonOs) (e : Env) (h : BootHost) : Prop where
  /-- `add_vpci` tests the machine type for `pc-i440fx` alone. -/
  ports : WantsPort e h → rootBus e = os.machine.rootBus
  /-- `usb-pt-pc.sh` is for `pc` machines. -/
  usb : e.val "USB_MODE" = "pt-pc" → pciPtDevs e ≠ [] → os.machine = .i440fx
  /-- The card sits on the graphics port, which is there for the mode `pt` only. -/
  card : ∀ mode, GfxMode.ofText (e.val "GFX_MODE") = some mode → mode.sourcesLib = true →
    e.val "GFXPCI" ≠ "" → e.val "GFX_MODE" = "pt" ∧ os.hasGpuPort = true
  /-- `GFXPT_BUS` is `pcie.8` for BSD, and `gpu.1` without a graphics port for Windows on
      `pc-i440fx`. -/
  audio : e.val "GFX_MODE" = "pt" → h.pci ("0000:" ++ e.val "GFXPCI" ++ ".1") = true →
    os ≠ .pool .bsd ∧ os ≠ .pool .winI440
  /-- Only `q35` has a built-in AHCI. -/
  disks : ∀ name ∈ diskNames, attachedBy e h.diskarg .ahci name = true → os.machine = .q35
  /-- Nobody adds `pcie.5`. -/
  teradici : e.val "TERADICI_PCI" = ""
  net1 : SourcesNetUni e →
    (∃ b, NicOn h.virtfn (e.val "NET1_MODE") (netUniArgs e "1" (netPciBus e) "0x19") b) →
    netPciBus e = os.machine.rootBus
  /-- The configuration itself names a bus. -/
  vmxnet : e.val "NET_MODE" = "macvtap-vmxnet" → ∀ n ∈ ["1", "2"], ∀ b,
    NicOn h.virtfn (e.val ("NET" ++ n ++ "_MODE")) (vmxnetArgs e n) b →
    Resolved Provides (suppliers os e h) b
  vhost : ∀ a ∈ buslessArgs e, a.rejected = true

/-! ## Ports that are wanted -/

section Condition

variable {os : CommonOs} {e : Env} {h : BootHost}

theorem callers_foldr {α : Type*} {f : α → Plan} {as : List α} :
    (as.foldr (fun a p => f a ++ p) .empty).callers = [] ↔ ∀ a ∈ as, (f a).callers = [] := by
  induction as with
  | nil => simp [Plan.empty]
  | cons a as ih => simp [ih]

theorem supplied_foldr {α : Type*} {f : α → Plan} {as : List α} {ds : List Supplier} :
    Supplied Provides ds (as.foldr (fun a p => f a ++ p) .empty).uses ↔
      ∀ a ∈ as, Supplied Provides ds (f a).uses := by
  induction as with
  | nil => simp [Plan.empty]
  | cons a as ih => simp [ih]

theorem usbPlan_callers : (usbPlan e).callers = [] ↔ e.val "USB_MODE" ≠ "pt" := by
  unfold usbPlan
  split_ifs with hpt <;> simp [hpt, Plan.empty]

theorem gfxPlan_callers : (gfxPlan e h).callers = [] := by
  unfold gfxPlan
  cases GfxMode.ofText (e.val "GFX_MODE") <;> rfl

theorem disksPlan_callers {diskarg : String → String → String} {c : DiskCount}
    {names : List String} : (disksPlan e diskarg c names).callers = [] ↔
      ∀ name ∈ names, isMulti e = true → attachedBy e diskarg .virtioScsi name = false := by
  induction names generalizing c with
  | nil => simp [disksPlan, Plan.empty]
  | cons name names ih =>
    have hone : (diskPlan e diskarg c name).1.callers = [] ↔
        (isMulti e = true → attachedBy e diskarg .virtioScsi name = false) := by
      unfold diskPlan scsiPlan
      split_ifs <;> simp_all [Plan.empty]
    simp [disksPlan, ih, hone]

theorem netUniPlan_callers {h : Host} : (netUniPlan e h).callers = [] ↔
    ∀ n ∈ ["2", "3", "4"], e.val ("NET" ++ n ++ "_MODE") = "" := by
  have hfirst : (net1Plan e h).callers = [] := by
    unfold net1Plan
    split_ifs <;> rfl
  have hport : ∀ n, (netOnPortPlan e n).callers = [] ↔ e.val ("NET" ++ n ++ "_MODE") = "" := by
    intro n
    unfold netOnPortPlan
    split_ifs with hmode <;> simp [hmode, Plan.empty]
  rw [netUniPlan, Plan.callers_append, hfirst, List.nil_append, callers_foldr]
  simp only [hport]

theorem netPlan_callers {h : Host} : (netPlan e h).callers = [] ↔
    (e.val "NET_MODE" = "uni" → (netUniPlan e h).callers = []) := by
  unfold netPlan
  dsimp only
  split_ifs with huni
  · simp [huni]
  all_goals simp only [huni, false_implies, iff_true]
  · refine callers_foldr.mpr fun n _ => ?_
    unfold vmxnetPlan
    split_ifs <;> rfl
  · exact callers_foldr.mpr fun v _ => rfl
  · exact callers_foldr.mpr fun v _ => rfl
  all_goals rfl

theorem ptPlan_callers (hpt : firstTwo e "PT" = true) : (ptPlan e).callers ≠ [] := by
  have hport : ∀ n, (ptOnPortPlan e n).callers = [] ↔ e.val ("PT" ++ n ++ "_MODE") = "" := by
    intro n
    unfold ptOnPortPlan
    split_ifs with hmode <;> simp [hmode, Plan.empty]
  unfold ptPlan
  rw [Ne, callers_foldr]
  intro hall
  have h1 := (hport "1").mp (hall "1" (by decide))
  have h2 := (hport "2").mp (hall "2" (by decide))
  rcases (by simpa [firstTwo] using hpt) with hne | hne
  · exact hne h1
  · exact hne h2

theorem plan_callers : (plan e h).callers = [] ↔ ¬ WantsPort e h := by
  have hteradici : (teradiciPlan e).callers = [] := by
    unfold teradiciPlan
    split_ifs <;> rfl
  have hfs : (fsPlan e).callers = [] := by
    unfold fsPlan
    split_ifs <;> rfl
  have huni : (if firstTwo e "NET" then netUniPlan e h.toHost else .empty).callers = [] ↔
      (firstTwo e "NET" = true → (netUniPlan e h.toHost).callers = []) := by
    split_ifs with hnet <;> simp [hnet, Plan.empty]
  have hpt : (if firstTwo e "PT" then ptPlan e else .empty).callers = [] ↔
      firstTwo e "PT" = false := by
    split_ifs with hpt
    · simp [hpt, ptPlan_callers hpt]
    · simp [hpt, Plan.empty]
  simp only [plan, Plan.callers_append, List.append_eq_nil_iff, hteradici, hfs, gfxPlan_callers,
    usbPlan_callers, disksPlan_callers, netPlan_callers, huni, hpt, and_true]
  constructor
  · rintro ⟨⟨⟨⟨husb, hdisk⟩, hnet⟩, hfirst⟩, hpt'⟩ hw
    cases hw with
    | usb hmode => exact husb hmode
    | disk name hname hmulti hby =>
      rw [hdisk name hname hmulti] at hby
      cases hby
    | net n hn hsrc hmode =>
      have hnone : (netUniPlan e h.toHost).callers = [] := hsrc.elim hnet hfirst
      exact hmode (netUniPlan_callers.mp hnone n hn)
    | pt hset =>
      rw [hpt'] at hset
      cases hset
  · intro hw
    have hnet : SourcesNetUni e → (netUniPlan e h.toHost).callers = [] := fun hsrc =>
      netUniPlan_callers.mpr fun n hn => by
        by_contra hmode
        exact hw (.net n hn hsrc hmode)
    refine ⟨⟨⟨⟨fun hmode => hw (.usb hmode), fun name hname hmulti => ?_⟩, fun huni' => ?_⟩,
      fun hfirst => ?_⟩, ?_⟩
    · rw [Bool.eq_false_iff]
      exact fun hby => hw (.disk name hname hmulti hby)
    · exact hnet (Or.inl huni')
    · exact hnet (Or.inr hfirst)
    · rw [Bool.eq_false_iff]
      exact fun hset => hw (.pt hset)

/-! ## Buses that are named -/

theorem resolved_root {b : String} (hb : ∃ m : Machine, b = m.rootBus) :
    Resolved Provides (suppliers os e h) b ↔ b = os.machine.rootBus := by
  obtain ⟨m, rfl⟩ := hb
  rw [resolved_rootBus]
  cases os.machine <;> cases m <;> decide

theorem rootBus_root (e : Env) : ∃ m : Machine, rootBus e = m.rootBus := by
  unfold rootBus
  split_ifs
  · exact ⟨.i440fx, rfl⟩
  · exact ⟨.q35, rfl⟩

theorem netPciBus_root (e : Env) : ∃ m : Machine, netPciBus e = m.rootBus := by
  unfold netPciBus
  split_ifs
  · exact ⟨.i440fx, rfl⟩
  · exact ⟨.q35, rfl⟩

theorem usbPlan_uses : Supplied Provides (suppliers os e h) (usbPlan e).uses ↔
    (e.val "USB_MODE" = "pt-pc" → pciPtDevs e ≠ [] → os.machine = .i440fx) := by
  have hroot : Resolved Provides (suppliers os e h) "pci.0" ↔ os.machine = .i440fx :=
    resolved_rootBus (m := .i440fx)
  unfold usbPlan
  split_ifs with hpt hpc hsp
  · simp [hpt]
  · cases hdevs : pciPtDevs e with
    | nil => simp
    | cons dev devs =>
      simp only [hpc, Supplied, List.mem_map, List.mem_cons, true_imp_iff, ne_eq, reduceCtorEq,
        not_false_eq_true, ← hroot]
      exact ⟨fun hall => hall _ ⟨dev, Or.inl rfl, rfl⟩, by rintro hr - ⟨-, -, rfl⟩; exact hr⟩
  · simp [hsp]
  · simp [hpc, Plan.empty]

theorem q35Gpu_mem_reads :
    RepoCfg.q35Gpu ∈ (os.reads e).all ↔ e.val "GFX_MODE" = "pt" ∧ os.hasGpuPort = true := by
  have hgpu : RepoCfg.q35Gpu ∈ gpuCfg e ↔ e.val "GFX_MODE" = "pt" := by
    unfold gpuCfg
    split_ifs with hpt <;> simp [hpt]
  cases os with
  | macI440 => simp [CommonOs.reads, ReadCfgs.all, CommonOs.hasGpuPort]
  | pool pool =>
    cases pool <;> simp [CommonOs.reads, ReadCfgs.all, CommonOs.hasGpuPort, hgpu]

/-- `GFXPT_BUS` behind the scripts. -/
theorem env_gfxptBus (os : CommonOs) (e : Env) : (os.env e).val "GFXPT_BUS" =
    match os with
    | .pool .bsd => "pcie.8"
    | .macI440 => "pci.0"
    | _ => "gpu.1" := by
  cases os with
  | macI440 => simp [CommonOs.env, Env.assigns, commonVars, CommonOs.vars, Env.val]
  | pool pool =>
    cases pool <;>
      simp [CommonOs.env, Env.assigns, commonVars, CommonOs.vars, Env.val, ioh3420Ports]

theorem env_gfxAudio (os : CommonOs) (e : Env) : (os.env e).val "GFX_AUDIO" = "pt" := by
  cases os with
  | macI440 => simp [CommonOs.env, Env.assigns, commonVars, CommonOs.vars, Env.val]
  | pool pool =>
    cases pool <;>
      simp [CommonOs.env, Env.assigns, commonVars, CommonOs.vars, Env.val, ioh3420Ports]

theorem ofText_pt {s : String} {mode : GfxMode} (h : GfxMode.ofText s = some mode) :
    mode = .pt ↔ s = "pt" := by
  constructor
  · rintro rfl
    obtain ⟨l, l', hl, -⟩ := List.lookup_eq_some_iff.mp h
    have hmem : (s, GfxMode.pt) ∈ l ++ (s, .pt) :: l' := by simp
    rw [← hl] at hmem
    simpa using hmem
  · rintro rfl
    exact (Option.some.inj h).symm

/-- The card and its audio function, behind the scripts. -/
theorem gfxPlan_uses (e : Env) :
    Supplied Provides (suppliers os (os.env e) h) (gfxPlan (os.env e) h).uses ↔
      (∀ mode, GfxMode.ofText ((os.env e).val "GFX_MODE") = some mode → mode.sourcesLib = true →
        (os.env e).val "GFXPCI" ≠ "" →
        (os.env e).val "GFX_MODE" = "pt" ∧ os.hasGpuPort = true) ∧
      ((os.env e).val "GFX_MODE" = "pt" →
        h.pci ("0000:" ++ (os.env e).val "GFXPCI" ++ ".1") = true →
        os ≠ .pool .bsd ∧ os ≠ .pool .winI440) := by
  have hcard : Supplied Provides (suppliers os (os.env e) h) (cardBus (os.env e)) ↔
      ((os.env e).val "GFXPCI" ≠ "" →
        (os.env e).val "GFX_MODE" = "pt" ∧ os.hasGpuPort = true) := by
    unfold cardBus
    split_ifs with hpci
    · simp [hpci]
    · simp [hpci, resolved_gpu, q35Gpu_mem_reads]
  have hbus : (os.env e).val "GFX_MODE" = "pt" →
      (Resolved Provides (suppliers os (os.env e) h) ((os.env e).val "GFXPT_BUS") ↔
        os ≠ .pool .bsd ∧ os ≠ .pool .winI440) := by
    intro hpt
    have hpci : Resolved Provides (suppliers os (os.env e) h) "pci.0" ↔ os.machine = .i440fx :=
      resolved_rootBus (m := .i440fx)
    have hno : ¬ Resolved Provides (suppliers os (os.env e) h) "pcie.8" :=
      not_resolved_pcie (Or.inr rfl)
    rw [env_gfxptBus]
    cases os with
    | macI440 => simpa [CommonOs.machine] using hpci
    | pool pool =>
      cases pool <;> simp [hno, resolved_gpu, q35Gpu_mem_reads, hpt, CommonOs.hasGpuPort]
  have haudio : (os.env e).val "GFX_MODE" = "pt" →
      (Supplied Provides (suppliers os (os.env e) h) (audioBus (os.env e) h) ↔
        (h.pci ("0000:" ++ (os.env e).val "GFXPCI" ++ ".1") = true →
          os ≠ .pool .bsd ∧ os ≠ .pool .winI440)) := by
    intro hpt
    unfold audioBus
    rw [env_gfxAudio]
    split_ifs with hfn
    · simp only [supplied_cons, supplied_nil, and_true, hbus hpt, hfn.1, true_imp_iff]
    · simp only [supplied_nil, true_iff]
      exact fun hp => absurd ⟨hp, rfl⟩ hfn
  unfold gfxPlan
  cases hmode : GfxMode.ofText ((os.env e).val "GFX_MODE") with
  | none =>
    have hpt : (os.env e).val "GFX_MODE" ≠ "pt" := by
      intro hpt
      rw [hpt] at hmode
      cases hmode
    simp [Plan.empty, hpt]
  | some mode =>
    have hpt : mode = .pt ↔ (os.env e).val "GFX_MODE" = "pt" := ofText_pt hmode
    simp only [Option.elim_some, GfxMode.plan, supplied_append, Option.some.injEq, forall_eq']
    refine and_congr ?_ ?_
    · split_ifs with hlib
      · simp [hcard, hlib]
      · simp [hlib]
    · split_ifs with hm
      · simp [haudio (hpt.mp hm), hpt.mp hm]
      · exact iff_of_true supplied_nil fun hp => absurd (hpt.mpr hp) hm

theorem attachedBy_ne {diskarg : String → String → String} {mode mode' : DiskMode} {name : String}
    (hne : mode ≠ mode') (hby : attachedBy e diskarg mode name = true) :
    attachedBy e diskarg mode' name = false := by
  unfold attachedBy at hby ⊢
  simp only [Bool.and_eq_true, decide_eq_true_eq] at hby
  simp [hby.1, hne]

/-- A disk on the shared controller names a bus that an earlier disk's device provides. -/
theorem disksPlan_uses {diskarg : String → String → String} {c : DiskCount} {names : List String}
    (hids : ∀ i ∈ (disksPlan e diskarg c names).ids, .device i ∈ suppliers os e h)
    (hshared : c.scsi ≠ 0 → isMulti e = false → Resolved Provides (suppliers os e h) (scsiBus 0))
    (hports : c.ahci + names.length < 6) :
    Supplied Provides (suppliers os e h) (disksPlan e diskarg c names).uses ↔
      ∀ name ∈ names, attachedBy e diskarg .ahci name = true → os.machine = .q35 := by
  induction names generalizing c with
  | nil => simp [disksPlan, Plan.empty]
  | cons name names ih =>
    have hlen : c.ahci + 1 + names.length < 6 := by
      rw [List.length_cons] at hports
      omega
    simp only [disksPlan, Plan.ids_append, List.mem_append] at hids
    simp only [disksPlan, Plan.uses_append, supplied_append, List.forall_mem_cons]
    by_cases hscsi : attachedBy e diskarg .virtioScsi name = true
    · have hdisk : diskPlan e diskarg c name = (scsiPlan e c.scsi, ⟨c.scsi + 1, c.ahci⟩) :=
        if_pos hscsi
      have hahci : attachedBy e diskarg .ahci name = false := attachedBy_ne (by decide) hscsi
      rw [hdisk] at hids ⊢
      have hown : isMulti e = false → Resolved Provides (suppliers os e h) (scsiBus 0) := by
        intro hsingle
        by_cases h0 : c.scsi = 0
        · have hmem : Supplier.device (vscsi 0) ∈ suppliers os e h :=
            hids _ (Or.inl (by simp [scsiPlan, hsingle, h0]))
          exact ⟨_, hmem, Or.inr rfl⟩
        · exact hshared h0 hsingle
      have hmore := ih (fun i hi => hids i (Or.inr hi)) (fun _ => hown) (by dsimp only; omega)
      refine and_congr ?_ hmore
      rw [hahci]
      refine iff_of_true ?_ (by simp)
      unfold scsiPlan
      by_cases hmulti : isMulti e = true
      · rw [if_pos hmulti]
        exact supplied_nil
      · rw [if_neg hmulti]
        simpa using hown (by simpa using hmulti)
    by_cases hahci : attachedBy e diskarg .ahci name = true
    · have hdisk : diskPlan e diskarg c name =
          (⟨[], [ideBus (c.ahci + 1)], []⟩, ⟨c.scsi, c.ahci + 1⟩) := by
        rw [diskPlan, if_neg hscsi, if_pos hahci]
      rw [hdisk] at hids ⊢
      refine and_congr ?_ (ih (fun i hi => hids i (Or.inr hi)) hshared hlen)
      have hide : Resolved Provides (suppliers os e h) (ideBus (c.ahci + 1)) ↔
          os.machine = .q35 := resolved_ideBus (by omega)
      simp [hide, hahci]
    · have hdisk : diskPlan e diskarg c name = (.empty, c) := by
        rw [diskPlan, if_neg hscsi, if_neg hahci]
      rw [hdisk] at hids ⊢
      refine and_congr ?_ (ih (fun i hi => hids i (Or.inr hi)) hshared (by dsimp only; omega))
      simp [Plan.empty, hahci]

theorem supplied_nicPlan {virtfn : String → Option String} {mode : String} {a : NetArgs}
    {ds : List Supplier} : Supplied Provides ds (nicPlan virtfn mode a).uses ↔
      ∀ b, NicOn virtfn mode a b → Resolved Provides ds b := by
  simp only [nicPlan, Supplied, Option.mem_toList, NicOn, Option.bind_eq_some_iff]

theorem netUniPlan_uses : Supplied Provides (suppliers os e h) (netUniPlan e h.toHost).uses ↔
    ((∃ b, NicOn h.virtfn (e.val "NET1_MODE") (netUniArgs e "1" (netPciBus e) "0x19") b) →
      netPciBus e = os.machine.rootBus) := by
  have hports : ∀ n, (netOnPortPlan e n).uses = [] := by
    intro n
    unfold netOnPortPlan
    split_ifs <;> rfl
  have hbus : (netUniArgs e "1" (netPciBus e) "0x19").bus ≠ "" := by
    obtain ⟨m, hm⟩ := netPciBus_root e
    show netPciBus e ≠ ""
    rw [hm]
    cases m <;> decide
  have hon : ∀ b, NicOn h.virtfn (e.val "NET1_MODE") (netUniArgs e "1" (netPciBus e) "0x19") b →
      b = netPciBus e := by
    rintro b ⟨iface, -, hb⟩
    exact nicBus_eq hbus hb
  have hfirst : Supplied Provides (suppliers os e h) (net1Plan e h.toHost).uses ↔
      ∀ b, NicOn h.virtfn (e.val "NET1_MODE") (netUniArgs e "1" (netPciBus e) "0x19") b →
        Resolved Provides (suppliers os e h) b := by
    unfold net1Plan
    split_ifs with hmode
    · refine iff_of_true supplied_nil ?_
      rintro b ⟨iface, hiface, -⟩
      rw [hmode] at hiface
      cases hiface
    · exact supplied_nicPlan
  rw [netUniPlan, Plan.uses_append, supplied_append, supplied_foldr, hfirst]
  simp only [hports, supplied_nil, implies_true, and_true]
  constructor
  · rintro hall ⟨b, hb⟩
    have hres := hall b hb
    rwa [hon b hb, resolved_root (netPciBus_root e)] at hres
  · intro hroot b hb
    rw [hon b hb, resolved_root (netPciBus_root e)]
    exact hroot ⟨b, hb⟩

theorem vhost_uses {h' : Host} {vars : List (String × String)} :
    Supplied Provides (suppliers os e h)
        (vars.foldr (fun v p => vhostPlan e h' v ++ p) .empty).uses ↔
      ∀ a ∈ vars.map (fun v => macvtapArgs (e.val v.1) (e.val v.2)), a.rejected = true := by
  rw [supplied_foldr, List.forall_mem_map]
  refine forall₂_congr fun v _ => ?_
  have hnic : nicBus h'.virtfn (macvtapArgs (e.val v.1) (e.val v.2)) .macvtap =
      if (macvtapArgs (e.val v.1) (e.val v.2)).rejected then none else some "" := rfl
  rw [vhostPlan, hnic]
  split_ifs with hr
  · simp [hr]
  · simp [hr, suppliers_noDefaultBus.1]

/-- `net-virtio-vhost.sh` adds nothing: its interface has no address. -/
theorem nicBus_virtioVhost {h' : Host} : nicBus h'.virtfn (virtioVhostArgs e) .tap = none :=
  if_pos (by simp [virtioVhostArgs, NetArgs.rejected])

theorem netPlan_uses : Supplied Provides (suppliers os e h) (netPlan e h.toHost).uses ↔
    (e.val "NET_MODE" = "uni" →
      Supplied Provides (suppliers os e h) (netUniPlan e h.toHost).uses) ∧
    (e.val "NET_MODE" = "macvtap-vmxnet" → ∀ n ∈ ["1", "2"], ∀ b,
      NicOn h.virtfn (e.val ("NET" ++ n ++ "_MODE")) (vmxnetArgs e n) b →
      Resolved Provides (suppliers os e h) b) ∧
    ∀ a ∈ buslessArgs e, a.rejected = true := by
  have hvmxnet : ∀ n, Supplied Provides (suppliers os e h) (vmxnetPlan e h.toHost n).uses ↔
      ∀ b, NicOn h.virtfn (e.val ("NET" ++ n ++ "_MODE")) (vmxnetArgs e n) b →
        Resolved Provides (suppliers os e h) b := by
    intro n
    unfold vmxnetPlan
    split_ifs with hmode
    · refine iff_of_true supplied_nil ?_
      rintro b ⟨iface, hiface, -⟩
      rw [hmode] at hiface
      cases hiface
    · exact supplied_nicPlan
  unfold netPlan buslessArgs
  dsimp only
  by_cases h1 : e.val "NET_MODE" = "uni"
  · simp [h1]
  by_cases h2 : e.val "NET_MODE" = "macvtap-vmxnet"
  · simp only [h2, supplied_foldr, hvmxnet, String.reduceEq, if_true, if_false, false_implies,
      true_implies, true_and, List.not_mem_nil, implies_true, and_true]
  by_cases h3 : e.val "NET_MODE" = "macvtap-virtio-vhost"
  · simp only [h3, vhost_uses, String.reduceEq, if_true, if_false, false_implies, true_and]
  by_cases h4 : e.val "NET_MODE" = "macvtap-virtio-vhost-dual"
  · simp only [h4, vhost_uses, String.reduceEq, if_true, if_false, false_implies, true_and]
  by_cases h5 : e.val "NET_MODE" = "virtio-vhost"
  · simp [h5, nicBus_virtioVhost]
  have hnil : (if e.val "NET_MODE" = "e1000" ∨ e.val "NET_MODE" = "e1000-82545em" then
      (⟨[], [], ["net0"]⟩ : Plan)
      else if e.val "NET_MODE" = "e1000-dual" then ⟨[], [], ["net0", "net1"]⟩
      else .empty).uses = [] := by
    split_ifs <;> rfl
  simp only [h1, h2, h3, h4, h5, if_false, hnil, supplied_nil, false_implies, List.not_mem_nil,
    implies_true, and_self]

end Condition

/-- The ports sit on the root bus that `add_vpci` takes. -/
theorem callers_supplied {os : CommonOs} {e : Env} {h : BootHost} :
    Supplied Provides (suppliers os e h) ((plan e h).callers.map fun _ => rootBus e) ↔
      (WantsPort e h → rootBus e = os.machine.rootBus) := by
  cases hc : (plan e h).callers with
  | nil =>
    have hno : ¬ WantsPort e h := plan_callers.mp hc
    exact iff_of_true supplied_nil fun hw => absurd hw hno
  | cons v vs =>
    have hw : WantsPort e h := by
      by_contra hno
      rw [plan_callers.mpr hno] at hc
      cases hc
    have hroot : Resolved Provides (suppliers os e h) (rootBus e) ↔
        rootBus e = os.machine.rootBus := resolved_root (rootBus_root e)
    simp only [Supplied, List.mem_map, hw, true_implies, ← hroot]
    exact ⟨fun hall => hall _ ⟨v, List.mem_cons_self, rfl⟩, by rintro hr - ⟨-, -, rfl⟩; exact hr⟩

/-- A Windows machine on `pc-i440fx` with a USB controller passed through. -/
def usbOnI440 : Env := fun v =>
  [("USB_MODE", "pt"), ("USBPCI", "00:14"), ("GFX_MODE", "none"), ("HDD_MODE", "ahci")].lookup v

/-- Its host, without any disk. -/
def disklessHost : BootHost where
  virtfn _ := none
  diskarg _ _ := "err"
  lspci _ := true
  rom _ := ""
  pci _ := false
  mdev := none

end KvmOsx.Genconfig
