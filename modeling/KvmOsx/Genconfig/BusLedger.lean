import KvmOsx.Genconfig.Fragments
import KvmOsx.Lib.References

/-!
# Buses that are named and buses that are there

A `-device` names the bus it sits on (`bus=`, `masterbus=`), and so does a root port in
its cfg file. A bus is there as part of the machine, or because of a device with an id,
wherever it is added.

* `busRefs`, `deviceIds`: the buses a run names, and the ids of the devices it adds.
* `busLedger`: both, with the machine's own buses; `NoDangling`.
* `Appends.mem_busRefs`, `Appends.mem_deviceIds`: what new options do to the two.
* `addVpci_busRefs`, `addVpci_deviceIds`: what a new root port does.
-/

namespace KvmOsx.Genconfig

open Script Text References

/-! ## The ledger of a state -/

/-- The buses the `-device` options name. -/
def namedBuses (os : List Opt) : List String :=
  valuesOf .device "bus" os ++ valuesOf .device "masterbus" os

/-- The buses named by all options, and by the root ports in cfg files. -/
def busRefs (g : Gen) : List String :=
  namedBuses g.qemuOpts ++ namedBuses g.qemuCfg ++ namedBuses g.cloverOpts ++
    namedBuses g.qemuSw ++ g.cfgFiles.map fun f => f.2.bus

/-- The options in `QEMU_OPTS`, `QEMU_CFG` and `CLOVER_OPTS`. -/
def Gen.options (g : Gen) : List Opt := g.qemuOpts ++ g.qemuCfg ++ g.cloverOpts

/-- The devices in the files of the repository that the options read. -/
def repoDevices (e : Env) (os : List Opt) : List String :=
  (RepoCfg.all.filter fun c => cfgOpt e c ∈ os).flatMap RepoCfg.devices

/-- The ids of the devices a run adds: by a `-device`, in a file of the repository, or in a
    file that the run has written; the files count if they are read. -/
def deviceIds (e : Env) (g : Gen) : List String :=
  valuesOf .device "id" g.options ++ repoDevices e g.options ++
    (g.cfgFiles.filter fun f => readconfig f.1 ∈ g.options).map fun f => f.2.device

/-- What a bus can be due to. -/
inductive Supplier
  | bus (name : String)
  | device (id : String)
  deriving DecidableEq, Repr

/-- A root port's bus has the name of its id; the bus of a controller has `.0` behind it. -/
def Provides : Supplier → String → Prop
  | .bus name, b => b = name
  | .device id, b => b = id ∨ b = id ++ ".0"

/-- The root bus. -/
def Machine.rootBus : Machine → String
  | .i440fx => "pci.0"
  | .q35 => "pcie.0"

/-- The root bus, and the six ports of the built-in AHCI. -/
def Machine.suppliers : Machine → List Supplier
  | .i440fx => [.bus "pci.0"]
  | .q35 => .bus "pcie.0" :: (List.range 6).map fun k => .bus (ideBus k)

/-- The buses named so far, and what the buses are due to. -/
def busLedger (m : Machine) (e : Env) (g : Gen) : Ledger String Supplier :=
  ⟨busRefs g, m.suppliers ++ (deviceIds e g).map Supplier.device⟩

/-- Every bus that a run names is there. -/
def NoDangling (os : CommonOs) (e : Env) (g : Gen) : Prop :=
  Closed Provides (busLedger os.machine (os.env e) g)

/-! ## Options -/

@[simp] theorem namedBuses_nil : namedBuses [] = [] := rfl

theorem mem_namedBuses {b : String} {os : List Opt} :
    b ∈ namedBuses os ↔ b ∈ valuesOf .device "bus" os ∨ b ∈ valuesOf .device "masterbus" os :=
  List.mem_append

theorem mem_namedBuses_append {b : String} {os os' : List Opt} :
    b ∈ namedBuses (os ++ os') ↔ b ∈ namedBuses os ∨ b ∈ namedBuses os' := by
  simp only [mem_namedBuses, valuesOf_append, List.mem_append]
  tauto

theorem mem_valuesOf {flag : Flag} {key x : String} {os : List Opt} :
    x ∈ valuesOf flag key os ↔ ∃ o ∈ os, o.flag = flag ∧ x ∈ o.values key := by
  simp only [valuesOf, List.mem_flatMap, List.mem_filter, decide_eq_true_eq, and_assoc]

/-- Which values there are depends on which options there are. -/
theorem mem_valuesOf_congr {flag : Flag} {key x : String} {os os' : List Opt}
    (h : ∀ o, o ∈ os ↔ o ∈ os') : x ∈ valuesOf flag key os ↔ x ∈ valuesOf flag key os' := by
  simp only [mem_valuesOf, h]

theorem mem_namedBuses_congr {b : String} {os os' : List Opt} (h : ∀ o, o ∈ os ↔ o ∈ os') :
    b ∈ namedBuses os ↔ b ∈ namedBuses os' := by
  rw [mem_namedBuses, mem_namedBuses, mem_valuesOf_congr h, mem_valuesOf_congr h]

theorem mem_repoDevices {e : Env} {i : String} {os : List Opt} :
    i ∈ repoDevices e os ↔ ∃ c, cfgOpt e c ∈ os ∧ i ∈ c.devices := by
  have hall : ∀ c, c ∈ RepoCfg.all := fun c => by cases c <;> decide
  simp only [repoDevices, List.mem_flatMap, List.mem_filter, decide_eq_true_eq, hall, true_and]

theorem mem_busRefs {b : String} {g : Gen} :
    b ∈ busRefs g ↔ b ∈ namedBuses g.options ∨ b ∈ namedBuses g.qemuSw ∨
      ∃ f ∈ g.cfgFiles, f.2.bus = b := by
  simp only [busRefs, Gen.options, List.mem_append, mem_namedBuses_append, List.mem_map]
  tauto

theorem mem_deviceIds {e : Env} {i : String} {g : Gen} :
    i ∈ deviceIds e g ↔ i ∈ valuesOf .device "id" g.options ∨
      (∃ c, cfgOpt e c ∈ g.options ∧ i ∈ c.devices) ∨
      ∃ f ∈ g.cfgFiles, readconfig f.1 ∈ g.options ∧ f.2.device = i := by
  simp only [deviceIds, List.mem_append, mem_repoDevices, List.mem_map, List.mem_filter,
    decide_eq_true_eq, or_assoc, and_assoc]

/-! ## Appended options -/

/-- No option reads a file. -/
def ReadsNothing (os : List Opt) : Prop := ∀ o ∈ os, o.flag ≠ .readconfig

/-- The options `os` are new; the allocator is as before. -/
structure Appends (g g' : Gen) (os : List Opt) : Prop extends SamePorts g g' where
  sw : g'.qemuSw = g.qemuSw
  options : ∀ o, o ∈ g'.options ↔ o ∈ g.options ∨ o ∈ os

theorem Appends.refl (g : Gen) : Appends g g [] := ⟨⟨rfl, rfl, rfl, rfl, rfl⟩, rfl, by simp⟩

/-- `QEMU_OPTS+=( … )`. -/
theorem Appends.of_opts {g g' : Gen} {os : List Opt} (hs : SamePorts g g')
    (hsw : g'.qemuSw = g.qemuSw) (hc : g'.cloverOpts = g.cloverOpts)
    (ho : g'.qemuOpts = g.qemuOpts ++ os) : Appends g g' os := by
  refine ⟨hs, hsw, fun o => ?_⟩
  simp only [Gen.options, ho, hc, hs.cfg, List.mem_append]
  tauto

theorem appends_addOpts (g : Gen) (os : List Opt) : Appends g (g.addOpts os) os :=
  .of_opts ⟨rfl, rfl, rfl, rfl, rfl⟩ rfl rfl rfl

/-- What a step with new options that read nothing does to buses and devices. -/
theorem Appends.mem_busRefs {g g' : Gen} {os : List Opt} (h : Appends g g' os) (b : String) :
    b ∈ busRefs g' ↔ b ∈ busRefs g ∨ b ∈ namedBuses os := by
  have hopt : b ∈ namedBuses g'.options ↔ b ∈ namedBuses (g.options ++ os) :=
    mem_namedBuses_congr fun o => (h.options o).trans List.mem_append.symm
  rw [Genconfig.mem_busRefs, Genconfig.mem_busRefs, hopt, mem_namedBuses_append, h.sw, h.files]
  exact or_right_comm

theorem Appends.mem_deviceIds {e : Env} {g g' : Gen} {os : List Opt} (h : Appends g g' os)
    (hr : ReadsNothing os) (i : String) :
    i ∈ deviceIds e g' ↔ i ∈ deviceIds e g ∨ i ∈ valuesOf .device "id" os := by
  have hread : ∀ o : Opt, o.flag = .readconfig → (o ∈ g'.options ↔ o ∈ g.options) := by
    intro o ho
    rw [h.options o, or_iff_left fun hmem => hr o hmem ho]
  have hopt : i ∈ valuesOf .device "id" g'.options ↔
      i ∈ valuesOf .device "id" (g.options ++ os) :=
    mem_valuesOf_congr fun o => (h.options o).trans List.mem_append.symm
  rw [valuesOf_append, List.mem_append] at hopt
  have hcfg : ∀ c, cfgOpt e c ∈ g'.options ↔ cfgOpt e c ∈ g.options := fun c => hread _ rfl
  have hfile : ∀ fn, readconfig fn ∈ g'.options ↔ readconfig fn ∈ g.options := fun fn => hread _ rfl
  simp only [Genconfig.mem_deviceIds, hopt, hcfg, hfile, h.files]
  exact or_right_comm

/-! ## A new root port -/

/-- `lib-pci.sh` never writes to a file of the repository. -/
theorem readconfig_cfgPath_ne (e : Env) (n : ℕ) (c : RepoCfg) :
    cfgOpt e c ≠ readconfig (cfgPath e n) := by
  intro h
  simp only [cfgOpt, readconfig, cfgPath, Opt.mk.injEq, List.cons.injEq, Item.raw.injEq,
    true_and, and_true, String.append_left_inj] at h
  -- The name of the one ends in a digit, that of the other in a letter.
  have hlast := congrArg (fun s : String => s.toList.getLast?) h
  have hnum : ∃ x ∈ (num n).toList, (num n).toList.getLast? = some x := by
    have hne : (num n).toList ≠ [] := by
      rw [num_toList]
      exact Nat.toDigits_ne_nil
    exact ⟨_, List.getLast_mem hne, List.getLast?_eq_some_getLast hne⟩
  obtain ⟨x, hx, hxl⟩ := hnum
  have hdigit := isDigit_of_mem_num hx
  have hstem : ∃ y, c.stem.toList.getLast? = some y ∧ y.isDigit = false := by
    cases c <;> exact ⟨_, rfl, by decide⟩
  obtain ⟨y, hy, hyd⟩ := hstem
  simp only [String.toList_append, List.getLast?_append, hxl, hy, Option.some_or,
    Option.some.injEq] at hlast
  rw [← hlast, hyd] at hdigit
  cases hdigit

/-- The next port gets the number `n`, and all ports written so far are asked for. -/
structure At (n : ℕ) (g : Gen) : Prop where
  slot : (sourceLibPci g).slotCount = n
  read : ∀ f ∈ g.cfgFiles, readconfig f.1 ∈ g.options

section Alloc

variable {e : Env} {v : ResultVar} {port : String} {g gv : Gen}

theorem addVpci_options (h : addVpci e v port g = some gv) (o : Opt) :
    o ∈ gv.options ↔ o ∈ g.options ∨ o = readconfig (cfgPath e g.slotCount) := by
  rw [(addVpci_spec h).2]
  simp only [Gen.options, List.mem_append, List.mem_singleton]
  tauto

theorem addVpci_cfgFiles (h : addVpci e v port g = some gv) :
    gv.cfgFiles = g.cfgFiles ++ [(cfgPath e g.slotCount,
      vpciTemplate v.name (g.vpciBus.headD "") g.slotCount port (rootBus e))] := by
  rw [(addVpci_spec h).2]

theorem addVpci_busRefs (h : addVpci e v port g = some gv) (b : String) :
    b ∈ busRefs gv ↔ b ∈ busRefs g ∨ b = rootBus e := by
  have hopt : b ∈ namedBuses gv.options ↔
      b ∈ namedBuses (g.options ++ [readconfig (cfgPath e g.slotCount)]) :=
    mem_namedBuses_congr fun o => by
      rw [addVpci_options h, List.mem_append, List.mem_singleton]
  have hread : namedBuses [readconfig (cfgPath e g.slotCount)] = [] := rfl
  rw [mem_namedBuses_append, hread] at hopt
  have hsw : gv.qemuSw = g.qemuSw := by rw [(addVpci_spec h).2]
  have hfiles : (∃ f ∈ gv.cfgFiles, f.2.bus = b) ↔
      (∃ f ∈ g.cfgFiles, f.2.bus = b) ∨ b = rootBus e := by
    simp only [addVpci_cfgFiles h, List.mem_append, List.mem_singleton, or_and_right, exists_or,
      exists_eq_left]
    exact or_congr_right eq_comm
  rw [mem_busRefs, mem_busRefs, hopt, hsw, hfiles]
  simp only [List.not_mem_nil, or_false, or_assoc]

theorem addVpci_deviceIds (h : addVpci e v port g = some gv)
    (hread : ∀ f ∈ g.cfgFiles, readconfig f.1 ∈ g.options) (i : String) :
    i ∈ deviceIds e gv ↔ i ∈ deviceIds e g ∨ i = portId v g.slotCount := by
  have hopt : i ∈ valuesOf .device "id" gv.options ↔
      i ∈ valuesOf .device "id" (g.options ++ [readconfig (cfgPath e g.slotCount)]) :=
    mem_valuesOf_congr fun o => by
      rw [addVpci_options h, List.mem_append, List.mem_singleton]
  rw [valuesOf_append, show valuesOf .device "id" [readconfig (cfgPath e g.slotCount)] = [] from rfl,
    List.append_nil] at hopt
  have hcfg : ∀ c, cfgOpt e c ∈ gv.options ↔ cfgOpt e c ∈ g.options := fun c => by
    rw [addVpci_options h, or_iff_left (readconfig_cfgPath_ne e _ c)]
  have hnew : readconfig (cfgPath e g.slotCount) ∈ gv.options :=
    (addVpci_options h _).mpr (Or.inr rfl)
  have hold : ∀ f ∈ g.cfgFiles, (readconfig f.1 ∈ gv.options ∧ f.2.device = i ↔
      readconfig f.1 ∈ g.options ∧ f.2.device = i) := by
    intro f hf
    rw [addVpci_options h, or_iff_left_of_imp fun _ => hread f hf]
  have hfiles : (∃ f ∈ gv.cfgFiles, readconfig f.1 ∈ gv.options ∧ f.2.device = i) ↔
      (∃ f ∈ g.cfgFiles, readconfig f.1 ∈ g.options ∧ f.2.device = i) ∨
        i = portId v g.slotCount := by
    simp only [addVpci_cfgFiles h, List.mem_append, List.mem_singleton, or_and_right, exists_or,
      exists_eq_left, hnew, true_and]
    exact or_congr (exists_congr fun f => and_congr_right (hold f)) eq_comm
  simp only [mem_deviceIds, hopt, hcfg, hfiles, or_assoc]

end Alloc

end KvmOsx.Genconfig
