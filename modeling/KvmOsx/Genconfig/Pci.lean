import KvmOsx.Genconfig.State
import KvmOsx.Lib.Runs

/-!
# The root-port allocator (`kvm/lib-pci.sh`)

`add_vpci RESULT PORT` takes the next address of the pool `VPCI_BUS`, writes a
cfg file with one root port, appends `-readconfig FILE` and leaves the port's
device id in the variable `RESULT`. The id is built twice, by `vpci_template`
from its third argument and by `add_vpci` with `eval`.

* `addVpci_spec`: everything one call does.
* `PortLog`: the ports written so far are numbered `8, 9, …`, named after
  their numbers and take the pool in order; kept by every call
  (`PortLog.addVpci`) and by sourcing the library again (`PortLog.sourceLibPci`).
* `PortLog.nodup`: ids, chassis, ports and paths are pairwise distinct.
-/

namespace KvmOsx.Genconfig

open Text

/-! ## Model -/

/-- Sourcing `lib-pci.sh` (lines 4-7): the counter is set the first time only. -/
def sourceLibPci (g : Gen) : Gen :=
  if g.sset then g else { g with slotCount := 8, sset := true }

/-- `vpci_template` (lines 38-62): the port written for slot number `sc`. -/
def vpciTemplate (bs vb : String) (sc : ℕ) (port rootBus : String) : RootPort where
  device := bs ++ "." ++ num sc
  driver := port
  bus := rootBus
  addr := cut ':' 1 vb
  port := sc
  chassis := sc
  multifunction := cut ':' 2 vb

/-- `ROOT_BUS` (lines 20-24). -/
def rootBus (e : Env) : String :=
  if e.val "QEMU_MACHINE" = "pc-i440fx" then "pci.0" else "pcie.0"

/-- `FN` (line 25): the cfg file of slot number `sc`. -/
def cfgPath (e : Env) (sc : ℕ) : String :=
  e.val "MACHINE_PATH" ++ "/" ++ rootBus e ++ "." ++ num sc ++ ".cfg"

/-- `-readconfig FILE`. -/
def readconfig (fn : String) : Opt := ⟨.readconfig, [.raw fn]⟩

/-- The variables in which the callers want the id (usb-pt.sh:9, lib-hdd.sh:233,
    net-uni.sh:13, pci-pt.sh:4). -/
inductive ResultVar
  | usbpciBus
  | scsiBus
  | vpciName
  | ptBus
  deriving DecidableEq, Repr

/-- The variable's name. -/
def ResultVar.name : ResultVar → String
  | .usbpciBus => "USBPCI_BUS"
  | .scsiBus => "SCSI_BUS"
  | .vpciName => "VPCI_NAME"
  | .ptBus => "PT_BUS"

/-- `add_vpci` (lines 9-36); an empty port driver ends the run (`exit -1`). -/
def addVpci (e : Env) (resultVar : ResultVar) (port : String) (g : Gen) : Option Gen :=
  if port = "" then none
  else
    let vb := g.vpciBus.headD ""
    let fn := cfgPath e g.slotCount
    some { g with
      vpciBus := g.vpciBus.tail
      cfgFiles := g.cfgFiles ++ [(fn, vpciTemplate resultVar.name vb g.slotCount port (rootBus e))]
      qemuCfg := g.qemuCfg ++ [readconfig fn]
      vars := Function.update g.vars resultVar.name (resultVar.name ++ "." ++ num g.slotCount)
      bs := resultVar.name
      slotCount := g.slotCount + 1 }

/-- What happens to the allocator. -/
inductive PciEvent
  | source
  | vpci (v : ResultVar) (port : String)
  deriving DecidableEq, Repr

/-- Source the library, or call `add_vpci`. -/
def pciStep (e : Env) (g : Gen) : PciEvent → Option Gen
  | .source => some (sourceLibPci g)
  | .vpci v port => addVpci e v port g

/-- The event is a call. -/
def PciEvent.isCall : PciEvent → Bool
  | .source => false
  | .vpci _ _ => true

/-- The id of port number `n` for a caller. -/
def portId (v : ResultVar) (n : ℕ) : String := v.name ++ "." ++ num n

theorem portId_inj {v w : ResultVar} {m n : ℕ} (h : portId v m = portId w n) : m = n :=
  (dotted_inj h).2

/-! ## One call -/

/-- Sourcing the library touches the counter only. -/
theorem sourceLibPci_spec (g : Gen) : (sourceLibPci g).sset = true ∧
    ∃ n, sourceLibPci g = { g with sset := true, slotCount := n } := by
  unfold sourceLibPci
  split_ifs with h
  · exact ⟨h, g.slotCount, by rw [← h]⟩
  · exact ⟨rfl, 8, rfl⟩

@[simp] theorem sourceLibPci_cfgFiles (g : Gen) : (sourceLibPci g).cfgFiles = g.cfgFiles := by
  obtain ⟨n, hn⟩ := (sourceLibPci_spec g).2
  rw [hn]

@[simp] theorem sourceLibPci_qemuCfg (g : Gen) : (sourceLibPci g).qemuCfg = g.qemuCfg := by
  obtain ⟨n, hn⟩ := (sourceLibPci_spec g).2
  rw [hn]

/-- What a call that returns has done, guards included. -/
theorem addVpci_spec {e : Env} {v : ResultVar} {port : String} {g g' : Gen}
    (h : addVpci e v port g = some g') :
    port ≠ "" ∧ g' = { g with
      vpciBus := g.vpciBus.tail
      cfgFiles := g.cfgFiles ++ [(cfgPath e g.slotCount,
        vpciTemplate v.name (g.vpciBus.headD "") g.slotCount port (rootBus e))]
      qemuCfg := g.qemuCfg ++ [readconfig (cfgPath e g.slotCount)]
      vars := Function.update g.vars v.name (v.name ++ "." ++ num g.slotCount)
      bs := v.name
      slotCount := g.slotCount + 1 } := by
  unfold addVpci at h
  split_ifs at h with hp
  exact ⟨hp, by simpa using h.symm⟩

/-- A call returns unless its port driver is empty. -/
theorem addVpci_isSome {e : Env} {v : ResultVar} {port : String} {g : Gen} (h : port ≠ "") :
    ∃ g', addVpci e v port g = some g' := by
  simp [addVpci, h]

/-! ## The log of written ports -/

/-- What the `i`-th entry of the pool gives a port: its address and its
    multifunction value; nothing is left beyond the end of the pool. -/
def poolEntry (pool : List String) (i : ℕ) : String × String :=
  (cut ':' 1 (pool.getD i ""), cut ':' 2 (pool.getD i ""))

/-- The address and multifunction value of a port. -/
def RootPort.place (p : RootPort) : String × String := (p.addr, p.multifunction)

/-- The ports written so far carry the numbers `8, 9, …` up to `SLOT_COUNT`, each
    in the file of its number and each asked for by one `-readconfig`; they use up
    the pool from its front. -/
structure PortLog (e : Env) (base : List Opt) (pool : List String) (g : Gen) : Prop where
  set : g.sset = true
  slot : g.slotCount = 8 + g.cfgFiles.length
  chassis : g.cfgFiles.map (fun f => f.2.chassis) = List.range' 8 g.cfgFiles.length
  port : ∀ f ∈ g.cfgFiles, f.2.port = f.2.chassis
  path : ∀ f ∈ g.cfgFiles, f.1 = cfgPath e f.2.chassis
  device : ∀ f ∈ g.cfgFiles, ∃ v, f.2.device = portId v f.2.chassis
  cfg : g.qemuCfg = base ++ g.cfgFiles.map fun f => readconfig f.1
  rest : g.vpciBus = pool.drop g.cfgFiles.length
  place : g.cfgFiles.map (fun f => f.2.place) = (List.range g.cfgFiles.length).map (poolEntry pool)

theorem PortLog.init (e : Env) {g : Gen} (hs : g.sset = false) (hf : g.cfgFiles = []) :
    PortLog e g.qemuCfg g.vpciBus (sourceLibPci g) := by
  rw [Genconfig.sourceLibPci, if_neg (by simp [hs])]
  constructor <;> simp [hf]

theorem PortLog.sourceLibPci {e : Env} {base : List Opt} {pool : List String} {g : Gen}
    (h : PortLog e base pool g) : PortLog e base pool (sourceLibPci g) := by
  rw [Genconfig.sourceLibPci, if_pos h.set]
  exact h

theorem PortLog.addVpci {e : Env} {base : List Opt} {pool : List String} {g g' : Gen}
    {v : ResultVar} {port : String} (h : PortLog e base pool g) (hc : addVpci e v port g = some g') :
    PortLog e base pool g' := by
  obtain ⟨-, rfl⟩ := addVpci_spec hc
  -- A fact about the files written so far and one about the new file.
  have each : ∀ {P : String × RootPort → Prop}, (∀ f ∈ g.cfgFiles, P f) → ∀ {x}, P x →
      ∀ f ∈ g.cfgFiles ++ [x], P f := by
    intro P hold x hx f hf
    rcases List.mem_append.mp hf with hf | hf
    · exact hold f hf
    · rwa [List.mem_singleton.mp hf]
  refine ⟨h.set, ?_, ?_, each h.port rfl, each h.path rfl, each h.device ⟨v, rfl⟩, ?_, ?_, ?_⟩
  · simp only [List.length_append, List.length_singleton, h.slot]
    omega
  · simp only [List.map_append, h.chassis, List.length_append, List.length_singleton,
      List.map_cons, List.map_nil, List.range'_concat, Nat.one_mul]
    rw [h.slot]
    rfl
  · simp [h.cfg]
  · simp [h.rest]
  · simp only [List.map_append, h.place, List.length_append, List.length_singleton,
      List.map_cons, List.map_nil, List.range_succ]
    rw [h.rest]
    simp [RootPort.place, vpciTemplate, poolEntry, List.headD_eq_head?_getD,
      List.getD_eq_getElem?_getD]

/-- Two texts named after different numbers differ. -/
theorem cfgPath_inj {e : Env} {a b : ℕ} (h : cfgPath e a = cfgPath e b) : a = b := by
  unfold cfgPath at h
  rw [String.append_left_inj, prefix_num_inj] at h
  exact h

theorem PortLog.chassis_nodup {e : Env} {base : List Opt} {pool : List String} {g : Gen}
    (h : PortLog e base pool g) : (g.cfgFiles.map fun f => f.2.chassis).Nodup := by
  rw [h.chassis]
  exact List.nodup_range'

/-- Ids, chassis numbers, port numbers and file paths are pairwise distinct. -/
theorem PortLog.nodup {e : Env} {base : List Opt} {pool : List String} {g : Gen}
    (h : PortLog e base pool g) :
    (g.cfgFiles.map fun f => f.2.device).Nodup ∧ (g.cfgFiles.map fun f => f.2.chassis).Nodup ∧
      (g.cfgFiles.map fun f => f.2.port).Nodup ∧ (g.cfgFiles.map fun f => f.1).Nodup := by
  have hc := h.chassis_nodup
  -- A field that determines the chassis number is as distinct as the numbers are.
  have key : ∀ {β : Type} (k : String × RootPort → β),
      (∀ a ∈ g.cfgFiles, ∀ b ∈ g.cfgFiles, k a = k b → a.2.chassis = b.2.chassis) →
      (g.cfgFiles.map k).Nodup := by
    intro β k hk
    exact (List.nodup_map_iff_inj_on (List.Nodup.of_map _ hc)).mpr fun a ha b hb hab =>
      List.inj_on_of_nodup_map hc ha hb (hk a ha b hb hab)
  refine ⟨key _ ?_, hc, key _ ?_, key _ ?_⟩
  · intro a ha b hb hab
    obtain ⟨u, hu⟩ := h.device a ha
    obtain ⟨w, hw⟩ := h.device b hb
    rw [hu, hw] at hab
    exact portId_inj hab
  · intro a ha b hb hab
    rw [← h.port a ha, ← h.port b hb]
    exact hab
  · intro a ha b hb hab
    rw [h.path a ha, h.path b hb] at hab
    exact cfgPath_inj hab

/-! ## Sequences of events -/

/-- Every event keeps the log. -/
theorem PortLog.step {e : Env} {base : List Opt} {pool : List String} {g g' : Gen}
    {ev : PciEvent} (h : PortLog e base pool g) (hs : pciStep e g ev = some g') :
    PortLog e base pool g' := by
  cases ev with
  | source =>
    obtain rfl := Option.some.inj hs
    exact h.sourceLibPci
  | vpci v port => exact h.addVpci hs

/-- One more port for every call. -/
theorem cfgFiles_length_step {e : Env} {g g' : Gen} {ev : PciEvent}
    (hs : pciStep e g ev = some g') :
    g'.cfgFiles.length = g.cfgFiles.length + if ev.isCall then 1 else 0 := by
  cases ev with
  | source =>
    obtain rfl := Option.some.inj hs
    simp [PciEvent.isCall]
  | vpci v port =>
    obtain ⟨-, rfl⟩ := addVpci_spec hs
    simp [PciEvent.isCall]

/-- The log of a run, and the number of its calls. -/
theorem PortLog.run {e : Env} {g₀ g : Gen} {evs : List PciEvent} (hs : g₀.sset = false)
    (hf : g₀.cfgFiles = []) (h : Runs.run (pciStep e) evs (Genconfig.sourceLibPci g₀) = some g) :
    PortLog e g₀.qemuCfg g₀.vpciBus g ∧ g.cfgFiles.length = evs.countP PciEvent.isCall := by
  refine Runs.run_induction (P := fun evs g => PortLog e g₀.qemuCfg g₀.vpciBus g ∧
    g.cfgFiles.length = evs.countP PciEvent.isCall) ⟨PortLog.init e hs hf, ?_⟩ ?_ h
  · simp [hf]
  · rintro evs ev t t' - ⟨hlog, hn⟩ hstep
    refine ⟨hlog.step hstep, ?_⟩
    rw [cfgFiles_length_step hstep, hn, List.countP_append, List.countP_singleton]

end KvmOsx.Genconfig
