import KvmOsx.Genconfig.Passthrough
import KvmOsx.Genconfig.NetIds
import KvmOsx.Genconfig.DiskLog

/-!
# What one `genconfig.sh` run does to ports, buses and queue

Each fragment is summed up by an `Effect`: how many root ports it allocates, which
`vfio-bind` commands it queues, and that it keeps `PortsUsed`: no returned bus
carries two devices. Effects compose (`Effect.trans`), so the whole of `genPci`
has one (`genPci_effect`).
-/

namespace KvmOsx.Genconfig

open Script Text

/-! ## Frames -/

/-- The allocator is as before. -/
structure SamePorts (g g' : Gen) : Prop where
  sset : g'.sset = g.sset
  slot : g'.slotCount = g.slotCount
  vpci : g'.vpciBus = g.vpciBus
  files : g'.cfgFiles = g.cfgFiles
  cfg : g'.qemuCfg = g.qemuCfg

/-- The allocator, its results and the queue are as before. -/
structure Frame (g g' : Gen) : Prop extends SamePorts g g' where
  vars : g'.vars = g.vars
  queue : g'.runPreBoot = g.runPreBoot

theorem Frame.trans {g₁ g₂ g₃ : Gen} (h : Frame g₁ g₂) (h' : Frame g₂ g₃) : Frame g₁ g₃ :=
  ⟨⟨h'.sset.trans h.sset, h'.slot.trans h.slot, h'.vpci.trans h.vpci, h'.files.trans h.files,
    h'.cfg.trans h.cfg⟩, h'.vars.trans h.vars, h'.queue.trans h.queue⟩

theorem Frame.refl (g : Gen) : Frame g g := ⟨⟨rfl, rfl, rfl, rfl, rfl⟩, rfl, rfl⟩

theorem SamePorts.source {g g' : Gen} (h : SamePorts g g') :
    SamePorts (sourceLibPci g) (sourceLibPci g') := by
  obtain ⟨hs, hl, hv, hf, hc⟩ := h
  unfold sourceLibPci
  rw [hs]
  split_ifs
  · exact ⟨hs, hl, hv, hf, hc⟩
  · exact ⟨rfl, rfl, hv, hf, hc⟩

theorem PortLog.congr {e : Env} {base : List Opt} {pool : List String} {g g' : Gen}
    (h : PortLog e base pool g) (hs : SamePorts g g') : PortLog e base pool g' := by
  constructor <;> simp only [hs.sset, hs.slot, hs.vpci, hs.files, hs.cfg]
  exacts [h.set, h.slot, h.chassis, h.port, h.path, h.device, h.cfg, h.rest, h.place]

/-- A netdev call touches neither, nor the disk controller. -/
theorem addIface_frame {e : Env} {virtfn : String → Option String} {a : NetArgs} {g g' : Gen}
    {mode : IfaceMode} (h : addIface e virtfn a g mode = some g') :
    Frame g g' ∧ g'.controller = g.controller := by
  have hpcie : ∀ args g, Frame g (addPcieIface e args g) ∧
      (addPcieIface e args g).controller = g.controller := by
    intro args g
    unfold addPcieIface
    split_ifs <;> exact ⟨⟨⟨rfl, rfl, rfl, rfl, rfl⟩, rfl, rfl⟩, rfl⟩
  have hmac : ∀ dev cb netArgs, addMacvtapIface e virtfn a dev cb netArgs g = some g' →
      Frame g g' ∧ g'.controller = g.controller := by
    intro dev cb netArgs h
    unfold addMacvtapIface at h
    split_ifs at h
    · obtain rfl := Option.some.inj h
      exact ⟨Frame.refl g, rfl⟩
    · obtain ⟨_, -, rfl⟩ := Option.map_eq_some_iff.mp h
      cases cb <;> exact ⟨⟨⟨rfl, rfl, rfl, rfl, rfl⟩, rfl, rfl⟩, rfl⟩
    · obtain rfl := Option.some.inj h
      cases cb <;> exact ⟨⟨⟨rfl, rfl, rfl, rfl, rfl⟩, rfl, rfl⟩, rfl⟩
  cases mode with
  | macvtap | macvtapPassthru | e1000 | vmxnet => exact hmac _ _ _ h
  | bridge =>
    obtain rfl := Option.some.inj h
    unfold addBridgeIface
    split_ifs <;> exact ⟨⟨⟨rfl, rfl, rfl, rfl, rfl⟩, rfl, rfl⟩, rfl⟩
  | tap =>
    obtain rfl := Option.some.inj h
    unfold addTapIface
    split_ifs <;> exact ⟨⟨⟨rfl, rfl, rfl, rfl, rfl⟩, rfl, rfl⟩, rfl⟩
  | ovs =>
    obtain rfl := Option.some.inj h
    rw [addOvsIface]
    split <;> exact ⟨⟨⟨rfl, rfl, rfl, rfl, rfl⟩, rfl, rfl⟩, rfl⟩
  | vpp =>
    obtain rfl := Option.some.inj h
    rw [addVppIface]
    split <;> exact ⟨⟨⟨rfl, rfl, rfl, rfl, rfl⟩, rfl, rfl⟩, rfl⟩
  | vpptap =>
    obtain rfl := Option.some.inj h
    unfold addVpptapIface
    split_ifs <;> exact ⟨⟨⟨rfl, rfl, rfl, rfl, rfl⟩, rfl, rfl⟩, rfl⟩
  | vfio =>
    obtain rfl := Option.some.inj h
    unfold addVfioIface
    split_ifs
    · exact ⟨⟨⟨rfl, rfl, rfl, rfl, rfl⟩, rfl, rfl⟩, rfl⟩
    · obtain ⟨hf, hc⟩ := hpcie (unquoted [a.dev, a.bus, a.addr]) { g with netdev := a.dev }
      exact ⟨⟨⟨hf.sset, hf.slot, hf.vpci, hf.files, hf.cfg⟩, hf.vars, hf.queue⟩, hc⟩
  | sriov =>
    unfold addIface addSriovIface at h
    by_cases hr : (a.dev = "" || a.vf = "" || a.mac = "") = true
    · rw [if_pos hr] at h
      obtain rfl := Option.some.inj h
      exact ⟨⟨⟨rfl, rfl, rfl, rfl, rfl⟩, rfl, rfl⟩, rfl⟩
    · rw [if_neg hr] at h
      obtain ⟨pciport, -, rfl⟩ := Option.map_eq_some_iff.mp h
      refine ⟨Frame.trans ?_ (hpcie _ _).1, (hpcie _ _).2.trans ?_⟩
      · exact ⟨⟨rfl, rfl, rfl, rfl, rfl⟩, rfl, rfl⟩
      · rfl

/-- The disk gets a controller on a port of its own. -/
def ownPort (e : Env) (diskarg : String → String → String) (name : String) : Bool :=
  isMulti e && attached e diskarg name &&
    (DiskMode.ofText (hddMode e name) == some .virtioScsi)

/-- A disk allocates at most one port; apart from that it touches neither. -/
theorem addDisk_frame {e : Env} {diskarg : String → String → String} {name : String} {g g' : Gen}
    (h : addDisk e diskarg g name = some g') :
    (ownPort e diskarg name = false ∧ Frame g g') ∨
      (ownPort e diskarg name = true ∧ ∃ gv, addVpci e .scsiBus (e.valOr "STORE_ROOT_PORT" "ioh3420") g = some gv ∧
        Frame gv g') := by
  obtain ⟨m, hm, hg⟩ := Option.bind_eq_some_iff.mp h
  simp only [ownPort, hm, attached, Option.bind_some]
  cases m with
  | virtioPci =>
    obtain rfl := Option.some.inj hg
    refine Or.inl ⟨by simp, ?_⟩
    simp only [addVirtioPciDisk]
    split_ifs <;> exact ⟨⟨rfl, rfl, rfl, rfl, rfl⟩, rfl, rfl⟩
  | ahci =>
    obtain rfl := Option.some.inj hg
    refine Or.inl ⟨by simp, ?_⟩
    simp only [addAhciDisk]
    split_ifs <;> exact ⟨⟨rfl, rfl, rfl, rfl, rfl⟩, rfl, rfl⟩
  | virtiofsd =>
    obtain rfl := Option.some.inj hg
    exact Or.inl ⟨by simp, ⟨rfl, rfl, rfl, rfl, rfl⟩, rfl, rfl⟩
  | virtioScsi =>
    simp only [addModeDisk, addVirtioScsiDisk] at hg
    split_ifs at hg with hmiss h0 hmulti
    · obtain rfl := Option.some.inj hg
      exact Or.inl ⟨by simp [DiskMode.controller, hmiss], Frame.refl g⟩
    · obtain rfl := Option.some.inj hg
      exact Or.inl ⟨by simp [h0.2], ⟨rfl, rfl, rfl, rfl, rfl⟩, rfl, rfl⟩
    · obtain ⟨gc, hgc, rfl⟩ := Option.map_eq_some_iff.mp hg
      obtain ⟨gv, hgv, rfl⟩ := Option.map_eq_some_iff.mp hgc
      exact Or.inr ⟨by simp [DiskMode.controller, hmiss, hmulti], gv, hgv,
        ⟨rfl, rfl, rfl, rfl, rfl⟩, rfl, rfl⟩
    · obtain rfl := Option.some.inj hg
      exact Or.inl ⟨by simp [hmulti], ⟨rfl, rfl, rfl, rfl, rfl⟩, rfl, rfl⟩

/-! ## Buses -/

/-- The buses of the `-device` options. -/
abbrev buses (os : List Opt) : List String := valuesOf .device "bus" os

theorem buses_append (os os' : List Opt) : buses (os ++ os') = buses os ++ buses os' :=
  valuesOf_append _ _ os os'

/-- A bus that is no port of `add_vpci`: those are numbered from 8. -/
def Foreign (b : String) : Prop := ∀ v n, 8 ≤ n → b ≠ portId v n

theorem foreign_of_dotted {u : String} {k : ℕ}
    (h : k < 8 ∨ ∀ v : ResultVar, u ≠ v.name) : Foreign (u ++ "." ++ num k) := by
  intro v n hn heq
  obtain ⟨hu, hk⟩ := dotted_inj heq
  rcases h with h | h
  · omega
  · exact h v hu

theorem foreign_pcie0 : Foreign "pcie.0" := foreign_of_dotted (u := "pcie") (k := 0) (by simp)

theorem foreign_pci0 : Foreign "pci.0" := foreign_of_dotted (u := "pci") (k := 0) (by simp)

theorem foreign_pcie5 : Foreign "pcie.5" := foreign_of_dotted (u := "pcie") (k := 5) (by simp)

theorem foreign_ideBus (n : ℕ) : Foreign (ideBus n) :=
  foreign_of_dotted (u := "ide") (Or.inr fun v => by cases v <;> decide)

theorem foreign_scsiBus (k : ℕ) : Foreign (scsiBus k) := by
  rw [scsiBus, show ".0" = "." ++ num 0 by decide, ← String.append_assoc]
  exact foreign_of_dotted (by simp)

theorem portId_ne_empty (v : ResultVar) (n : ℕ) : portId v n ≠ "" := by
  intro h
  have := congrArg String.toList h
  simp [portId, String.toList_append] at this

theorem foreign_empty : Foreign "" := fun v n _ h => portId_ne_empty v n h.symm

/-- The id is left in the caller's variable. -/
theorem addVpci_var {e : Env} {v : ResultVar} {port : String} {g gv : Gen}
    (h : addVpci e v port g = some gv) : gv.vars v.name = portId v g.slotCount := by
  rw [(addVpci_spec h).2]
  simp [portId]

/-- `CONTROLLER` is unset or names the bus of a SCSI controller. -/
def KnownController (g : Gen) : Prop := g.controller = "" ∨ ∃ k, g.controller = scsiBus k

theorem addVpci_var_ne {e : Env} {v : ResultVar} {port : String} {g gv : Gen}
    (h : addVpci e v port g = some gv) : gv.vars v.name ≠ "" := by
  rw [addVpci_var h]
  exact portId_ne_empty _ _

/-- Nobody uses a port twice, and nobody uses one before it is written. -/
structure PortsUsed (e : Env) (pool : List String) (g : Gen) : Prop where
  log : PortLog e [] pool (sourceLibPci g)
  controller : KnownController g
  once : ∀ v n, 8 ≤ n → (buses g.qemuOpts).count (portId v n) ≤ 1
  fresh : ∀ v n, (sourceLibPci g).slotCount ≤ n → portId v n ∉ buses g.qemuOpts

/-- The effect of a fragment that returns: `k` ports are allocated and the commands
    `cmds` queued, and no port is used twice. -/
structure Effect (e : Env) (pool : List String) (g g' : Gen) (k : ℕ)
    (cmds : List (List String)) : Prop where
  used : PortsUsed e pool g → PortsUsed e pool g'
  sset : g.sset = true → g'.sset = true
  ports : g'.cfgFiles.length = g.cfgFiles.length + k
  queue : g'.runPreBoot = g.runPreBoot ++ cmds.flatMap ("vfio-bind" :: ·)

theorem Effect.refl (e : Env) (pool : List String) (g : Gen) : Effect e pool g g 0 [] :=
  ⟨id, id, rfl, by simp⟩

theorem Effect.trans {e : Env} {pool : List String} {g₁ g₂ g₃ : Gen} {k k' : ℕ}
    {cmds cmds' : List (List String)} (h : Effect e pool g₁ g₂ k cmds)
    (h' : Effect e pool g₂ g₃ k' cmds') : Effect e pool g₁ g₃ (k + k') (cmds ++ cmds') where
  used := fun hu => h'.used (h.used hu)
  sset := fun hs => h'.sset (h.sset hs)
  ports := by rw [h'.ports, h.ports, Nat.add_assoc]
  queue := by rw [h'.queue, h.queue, List.flatMap_append, List.append_assoc]

theorem sourceLibPci_slot_ge {e : Env} {pool : List String} {g : Gen} (h : PortsUsed e pool g) :
    8 ≤ (sourceLibPci g).slotCount := by
  rw [h.log.slot]
  omega

section Effects

variable {e : Env} {pool : List String} {g g' gv : Gen}

/-- Sourcing the library. -/
theorem sourceLibPci_effect : Effect e pool g (sourceLibPci g) 0 [] := by
  obtain ⟨hsset, n, hn⟩ := sourceLibPci_spec g
  have hidem : sourceLibPci (sourceLibPci g) = sourceLibPci g := by
    rw [sourceLibPci, if_pos hsset]
  refine ⟨fun hu => ⟨?_, ?_, ?_, ?_⟩, fun _ => hsset, by simp, by rw [hn]; simp⟩
  · rw [hidem]
    exact hu.log
  · rw [KnownController, hn]
    exact hu.controller
  · rw [hn]
    exact hu.once
  · rw [hidem]
    rw [show (sourceLibPci g).qemuOpts = g.qemuOpts by rw [hn]]
    exact hu.fresh

/-- A fragment that only appends devices on foreign buses. -/
theorem foreign_effect {os : List Opt} {cmds : List (List String)} (hs : SamePorts g g')
    (ho : g'.qemuOpts = g.qemuOpts ++ os)
    (hb : KnownController g → (∀ b ∈ buses os, Foreign b) ∧ KnownController g')
    (hq : g'.runPreBoot = g.runPreBoot ++ cmds.flatMap ("vfio-bind" :: ·)) :
    Effect e pool g g' 0 cmds := by
  refine ⟨fun hu => ?_, hs.sset.trans, by rw [hs.files]; rfl, hq⟩
  obtain ⟨hb, hco⟩ := hb hu.controller
  have hnot : ∀ v n, 8 ≤ n → portId v n ∉ buses os := fun v n hn hmem => hb _ hmem v n hn rfl
  refine ⟨hu.log.congr hs.source, hco, ?_, ?_⟩
  · intro v n hn
    rw [ho, buses_append, List.count_append, List.count_eq_zero.mpr (hnot v n hn)]
    exact hu.once v n hn
  · intro v n hn hmem
    rw [hs.source.slot] at hn
    rw [ho, buses_append] at hmem
    rcases List.mem_append.mp hmem with hmem | hmem
    · exact hu.fresh v n hn hmem
    · exact hnot v n ((sourceLibPci_slot_ge hu).trans hn) hmem

/-- A call of `add_vpci` alone. -/
theorem alloc_effect {v : ResultVar} {port : String} (hs : g.sset = true)
    (h : addVpci e v port g = some gv) : Effect e pool g gv 1 [] := by
  have hsource : sourceLibPci g = g := if_pos hs
  have hsource' : sourceLibPci gv = gv := by
    obtain ⟨-, rfl⟩ := addVpci_spec h
    exact if_pos hs
  have hgv := (addVpci_spec h).2
  refine ⟨fun hu => ⟨?_, ?_, ?_, ?_⟩, fun _ => ?_, ?_, ?_⟩
  · rw [hsource']
    exact PortLog.addVpci (hsource ▸ hu.log) h
  · rw [KnownController, hgv]
    exact hu.controller
  · rw [hgv]
    exact hu.once
  · intro w n hn hmem
    have hlt : (sourceLibPci g).slotCount ≤ n := by
      rw [hsource', hgv] at hn
      rw [hsource]
      exact (Nat.le_succ _).trans hn
    rw [hgv] at hmem
    exact hu.fresh w n hlt hmem
  · rw [hgv]
    exact hs
  · rw [hgv]
    simp
  · rw [hgv]
    simp

/-- A call of `add_vpci` and a fragment that puts at most one device on the port it
    returned. -/
theorem onPort_effect {v : ResultVar} {port : String} {os : List Opt}
    {cmds : List (List String)} (hs : g.sset = true)
    (h : addVpci e v port g = some gv) (hsame : SamePorts gv g')
    (ho : g'.qemuOpts = gv.qemuOpts ++ os) (hb : ∀ b ∈ buses os, b = gv.vars v.name)
    (hlen : (buses os).length ≤ 1) (hco : g'.controller = gv.controller)
    (hq : g'.runPreBoot = gv.runPreBoot ++ cmds.flatMap ("vfio-bind" :: ·)) :
    Effect e pool g g' 1 cmds := by
  have hsource : sourceLibPci g = g := if_pos hs
  have hal : Effect e pool g gv 1 [] := alloc_effect hs h
  have hsource' : sourceLibPci gv = gv := if_pos (hal.sset hs)
  have hgv := (addVpci_spec h).2
  have hid := addVpci_var h
  have hslot : gv.slotCount = g.slotCount + 1 := by rw [hgv]
  refine ⟨fun hu => ⟨(hal.used hu).log.congr hsame.source, ?_, ?_, ?_⟩,
    fun _ => hsame.sset.trans (hal.sset hs), by rw [hsame.files, hal.ports], ?_⟩
  · rw [KnownController, hco]
    exact (hal.used hu).controller
  · -- The returned id was used by nobody; every other id gains nothing.
    intro w n hn
    rw [ho, buses_append, List.count_append]
    by_cases hw : portId w n ∈ buses os
    · have hn' : n = g.slotCount := portId_inj ((hb _ hw).trans hid)
      have hold : portId w n ∉ buses gv.qemuOpts := by
        rw [hgv]
        exact hu.fresh w n (by rw [hsource, hn'])
      rw [List.count_eq_zero.mpr hold, Nat.zero_add]
      exact List.count_le_length.trans hlen
    · rw [List.count_eq_zero.mpr hw]
      exact (hal.used hu).once w n hn
  · intro w n hn hmem
    rw [hsame.source.slot] at hn
    rw [ho, buses_append] at hmem
    rcases List.mem_append.mp hmem with hmem | hmem
    · exact (hal.used hu).fresh w n hn hmem
    · have hn' : n = g.slotCount := portId_inj ((hb _ hmem).trans hid)
      rw [hsource', hslot] at hn
      omega
  · rw [hq, hgv]

/-- `RUN_PRE_BOOT+=( vfio-bind … )`. -/
theorem queueBind_effect (addrs : List String) : Effect e pool g (g.queueBind addrs) 0 [addrs] :=
  foreign_effect ⟨rfl, rfl, rfl, rfl, rfl⟩ (List.append_nil _).symm (fun hc => ⟨by simp, hc⟩)
    (by simp [Gen.queueBind])

/-- `QEMU_OPTS+=( … )` with devices on foreign buses. -/
theorem addOpts_effect {os : List Opt} (hb : ∀ b ∈ buses os, Foreign b) :
    Effect e pool g (g.addOpts os) 0 [] :=
  foreign_effect ⟨rfl, rfl, rfl, rfl, rfl⟩ rfl (fun hc => ⟨hb, hc⟩) (by simp [Gen.addOpts])

theorem checkLspci_eq {lspci : String → Bool} {slot : String}
    (h : checkLspci lspci slot g = some g') : g' = g := by
  unfold checkLspci at h
  split_ifs at h
  exact (Option.some.inj h).symm

/-- The steps of a run add up. -/
theorem run_effect {α : Type*} {step : Gen → α → Option Gen} {k : α → ℕ}
    {cmds : α → List (List String)}
    (hstep : ∀ a g g', g.sset = true → step g a = some g' → Effect e pool g g' (k a) (cmds a))
    {acts : List α} (hs : g.sset = true) (h : Runs.run step acts g = some g') :
    Effect e pool g g' (acts.map k).sum (acts.flatMap cmds) := by
  induction acts generalizing g with
  | nil =>
    obtain rfl := Option.some.inj h
    exact Effect.refl e pool g
  | cons a acts ih =>
    obtain ⟨m, hm, hrest⟩ := Option.bind_eq_some_iff.mp h
    have ha := hstep a g m hs hm
    exact ha.trans (ih (ha.sset hs) hrest)

end Effects

/-! ## The fragments -/

section Fragments

variable {e : Env} {h : Host} {pool : List String} {g g' : Gen}

/-- A port and a bind for each further controller that is configured. -/
def usbMore (e : Env) : List String := unquoted [e.val "USBPCI_1", e.val "USBPCI_2"]

/-- The ports of the USB fragment. -/
def usbPorts (e : Env) : ℕ := if e.val "USB_MODE" = "pt" then 1 + (usbMore e).length else 0

/-- The commands the USB fragment queues. -/
def usbBinds (e : Env) : List (List String) :=
  if e.val "USB_MODE" = "pt" then (e.val "USBPCI" :: usbMore e).map fun d => [fn0 d]
  else if e.val "USB_MODE" = "pt-pc" then (pciPtDevs e).map fun d => [fn0 d]
  else []

theorem usbOnPort_effect {pci addr : String} (hs : g.sset = true)
    (hu : usbOnPort e pci addr g = some g') : Effect e pool g g' 1 [] := by
  obtain ⟨gv, hv, rfl⟩ := Option.map_eq_some_iff.mp hu
  refine onPort_effect (v := .usbpciBus) hs hv ⟨rfl, rfl, rfl, rfl, rfl⟩ rfl ?_ ?_ rfl
    (by simp [Gen.addOpts])
  · simp [vfioPci, valuesOf_cons, ResultVar.name]
  · simp [vfioPci, valuesOf_cons]

/-- One of the optional controllers. -/
theorem usbMore_effect {pci addr : String} (hs : g.sset = true)
    (hu : (if pci = "" then some g else (usbOnPort e pci addr g).map (·.queueBind [fn0 pci])) =
      some g') :
    Effect e pool g g' (unquoted [pci]).length ((unquoted [pci]).map fun d => [fn0 d]) := by
  split_ifs at hu with hp
  · obtain rfl := Option.some.inj hu
    simpa [unquoted, hp] using Effect.refl e pool g
  · obtain ⟨gu, hgu, rfl⟩ := Option.map_eq_some_iff.mp hu
    simpa [unquoted, hp] using (usbOnPort_effect hs hgu).trans (queueBind_effect [fn0 pci])

theorem sourceLibPci_sset : (sourceLibPci g).sset = true := (sourceLibPci_spec g).1

theorem usbPt_effect (hu : usbPt e h g = some g') :
    Effect e pool g g' (1 + (usbMore e).length)
      ((e.val "USBPCI" :: usbMore e).map fun d => [fn0 d]) := by
  obtain ⟨g1, h1, hu⟩ := Option.bind_eq_some_iff.mp hu
  obtain ⟨g2, h2, hu⟩ := Option.bind_eq_some_iff.mp hu
  obtain ⟨g3, h3, hu⟩ := Option.bind_eq_some_iff.mp hu
  obtain rfl := checkLspci_eq hu
  have hq : Effect e pool g ((sourceLibPci g).queueBind [fn0 (e.val "USBPCI")]) 0
      [[fn0 (e.val "USBPCI")]] := sourceLibPci_effect.trans (queueBind_effect _)
  have s0 : ((sourceLibPci g).queueBind [fn0 (e.val "USBPCI")]).sset = true := sourceLibPci_sset
  have e1 : Effect e pool _ g1 1 [] := usbOnPort_effect s0 h1
  have s1 : g1.sset = true := e1.sset s0
  have e2 : Effect e pool g1 g2 _ _ := usbMore_effect s1 h2
  have e3 : Effect e pool g2 g' _ _ := usbMore_effect (e2.sset s1) h3
  have hall := ((hq.trans e1).trans e2).trans e3
  have hmore : usbMore e = unquoted [e.val "USBPCI_1"] ++ unquoted [e.val "USBPCI_2"] := by
    simp [usbMore, unquoted, ← List.filter_append]
  rw [hmore]
  simpa [Nat.add_assoc] using hall

theorem usbPtPc_effect : Effect e pool g (usbPtPc e g) 0 ((pciPtDevs e).map fun d => [fn0 d]) := by
  unfold usbPtPc
  induction pciPtDevs e generalizing g with
  | nil => exact Effect.refl e pool g
  | cons d ds ih =>
    have hd : Effect e pool g
        ((g.addOpts [vfioPci (d ++ ".0") "pci.0" (cut ':' 2 d) []]).queueBind [fn0 d]) 0
        [[fn0 d]] :=
      (addOpts_effect (by simp [vfioPci, valuesOf_cons, foreign_pci0])).trans (queueBind_effect _)
    exact hd.trans ih

theorem usb_effect (hu : usb e h g = some g') :
    Effect e pool g g' (usbPorts e) (usbBinds e) := by
  unfold usb at hu
  unfold usbPorts usbBinds
  split_ifs at hu ⊢
  · exact usbPt_effect hu
  · obtain rfl := Option.some.inj hu
    exact usbPtPc_effect
  · obtain rfl := Option.some.inj hu
    exact Effect.refl e pool g

/-- The command the graphics fragment queues; it has two operands. -/
def gfxBinds (e : Env) : List (List String) :=
  if e.val "GFX_MODE" = "pt-i440" then [[fn0 (e.val "GFXPCI"), "0000:" ++ e.val "GFXPCI" ++ ".1"]]
  else []

theorem gfx_effect (hx : gfx e h g = some g') : Effect e pool g g' 0 (gfxBinds e) := by
  unfold gfx at hx
  unfold gfxBinds
  split_ifs at hx ⊢
  · obtain rfl := checkLspci_eq hx
    exact foreign_effect ⟨rfl, rfl, rfl, rfl, rfl⟩ (List.append_nil _).symm
      (fun hc => ⟨by simp, hc⟩) (by simp [Gen.queueBind])
  · obtain rfl := Option.some.inj hx
    exact Effect.refl e pool g

/-- The commands of `teradici.sh`. -/
def teradiciBinds (e : Env) : List (List String) :=
  if e.val "TERADICI_PCI" = "" then []
  else ["0", "1", "2", "3", "4"].map fun fn => ["0000:" ++ e.val "TERADICI_PCI" ++ "." ++ fn]

theorem teradici_effect (ht : teradici e h g = some g') :
    Effect e pool g g' 0 (teradiciBinds e) := by
  simp only [teradici] at ht
  unfold teradiciBinds
  split_ifs at ht ⊢
  · obtain rfl := Option.some.inj ht
    exact Effect.refl e pool g
  · obtain rfl := checkLspci_eq ht
    have hq : ∀ fn g, Effect e pool g
        (g.queueBind ["0000:" ++ e.val "TERADICI_PCI" ++ "." ++ fn]) 0
        [["0000:" ++ e.val "TERADICI_PCI" ++ "." ++ fn]] := fun fn g => queueBind_effect _
    refine ((hq "0" _).trans <| (hq "1" _).trans <| (hq "2" _).trans <| (hq "3" _).trans
      (hq "4" _)).trans (addOpts_effect ?_)
    simp [teradiciFn, vfioPci, valuesOf_cons, foreign_pcie5]

theorem mem_placements_of_mem_buses {os : List Opt} {b : String} (hb : b ∈ buses os) :
    ∃ l, (b, l) ∈ placements os := by
  obtain ⟨o, ho, hbo⟩ := List.mem_flatMap.mp hb
  exact ⟨o.values "lun", List.mem_flatMap.mpr
    ⟨o, List.mem_of_mem_filter ho, List.mem_map.mpr ⟨b, hbo, rfl⟩⟩⟩

/-- What a disk appends, and what it does to `CONTROLLER`. -/
theorem addDisk_foreign {name : String} (hd : addDisk e h.diskarg g name = some g') :
    ∃ os, g'.qemuOpts = g.qemuOpts ++ os ∧
      (KnownController g → (∀ b ∈ buses os, Foreign b) ∧ KnownController g') := by
  rcases addDisk_cases hd with ⟨-, ⟨os, hos, -, hp⟩, -⟩ | ⟨-, ⟨os, hos, q⟩, -, -, -, hc⟩
  · have hone : ∀ p, placements os = [p] → ∀ b ∈ buses os, b = p.1 := by
      intro p hp b hb
      obtain ⟨l, hl⟩ := mem_placements_of_mem_buses hb
      rw [hp, List.mem_singleton] at hl
      exact congrArg Prod.fst hl
    refine ⟨os, hos, fun hco => ?_⟩
    cases hp with
    | pci hp _ _ _ _ hc =>
      refine ⟨fun b hb => ?_, by rwa [KnownController, hc]⟩
      obtain ⟨l, hl⟩ := mem_placements_of_mem_buses hb
      simp [hp] at hl
    | ahci hp _ _ _ _ hc =>
      refine ⟨fun b hb => ?_, by rwa [KnownController, hc]⟩
      rw [hone _ hp b hb]
      exact foreign_ideBus _
    | own hp _ _ _ _ _ _ hc =>
      refine ⟨fun b hb => ?_, Or.inr ⟨_, hc⟩⟩
      rw [hone _ hp b hb]
      exact foreign_scsiBus _
    | shared hp _ _ _ _ _ _ _ hc =>
      refine ⟨fun b hb => ?_, by rwa [KnownController, hc]⟩
      rw [hone _ hp b hb]
      rcases hco with h0 | ⟨k, hk⟩
      · rw [h0]
        exact foreign_empty
      · rw [hk]
        exact foreign_scsiBus k
  · refine ⟨os, hos, fun hco => ⟨fun b hb => ?_, by rwa [KnownController, hc]⟩⟩
    obtain ⟨l, hl⟩ := mem_placements_of_mem_buses hb
    simp [q.placed] at hl

theorem addDisk_effect {name : String} (hs : g.sset = true)
    (hd : addDisk e h.diskarg g name = some g') :
    Effect e pool g g' (if ownPort e h.diskarg name then 1 else 0) [] := by
  obtain ⟨os, hos, hb⟩ := addDisk_foreign hd
  rcases addDisk_frame hd with ⟨ho, hf⟩ | ⟨ho, gv, hgv, hf⟩
  · rw [if_neg (by simp [ho])]
    exact foreign_effect hf.toSamePorts hos hb (by simp [hf.queue])
  · rw [if_pos ho]
    have hv := (addVpci_spec hgv).2
    have ha : Effect e pool g gv 1 [] := alloc_effect (v := .scsiBus) hs hgv
    have hb' : KnownController gv → (∀ b ∈ buses os, Foreign b) ∧ KnownController g' := by
      rw [hv]
      exact hb
    refine ha.trans (foreign_effect hf.toSamePorts ?_ hb' (by simp [hf.queue]))
    rw [hos, hv]

/-- The ports of the disks. -/
def hddPorts (e : Env) (h : Host) : ℕ :=
  (diskNames.map fun name => if ownPort e h.diskarg name then 1 else 0).sum

theorem hddUni_run (hd : hddUni e h g = some g') :
    Effect e pool (sourceLibPci g) g' (hddPorts e h) (diskNames.flatMap fun _ => []) :=
  run_effect (fun _ _ _ hs hn => addDisk_effect hs hn) sourceLibPci_sset hd

theorem hddUni_sset (hd : hddUni e h g = some g') : g'.sset = true := by
  have hrun : Effect e [] (sourceLibPci g) g' _ _ := hddUni_run hd
  exact hrun.sset sourceLibPci_sset

theorem hddUni_effect (hd : hddUni e h g = some g') : Effect e pool g g' (hddPorts e h) [] := by
  have hall : Effect e pool g g' (0 + hddPorts e h) ([] ++ diskNames.flatMap fun _ => []) :=
    sourceLibPci_effect.trans (hddUni_run hd)
  rw [Nat.zero_add] at hall
  exact hall

/-- What a network interface appends. -/
theorem addIface_buses {virtfn : String → Option String} {a : NetArgs} {mode : IfaceMode}
    (ha : a.bus ≠ "") (hi : addIface e virtfn a g mode = some g') :
    ∃ os, g'.qemuOpts = g.qemuOpts ++ os ∧ (∀ b ∈ buses os, b = a.bus) ∧
      (buses os).length ≤ 1 := by
  cases hm : mode.isNetdev with
  | false =>
    obtain ⟨-, b, hb, q⟩ := addIface_passthrough hm hi
    exact ⟨b.opts, hb.opts, q.bus, q.busOnce⟩
  | true =>
    cases hr : a.rejected with
    | true =>
      obtain rfl := Option.some.inj ((addIface_rejected hm hr).symm.trans hi)
      exact ⟨[], by simp, by simp, by simp⟩
    | false =>
      obtain ⟨-, b, hb, -, hbus⟩ := addIface_netdev hm hr hi
      exact ⟨b.opts, hb.opts, by simp [buses, hbus ha], by simp [buses, hbus ha]⟩

theorem netPciBus_foreign : Foreign (netPciBus e) := by
  unfold netPciBus
  split_ifs
  · exact foreign_pci0
  · exact foreign_pcie0

theorem netPciBus_ne : netPciBus e ≠ "" := by
  unfold netPciBus
  split_ifs <;> decide

theorem net1_effect (hn : net1 e h g = some g') : Effect e pool g g' 0 [] := by
  unfold net1 at hn
  split_ifs at hn
  · obtain rfl := Option.some.inj hn
    exact Effect.refl e pool g
  · obtain ⟨mode, -, hi⟩ := Option.bind_eq_some_iff.mp hn
    obtain ⟨os, hos, hb, -⟩ := addIface_buses netPciBus_ne hi
    obtain ⟨hf, hc⟩ := addIface_frame hi
    refine foreign_effect hf.toSamePorts hos (fun hco => ⟨fun b hm => ?_, ?_⟩) (by simp [hf.queue])
    · rw [hb b hm]
      exact netPciBus_foreign
    · rwa [KnownController, hc]

/-- A mode that is set asks for a port. -/
def modePort (e : Env) (kind n : String) : ℕ := if e.val (kind ++ n ++ "_MODE") = "" then 0 else 1

theorem netOnPort_effect {n : String} (hs : g.sset = true) (hn : netOnPort e h g n = some g') :
    Effect e pool g g' (modePort e "NET" n) [] := by
  unfold netOnPort at hn
  unfold modePort
  split_ifs at hn ⊢
  · obtain rfl := Option.some.inj hn
    exact Effect.refl e pool g
  · obtain ⟨gv, hgv, hi⟩ := Option.bind_eq_some_iff.mp hn
    obtain ⟨mode, -, hi⟩ := Option.bind_eq_some_iff.mp hi
    have hid : gv.vars "VPCI_NAME" ≠ "" := addVpci_var_ne (v := .vpciName) hgv
    obtain ⟨os, hos, hb, hl⟩ := addIface_buses hid hi
    obtain ⟨hf, hc⟩ := addIface_frame hi
    exact onPort_effect (v := .vpciName) hs hgv hf.toSamePorts hos hb hl hc (by simp [hf.queue])

/-- The ports of `net-uni.sh`. -/
def netPorts (e : Env) : ℕ :=
  if firstTwo e "NET" then (["2", "3", "4"].map (modePort e "NET")).sum else 0

theorem netUni_effect (hn : netUni e h g = some g') :
    Effect e pool g g' (["2", "3", "4"].map (modePort e "NET")).sum [] := by
  obtain ⟨g1, h1, hrest⟩ := Option.bind_eq_some_iff.mp hn
  have e1 : Effect e pool (sourceLibPci g) g1 0 [] := net1_effect h1
  have hrun : Effect e pool g1 g' (["2", "3", "4"].map (modePort e "NET")).sum
      (["2", "3", "4"].flatMap fun _ => []) :=
    run_effect (fun _ _ _ hs hn => netOnPort_effect hs hn) (e1.sset sourceLibPci_sset) hrest
  have := (sourceLibPci_effect.trans e1).trans hrun
  rw [Nat.zero_add] at this
  exact this

/-- The command one line of `pci-pt.sh` queues. -/
def ptBinds (e : Env) (n : String) : List (List String) :=
  if e.val ("PT" ++ n ++ "_MODE") = "" ∨ e.val ("PT" ++ n ++ "_PCI") = "" then []
  else [[e.val ("PT" ++ n ++ "_PCI")]]

theorem ptOnPort_effect {n : String} (hs : g.sset = true) (hn : ptOnPort e g n = some g') :
    Effect e pool g g' (modePort e "PT" n) (ptBinds e n) := by
  simp only [ptOnPort] at hn
  unfold modePort ptBinds
  by_cases hmode : e.val ("PT" ++ n ++ "_MODE") = ""
  · rw [if_pos hmode] at hn ⊢
    rw [if_pos (Or.inl hmode)]
    obtain rfl := Option.some.inj hn
    exact Effect.refl e pool g
  · rw [if_neg hmode] at hn ⊢
    obtain ⟨gv, hgv, hi⟩ := Option.bind_eq_some_iff.mp hn
    have hid : gv.vars "PT_BUS" ≠ "" := addVpci_var_ne (v := .ptBus) hgv
    split_ifs at hi
    obtain rfl := Option.some.inj hi
    by_cases hpci : e.val ("PT" ++ n ++ "_PCI") = ""
    · rw [if_pos (Or.inr hpci), addPcieptDev, if_pos hpci]
      exact alloc_effect (v := .ptBus) hs hgv
    · rw [if_neg (by simp [hmode, hpci]), addPcieptDev, if_neg hpci]
      simp only [if_neg hid]
      refine onPort_effect (v := .ptBus) hs hgv ⟨rfl, rfl, rfl, rfl, rfl⟩ rfl ?_ ?_ rfl ?_
      · simp [vfioPci, valuesOf_cons, ResultVar.name]
      · simp [vfioPci, valuesOf_cons]
      · simp [Gen.addOpts, Gen.queueBind]

theorem pciPt_effect (hs : g.sset = true) (hp : pciPt e g = some g') :
    Effect e pool g g' (["1", "2", "3", "4", "5"].map (modePort e "PT")).sum
      (["1", "2", "3", "4", "5"].flatMap (ptBinds e)) :=
  run_effect (fun _ _ _ hs hn => ptOnPort_effect hs hn) hs hp

/-- The ports of `pci-pt.sh`. -/
def ptPorts (e : Env) : ℕ :=
  if firstTwo e "PT" then (["1", "2", "3", "4", "5"].map (modePort e "PT")).sum else 0

/-- How many ports a configuration asks for. -/
def vpciCalls (e : Env) (h : Host) : ℕ := usbPorts e + (hddPorts e h + (netPorts e + ptPorts e))

/-- The commands a configuration queues, in order. -/
def binds (e : Env) : List (List String) :=
  usbBinds e ++ (gfxBinds e ++ (teradiciBinds e ++
    if firstTwo e "PT" then ["1", "2", "3", "4", "5"].flatMap (ptBinds e) else []))

/-- **The effect of the run**: the number of ports and the queued commands are those
    the configuration asks for. -/
theorem genPci_effect (hg : genPci e h g = some g') :
    Effect e pool g g' (vpciCalls e h) (binds e) := by
  obtain ⟨g1, h1, hg⟩ := Option.bind_eq_some_iff.mp hg
  obtain ⟨g2, h2, hg⟩ := Option.bind_eq_some_iff.mp hg
  obtain ⟨g3, h3, hg⟩ := Option.bind_eq_some_iff.mp hg
  obtain ⟨g4, h4, hg⟩ := Option.bind_eq_some_iff.mp hg
  obtain ⟨g5, h5, hg⟩ := Option.bind_eq_some_iff.mp hg
  have e1 : Effect e pool g g1 (usbPorts e) (usbBinds e) := usb_effect h1
  have e2 : Effect e pool g1 g2 0 (gfxBinds e) := gfx_effect h2
  have e3 : Effect e pool g2 g3 (hddPorts e h) [] := hddUni_effect h3
  have s3 : g3.sset = true := hddUni_sset h3
  have e4 : Effect e pool g3 g4 0 (teradiciBinds e) := teradici_effect h4
  have e5 : Effect e pool g4 g5 (netPorts e) [] := by
    unfold netPorts
    split_ifs at h5 ⊢
    · exact netUni_effect h5
    · obtain rfl := Option.some.inj h5
      exact Effect.refl e pool g4
  have e6 : Effect e pool g5 g' (ptPorts e)
      (if firstTwo e "PT" then ["1", "2", "3", "4", "5"].flatMap (ptBinds e) else []) := by
    unfold ptPorts
    split_ifs at hg ⊢
    · exact pciPt_effect (e5.sset (e4.sset s3)) hg
    · obtain rfl := Option.some.inj hg
      exact Effect.refl e pool g5
  have := e1.trans (e2.trans (e3.trans (e4.trans (e5.trans e6))))
  simpa only [vpciCalls, binds, Nat.zero_add, List.nil_append] using this

end Fragments

/-- Nothing is used before the run. -/
theorem PortsUsed.init (e : Env) (pool : List String) : PortsUsed e pool (Gen.init pool) where
  log := PortLog.init e (g := Gen.init pool) rfl rfl
  controller := Or.inl rfl
  once := by simp [Gen.init]
  fresh := by simp [Gen.init]

end KvmOsx.Genconfig
