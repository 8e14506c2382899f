import KvmOsx.Genconfig.BusPlan

/-!
# Dangling buses

The plans of the disks, of the Teradici card, of the networks and of the passthrough devices,
and from all plans which configurations leave no bus dangling.

* `plan`, `genconfig_adds`: the whole run follows the plan of the configuration.
-/

namespace KvmOsx.Genconfig

open Script Text References

section Fragments

variable {m : Machine} {e : Env} {h : BootHost} {g g' : Gen}

/-! ## Disks -/

/-- How many disks are on SCSI and AHCI controllers. -/
structure DiskCount where
  scsi : ℕ
  ahci : ℕ

/-- The disk is attached by the given mode. -/
def attachedBy (e : Env) (diskarg : String → String → String) (mode : DiskMode) (name : String) :
    Bool :=
  DiskMode.ofText (hddMode e name) = some mode && attached e diskarg name

/-- A disk on a SCSI controller, behind `n` others. -/
def scsiPlan (e : Env) (n : ℕ) : Plan :=
  if isMulti e then ⟨[.scsiBus], [], [vscsi n]⟩
  else ⟨[], [scsiBus 0], if n = 0 then [vscsi 0] else []⟩

/-- What `add_disk` adds, and the count behind it. -/
def diskPlan (e : Env) (diskarg : String → String → String) (c : DiskCount) (name : String) :
    Plan × DiskCount :=
  if attachedBy e diskarg .virtioScsi name then (scsiPlan e c.scsi, ⟨c.scsi + 1, c.ahci⟩)
  else if attachedBy e diskarg .ahci name then
    (⟨[], [ideBus (c.ahci + 1)], []⟩, ⟨c.scsi, c.ahci + 1⟩)
  else (.empty, c)

/-- The count is that of the state, and the disks of a single controller share its bus. -/
structure Counted (e : Env) (c : DiskCount) (g : Gen) : Prop where
  scsi : g.vscsiIndex = c.scsi
  ahci : g.ahciIndex = c.ahci
  shared : isMulti e = false → c.scsi ≠ 0 → g.controller = scsiBus 0

/-- The disk itself sits on the bus of the current controller. -/
theorem scsiDisk_adds (name arg : String) :
    Adds m e g (scsiDisk e name arg g) ⟨[], [g.controller], []⟩ := by
  refine AddsOn.adds ⟨_, .of_opts ⟨rfl, rfl, rfl, rfl, rfl⟩ rfl rfl rfl, ?_, ?_, fun ds _ => ?_⟩
  · simp [ReadsNothing, driveOpt]
  · simp [valuesOf_cons, driveOpt]
  · simp [namedBuses, valuesOf_cons, driveOpt]

theorem singleController_adds (name : String) (h0 : g.vscsiIndex = 0) :
    Adds m e g (singleController e name g) ⟨[], [], [vscsi 0]⟩ := by
  obtain ⟨os, ho, hr, hb, hi⟩ : ∃ os, (singleController e name g).qemuOpts = g.qemuOpts ++ os ∧
      ReadsNothing os ∧ namedBuses os = [] ∧ valuesOf .device "id" os = [vscsi 0] := by
    refine ⟨_, rfl, ?_, ?_, ?_⟩
    · simp [ReadsNothing]
    · simp [namedBuses, valuesOf_cons]
    · simp [valuesOf_cons, h0]
  have happ : Appends g (singleController e name g) os :=
    .of_opts ⟨rfl, rfl, rfl, rfl, rfl⟩ rfl rfl ho
  have hadds : Adds m e g (singleController e name g) _ := happ.adds hr
  rwa [hb, hi] at hadds

theorem multiController_adds {name : String} {gc : Gen} (hs : g.sset = true)
    (hc : multiController e name g = some gc) :
    Adds m e g gc ⟨[.scsiBus], [], [vscsi g.vscsiIndex]⟩ ∧ gc.controller = scsiBus g.vscsiIndex ∧
      gc.vscsiIndex = g.vscsiIndex ∧ gc.ahciIndex = g.ahciIndex := by
  obtain ⟨gv, hgv, hgc⟩ := Option.map_eq_some_iff.mp hc
  have hport : Adds m e g gv ⟨[.scsiBus], [], []⟩ := addVpci_adds hs hgv
  have hv : gv.vscsiIndex = g.vscsiIndex := by rw [(addVpci_spec hgv).2]
  have ha : gv.ahciIndex = g.ahciIndex := by rw [(addVpci_spec hgv).2]
  obtain ⟨os, ho, hr, hb, hi⟩ : ∃ os, gc.qemuOpts = gv.qemuOpts ++ os ∧ ReadsNothing os ∧
      namedBuses os = [] ∧ valuesOf .device "id" os = [vscsi g.vscsiIndex] := by
    subst hgc
    refine ⟨_, rfl, ?_, ?_, ?_⟩
    · simp [ReadsNothing]
    · simp [namedBuses, valuesOf_cons]
    · simp [valuesOf_cons]
  have happ : Appends gv gc os := by
    subst hgc
    exact .of_opts ⟨rfl, rfl, rfl, rfl, rfl⟩ rfl rfl ho
  have hadds : Adds m e gv gc _ := happ.adds hr
  rw [hb, hi] at hadds
  subst hgc
  exact ⟨hport.trans hadds, rfl, hv, ha⟩

theorem addVirtioScsiDisk_adds {diskarg : String → String → String} {c : DiskCount} {name : String}
    (hs : g.sset = true) (hc : Counted e c g) (harg : diskarg name "virtio_scsi_pci" ≠ "err")
    (hg : addVirtioScsiDisk e diskarg name g = some g') :
    Adds m e g g' (scsiPlan e c.scsi) ∧ Counted e ⟨c.scsi + 1, c.ahci⟩ g' := by
  unfold addVirtioScsiDisk at hg
  simp only [harg, if_false] at hg
  unfold scsiPlan
  by_cases hmulti : isMulti e = true
  · rw [if_neg (by simp [hmulti]), if_pos hmulti] at hg
    obtain ⟨gc, hgc, rfl⟩ := Option.map_eq_some_iff.mp hg
    obtain ⟨hctl, hcontroller, hv, ha⟩ := multiController_adds (m := m) hs hgc
    have hdisk : Adds m e gc (scsiDisk e name (diskarg name "virtio_scsi_pci") gc) _ :=
      scsiDisk_adds name _
    have hall := hctl.trans hdisk
    rw [if_pos hmulti, ← hc.scsi]
    refine ⟨?_, ⟨congrArg (· + 1) hv, ha.trans hc.ahci, fun hno => ?_⟩⟩
    · -- The disk sits on the bus of its own controller.
      refine hall.congr fun ds _ hids => iff_of_true ?_ supplied_nil
      have hown : Resolved Provides ds gc.controller :=
        ⟨.device (vscsi g.vscsiIndex), hids _ (by simp), Or.inr hcontroller⟩
      simpa using hown
    · rw [hmulti] at hno
      cases hno
  have hsingle : isMulti e = false := by simpa using hmulti
  rw [if_neg hmulti]
  by_cases h0 : g.vscsiIndex = 0
  · rw [if_pos ⟨h0, hsingle⟩] at hg
    obtain rfl := Option.some.inj hg
    have hbus : (singleController e name g).controller = scsiBus 0 := by
      rw [← h0]
      exact single_bus h0
    have hctl : Adds m e g (singleController e name g) ⟨[], [], [vscsi 0]⟩ :=
      singleController_adds name h0
    have hdisk : Adds m e (singleController e name g)
        (scsiDisk e name (diskarg name "virtio_scsi_pci") _) _ := scsiDisk_adds name _
    have hall := hctl.trans hdisk
    rw [hbus] at hall
    rw [if_pos (hc.scsi.symm.trans h0)]
    exact ⟨hall, ⟨congrArg (· + 1) hc.scsi, hc.ahci, fun _ _ => hbus⟩⟩
  · have h0' : c.scsi ≠ 0 := fun h => h0 (hc.scsi.trans h)
    rw [if_neg (by simp [h0]), if_neg hmulti] at hg
    obtain rfl := Option.some.inj hg
    have hbus := hc.shared hsingle h0'
    have hdisk : Adds m e g (scsiDisk e name (diskarg name "virtio_scsi_pci") g) _ :=
      scsiDisk_adds name _
    rw [hbus] at hdisk
    rw [if_neg h0']
    exact ⟨hdisk, ⟨congrArg (· + 1) hc.scsi, hc.ahci, fun _ _ => hbus⟩⟩

theorem addVirtioPciDisk_adds {diskarg : String → String → String} (name : String) :
    Adds m e g (addVirtioPciDisk diskarg name g) .empty := by
  unfold addVirtioPciDisk
  by_cases herr : diskarg name "virtio_blk_pci" = "err"
  · simp only [herr, if_true]
    exact Adds.refl g
  · simp only [herr, if_false]
    refine AddsOn.adds ⟨_, .of_opts ⟨rfl, rfl, rfl, rfl, rfl⟩ rfl rfl rfl, ?_, ?_, fun ds _ => ?_⟩
    · simp [ReadsNothing, driveOpt]
    · simp [valuesOf_cons, driveOpt]
    · simp [namedBuses, valuesOf_cons, driveOpt]

theorem addAhciDisk_adds {diskarg : String → String → String} {c : DiskCount} {name : String}
    (hc : Counted e c g) (harg : diskarg name "ahci" ≠ "err") :
    Adds m e g (addAhciDisk diskarg name g) ⟨[], [ideBus (c.ahci + 1)], []⟩ ∧
      Counted e ⟨c.scsi, c.ahci + 1⟩ (addAhciDisk diskarg name g) := by
  unfold addAhciDisk
  simp only [harg, if_false]
  refine ⟨AddsOn.adds ⟨_, .of_opts ⟨rfl, rfl, rfl, rfl, rfl⟩ rfl rfl rfl, ?_, ?_, fun ds _ => ?_⟩,
    ⟨hc.scsi, congrArg (· + 1) hc.ahci, hc.shared⟩⟩
  · simp [ReadsNothing, driveOpt]
  · simp [valuesOf_cons, driveOpt]
  · simp [namedBuses, valuesOf_cons, driveOpt, ideBus, hc.ahci]

theorem addDisk_adds {diskarg : String → String → String} {c : DiskCount} {name : String}
    (hs : g.sset = true) (hc : Counted e c g) (h : addDisk e diskarg g name = some g') :
    Adds m e g g' (diskPlan e diskarg c name).1 ∧ Counted e (diskPlan e diskarg c name).2 g' := by
  obtain ⟨mode, hmode, hg⟩ := Option.bind_eq_some_iff.mp h
  have hby : ∀ ctl mode', mode.controller = some ctl →
      attachedBy e diskarg mode' name = (mode = mode' && diskarg name ctl ≠ "err") := by
    intro ctl mode' hctl
    simp [attachedBy, attached, hmode, hctl]
  cases mode with
  | virtiofsd =>
    obtain rfl := Option.some.inj hg
    have hno : ∀ mode', attachedBy e diskarg mode' name = false := by
      intro mode'
      simp [attachedBy, attached, hmode, DiskMode.controller]
    rw [diskPlan, hno, hno]
    refine ⟨?_, ⟨hc.scsi, hc.ahci, hc.shared⟩⟩
    exact (addOpts_addsOn _ (by simp [ReadsNothing]) (by simp [valuesOf_cons])).adds
  | virtioPci =>
    obtain rfl := Option.some.inj hg
    rw [diskPlan, hby _ _ rfl, hby _ _ rfl]
    refine ⟨addVirtioPciDisk_adds name, ?_⟩
    show Counted e c (addVirtioPciDisk diskarg name g)
    unfold addVirtioPciDisk
    by_cases herr : diskarg name "virtio_blk_pci" = "err"
    · simp only [herr, if_true]
      exact hc
    · simp only [herr, if_false]
      exact ⟨hc.scsi, hc.ahci, hc.shared⟩
  | ahci =>
    obtain rfl := Option.some.inj hg
    rw [diskPlan, hby _ _ rfl, hby _ _ rfl]
    by_cases herr : diskarg name "ahci" = "err"
    · have hindex : addAhciDisk diskarg name g = { g with index := 0 } := if_pos herr
      have hquiet : AddsOn g (addAhciDisk diskarg name g) [] := by
        rw [hindex]
        exact .of_quiet ⟨rfl, rfl, rfl, rfl, rfl⟩ rfl rfl (List.append_nil _).symm (by simp)
      have hcount : Counted e c (addAhciDisk diskarg name g) := by
        rw [hindex]
        exact ⟨hc.scsi, hc.ahci, hc.shared⟩
      simpa [herr, addModeDisk] using ⟨hquiet.adds, hcount⟩
    · simpa [herr, addModeDisk] using addAhciDisk_adds hc herr
  | virtioScsi =>
    rw [diskPlan, hby _ _ rfl, hby _ _ rfl]
    by_cases herr : diskarg name "virtio_scsi_pci" = "err"
    · have hsame : g' = g := by simpa [addModeDisk, addVirtioScsiDisk, herr] using hg.symm
      subst hsame
      simpa [herr] using ⟨Adds.refl g', hc⟩
    · simpa [herr] using addVirtioScsiDisk_adds hs hc herr hg

/-- `hdd-uni.sh` behind the libraries. -/
def disksPlan (e : Env) (diskarg : String → String → String) : DiskCount → List String → Plan
  | _, [] => .empty
  | c, name :: names =>
    (diskPlan e diskarg c name).1 ++ disksPlan e diskarg (diskPlan e diskarg c name).2 names

theorem disks_adds {diskarg : String → String → String} {c : DiskCount} {names : List String}
    (hs : g.sset = true) (hc : Counted e c g)
    (h : Runs.run (addDisk e diskarg) names g = some g') :
    Adds m e g g' (disksPlan e diskarg c names) := by
  induction names generalizing c g with
  | nil =>
    obtain rfl := Option.some.inj h
    exact Adds.refl g
  | cons name names ih =>
    obtain ⟨gm, hm, hrest⟩ := Option.bind_eq_some_iff.mp h
    obtain ⟨hadds, hcm⟩ := addDisk_adds (m := m) hs hc hm
    exact hadds.trans (ih (hadds.sset hs) hcm hrest)

/-! ## Teradici -/

/-- `teradici.sh`: the five functions of the card. -/
def teradiciPlan (e : Env) : Plan :=
  if e.val "TERADICI_PCI" = "" then .empty else ⟨[], List.replicate 5 "pcie.5", []⟩

theorem teradici_adds {h : Host} (ht : teradici e h g = some g') :
    Adds m e g g' (teradiciPlan e) := by
  unfold teradici at ht
  unfold teradiciPlan
  by_cases hp : e.val "TERADICI_PCI" = ""
  · simp only [hp, if_true] at ht ⊢
    obtain rfl := Option.some.inj ht
    exact Adds.refl g
  simp only [hp, if_false] at ht ⊢
  obtain rfl := checkLspci_eq ht
  -- The functions are queued one by one.
  have hqueue : ∀ (fns : List String) (g : Gen), Adds m e g
      (fns.foldl (fun g fn => g.queueBind ["0000:" ++ e.val "TERADICI_PCI" ++ "." ++ fn]) g)
      .empty := by
    intro fns
    induction fns with
    | nil => exact Adds.refl
    | cons fn fns ih =>
      intro g
      exact (queueBind_adds _).trans (ih _)
  have hcard := (addOpts_addsOn
    (g := ["0", "1", "2", "3", "4"].foldl
      (fun g fn => g.queueBind ["0000:" ++ e.val "TERADICI_PCI" ++ "." ++ fn]) g)
    [teradiciFn (e.val "TERADICI_PCI") "0" [.kv "multifunction" "on"],
      teradiciFn (e.val "TERADICI_PCI") "1" [], teradiciFn (e.val "TERADICI_PCI") "2" [],
      teradiciFn (e.val "TERADICI_PCI") "3" [], teradiciFn (e.val "TERADICI_PCI") "4" []]
    (by simp [ReadsNothing, teradiciFn, vfioPci])
    (by simp [valuesOf_cons, teradiciFn, vfioPci])).adds (m := m) (e := e)
  have hall := (hqueue _ g).trans hcard
  simpa [namedBuses, valuesOf_cons, teradiciFn, vfioPci] using hall

/-! ## Networks -/

/-- A call of `add_MODE_iface`. -/
def nicPlan (virtfn : String → Option String) (mode : String) (a : NetArgs) : Plan :=
  ⟨[], ((IfaceMode.ofText mode).bind (nicBus virtfn a)).toList, []⟩

theorem nic_adds {virtfn : String → Option String} {mode : String} {a : NetArgs}
    (h : (IfaceMode.ofText mode).bind (addIface e virtfn a g) = some g') :
    Adds m e g g' (nicPlan virtfn mode a) := by
  obtain ⟨iface, hmode, hg⟩ := Option.bind_eq_some_iff.mp h
  rw [nicPlan, hmode]
  exact (addIface_addsOn hg).adds

/-- The arguments of `net-uni.sh` for interface `n`. -/
def netUniArgs (e : Env) (n bus addr : String) : NetArgs :=
  ⟨e.val ("NET" ++ n ++ "_DEV"), e.val ("NET" ++ n ++ "_VF"), e.val ("NET" ++ n ++ "_MACADDR"),
    bus, addr, e.val ("NET" ++ n ++ "_VLAN")⟩

/-- Line 12 of `net-uni.sh`. -/
def net1Plan (e : Env) (h : Host) : Plan :=
  if e.val "NET1_MODE" = "" then .empty
  else nicPlan h.virtfn (e.val "NET1_MODE") (netUniArgs e "1" (netPciBus e) "0x19")

theorem net1_adds {h : Host} (hn : net1 e h g = some g') : Adds m e g g' (net1Plan e h) := by
  unfold net1 at hn
  unfold net1Plan
  split_ifs at hn ⊢ with hmode
  · obtain rfl := Option.some.inj hn
    exact Adds.refl g
  · exact nic_adds hn

/-- One of the lines 13-15 of `net-uni.sh`. -/
def netOnPortPlan (e : Env) (n : String) : Plan :=
  if e.val ("NET" ++ n ++ "_MODE") = "" then .empty else ⟨[.vpciName], [], []⟩

theorem netOnPort_adds {h : Host} (n : String) (hs : g.sset = true)
    (hn : netOnPort e h g n = some g') : Adds m e g g' (netOnPortPlan e n) := by
  unfold netOnPort at hn
  unfold netOnPortPlan
  split_ifs at hn ⊢ with hmode
  · obtain rfl := Option.some.inj hn
    exact Adds.refl g
  obtain ⟨gv, hgv, hn⟩ := Option.bind_eq_some_iff.mp hn
  obtain ⟨mode, -, hg⟩ := Option.bind_eq_some_iff.mp hn
  obtain ⟨os, ha, hr, hi, hb⟩ := addIface_addsOn hg
  have hbus : gv.vars "VPCI_NAME" ≠ "" := addVpci_var_ne hgv
  have hport := onPort_adds (m := m) _ hs hgv ha hr hb fun b hmem =>
    nicBus_eq hbus (Option.mem_toList.mp hmem)
  rwa [hi] at hport

/-- `net-uni.sh`. -/
def netUniPlan (e : Env) (h : Host) : Plan :=
  net1Plan e h ++ ["2", "3", "4"].foldr (fun n p => netOnPortPlan e n ++ p) .empty

theorem netUni_adds {h : Host} (hn : netUni e h g = some g') :
    Adds m e g g' (netUniPlan e h) := by
  obtain ⟨g1, h1, hrest⟩ := Option.bind_eq_some_iff.mp hn
  have hlib : Adds m e g (sourceLibPci g) .empty := sourceLibPci_adds
  have hfirst : Adds m e (sourceLibPci g) g1 (net1Plan e h) := net1_adds h1
  have hset : g1.sset = true := hfirst.sset sourceLibPci_sset
  have hmore := run_adds (fun n _ _ hs hstep => netOnPort_adds (m := m) n hs hstep) hset hrest
  exact (hlib.trans hfirst).trans hmore

/-- One line of `net-macvtap-vmxnet.sh`. -/
def vmxnetPlan (e : Env) (h : Host) (n : String) : Plan :=
  if e.val ("NET" ++ n ++ "_MODE") = "" then .empty
  else nicPlan h.virtfn (e.val ("NET" ++ n ++ "_MODE")) (vmxnetArgs e n)

theorem vmxnetIface_adds {h : Host} (n : String) (hn : vmxnetIface e h g n = some g') :
    Adds m e g g' (vmxnetPlan e h n) := by
  unfold vmxnetIface at hn
  unfold vmxnetPlan
  split_ifs at hn ⊢ with hmode
  · obtain rfl := Option.some.inj hn
    exact Adds.refl g
  · exact nic_adds hn

/-- A macvtap interface without a bus. -/
def vhostPlan (e : Env) (h : Host) (v : String × String) : Plan :=
  ⟨[], (nicBus h.virtfn (macvtapArgs (e.val v.1) (e.val v.2)) .macvtap).toList, []⟩

theorem macvtapVhost_adds {h : Host} {vars : List (String × String)} (hs : g.sset = true)
    (hn : macvtapVhost e h vars g = some g') :
    Adds m e g g' (vars.foldr (fun v p => vhostPlan e h v ++ p) .empty) := by
  have hstep : ∀ v g g', g.sset = true →
      addIface e h.virtfn (macvtapArgs (e.val v.1) (e.val v.2)) g .macvtap = some g' →
      Adds m e g g' (vhostPlan e h v) := fun _ _ _ _ hg => (addIface_addsOn hg).adds
  exact run_adds hstep hs hn

/-- `net-virtio-vhost.sh`. -/
def virtioVhostArgs (e : Env) : NetArgs := ⟨e.val "NET_BR", e.val "NET_MACADDR", "", "", "", ""⟩

/-- `net-$NET_MODE.sh`. -/
def netPlan (e : Env) (h : Host) : Plan :=
  let mode := e.val "NET_MODE"
  if mode = "uni" then netUniPlan e h
  else if mode = "macvtap-vmxnet" then
    ["1", "2"].foldr (fun n p => vmxnetPlan e h n ++ p) .empty
  else if mode = "macvtap-virtio-vhost" then
    vhostVars.foldr (fun v p => vhostPlan e h v ++ p) .empty
  else if mode = "macvtap-virtio-vhost-dual" then
    vhostDualVars.foldr (fun v p => vhostPlan e h v ++ p) .empty
  else if mode = "virtio-vhost" then ⟨[], (nicBus h.virtfn (virtioVhostArgs e) .tap).toList, []⟩
  else if mode = "e1000" ∨ mode = "e1000-82545em" then ⟨[], [], ["net0"]⟩
  else if mode = "e1000-dual" then ⟨[], [], ["net0", "net1"]⟩
  else .empty

/-- Devices without a bus. -/
theorem plainOpts_adds {os : List Opt} {ids : List String} (hr : ReadsNothing os)
    (hb : namedBuses os = []) (hi : valuesOf .device "id" os = ids) :
    Adds m e g (g.addOpts os) ⟨[], [], ids⟩ := by
  have hadds : Adds m e g (g.addOpts os) _ := (appends_addOpts g os).adds hr
  rwa [hb, hi] at hadds

theorem sourceNet_adds {h : Host} (hs : g.sset = true) (hn : sourceNet e h g = some g') :
    Adds m e g g' (netPlan e h) := by
  unfold sourceNet at hn
  dsimp only at hn
  by_cases h0 : e.val "NET_MODE" = ""
  · have hp : netPlan e h = .empty := by simp [netPlan, h0]
    rw [if_pos h0] at hn
    rw [hp]
    obtain rfl := Option.some.inj hn
    exact Adds.refl g
  rw [if_neg h0] at hn
  by_cases h1 : e.val "NET_MODE" = "uni"
  · have hp : netPlan e h = netUniPlan e h := by simp [netPlan, h1]
    rw [if_pos h1] at hn
    rw [hp]
    exact netUni_adds hn
  rw [if_neg h1] at hn
  by_cases h2 : e.val "NET_MODE" = "macvtap-vmxnet"
  · have hp : netPlan e h = ["1", "2"].foldr (fun n p => vmxnetPlan e h n ++ p) .empty := by simp [netPlan, h2]
    rw [if_pos h2] at hn
    rw [hp]
    exact run_adds (fun n _ _ _ hstep => vmxnetIface_adds n hstep) hs hn
  rw [if_neg h2] at hn
  by_cases h3 : e.val "NET_MODE" = "macvtap-virtio-vhost"
  · have hp : netPlan e h = vhostVars.foldr (fun v p => vhostPlan e h v ++ p) .empty := by simp [netPlan, h3]
    rw [if_pos h3] at hn
    rw [hp]
    exact macvtapVhost_adds hs hn
  rw [if_neg h3] at hn
  by_cases h4 : e.val "NET_MODE" = "macvtap-virtio-vhost-dual"
  · have hp : netPlan e h = vhostDualVars.foldr (fun v p => vhostPlan e h v ++ p) .empty := by
      simp [netPlan, h4]
    rw [if_pos h4] at hn
    rw [hp]
    exact macvtapVhost_adds hs hn
  rw [if_neg h4] at hn
  by_cases h5 : e.val "NET_MODE" = "virtio-vhost"
  · have hp : netPlan e h = ⟨[], (nicBus h.virtfn (virtioVhostArgs e) .tap).toList, []⟩ := by simp [netPlan, h5]
    rw [if_pos h5] at hn
    rw [hp]
    have htap : addIface e h.virtfn (virtioVhostArgs e) g .tap = some g' := hn
    exact (addIface_addsOn htap).adds
  rw [if_neg h5] at hn
  by_cases h6 : e.val "NET_MODE" = "e1000"
  · have hp : netPlan e h = ⟨[], [], ["net0"]⟩ := by simp [netPlan, h6]
    rw [if_pos h6] at hn
    rw [hp]
    obtain rfl := Option.some.inj hn
    refine plainOpts_adds ?_ ?_ ?_
    all_goals simp [ReadsNothing, namedBuses, valuesOf_cons, e1000Opts, plainNic]
  rw [if_neg h6] at hn
  by_cases h7 : e.val "NET_MODE" = "e1000-82545em"
  · have hp : netPlan e h = ⟨[], [], ["net0"]⟩ := by simp [netPlan, h7]
    rw [if_pos h7] at hn
    rw [hp]
    obtain rfl := Option.some.inj hn
    refine plainOpts_adds ?_ ?_ ?_
    all_goals simp [ReadsNothing, namedBuses, valuesOf_cons, e1000Opts, plainNic]
  rw [if_neg h7] at hn
  by_cases h8 : e.val "NET_MODE" = "e1000-dual"
  · have hp : netPlan e h = ⟨[], [], ["net0", "net1"]⟩ := by simp [netPlan, h8]
    rw [if_pos h8] at hn
    rw [hp]
    obtain rfl := Option.some.inj hn
    refine plainOpts_adds ?_ ?_ ?_
    all_goals simp [ReadsNothing, namedBuses, valuesOf_cons, e1000DualOpts, plainNic]
  rw [if_neg h8] at hn
  by_cases h9 : e.val "NET_MODE" = "virtio"
  · have hp : netPlan e h = .empty := by simp [netPlan, h9]
    rw [if_pos h9] at hn
    rw [hp]
    obtain rfl := Option.some.inj hn
    refine plainOpts_adds ?_ ?_ ?_
    all_goals simp [ReadsNothing, namedBuses, valuesOf_cons, virtioOpts, plainNic]
  rw [if_neg h9] at hn
  by_cases h10 : e.val "NET_MODE" = "virtio-dual"
  · have hp : netPlan e h = .empty := by simp [netPlan, h10]
    rw [if_pos h10] at hn
    rw [hp]
    obtain rfl := Option.some.inj hn
    refine plainOpts_adds ?_ ?_ ?_
    all_goals simp [ReadsNothing, namedBuses, valuesOf_cons, virtioDualOpts, bridgeNetdev, plainNic]
  rw [if_neg h10] at hn
  by_cases h11 : e.val "NET_MODE" = "virtio-vhost-dual"
  · have hp : netPlan e h = .empty := by simp [netPlan, h11]
    rw [if_pos h11] at hn
    rw [hp]
    obtain rfl := Option.some.inj hn
    refine plainOpts_adds ?_ ?_ ?_
    all_goals simp [ReadsNothing, namedBuses, valuesOf_cons, virtioDualOpts, helperNetdev, plainNic]
  rw [if_neg h11] at hn
  cases hn

/-! ## Passthrough -/

/-- One line of `pci-pt.sh`. -/
def ptOnPortPlan (e : Env) (n : String) : Plan :=
  if e.val ("PT" ++ n ++ "_MODE") = "" then .empty else ⟨[.ptBus], [], []⟩

/-- On a bus that is given. -/
theorem addPcieptDev_addsOn {bus : String} (pci : String) (hbus : bus ≠ "") :
    AddsOn g (addPcieptDev pci bus g) (if pci = "" then [] else [bus]) := by
  unfold addPcieptDev
  split_ifs with hpci
  · exact AddsOn.refl g
  · have hdev := addOpts_addsOn (g := g.queueBind [pci])
      [vfioPci pci bus "0x0" [.kv "romfile" ""]] (by simp [ReadsNothing, vfioPci])
      (by simp [valuesOf_cons, vfioPci])
    have hall := (queueBind_addsOn [pci]).trans hdev
    simpa [namedBuses, valuesOf_cons, vfioPci, hbus] using hall

theorem ptOnPort_adds (n : String) (hs : g.sset = true) (hp : ptOnPort e g n = some g') :
    Adds m e g g' (ptOnPortPlan e n) := by
  unfold ptOnPort at hp
  unfold ptOnPortPlan
  dsimp only at hp
  by_cases hmode : e.val ("PT" ++ n ++ "_MODE") = ""
  · rw [if_pos hmode] at hp ⊢
    obtain rfl := Option.some.inj hp
    exact Adds.refl g
  rw [if_neg hmode] at hp ⊢
  obtain ⟨gv, hgv, hp⟩ := Option.bind_eq_some_iff.mp hp
  split_ifs at hp
  obtain rfl := Option.some.inj hp
  obtain ⟨os, ha, hr, hi, hb⟩ :=
    addPcieptDev_addsOn (g := gv) (e.val ("PT" ++ n ++ "_PCI")) (addVpci_var_ne hgv)
  have hport := onPort_adds (m := m) _ hs hgv ha hr hb fun b hmem => by
    split_ifs at hmem
    · cases hmem
    · exact List.mem_singleton.mp hmem
  rwa [hi] at hport

/-- `pci-pt.sh`. -/
def ptPlan (e : Env) : Plan :=
  ["1", "2", "3", "4", "5"].foldr (fun n p => ptOnPortPlan e n ++ p) .empty

theorem pciPt_adds (hs : g.sset = true) (hp : pciPt e g = some g') : Adds m e g g' (ptPlan e) :=
  run_adds (fun n _ _ hset hstep => ptOnPort_adds n hset hstep) hs hp

/-! ## The whole run -/

theorem sourceSound_adds (h : sourceSound e g = some g') : Adds m e g g' .empty := by
  unfold sourceSound at h
  split_ifs at h
  · obtain rfl := Option.some.inj h
    exact Adds.refl g
  · obtain rfl := Option.some.inj h
    refine plainOpts_adds ?_ ?_ ?_
    all_goals simp [ReadsNothing, namedBuses, valuesOf_cons]

/-- `fs-shared.sh`. -/
def fsPlan (e : Env) : Plan := if e.val "FS9P" = "" then .empty else ⟨[], [], ["fs0"]⟩

theorem fsShared_adds : Adds m e g (g.addOpts (fsShared e)) (fsPlan e) := by
  unfold fsShared fsPlan
  split_ifs
  all_goals
    refine plainOpts_adds ?_ ?_ ?_
    all_goals simp [ReadsNothing, namedBuses, valuesOf_cons]

/-- A fragment that is sourced under a condition. -/
theorem adds_if {c : Bool} {f : Gen → Option Gen} {p : Plan}
    (hf : f g = some g' → Adds m e g g' p) (h : (if c then f g else some g) = some g') :
    Adds m e g g' (if c then p else .empty) := by
  cases c with
  | true => exact hf h
  | false =>
    obtain rfl := Option.some.inj h
    exact Adds.refl g

/-- The whole configuration. -/
def plan (e : Env) (h : BootHost) : Plan :=
  usbPlan e ++ gfxPlan e h ++ disksPlan e h.diskarg ⟨0, 0⟩ diskNames ++ teradiciPlan e ++
    netPlan e h.toHost ++ (if firstTwo e "NET" then netUniPlan e h.toHost else .empty) ++
    (if firstTwo e "PT" then ptPlan e else .empty) ++ fsPlan e

/-- The disks counted in a state. -/
def diskCount (g : Gen) : DiskCount := ⟨g.vscsiIndex, g.ahciIndex⟩

theorem usbOnPort_diskCount {pci addr : String} (hu : usbOnPort e pci addr g = some g') :
    diskCount g' = diskCount g := by
  obtain ⟨gv, hgv, rfl⟩ := Option.map_eq_some_iff.mp hu
  rw [(addVpci_spec hgv).2]
  rfl

theorem usbMore_diskCount {pci addr : String}
    (hu : (if pci = "" then some g
      else (usbOnPort e pci addr g).map (·.queueBind [fn0 pci])) = some g') :
    diskCount g' = diskCount g := by
  split_ifs at hu
  · rw [Option.some.inj hu]
  · obtain ⟨gv, hgv, rfl⟩ := Option.map_eq_some_iff.mp hu
    have hcount : diskCount gv = diskCount g := usbOnPort_diskCount hgv
    exact hcount

theorem usbPtPc_diskCount : diskCount (usbPtPc e g) = diskCount g := by
  unfold usbPtPc
  induction pciPtDevs e generalizing g with
  | nil => rfl
  | cons dev devs ih => exact ih

theorem sourceLibPci_diskCount : diskCount (sourceLibPci g) = diskCount g := by
  obtain ⟨n, hn⟩ := (sourceLibPci_spec g).2
  rw [hn]
  rfl

theorem sourceUsb_diskCount {h : Host} (hu : sourceUsb e h g = some g') :
    diskCount g' = diskCount g := by
  unfold sourceUsb usb at hu
  split_ifs at hu
  · unfold usbPt at hu
    obtain ⟨g₁, h₁, hu⟩ := Option.bind_eq_some_iff.mp hu
    obtain ⟨g₂, h₂, hu⟩ := Option.bind_eq_some_iff.mp hu
    obtain ⟨g₃, h₃, hu⟩ := Option.bind_eq_some_iff.mp hu
    rw [checkLspci_eq hu, usbMore_diskCount h₃, usbMore_diskCount h₂, usbOnPort_diskCount h₁]
    exact sourceLibPci_diskCount
  · obtain rfl := Option.some.inj hu
    exact usbPtPc_diskCount
  · rw [Option.some.inj hu]
  · obtain rfl := Option.some.inj hu
    rfl
  · rw [Option.some.inj hu]

theorem addVgpu_diskCount {vnc port : String} (hv : addVgpu vnc port g = some g') :
    diskCount g' = diskCount g := by
  unfold addVgpu at hv
  split_ifs at hv
  · rw [Option.some.inj hv]
  · obtain rfl := Option.some.inj hv
    rfl

theorem sourceGfx_diskCount (hg : sourceGfx e h g = some g') : diskCount g' = diskCount g := by
  obtain ⟨mode, -, hg⟩ := Option.bind_eq_some_iff.mp hg
  dsimp only at hg
  have hlib : diskCount (if mode.sourcesLib then g.addOpts (libGfxOpts e h.toHost) else g) =
      diskCount g := by
    split_ifs <;> rfl
  generalize (if mode.sourcesLib then g.addOpts (libGfxOpts e h.toHost) else g) = gl at hg hlib
  rw [← hlib]
  cases mode with
  | kvmgt =>
    obtain ⟨uuid, -, rfl⟩ := Option.map_eq_some_iff.mp hg
    rfl
  | ptI440 =>
    have heq := checkLspci_eq hg
    rw [heq]
    rfl
  | pt =>
    unfold gfxPt at hg
    dsimp only at hg
    split_ifs at hg <;> exact (addVgpu_diskCount hg).trans rfl
  | qxl | std | uni => exact addVgpu_diskCount hg
  | qxlSpice | virtioSpice =>
    obtain rfl := Option.some.inj hg
    rfl
  | off | vmware => rw [Option.some.inj hg]

/-- No disk is counted yet. -/
theorem Counted.none (h0 : diskCount g = ⟨0, 0⟩) : Counted e ⟨0, 0⟩ g :=
  ⟨congrArg DiskCount.scsi h0, congrArg DiskCount.ahci h0, fun _ hne => absurd rfl hne⟩

/-- The fragments follow the plan. -/
theorem fragments_adds (h0 : diskCount g = ⟨0, 0⟩)
    (hf : fragments e h g = some g') : Adds m e g g' (plan e h) := by
  obtain ⟨g1, h1, hf⟩ := Option.bind_eq_some_iff.mp hf
  obtain ⟨g2, h2, hf⟩ := Option.bind_eq_some_iff.mp hf
  obtain ⟨g3, h3, hf⟩ := Option.bind_eq_some_iff.mp hf
  obtain ⟨g4, h4, hf⟩ := Option.bind_eq_some_iff.mp hf
  obtain ⟨g5, h5, hf⟩ := Option.bind_eq_some_iff.mp hf
  obtain ⟨g6, h6, hf⟩ := Option.bind_eq_some_iff.mp hf
  obtain ⟨g7, h7, hf⟩ := Option.bind_eq_some_iff.mp hf
  obtain ⟨g8, h8, rfl⟩ := Option.map_eq_some_iff.mp hf
  have husb : Adds m e g g1 (usbPlan e) := sourceUsb_adds h1
  have hgfx : Adds m e g1 g2 (gfxPlan e h) := sourceGfx_adds h2
  have hlib : Adds m e g2 (sourceLibPci g2) .empty := sourceLibPci_adds
  have hcount : Counted e ⟨0, 0⟩ (sourceLibPci g2) := .none <| by
    rw [sourceLibPci_diskCount, sourceGfx_diskCount h2, sourceUsb_diskCount h1, h0]
  have hdisks : Adds m e (sourceLibPci g2) g3 _ := disks_adds sourceLibPci_sset hcount h3
  have s3 : g3.sset = true := hdisks.sset sourceLibPci_sset
  have hteradici : Adds m e g3 g4 (teradiciPlan e) := teradici_adds h4
  have hgenid : Adds m e g4 (g4.addOpts (vmGenid e)) ⟨[], [], []⟩ := by
    refine plainOpts_adds ?_ ?_ ?_
    all_goals simp [ReadsNothing, namedBuses, valuesOf_cons, vmGenid]
  have s4 : g4.sset = true := hteradici.sset s3
  have hnet : Adds m e (g4.addOpts (vmGenid e)) g5 (netPlan e h.toHost) :=
    sourceNet_adds (hgenid.sset s4) h5
  have huni : Adds m e g5 g6 (if firstTwo e "NET" then netUniPlan e h.toHost else .empty) :=
    adds_if netUni_adds h6
  have s6 : g6.sset = true := huni.sset (hnet.sset (hgenid.sset s4))
  have hpt : Adds m e g6 g7 (if firstTwo e "PT" then ptPlan e else .empty) :=
    adds_if (pciPt_adds s6) h7
  have hsound : Adds m e g7 g8 .empty := sourceSound_adds h8
  have hfs : Adds m e g8 (g8.addOpts (fsShared e)) (fsPlan e) := fsShared_adds
  exact ((((((husb.trans hgfx).trans (hlib.trans hdisks)).trans hteradici).trans
    (hgenid.trans hnet)).trans huni).trans hpt).trans (hsound.trans hfs)

end Fragments

end KvmOsx.Genconfig
