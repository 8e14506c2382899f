import KvmOsx.Genconfig.Ports

/-!
# Identity and address of the root ports

* `root_ports_unique`: over any sequence of `add_vpci` calls the ports differ in
  all their names; over any `genconfig.sh` run no returned bus carries two devices.
* `Usable`: a port's address is well formed, its own, and reachable on its slot.
* `ports_usable_iff`: a configuration gets usable ports only, exactly if it asks for
  at most `Os.limit` of them.
-/

namespace KvmOsx.Genconfig

open Script Text Scope

/-! ## Identity -/

/-- **Root-port identities are unique and returned correctly.** For every sequence
    of `add_vpci` calls and sourcings of the library the ports are numbered from 8
    upwards, differ in id, chassis, port and path, and each call appends one
    `-readconfig` of the file it wrote and returns the id in it. So in a run of
    `genconfig.sh` at most one device sits on each returned bus. -/
theorem root_ports_unique (e : Env) :
    (∀ g₀ g evs, g₀.sset = false → g₀.cfgFiles = [] →
      Runs.run (pciStep e) evs (sourceLibPci g₀) = some g →
      g.cfgFiles.map (fun f => f.2.chassis) = List.range' 8 (evs.countP PciEvent.isCall) ∧
      (g.cfgFiles.map fun f => f.2.device).Nodup ∧ (g.cfgFiles.map fun f => f.2.chassis).Nodup ∧
      (g.cfgFiles.map fun f => f.2.port).Nodup ∧ (g.cfgFiles.map fun f => f.1).Nodup ∧
      ∀ pre v port post, evs = pre ++ .vpci v port :: post → ∃ t t' f,
        Runs.run (pciStep e) pre (sourceLibPci g₀) = some t ∧ addVpci e v port t = some t' ∧
        t'.cfgFiles = t.cfgFiles ++ [f] ∧ f.2.chassis = 8 + pre.countP PciEvent.isCall ∧
        t'.qemuCfg = t.qemuCfg ++ [readconfig f.1] ∧ t'.vars v.name = f.2.device) ∧
    ∀ h pool g, genPci e h (Gen.init pool) = some g →
      ∀ f ∈ g.cfgFiles, (buses g.qemuOpts).count f.2.device ≤ 1 := by
  constructor
  · intro g₀ g evs hs hf hrun
    obtain ⟨hlog, hn⟩ := PortLog.run hs hf hrun
    obtain ⟨hdev, hch, hport, hpath⟩ := hlog.nodup
    refine ⟨by rw [hlog.chassis, hn], hdev, hch, hport, hpath, ?_⟩
    rintro pre v port post rfl
    obtain ⟨t, ht, hrest⟩ := Runs.run_split hrun
    obtain ⟨t', ht', -⟩ := Option.bind_eq_some_iff.mp hrest
    obtain ⟨hlog', hn'⟩ := PortLog.run hs hf ht
    have hslot : t.slotCount = 8 + pre.countP PciEvent.isCall := by rw [hlog'.slot, hn']
    obtain ⟨-, rfl⟩ := addVpci_spec ht'
    refine ⟨t, _, _, ht, ht', rfl, hslot, rfl, ?_⟩
    simp [vpciTemplate]
  · intro h pool g hg f hf
    have hu := (genPci_effect hg).used (PortsUsed.init e pool)
    have hmem : f ∈ (sourceLibPci g).cfgFiles := by rwa [sourceLibPci_cfgFiles]
    obtain ⟨v, hv⟩ := hu.log.device f hmem
    have hge : f.2.chassis ∈ List.range' 8 (sourceLibPci g).cfgFiles.length := by
      rw [← hu.log.chassis]
      exact List.mem_map.mpr ⟨f, hmem, rfl⟩
    rw [hv]
    exact hu.once v _ (List.left_le_of_mem_range' hge)

/-- A host without disks, on which `lspci` finds every slot. -/
def plainHost : Host := ⟨fun _ => none, fun _ _ => "err", fun _ => true, fun _ => ""⟩

/-- A USB controller and a PCIe device, from an empty pool. -/
theorem root_ports_unique_usb_pt :
    let e : Env := fun v => [("USB_MODE", "pt"), ("USBPCI", "00:14"), ("HDD_MODE", "ahci"),
      ("PT1_MODE", "pciept"), ("PT1_PCI", "0000:03:00.0")].lookup v
    (∃ g, Runs.run (pciStep e) [.vpci .usbpciBus "ioh3420", .source, .vpci .ptBus "ioh3420"]
      (sourceLibPci (Gen.init [])) = some g ∧ g.cfgFiles.map (fun f => f.2.chassis) = [8, 9]) ∧
    ∃ g, genPci e plainHost (Gen.init []) = some g ∧
      ∀ f ∈ g.cfgFiles, (buses g.qemuOpts).count f.2.device ≤ 1 := by
  intro e
  obtain ⟨hrun, hgen⟩ := root_ports_unique e
  exact ⟨⟨_, rfl, (hrun (Gen.init []) _ [.vpci .usbpciBus "ioh3420", .source,
    .vpci .ptBus "ioh3420"] rfl rfl rfl).1⟩, _, rfl, hgen plainHost [] _ rfl⟩

/-! ## Addresses -/

/-- A hexadecimal digit. -/
def hexDigit? (c : Char) : Option ℕ :=
  if c.isDigit then some (c.toNat - 48)
  else if 'a' ≤ c ∧ c ≤ 'f' then some (c.toNat - 87)
  else if 'A' ≤ c ∧ c ≤ 'F' then some (c.toNat - 55)
  else none

/-- One or more hexadecimal digits. -/
def hexDigits? (cs : List Char) : Option ℕ :=
  if cs = [] then none else cs.foldlM (fun n c => (hexDigit? c).map (16 * n + ·)) 0

/-- A hexadecimal number, with or without `0x`. -/
def hexNum? : List Char → Option ℕ
  | '0' :: 'x' :: cs => hexDigits? cs
  | cs => hexDigits? cs

/-- `slot` or `slot.function`. -/
def slotFn? (addr : String) : Option (ℕ × ℕ) :=
  match addr.toList.splitOn '.' with
  | [s] => (hexNum? s).map (·, 0)
  | [s, f] => (hexNum? s).bind fun s => (hexNum? f).map fun f => (s, f)
  | _ => none

/-- The port with address and multifunction value `p` can be used after the ports
    `earlier`: its address is well formed, nobody has it, and a function other than 0
    finds function 0 of its slot there, declared multifunction. -/
def Usable (earlier : List (String × String)) (p : String × String) : Prop :=
  match slotFn? p.1 with
  | none => False
  | some (s, f) => s ≤ 0x1f ∧ f ≤ 7 ∧ (p.2 = "on" ∨ p.2 = "off") ∧
      (∀ q ∈ earlier, slotFn? q.1 ≠ some (s, f)) ∧
      (f ≠ 0 → ∃ q ∈ earlier, slotFn? q.1 = some (s, 0) ∧ q.2 = "on")

instance (earlier : List (String × String)) (p : String × String) :
    Decidable (Usable earlier p) := by
  unfold Usable
  split <;> infer_instance

/-- The `common-$OS.sh` scripts that install a pool. -/
inductive Os
  | winQ35
  | winI440
  | linux
  | mac
  | bsd
  deriving DecidableEq, Repr

/-- The pool of common-win-q35.sh:26 and of the branch common-linux.sh:45 takes. -/
def q35Pool : List String :=
  ["0x1a.0:on", "0x1a.1:off", "0x1a.2:off", "0x1a.3:off", "0x1d.4:off", "0x1d.5:off",
    "0x1c.6:off", "0x1c.7:off", "0x1c.8:off"]

/-- `VPCI_BUS` (common-win-q35.sh:26, common-win-i440.sh:20, common-linux.sh:45,
    common-mac.sh:16-17, common-bsd.sh:19-20). `common-linux.sh` sets `QEMU_MACHINE` to
    `pc-q35-5.0` itself, so its other pool is never installed. -/
def Os.vpciBus : Os → List String
  | .winQ35 => q35Pool
  | .winI440 => ["0x10:off", "0x11:off", "0x12:off", "0x13:off", "pci0.0x14:off",
      "pci0.0x15:ff", "pci0.0x16:off"]
  | .linux => q35Pool
  | .mac => ["0x1c.0:on", "0x1c.1:off", "0x1c.2:on", "0x1c.3:off", "0x1c.4:off", "0x1c.5:off",
      "0x1c.6:off", "0x1c.7:off", "0x1c.8:off", "0x11:off", "0x12:off", "0x13:off", "0x14:off",
      "0x15:off", "0x16:off", "0x17:off"]
  | .bsd => ["0x6:off", "0x7:off", "0x8:off", "0x9:off", "0x0a:off", "0x0b:off", "0x0c:off",
      "0x0d:off", "0x0e:off", "0x0f:off", "0x10:off", "0x11:off", "0x12:off", "0x13:off",
      "0x14:off", "0x15:off", "0x16:off", "0x17:off"]

/-- How many entries of the pool, taken from its front, are usable ports. -/
def Os.limit : Os → ℕ
  | .winQ35 => 4
  | .winI440 => 4
  | .linux => 4
  | .mac => 8
  | .bsd => 18

/-- The places the first `n` calls take from a pool. -/
def places (pool : List String) (n : ℕ) : List (String × String) :=
  (List.range n).map (poolEntry pool)

theorem places_add (pool : List String) (m n : ℕ) :
    ∃ rest, places pool (m + n) = places pool m ++ rest :=
  ⟨_, by rw [places, List.range_add, List.map_append]; rfl⟩

/-- Fewer calls stay usable. -/
theorem eachAfter_places_mono {pool : List String} {m n : ℕ} (hmn : m ≤ n)
    (h : EachAfter Usable [] (places pool n)) : EachAfter Usable [] (places pool m) := by
  obtain ⟨k, rfl⟩ := Nat.exists_eq_add_of_le hmn
  obtain ⟨rest, hr⟩ := places_add pool m k
  rw [hr] at h
  exact (eachAfter_append.mp h).1

/-- The first `Os.limit` entries of each pool are usable, the next one is not. -/
theorem places_limit (os : Os) : EachAfter Usable [] (places os.vpciBus os.limit) ∧
    ¬ EachAfter Usable [] (places os.vpciBus (os.limit + 1)) := by
  cases os <;> decide

theorem places_usable_iff (os : Os) (n : ℕ) :
    EachAfter Usable [] (places os.vpciBus n) ↔ n ≤ os.limit := by
  obtain ⟨hin, hout⟩ := places_limit os
  constructor
  · intro h
    by_contra hn
    exact hout (eachAfter_places_mono (by omega) h)
  · intro h
    exact eachAfter_places_mono h hin

/-- Every written port is asked for, and usable after those written before it. -/
def PortsUsable (g : Gen) : Prop :=
  g.qemuCfg = g.cfgFiles.map (fun f => readconfig f.1) ∧
    ∀ pre p post, g.cfgFiles.map Prod.snd = pre ++ p :: post →
      Usable (pre.map RootPort.place) p.place

/-- Whether the ports are usable is decided by the pool and their number. -/
theorem portsUsable_iff_places {e : Env} {pool : List String} {g : Gen}
    (h : PortLog e [] pool (sourceLibPci g)) :
    PortsUsable g ↔ EachAfter Usable [] (places pool g.cfgFiles.length) := by
  have hcfg := h.cfg
  have hplace := h.place
  simp only [sourceLibPci_cfgFiles, sourceLibPci_qemuCfg, List.nil_append] at hcfg hplace
  have hmap : (g.cfgFiles.map Prod.snd).map RootPort.place = places pool g.cfgFiles.length := by
    rw [List.map_map]
    exact hplace
  rw [← hmap, ← List.map_nil (f := RootPort.place), ← eachAfter_map, eachAfter_iff]
  exact and_iff_right hcfg

/-- **A configuration gets usable root ports only, exactly if it asks for no more
    of them than the front of its pool has.** -/
theorem ports_usable_iff (os : Os) (e : Env) (h : Host) (g : Gen)
    (hg : genPci e h (Gen.init os.vpciBus) = some g) :
    PortsUsable g ↔ vpciCalls e h ≤ os.limit := by
  have heff : Effect e os.vpciBus (Gen.init os.vpciBus) g (vpciCalls e h) (binds e) :=
    genPci_effect hg
  have hlen : g.cfgFiles.length = vpciCalls e h := heff.ports.trans (Nat.zero_add _)
  rw [portsUsable_iff_places (heff.used (PortsUsed.init e os.vpciBus)).log, hlen,
    places_usable_iff]

/-- A USB controller and a PCIe device fit into every pool. -/
theorem ports_usable_two :
    let e : Env := fun v => [("USB_MODE", "pt"), ("USBPCI", "00:14"), ("HDD_MODE", "ahci"),
      ("PT1_MODE", "pciept"), ("PT1_PCI", "0000:03:00.0")].lookup v
    ∃ g, genPci e plainHost (Gen.init Os.winQ35.vpciBus) = some g ∧ PortsUsable g := by
  intro e
  exact ⟨_, rfl, (ports_usable_iff .winQ35 e plainHost _ rfl).mpr (by decide)⟩

/-- Three USB controllers and two PCIe devices. -/
def fivePorts : Env := fun v =>
  [("USB_MODE", "pt"), ("USBPCI", "00:14"), ("USBPCI_1", "01:00"), ("USBPCI_2", "02:00"),
    ("HDD_MODE", "ahci"), ("PT1_MODE", "pciept"), ("PT1_PCI", "0000:03:00.0"),
    ("PT2_MODE", "pciept"), ("PT2_PCI", "0000:04:00.0")].lookup v

/-- The fifth port of `common-win-q35.sh` is function 4 of a slot without function 0. -/
theorem ports_usable_fails_at_five :
    ∃ g, genPci fivePorts plainHost (Gen.init Os.winQ35.vpciBus) = some g ∧ ¬ PortsUsable g := by
  obtain ⟨g, hg⟩ : ∃ g, genPci fivePorts plainHost (Gen.init Os.winQ35.vpciBus) = some g :=
    ⟨_, rfl⟩
  have heff : Effect fivePorts Os.winQ35.vpciBus (Gen.init Os.winQ35.vpciBus) g
    (vpciCalls fivePorts plainHost) (binds fivePorts) := genPci_effect hg
  have hlen : g.cfgFiles.length = Os.winQ35.limit + 1 := heff.ports.trans (by decide)
  refine ⟨g, hg, ?_⟩
  rw [portsUsable_iff_places (heff.used (PortsUsed.init _ _)).log, hlen]
  exact (places_limit .winQ35).2

end KvmOsx.Genconfig
