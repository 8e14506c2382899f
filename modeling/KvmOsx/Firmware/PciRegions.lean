import KvmOsx.Lib.Packing

/-!
# The resources of the PCI busses (`pci_bios_check_devices`, `fw/pciinit.c` lines 667-975)

The BARs of every device go into the lists of its bus, one list for each kind of resource, the
largest alignment first. Then, from the last bus to the first, every bridge gets an entry in the
lists of the bus it is on, for what is behind it.

* `Sized`: what holds of the lists of one kind when the busses above `m` have their entries.
* `checkDevices_sized`: it holds in the end, of all busses.
-/

namespace KvmOsx.Firmware.Pci

open Packing

/-! ## Model -/

/-- `enum pci_region_type`. -/
inductive RegionType
  | io
  | mem
  | prefmem
  deriving DecidableEq, Repr

/-- What `pci_bios_get_bar` reads of a BAR: its value, what it reads after ones are written, and
    what the register behind it does. -/
structure BarRegs where
  old : ℕ
  val : ℕ
  high : ℕ

/-- The fields of QEMU's capability `REDHAT_CAP_RESOURCE_RESERVE`. -/
structure Reserve where
  io : ℕ
  mem : ℕ
  pref32 : ℕ
  pref64 : ℕ

/-- `struct pci_device`, and what the code reads of its registers: `ioBase` and `prefBase` after
    ones are written to `PCI_IO_BASE` and `PCI_PREF_MEMORY_BASE`, `pmem` and then `pmemProbe` in
    `pci_bios_bridge_region_is64`, `PCI_EXP_FLAGS` and the other capabilities. -/
structure PciDevice where
  bdf : ℕ
  devClass : ℕ
  secondaryBus : ℕ
  bars : ℕ → BarRegs
  ioBase : ℕ
  prefBase : ℕ
  pmem : ℕ
  pmemProbe : ℕ
  pcieFlags : Option ℕ
  shpcCap : ℕ
  reserve : Option Reserve

/-- `struct pci_region_entry`; `bar` is -1 for what is behind the bridge `dev`. -/
structure Entry where
  dev : PciDevice
  bar : ℤ
  size : ℕ
  align : ℕ
  is64 : Bool
  type : RegionType

/-- `struct pci_bus`: the bridge to each bus, and its lists. -/
structure Busses where
  busDev : ℕ → Option PciDevice
  list : RegionType → ℕ → List Entry

/-- `PCI_DEVICE_MEM_MIN`, `PCI_BRIDGE_MEM_MIN`, `PCI_BRIDGE_IO_MIN`. -/
def pciDeviceMemMin : ℕ := 2 ^ 12
def pciBridgeMemMin : ℕ := 2 ^ 21
def pciBridgeIoMin : ℕ := 2 ^ 12

/-- `PCI_ROM_SLOT`, `PCI_NUM_REGIONS`, `PCI_BRIDGE_NUM_REGIONS`. -/
def pciRomSlot : ℕ := 6
def pciNumRegions : ℕ := 7
def pciBridgeNumRegions : ℕ := 2

/-- `pci_bdf_to_bus`. -/
def PciDevice.bus (pci : PciDevice) : ℕ := pci.bdf >>> 8

/-- `class == PCI_CLASS_BRIDGE_PCI`. -/
def PciDevice.isBridge (pci : PciDevice) : Bool := pci.devClass == 0x0604

/-- `u64` values. -/
def u64 (n : ℕ) : ℕ := n % 2 ^ 64

/-- `ALIGN` and `ALIGN_DOWN` of a `u64`. -/
def align64 (x a : ℕ) : ℕ := u64 (x + (a - 1)) &&& (2 ^ 64 - 1 - (a - 1))
def alignDown64 (x a : ℕ) : ℕ := x &&& (2 ^ 64 - 1 - (a - 1))

/-- `pci_bios_get_bar`: the type, the size and `is64` of a BAR. -/
def pciBiosGetBar (pci : PciDevice) (bar : ℕ) : RegionType × ℕ × Bool :=
  let b := pci.bars bar
  let size (x : ℕ) : ℕ := u64 (2 ^ 64 - x)
  if bar = pciRomSlot then (.mem, size (b.val &&& 0xfffff800) &&& 0xffffffff, false)
  else if b.old &&& 0x01 ≠ 0 then (.io, size (b.val &&& 0xfffffffc) &&& 0xffffffff, false)
  else
    let type : RegionType := if b.old &&& 0x08 ≠ 0 then .prefmem else .mem
    if b.old &&& 0x06 = 0x04 then
      (type, size ((b.val ||| b.high <<< 32) &&& 0xfffffffffffffff0), true)
    else (type, size (b.val &&& 0xfffffff0) &&& 0xffffffff, false)

/-- The loop over the BARs (lines 866-886) from `i` on. -/
def barEntries (pci : PciDevice) : ℕ → ℕ → List Entry
  | 0, _ => []
  | fuel + 1, i =>
    if pciNumRegions ≤ i then []
    else if pci.isBridge ∧ pciBridgeNumRegions ≤ i ∧ i < pciRomSlot then
      barEntries pci fuel (i + 1)
    else
      let (type, size, is64) := pciBiosGetBar pci i
      if size = 0 then barEntries pci fuel (i + 1)
      else
        let size := if type ≠ .io ∧ size < pciDeviceMemMin then pciDeviceMemMin else size
        ⟨pci, i, size, size, is64, type⟩ :: barEntries pci fuel (if is64 then i + 2 else i + 1)

/-- The entries of a device. -/
def deviceEntries (pci : PciDevice) : List Entry := barEntries pci pciNumRegions 0

/-- The sorted insertion of `pci_region_create_entry` (lines 784-791). -/
def insertEntry (e : Entry) : List Entry → List Entry
  | [] => [e]
  | pos :: l =>
    if pos.align < e.align ∨ pos.align = e.align ∧ pos.size < e.size then e :: pos :: l
    else pos :: insertEntry e l

/-- `pci_region_create_entry` in the lists of one kind. -/
def createEntry (list : ℕ → List Entry) (bus : ℕ) (e : Entry) : ℕ → List Entry :=
  Function.update list bus (insertEntry e (list bus))

/-- Resources of all root busses go to bus 0. -/
def resourceBus (busDev : ℕ → Option PciDevice) (bus : ℕ) : ℕ :=
  if (busDev bus).isSome then bus else 0

/-- The entries of one device go into the lists of `bus`. -/
def addEntries (bus : ℕ) (list : RegionType → ℕ → List Entry) (l : List Entry) :
    RegionType → ℕ → List Entry :=
  l.foldl (fun list e => Function.update list e.type (createEntry (list e.type) bus e)) list

/-- One device of the first loop (lines 856-887). -/
def addDevice (b : Busses) (pci : PciDevice) : Busses :=
  let busDev :=
    if pci.isBridge then Function.update b.busDev pci.secondaryBus (some pci) else b.busDev
  ⟨busDev, addEntries (resourceBus busDev pci.bus) b.list (deviceEntries pci)⟩

/-- `pci_region_align`: the first entry has the largest alignment. -/
def pciRegionAlign : List Entry → ℕ
  | [] => 1
  | e :: _ => e.align

/-- `pci_region_sum`. -/
def pciRegionSum (l : List Entry) : ℕ := u64 (total Entry.size l)

/-- `pci_bus_hotplug_support`. -/
def pciBusHotplugSupport (dev : PciDevice) : Bool :=
  match dev.pcieFlags with
  | some flags =>
    let portType := (flags &&& 0x00f0) >>> 4
    (portType == 0x6 || portType == 0x4) && flags &&& 0x0100 != 0
  | none => dev.shpcCap != 0

/-- `pci_bridge_has_region`. -/
def pciBridgeHasRegion (dev : PciDevice) : RegionType → Bool
  | .io => dev.ioBase != 0
  | .prefmem => dev.prefBase != 0
  | .mem => true

/-- `pci_bios_bridge_region_is64`. -/
def pciBiosBridgeRegionIs64 (l : List Entry) (dev : PciDevice) (type : RegionType) : Bool :=
  let pmem := if dev.pmem = 0 then dev.pmemProbe else dev.pmem
  type == .prefmem && pmem &&& 0x0f == 0x01 && l.all Entry.is64

/-- The size that QEMU asks to reserve (lines 911-946). -/
def reserveSize (dev : PciDevice) (type : RegionType) : ℕ :=
  match dev.reserve with
  | none => 0
  | some r =>
    match type with
    | .io => if r.io ≠ 2 ^ 64 - 1 then r.io else 0
    | .mem => if r.mem ≠ 2 ^ 32 - 1 then r.mem else 0
    | .prefmem =>
      if r.pref32 ≠ 2 ^ 32 - 1 ∧ r.pref64 = 2 ^ 64 - 1 then r.pref32
      else if r.pref32 = 2 ^ 32 - 1 ∧ r.pref64 ≠ 2 ^ 64 - 1 then r.pref64
      else 0

/-- The alignment of the entry for a bridge (lines 906-907 and 947-948). -/
def bridgeAlign (type : RegionType) (l : List Entry) : ℕ :=
  let align := if type = .io then pciBridgeIoMin else pciBridgeMemMin
  if align < pciRegionAlign l then pciRegionAlign l else align

/-- The size of the entry for a bridge (lines 949-962). -/
def bridgeSize (dev : PciDevice) (type : RegionType) (l : List Entry) : ℕ :=
  let align := bridgeAlign type l
  let size := reserveSize dev type
  let resourceOptional := dev.pcieFlags.isSome && type == .io
  let sum := pciRegionSum l
  let sum := if sum = 0 ∧ pciBusHotplugSupport dev ∧ ¬ resourceOptional then align else sum
  if sum < size then if type ≠ .io then align64 size align else size
  else align64 sum align

/-- The entry for what is behind a bridge. -/
def bridgeEntry (dev : PciDevice) (type : RegionType) (l : List Entry) : Entry :=
  ⟨dev, -1, bridgeSize dev type l, bridgeAlign type l, pciBiosBridgeRegionIs64 l dev type, type⟩

/-- One type of the inner loop (lines 905-972), for the bridge `dev` to bus `s`. -/
def propagateType (dev : PciDevice) (s : ℕ) (b : Busses) (type : RegionType) : Busses :=
  if pciBridgeHasRegion dev type then
    let entry := bridgeEntry dev type (b.list type s)
    ⟨b.busDev, Function.update b.list type
      (createEntry (b.list type) (resourceBus b.busDev dev.bus) entry)⟩
  else b

/-- One bus of the second loop (lines 891-973). -/
def propagateBus (b : Busses) (s : ℕ) : Busses :=
  match b.busDev s with
  | none => b
  | some dev => [.io, .mem, .prefmem].foldl (propagateType dev s) b

/-- The second loop, from bus `m` down to bus 1. -/
def propagate : ℕ → Busses → Busses
  | 0, b => b
  | m + 1, b => propagate m (propagateBus b (m + 1))

/-- `pci_bios_check_devices`. -/
def checkDevices (maxPciBus : ℕ) (devs : List PciDevice) : Busses :=
  propagate maxPciBus (devs.foldl addDevice ⟨fun _ => none, fun _ _ => []⟩)

/-! ## Rounding -/

theorem align64_spec {x k : ℕ} (hk : k < 64) (hx : x + 2 ^ k ≤ 2 ^ 64) :
    x ≤ align64 x (2 ^ k) ∧ align64 x (2 ^ k) < x + 2 ^ k ∧ 2 ^ k ∣ align64 x (2 ^ k) := by
  have hpos : 0 < 2 ^ k := Nat.two_pow_pos k
  have hword : u64 (x + (2 ^ k - 1)) = x + (2 ^ k - 1) := Nat.mod_eq_of_lt (by omega)
  have heq : align64 x (2 ^ k) = x + (2 ^ k - 1) - (x + (2 ^ k - 1)) % 2 ^ k := by
    show u64 (x + (2 ^ k - 1)) &&& _ = _
    rw [hword, and_mask (by omega) hk.le]
  have hmod := Nat.mod_lt (x + (2 ^ k - 1)) hpos
  have hle := Nat.mod_le (x + (2 ^ k - 1)) (2 ^ k)
  rw [heq]
  exact ⟨by omega, by omega, Nat.dvd_sub_mod _⟩

theorem alignDown64_spec {x k : ℕ} (hk : k ≤ 64) (hx : x < 2 ^ 64) :
    alignDown64 x (2 ^ k) ≤ x ∧ x < alignDown64 x (2 ^ k) + 2 ^ k ∧
      2 ^ k ∣ alignDown64 x (2 ^ k) := by
  have hpos : 0 < 2 ^ k := Nat.two_pow_pos k
  have heq : alignDown64 x (2 ^ k) = x - x % 2 ^ k := and_mask hx hk
  have hmod := Nat.mod_lt x hpos
  have hle := Nat.mod_le x (2 ^ k)
  rw [heq]
  exact ⟨by omega, by omega, Nat.dvd_sub_mod _⟩

/-! ## Lists -/

variable {e e' : Entry} {l : List Entry} {ls : ℕ → List Entry} {n m bus : ℕ}
  {type : RegionType}

theorem insertEntry_perm (e : Entry) (l : List Entry) : (insertEntry e l).Perm (e :: l) := by
  induction l with
  | nil => exact .refl _
  | cons pos l ih =>
    unfold insertEntry
    split
    · exact .refl _
    · exact (ih.cons pos).trans (.swap _ _ _)

/-- The largest alignment comes first. -/
def Sorted (l : List Entry) : Prop := l.Pairwise fun e e' => e'.align ≤ e.align

theorem insertEntry_sorted (hl : Sorted l) : Sorted (insertEntry e l) := by
  induction l with
  | nil => exact List.pairwise_singleton _ _
  | cons pos l ih =>
    obtain ⟨hpos, hl⟩ := List.pairwise_cons.mp hl
    unfold insertEntry
    split
    next hbefore =>
      have hle : pos.align ≤ e.align := by omega
      refine List.pairwise_cons.mpr ⟨?_, List.pairwise_cons.mpr ⟨hpos, hl⟩⟩
      exact List.forall_mem_cons.mpr ⟨hle, fun c hc => (hpos c hc).trans hle⟩
    next hbehind =>
      refine List.pairwise_cons.mpr ⟨fun c hc => ?_, ih hl⟩
      rcases List.mem_cons.mp ((insertEntry_perm e l).mem_iff.mp hc) with rfl | hc
      · omega
      · exact hpos c hc

theorem createEntry_self : createEntry ls bus e bus = insertEntry e (ls bus) :=
  Function.update_self _ _ _

theorem createEntry_of_ne (h : n ≠ bus) : createEntry ls bus e n = ls n :=
  Function.update_of_ne h _ _

theorem mem_createEntry : e' ∈ createEntry ls bus e n ↔ e' ∈ ls n ∨ n = bus ∧ e' = e := by
  by_cases h : n = bus
  · subst h
    rw [createEntry_self, (insertEntry_perm e _).mem_iff, List.mem_cons, or_comm]
    exact or_congr_right (by simp)
  · rw [createEntry_of_ne h]
    exact ⟨Or.inl, fun h' => h'.resolve_right fun h' => h h'.1⟩

theorem createEntry_sorted (h : ∀ n, Sorted (ls n)) (n : ℕ) : Sorted (createEntry ls bus e n) := by
  by_cases hn : n = bus
  · subst hn
    rw [createEntry_self]
    exact insertEntry_sorted (h n)
  · rw [createEntry_of_ne hn]
    exact h n

/-- What is counted over the first `N` busses. -/
def tally {M : Type*} [AddCommMonoid M] (g : Entry → M) (N : ℕ) (ls : ℕ → List Entry) : M :=
  ∑ n ∈ Finset.range N, ((ls n).map g).sum

theorem tally_createEntry {M : Type*} [AddCommMonoid M] (g : Entry → M) {N : ℕ}
    (hbus : bus < N) : tally g N (createEntry ls bus e) = g e + tally g N ls := by
  have hmem := Finset.mem_range.mpr hbus
  have hrest : ∑ n ∈ (Finset.range N).erase bus, ((createEntry ls bus e n).map g).sum =
      ∑ n ∈ (Finset.range N).erase bus, ((ls n).map g).sum :=
    Finset.sum_congr rfl fun n hn => by rw [createEntry_of_ne (Finset.ne_of_mem_erase hn)]
  have hself : ((createEntry ls bus e bus).map g).sum = g e + ((ls bus).map g).sum := by
    rw [createEntry_self, ((insertEntry_perm e (ls bus)).map g).sum_eq, List.map_cons,
      List.sum_cons]
  unfold tally
  rw [← Finset.add_sum_erase _ _ hmem, ← Finset.add_sum_erase _ _ hmem, hrest, hself, add_assoc]

/-! ## The first loop -/

theorem addEntries_cons (list : RegionType → ℕ → List Entry) :
    addEntries bus list (e :: l) =
      addEntries bus (Function.update list e.type (createEntry (list e.type) bus e)) l := rfl

/-- The entries of the other kinds are in other lists. -/
theorem addEntries_list (list : RegionType → ℕ → List Entry) (l : List Entry) :
    addEntries bus list l type =
      (l.filter (·.type = type)).foldl (fun ls e => createEntry ls bus e) (list type) := by
  induction l generalizing list with
  | nil => rfl
  | cons e l ih =>
    rw [addEntries_cons, ih]
    by_cases htype : e.type = type
    · subst htype
      rw [Function.update_self, List.filter_cons_of_pos (by simp), List.foldl_cons]
    · rw [Function.update_of_ne (Ne.symm htype), List.filter_cons_of_neg (by simpa using htype)]

theorem mem_createEntries : e ∈ l.foldl (fun ls e => createEntry ls bus e) ls n ↔
    e ∈ ls n ∨ n = bus ∧ e ∈ l := by
  induction l generalizing ls with
  | nil => simp
  | cons a l ih =>
    rw [List.foldl_cons, ih, mem_createEntry, List.mem_cons]
    tauto

theorem createEntries_sorted (h : ∀ n, Sorted (ls n)) (n : ℕ) :
    Sorted (l.foldl (fun ls e => createEntry ls bus e) ls n) := by
  induction l generalizing ls with
  | nil => exact h n
  | cons a l ih => exact ih (createEntry_sorted h)

theorem tally_createEntries {M : Type*} [AddCommMonoid M] (g : Entry → M) {N : ℕ}
    (hbus : bus < N) : tally g N (l.foldl (fun ls e => createEntry ls bus e) ls) =
      (l.map g).sum + tally g N ls := by
  induction l generalizing ls with
  | nil => simp
  | cons a l ih =>
    rw [List.foldl_cons, ih, tally_createEntry g hbus, List.map_cons, List.sum_cons]
    abel

/-- The registers are those of real devices: no BAR above 1T, and nothing of a kind right behind a
    bridge that does not forward it. -/
structure RegistersOk (devs : List PciDevice) : Prop where
  count : devs.length ≤ 2 ^ 16
  bars : ∀ x ∈ devs, ∀ i, (pciBiosGetBar x i).2.1 = 0 ∨ ∃ k ≤ 40, (pciBiosGetBar x i).2.1 = 2 ^ k
  reserve : ∀ x ∈ devs, ∀ type, reserveSize x type ≤ 2 ^ 40
  forwards : ∀ x ∈ devs, x.isBridge → ∀ type, pciBridgeHasRegion x type = false →
    ∀ y ∈ devs, y.bus = x.secondaryBus → (∀ e ∈ deviceEntries y, e.type ≠ type) ∧
      (y.isBridge → pciBridgeHasRegion y type = false)

/-- The devices as `pci_probe_devices` lists them behind the busses that `pci_bios_init_bus`
    numbered. -/
structure Topology (maxPciBus : ℕ) (devs : List PciDevice) : Prop extends RegistersOk devs where
  sorted : devs.Pairwise fun x y => x.bus ≤ y.bus
  busses : ∀ x ∈ devs, x.bus ≤ maxPciBus
  bridges : ∀ x ∈ devs, x.isBridge → x.bus < x.secondaryBus ∧ x.secondaryBus ≤ maxPciBus
  last : maxPciBus ≤ 255

/-- A power of two that is at most 1T. -/
def IsSize (n : ℕ) : Prop := ∃ k ≤ 40, n = 2 ^ k

theorem IsSize.pos (h : IsSize n) : 0 < n := by
  obtain ⟨k, -, rfl⟩ := h
  exact Nat.two_pow_pos k

theorem IsSize.le (h : IsSize n) : n ≤ 2 ^ 40 := by
  obtain ⟨k, hk, rfl⟩ := h
  exact Nat.pow_le_pow_right (by decide) hk

theorem IsSize.dvd (h : IsSize n) (h' : IsSize m) (hle : n ≤ m) : n ∣ m := by
  obtain ⟨k, -, rfl⟩ := h
  obtain ⟨k', -, rfl⟩ := h'
  exact Nat.pow_dvd_pow 2 ((Nat.pow_le_pow_iff_right (by decide)).mp hle)

/-- An entry for a BAR. -/
structure BarEntry (pci : PciDevice) (e : Entry) : Prop where
  dev : e.dev = pci
  bar : 0 ≤ e.bar
  align : e.align = e.size
  size : IsSize e.size

theorem barEntries_spec {x : PciDevice} (hbars : ∀ i, (pciBiosGetBar x i).2.1 = 0 ∨
    ∃ k ≤ 40, (pciBiosGetBar x i).2.1 = 2 ^ k) (fuel i : ℕ) :
    (∀ e ∈ barEntries x fuel i, BarEntry x e) ∧ (barEntries x fuel i).length ≤ fuel := by
  induction fuel generalizing i with
  | zero => exact ⟨fun e he => absurd he List.not_mem_nil, le_refl _⟩
  | succ fuel ih =>
    have hskip := ih (i + 1)
    unfold barEntries
    split
    · exact ⟨fun e he => absurd he List.not_mem_nil, Nat.zero_le _⟩
    split
    · exact ⟨hskip.1, hskip.2.trans (Nat.le_succ _)⟩
    have hbar := hbars i
    obtain ⟨⟨type, size, is64⟩, hget⟩ : ∃ r, pciBiosGetBar x i = r := ⟨_, rfl⟩
    rw [hget] at hbar ⊢
    dsimp only at hbar ⊢
    split
    · exact ⟨hskip.1, hskip.2.trans (Nat.le_succ _)⟩
    next hsize =>
      have hrest := ih (if is64 then i + 2 else i + 1)
      refine ⟨List.forall_mem_cons.mpr ⟨⟨rfl, Int.natCast_nonneg _, rfl, ?_⟩, hrest.1⟩,
        Nat.succ_le_succ hrest.2⟩
      show IsSize (if type ≠ .io ∧ size < pciDeviceMemMin then pciDeviceMemMin else size)
      split
      · exact ⟨12, by decide, rfl⟩
      · exact hbar.resolve_left hsize

theorem deviceEntries_spec {x : PciDevice} (hbars : ∀ i, (pciBiosGetBar x i).2.1 = 0 ∨
    ∃ k ≤ 40, (pciBiosGetBar x i).2.1 = 2 ^ k) (he : e ∈ deviceEntries x) : BarEntry x e :=
  (barEntries_spec hbars pciNumRegions 0).1 e he

theorem deviceEntries_total {x : PciDevice} (hbars : ∀ i, (pciBiosGetBar x i).2.1 = 0 ∨
    ∃ k ≤ 40, (pciBiosGetBar x i).2.1 = 2 ^ k) (p : Entry → Bool) :
    total Entry.size ((deviceEntries x).filter p) ≤ 2 ^ 43 := by
  have hlen := (barEntries_spec hbars pciNumRegions 0).2
  have hsum := List.sum_le_card_nsmul (((deviceEntries x).filter p).map Entry.size) (2 ^ 40)
    (fun n hn => by
      obtain ⟨e, he, rfl⟩ := List.mem_map.mp hn
      exact (deviceEntries_spec hbars (List.mem_of_mem_filter he)).size.le)
  have hcard : ((deviceEntries x).filter p).length ≤ 7 := (List.length_filter_le _ _).trans hlen
  rw [List.length_map, smul_eq_mul] at hsum
  exact hsum.trans (by omega)

/-- What holds of the lists after the devices of `seen`. -/
structure Listed (maxPciBus : ℕ) (seen : List PciDevice) (b : Busses) : Prop where
  busDev : ∀ {n d}, b.busDev n = some d → d ∈ seen ∧ d.isBridge ∧ d.secondaryBus = n
  bridge : ∀ d ∈ seen, d.isBridge → b.busDev d.secondaryBus ≠ none
  entry : ∀ {type n e}, e ∈ b.list type n → e.dev ∈ seen ∧ e ∈ deviceEntries e.dev ∧
    e.type = type ∧ n = resourceBus b.busDev e.dev.bus
  sorted : ∀ type n, Sorted (b.list type n)
  room : ∀ type, tally Entry.size (maxPciBus + 1) (b.list type) ≤ seen.length * 2 ^ 43

theorem resourceBus_le (busDev : ℕ → Option PciDevice) (bus : ℕ) :
    resourceBus busDev bus ≤ bus := by
  unfold resourceBus
  split
  · exact le_refl _
  · exact Nat.zero_le _

theorem addDevice_list (b : Busses) (x : PciDevice) : (addDevice b x).list =
    addEntries (resourceBus (addDevice b x).busDev x.bus) b.list (deviceEntries x) := rfl

theorem Listed.addDevice {maxPciBus : ℕ} {seen rest : List PciDevice} {x : PciDevice} {b : Busses}
    (h : Listed maxPciBus seen b) (ht : Topology maxPciBus (seen ++ x :: rest)) :
    Listed maxPciBus (seen ++ [x]) (addDevice b x) := by
  have hx : x ∈ seen ++ x :: rest := by simp
  have hbus : ∀ y ∈ seen, y.bus ≤ x.bus := fun y hy =>
    (List.pairwise_append.mp ht.sorted).2.2 y hy x (List.mem_cons_self ..)
  have hseen : ∀ y, y ∈ seen ++ [x] ↔ y ∈ seen ∨ y = x := by simp
  obtain ⟨D, hD⟩ : ∃ D, D = (Pci.addDevice b x).busDev := ⟨_, rfl⟩
  have hDval : D = if x.isBridge then Function.update b.busDev x.secondaryBus (some x)
      else b.busDev := hD
  have hlist : (Pci.addDevice b x).list =
      addEntries (resourceBus D x.bus) b.list (deviceEntries x) := hD ▸ addDevice_list b x
  -- The bridge to the bus of a device that was seen is not `x`.
  have hkeep : ∀ y ∈ seen, resourceBus D y.bus = resourceBus b.busDev y.bus := by
    intro y hy
    have hval : D y.bus = b.busDev y.bus := by
      rw [hDval]
      split
      next hbridge =>
        have hlt := (ht.bridges x hx hbridge).1
        have hle := hbus y hy
        exact Function.update_of_ne (by omega) _ _
      · rfl
    unfold resourceBus
    rw [hval]
  refine ⟨?_, ?_, ?_, ?_, ?_⟩
  · intro n d hd
    rw [← hD, hDval] at hd
    split at hd
    next hbridge =>
      by_cases hn : n = x.secondaryBus
      · subst hn
        rw [Function.update_self] at hd
        obtain rfl := Option.some.inj hd
        exact ⟨by simp, hbridge, rfl⟩
      · rw [Function.update_of_ne hn] at hd
        obtain ⟨hmem, hd⟩ := h.busDev hd
        exact ⟨(hseen d).mpr (Or.inl hmem), hd⟩
    · obtain ⟨hmem, hd⟩ := h.busDev hd
      exact ⟨(hseen d).mpr (Or.inl hmem), hd⟩
  · intro d hd hbridge
    rw [← hD, hDval]
    rcases (hseen d).mp hd with hd | rfl
    · split
      · by_cases hsec : d.secondaryBus = x.secondaryBus
        · rw [hsec, Function.update_self]
          exact Option.some_ne_none x
        · rw [Function.update_of_ne hsec]
          exact h.bridge d hd hbridge
      · exact h.bridge d hd hbridge
    · rw [if_pos hbridge, Function.update_self]
      exact Option.some_ne_none d
  · intro type n e he
    rw [hlist, addEntries_list, mem_createEntries] at he
    rw [← hD]
    rcases he with he | ⟨hn, he⟩
    · obtain ⟨hmem, hbar, htype, hn⟩ := h.entry he
      exact ⟨(hseen _).mpr (Or.inl hmem), hbar, htype, hn.trans (hkeep _ hmem).symm⟩
    · obtain ⟨he, htype⟩ := List.mem_filter.mp he
      have hdev := (deviceEntries_spec (ht.bars x hx) he).dev
      exact ⟨(hseen _).mpr (Or.inr hdev), hdev.symm ▸ he, by simpa using htype, hdev.symm ▸ hn⟩
  · intro type n
    rw [hlist, addEntries_list]
    exact createEntries_sorted (h.sorted type) n
  · intro type
    have hle : resourceBus D x.bus < maxPciBus + 1 := by
      have hx := ht.busses x hx
      have hres := resourceBus_le D x.bus
      omega
    have htotal := deviceEntries_total (ht.bars x hx) (·.type = type)
    have hroom := h.room type
    rw [hlist, addEntries_list, tally_createEntries Entry.size hle, List.length_append,
      List.length_singleton, Nat.add_mul]
    unfold total at htotal
    omega

theorem Listed.foldl {maxPciBus : ℕ} {seen rest : List PciDevice} {b : Busses}
    (h : Listed maxPciBus seen b) (ht : Topology maxPciBus (seen ++ rest)) :
    Listed maxPciBus (seen ++ rest) (rest.foldl Pci.addDevice b) := by
  induction rest generalizing seen b with
  | nil => rwa [List.append_nil]
  | cons x rest ih =>
    have hstep := ih (h.addDevice ht) (by rwa [List.append_assoc])
    rwa [List.append_assoc] at hstep

/-! ## The entry for a bridge -/

variable {dev : PciDevice} {b : Busses}

theorem pciRegionAlign_isSize (hl : ∀ e ∈ l, IsSize e.align) : IsSize (pciRegionAlign l) := by
  cases l with
  | nil => exact ⟨0, by decide, rfl⟩
  | cons e l => exact hl e (List.mem_cons_self ..)

theorem bridgeAlign_spec (type : RegionType) (hl : ∀ e ∈ l, IsSize e.align) :
    IsSize (bridgeAlign type l) ∧ pciRegionAlign l ≤ bridgeAlign type l ∧
      (type ≠ .io → pciBridgeMemMin ≤ bridgeAlign type l) := by
  obtain ⟨least, hleast⟩ : ∃ a, a = if type = .io then pciBridgeIoMin else pciBridgeMemMin :=
    ⟨_, rfl⟩
  have hmin : IsSize least := by
    rw [hleast]
    split
    · exact ⟨12, by decide, rfl⟩
    · exact ⟨21, by decide, rfl⟩
  have heq : bridgeAlign type l =
      if least < pciRegionAlign l then pciRegionAlign l else least := hleast ▸ rfl
  have hmem : type ≠ .io → pciBridgeMemMin = least := fun htype => by rw [hleast, if_neg htype]
  rw [heq]
  split
  next hlt =>
    exact ⟨pciRegionAlign_isSize hl, le_refl _, fun htype => (hmem htype).trans_le hlt.le⟩
  next hle => exact ⟨hmin, not_lt.mp hle, fun htype => (hmem htype).le⟩

/-- The window has room for what is behind it, and the code counts it without overflow. -/
theorem bridgeSize_spec (hl : ∀ e ∈ l, IsSize e.align) (hsum : total Entry.size l ≤ 2 ^ 60)
    (hres : reserveSize dev type ≤ 2 ^ 40) :
    total Entry.size l ≤ bridgeSize dev type l ∧
      bridgeSize dev type l ≤ total Entry.size l + 2 ^ 42 ∧
      (type ≠ .io → bridgeAlign type l ∣ bridgeSize dev type l) := by
  obtain ⟨k, hk, halign⟩ := (bridgeAlign_spec type hl).1
  have hle : 2 ^ k ≤ 2 ^ 40 := Nat.pow_le_pow_right (by decide) hk
  have hword : pciRegionSum l = total Entry.size l := Nat.mod_eq_of_lt (by omega)
  obtain ⟨sum, hsumdef⟩ : ∃ sum, sum = if pciRegionSum l = 0 ∧ pciBusHotplugSupport dev ∧
      ¬ (dev.pcieFlags.isSome && type == .io) then bridgeAlign type l else pciRegionSum l :=
    ⟨_, rfl⟩
  have hbounds : total Entry.size l ≤ sum ∧ sum ≤ total Entry.size l + 2 ^ k := by
    rw [hsumdef, halign, hword]
    split <;> omega
  have heq : bridgeSize dev type l = if sum < reserveSize dev type then
      if type ≠ .io then align64 (reserveSize dev type) (2 ^ k) else reserveSize dev type
      else align64 sum (2 ^ k) := by
    rw [hsumdef, ← halign]
    rfl
  rw [heq, halign]
  split
  · split
    next hlt _ =>
      have hspec := align64_spec (x := reserveSize dev type) (k := k) (by omega) (by omega)
      exact ⟨by omega, by omega, fun _ => hspec.2.2⟩
    next hlt htype => exact ⟨by omega, by omega, fun h => absurd h htype⟩
  · have hspec := align64_spec (x := sum) (k := k) (by omega) (by omega)
    exact ⟨by omega, by omega, fun _ => hspec.2.2⟩

/-! ## The second loop -/

/-- An entry for a bridge has what the entries of the bus behind it need. -/
structure Holds (w : Entry) (l : List Entry) : Prop where
  size : total Entry.size l ≤ w.size
  align : ∀ e ∈ l, e.align ≤ w.align
  is64 : w.is64 → ∀ e ∈ l, e.is64

theorem Holds.align_dvd {w : Entry} (h : Holds w l) (hl : ∀ e ∈ l, IsSize e.align)
    (hw : IsSize w.align) : pciRegionAlign l ∣ w.align := by
  cases l with
  | nil => exact one_dvd _
  | cons c l =>
    exact (hl c (List.mem_cons_self ..)).dvd hw (h.align c (List.mem_cons_self ..))

/-- An entry of the lists of one kind. -/
structure EntryOk (type : RegionType) (e : Entry) : Prop where
  type_eq : e.type = type
  align : IsSize e.align
  size : type ≠ .io → e.align ∣ e.size
  least : e.bar = -1 → type ≠ .io → pciBridgeMemMin ≤ e.align
  is64 : e.bar = -1 → e.is64 → type = .prefmem

/-- What holds of the lists of one kind when the busses above `m` have their entries. -/
structure Sized (devs : List PciDevice) (busDev : ℕ → Option PciDevice) (type : RegionType)
    (m : ℕ) (ls : ℕ → List Entry) : Prop where
  entry : ∀ {n e}, e ∈ ls n → EntryOk type e
  source : ∀ {n e}, e ∈ ls n → e.dev ∈ devs ∧ (e.bar = -1 ∧ e.dev.isBridge ∧
    pciBridgeHasRegion e.dev type ∨ 0 ≤ e.bar ∧ e ∈ deviceEntries e.dev)
  home : ∀ {n e}, e ∈ ls n → n = resourceBus busDev e.dev.bus
  window : ∀ {n e}, e ∈ ls n → e.bar = -1 → m < e.dev.secondaryBus ∧
    busDev e.dev.secondaryBus = some e.dev ∧ Holds e (ls e.dev.secondaryBus)
  once : ∀ n, (ls n).Pairwise fun e e' =>
    e.bar = -1 → e'.bar = -1 → e.dev.secondaryBus ≠ e'.dev.secondaryBus
  present : ∀ {n d}, m < n → busDev n = some d → pciBridgeHasRegion d type →
    ∃ e ∈ ls (resourceBus busDev d.bus), e.bar = -1 ∧ e.dev = d
  sorted : ∀ n, Sorted (ls n)
  room : tally Entry.size (m + 1) ls + m * 2 ^ 42 ≤ 2 ^ 60
  done : ∀ {n}, m < n → total Entry.size (ls n) ≤ 2 ^ 60

theorem Sorted.head_align (hl : Sorted l) (he : e ∈ l) : e.align ≤ pciRegionAlign l := by
  cases l with
  | nil => cases he
  | cons a l =>
    rcases List.mem_cons.mp he with rfl | he
    · exact le_refl _
    · exact (List.pairwise_cons.mp hl).1 e he

theorem bridgeEntry_holds (hl : ∀ e ∈ l, IsSize e.align) (hsorted : Sorted l)
    (hsum : total Entry.size l ≤ 2 ^ 60) (hres : reserveSize dev type ≤ 2 ^ 40) :
    Holds (bridgeEntry dev type l) l ∧ EntryOk type (bridgeEntry dev type l) := by
  have halign := bridgeAlign_spec type hl
  have hsize := bridgeSize_spec hl hsum hres
  refine ⟨⟨hsize.1, fun e he => (hsorted.head_align he).trans halign.2.1, fun h => ?_⟩,
    ⟨rfl, halign.1, hsize.2.2, fun _ => halign.2.2, fun _ h => ?_⟩⟩
  · have hall : l.all Entry.is64 = true := (Bool.and_eq_true_iff.mp h).2
    exact List.all_eq_true.mp hall
  · have hpref := (Bool.and_eq_true_iff.mp (Bool.and_eq_true_iff.mp h).1).1
    exact beq_iff_eq.mp hpref

theorem total_le_tally {N : ℕ} (hn : n < N) : total Entry.size (ls n) ≤ tally Entry.size N ls :=
  Finset.single_le_sum (f := fun n => total Entry.size (ls n)) (fun _ _ => Nat.zero_le _)
    (Finset.mem_range.mpr hn)

/-- The entry of the bridge to bus `m + 1`. -/
theorem Sized.createEntry {devs : List PciDevice} {busDev : ℕ → Option PciDevice}
    (h : Sized devs busDev type (m + 1) ls) (hd : busDev (m + 1) = some dev) (hdev : dev ∈ devs)
    (hbridge : dev.isBridge) (hregion : pciBridgeHasRegion dev type)
    (hsec : dev.secondaryBus = m + 1) (hbus : dev.bus ≤ m)
    (hres : reserveSize dev type ≤ 2 ^ 40) :
    Sized devs busDev type m (createEntry ls (resourceBus busDev dev.bus)
      (bridgeEntry dev type (ls (m + 1)))) := by
  have hhome : resourceBus busDev dev.bus ≤ m := (resourceBus_le _ _).trans hbus
  have htally : tally Entry.size (m + 1 + 1) ls =
      tally Entry.size (m + 1) ls + total Entry.size (ls (m + 1)) := Finset.sum_range_succ _ _
  have hroom := h.room
  have hsum : total Entry.size (ls (m + 1)) ≤ 2 ^ 60 := by omega
  have haligns : ∀ e ∈ ls (m + 1), IsSize e.align := fun e he => (h.entry he).align
  obtain ⟨hholds, hok⟩ := bridgeEntry_holds haligns (h.sorted _) hsum hres
  have hsize := (bridgeSize_spec haligns hsum hres).2.1
  obtain ⟨w, hw⟩ : ∃ w, w = bridgeEntry dev type (ls (m + 1)) := ⟨_, rfl⟩
  have hwdev : w.dev = dev := hw ▸ rfl
  have hwbar : w.bar = -1 := hw ▸ rfl
  have hwsize : w.size = bridgeSize dev type (ls (m + 1)) := hw ▸ rfl
  rw [← hw] at hholds hok ⊢
  have hkeep : ∀ {n}, m < n → Pci.createEntry ls (resourceBus busDev dev.bus) w n = ls n :=
    fun hn => createEntry_of_ne (by omega)
  refine ⟨fun he => ?_, fun he => ?_, fun he => ?_, fun he hbar => ?_, fun n => ?_,
    fun {n d} hn hd' hregion' => ?_, createEntry_sorted h.sorted, ?_, fun {n} hn => ?_⟩
  · rcases mem_createEntry.mp he with he | ⟨-, rfl⟩
    · exact h.entry he
    · exact hok
  · rcases mem_createEntry.mp he with he | ⟨-, rfl⟩
    · exact h.source he
    · rw [hwdev]
      exact ⟨hdev, Or.inl ⟨hwbar, hbridge, hregion⟩⟩
  · rcases mem_createEntry.mp he with he | ⟨rfl, rfl⟩
    · exact h.home he
    · rw [hwdev]
  · rcases mem_createEntry.mp he with he | ⟨-, rfl⟩
    · obtain ⟨hlt, hdev, hold⟩ := h.window he hbar
      rw [hkeep (by omega)]
      exact ⟨by omega, hdev, hold⟩
    · rw [hwdev, hsec, hkeep (by omega)]
      exact ⟨by omega, hd, hholds⟩
  · by_cases hn : n = resourceBus busDev dev.bus
    · subst hn
      have hsymm : ∀ {e e' : Entry}, (e.bar = -1 → e'.bar = -1 →
          e.dev.secondaryBus ≠ e'.dev.secondaryBus) → e'.bar = -1 → e.bar = -1 →
          e'.dev.secondaryBus ≠ e.dev.secondaryBus := fun h h' h'' => (h h'' h').symm
      rw [createEntry_self, (insertEntry_perm w _).pairwise_iff hsymm]
      refine List.pairwise_cons.mpr ⟨fun e he _ hbar => ?_, h.once _⟩
      have hlt := (h.window he hbar).1
      rw [hwdev, hsec]
      omega
    · rw [createEntry_of_ne hn]
      exact h.once n
  · rcases Nat.lt_or_eq_of_le hn with hlt | heq
    · obtain ⟨e, he, hbar⟩ := h.present hlt hd' hregion'
      exact ⟨e, mem_createEntry.mpr (Or.inl he), hbar⟩
    · subst heq
      obtain rfl := Option.some.inj (hd.symm.trans hd')
      exact ⟨w, mem_createEntry.mpr (Or.inr ⟨rfl, rfl⟩), hwbar, hwdev⟩
  · rw [tally_createEntry Entry.size (by omega), hwsize]
    omega
  · rw [hkeep hn]
    rcases Nat.lt_or_eq_of_le hn with hlt | heq
    · exact h.done hlt
    · exact heq ▸ hsum

theorem propagateType_busDev (dev : PciDevice) (s : ℕ) (b : Busses) (type : RegionType) :
    (propagateType dev s b type).busDev = b.busDev := by
  unfold propagateType
  split <;> rfl

theorem propagateType_of_ne {type' : RegionType} (h : type ≠ type') (dev : PciDevice) (s : ℕ) :
    (propagateType dev s b type').list type = b.list type := by
  unfold propagateType
  split
  · exact Function.update_of_ne h _ _
  · rfl

theorem propagateType_self (dev : PciDevice) (s : ℕ) :
    (propagateType dev s b type).list type = if pciBridgeHasRegion dev type then
      createEntry (b.list type) (resourceBus b.busDev dev.bus)
        (bridgeEntry dev type (b.list type s)) else b.list type := by
  unfold propagateType
  split
  · exact Function.update_self _ _ _
  · rfl

/-- The three kinds have nothing in common. -/
theorem propagateBus_list {s : ℕ} (hd : b.busDev s = some dev) :
    (propagateBus b s).list type = if pciBridgeHasRegion dev type then
      createEntry (b.list type) (resourceBus b.busDev dev.bus)
        (bridgeEntry dev type (b.list type s)) else b.list type := by
  unfold propagateBus
  rw [hd]
  show (propagateType dev s (propagateType dev s (propagateType dev s b .io) .mem) .prefmem).list
    type = _
  cases type with
  | io =>
    rw [propagateType_of_ne (by decide), propagateType_of_ne (by decide), propagateType_self]
  | mem =>
    rw [propagateType_of_ne (by decide), propagateType_self, propagateType_busDev,
      propagateType_of_ne (by decide)]
  | prefmem =>
    rw [propagateType_self, propagateType_busDev, propagateType_busDev,
      propagateType_of_ne (by decide), propagateType_of_ne (by decide)]

theorem propagateBus_busDev (b : Busses) (s : ℕ) : (propagateBus b s).busDev = b.busDev := by
  unfold propagateBus
  split
  · rfl
  · show (propagateType _ s (propagateType _ s (propagateType _ s b .io) .mem) .prefmem).busDev = _
    rw [propagateType_busDev, propagateType_busDev, propagateType_busDev]

theorem propagate_busDev (m : ℕ) (b : Busses) : (propagate m b).busDev = b.busDev := by
  induction m generalizing b with
  | zero => rfl
  | succ m ih => exact (ih _).trans (propagateBus_busDev b _)

/-- A bus that no bridge forwards to. -/
theorem Sized.skip {devs : List PciDevice} {busDev : ℕ → Option PciDevice}
    (h : Sized devs busDev type (m + 1) ls)
    (hnone : ∀ {d}, busDev (m + 1) = some d → ¬ pciBridgeHasRegion d type) :
    Sized devs busDev type m ls := by
  have htally : tally Entry.size (m + 1 + 1) ls =
      tally Entry.size (m + 1) ls + total Entry.size (ls (m + 1)) := Finset.sum_range_succ _ _
  have hroom := h.room
  refine ⟨h.entry, h.source, h.home, fun he hbar => ?_, h.once,
    fun {n d} hn hd hregion => ?_, h.sorted, by omega, fun {n} hn => ?_⟩
  · obtain ⟨hlt, hrest⟩ := h.window he hbar
    exact ⟨by omega, hrest⟩
  · rcases Nat.lt_or_eq_of_le hn with hlt | heq
    · exact h.present hlt hd hregion
    · obtain rfl : n = m + 1 := heq.symm
      exact absurd hregion (hnone hd)
  · rcases Nat.lt_or_eq_of_le hn with hlt | heq
    · exact h.done hlt
    · obtain rfl : n = m + 1 := heq.symm
      omega

/-- One bus of the second loop. -/
theorem Sized.propagateBus {maxPciBus : ℕ} {devs : List PciDevice}
    (ht : Topology maxPciBus devs) (hbus : ∀ {n d}, b.busDev n = some d →
      d ∈ devs ∧ d.isBridge ∧ d.secondaryBus = n)
    (h : Sized devs b.busDev type (m + 1) (b.list type)) :
    Sized devs b.busDev type m ((propagateBus b (m + 1)).list type) := by
  cases hd : b.busDev (m + 1) with
  | none =>
    have hsame : Pci.propagateBus b (m + 1) = b := by
      unfold Pci.propagateBus
      rw [hd]
    rw [hsame]
    exact h.skip fun hd' => by rw [hd] at hd'; cases hd'
  | some d =>
    obtain ⟨hmem, hbridge, hsec⟩ := hbus hd
    have hlt := (ht.bridges d hmem hbridge).1
    rw [propagateBus_list hd]
    split
    next hregion =>
      exact h.createEntry hd hmem hbridge hregion hsec (by omega) (ht.reserve d hmem type)
    next hregion =>
      refine h.skip fun hd' => ?_
      obtain rfl := Option.some.inj (hd.symm.trans hd')
      exact hregion

theorem Sized.propagate {maxPciBus : ℕ} {devs : List PciDevice}
    (ht : Topology maxPciBus devs) (hbus : ∀ {n d}, b.busDev n = some d →
      d ∈ devs ∧ d.isBridge ∧ d.secondaryBus = n)
    (h : Sized devs b.busDev type m (b.list type)) :
    Sized devs b.busDev type 0 ((propagate m b).list type) := by
  induction m generalizing b with
  | zero => exact h
  | succ m ih =>
    have hkeep := propagateBus_busDev b (m + 1)
    have hstep := ih (b := Pci.propagateBus b (m + 1)) (by rwa [hkeep])
      (by rw [hkeep]; exact h.propagateBus ht hbus)
    rwa [hkeep] at hstep

/-- The lists before the second loop. -/
theorem Listed.sized {maxPciBus : ℕ} {devs : List PciDevice} (ht : Topology maxPciBus devs)
    (h : Listed maxPciBus devs b) : Sized devs b.busDev type maxPciBus (b.list type) := by
  have hentry : ∀ {n e}, e ∈ b.list type n → BarEntry e.dev e := fun he =>
    deviceEntries_spec (ht.bars _ (h.entry he).1) (h.entry he).2.1
  have hbar : ∀ {n e}, e ∈ b.list type n → e.bar ≠ -1 := by
    intro n e he
    have hpos := (hentry he).bar
    omega
  have hle : ∀ {n d}, b.busDev n = some d → n ≤ maxPciBus := by
    intro n d hd
    obtain ⟨hmem, hbridge, hsec⟩ := h.busDev hd
    exact hsec ▸ (ht.bridges d hmem hbridge).2
  refine ⟨fun he => ?_, fun he => ?_, fun he => (h.entry he).2.2.2,
    fun he hw => absurd hw (hbar he),
    fun n => List.pairwise_of_forall_mem_list fun e he e' _ hw => absurd hw (hbar he),
    fun hn hd => ?_, h.sorted type, ?_, fun {n} hn => ?_⟩
  · have halign := (hentry he).align
    exact ⟨(h.entry he).2.2.1, halign ▸ (hentry he).size, fun _ => halign ▸ dvd_refl _,
      fun hw => absurd hw (hbar he), fun hw => absurd hw (hbar he)⟩
  · exact ⟨(h.entry he).1, Or.inr ⟨(hentry he).bar, (h.entry he).2.1⟩⟩
  · have hn' := hle hd
    omega
  · have hroom := h.room type
    have hcount := ht.count
    have hlast := ht.last
    omega
  · have hempty : b.list type n = [] := by
      refine List.eq_nil_iff_forall_not_mem.mpr fun e he => ?_
      obtain ⟨hmem, -, -, hn'⟩ := h.entry he
      have hdev := ht.busses _ hmem
      have hres := resourceBus_le b.busDev e.dev.bus
      omega
    rw [hempty]
    exact Nat.zero_le _

/-- The lists after the first loop. -/
theorem listed_all {maxPciBus : ℕ} {devs : List PciDevice} (ht : Topology maxPciBus devs) :
    Listed maxPciBus devs (devs.foldl addDevice ⟨fun _ => none, fun _ _ => []⟩) := by
  have hnil : Listed maxPciBus [] ⟨fun _ => none, fun _ _ => []⟩ :=
    ⟨nofun, nofun, nofun, fun _ _ => .nil, fun _ => by simp [tally]⟩
  exact hnil.foldl ht

/-- **`pci_bios_check_devices`** sizes every bus, and knows the bridges. -/
theorem checkDevices_sized {maxPciBus : ℕ} {devs : List PciDevice}
    (ht : Topology maxPciBus devs) (type : RegionType) :
    Sized devs (checkDevices maxPciBus devs).busDev type 0
      ((checkDevices maxPciBus devs).list type) := by
  have hlisted := listed_all ht
  unfold checkDevices
  rw [propagate_busDev]
  exact (hlisted.sized ht).propagate ht hlisted.busDev

theorem checkDevices_busDev {maxPciBus : ℕ} {devs : List PciDevice}
    (ht : Topology maxPciBus devs) :
    (∀ {n d}, (checkDevices maxPciBus devs).busDev n = some d →
      d ∈ devs ∧ d.isBridge ∧ d.secondaryBus = n) ∧
    ∀ d ∈ devs, d.isBridge → (checkDevices maxPciBus devs).busDev d.secondaryBus ≠ none := by
  have hlisted := listed_all ht
  unfold checkDevices
  rw [propagate_busDev]
  exact ⟨fun hd => hlisted.busDev hd, hlisted.bridge⟩

/-! ## What is in the lists -/

section Tally

variable {M : Type*} [AddCommMonoid M] (g : Entry → M) {N : ℕ}

/-- The first loop puts every entry into a list of its kind. -/
theorem tally_addDevices {devs : List PciDevice} (hbus : ∀ x ∈ devs, x.bus < N) :
    tally g N ((devs.foldl addDevice b).list type) =
      (((devs.flatMap deviceEntries).filter (·.type = type)).map g).sum +
        tally g N (b.list type) := by
  induction devs generalizing b with
  | nil => simp
  | cons x devs ih =>
    obtain ⟨hx, hbus⟩ := List.forall_mem_cons.mp hbus
    have hlt : ∀ busDev, resourceBus busDev x.bus < N := fun _ => (resourceBus_le _ _).trans_lt hx
    rw [List.foldl_cons, ih hbus, List.flatMap_cons, List.filter_append, List.map_append,
      List.sum_append]
    rw [addDevice_list, addEntries_list, tally_createEntries g (hlt _)]
    abel

/-- The second loop adds entries for bridges only. -/
theorem tally_propagate (hg : ∀ e, e.bar = -1 → g e = 0)
    (hbus : ∀ {n d}, b.busDev n = some d → d.bus < N) :
    tally g N ((propagate m b).list type) = tally g N (b.list type) := by
  induction m generalizing b with
  | zero => rfl
  | succ m ih =>
    have hkeep := propagateBus_busDev b (m + 1)
    show tally g N ((propagate m (propagateBus b (m + 1))).list type) = _
    rw [ih (by rwa [hkeep])]
    cases hd : b.busDev (m + 1) with
    | none =>
      unfold propagateBus
      rw [hd]
    | some d =>
      have hlt := (resourceBus_le b.busDev d.bus).trans_lt (hbus hd)
      rw [propagateBus_list hd]
      split
      · rw [tally_createEntry g hlt, hg _ rfl, zero_add]
      · rfl

theorem tally_checkDevices {maxPciBus : ℕ} {devs : List PciDevice} (ht : Topology maxPciBus devs)
    (hg : ∀ e, e.bar = -1 → g e = 0) :
    tally g (maxPciBus + 1) ((checkDevices maxPciBus devs).list type) =
      (((devs.flatMap deviceEntries).filter (·.type = type)).map g).sum := by
  have hlisted := listed_all ht
  have hbus : ∀ x ∈ devs, x.bus < maxPciBus + 1 := fun x hx => Nat.lt_succ_of_le (ht.busses x hx)
  unfold checkDevices
  rw [tally_propagate g hg fun hd => hbus _ (hlisted.busDev hd).1, tally_addDevices g hbus]
  simp [tally]

end Tally

/-! ## A network card behind a root port -/

def noBar : BarRegs := ⟨0, 0, 0⟩

/-- A root port to bus 1. -/
def rootPort : PciDevice :=
  ⟨0x0008, 0x0604, 1, fun _ => noBar, 0xf0, 0xf0, 0xfff1fff1, 0, some 0x0142, 0, none⟩

/-- A card with 64K of memory, 32 ports, and 16K of 64-bit memory. -/
def nic : PciDevice :=
  ⟨0x0100, 0x0200, 0,
    fun i => if i = 0 then ⟨0, 0xffff0000, 0⟩ else if i = 1 then ⟨1, 0xffffffe1, 0⟩
      else if i = 2 then ⟨0xc, 0xffffc00c, 0xffffffff⟩ else noBar,
    0, 0, 0, 0, none, 0, none⟩

theorem noBar_size {x : PciDevice} {i : ℕ} (h : x.bars i = noBar) :
    (pciBiosGetBar x i).2.1 = 0 := by
  unfold pciBiosGetBar
  rw [h]
  dsimp only
  split
  · rfl
  · rfl

/-- Root ports and cards with any numbers. -/
theorem nic_registers {devs : List PciDevice} (hcount : devs.length ≤ 2 ^ 16)
    (hdevs : ∀ x ∈ devs, ∃ bdf secbus, x = { rootPort with bdf := bdf, secondaryBus := secbus } ∨
      x = { nic with bdf := bdf, secondaryBus := secbus }) : RegistersOk devs where
  count := hcount
  bars x hx i := by
    obtain ⟨bdf, secbus, rfl | rfl⟩ := hdevs x hx
    · exact Or.inl (noBar_size rfl)
    · show (pciBiosGetBar nic i).2.1 = 0 ∨ ∃ k ≤ 40, (pciBiosGetBar nic i).2.1 = 2 ^ k
      rcases i with _ | _ | _ | i
      · exact Or.inr ⟨16, by decide, by decide⟩
      · exact Or.inr ⟨5, by decide, by decide⟩
      · exact Or.inr ⟨14, by decide, by decide⟩
      · exact Or.inl (noBar_size rfl)
  reserve x hx type := by
    have hnone : reserveSize x type = 0 := by
      obtain ⟨bdf, secbus, rfl | rfl⟩ := hdevs x hx <;> rfl
    rw [hnone]
    exact Nat.zero_le _
  forwards x hx hbridge type hnone := by
    obtain ⟨bdf, secbus, rfl | rfl⟩ := hdevs x hx
    · cases type <;> cases hnone
    · cases hbridge

theorem nic_topology : Topology 1 [rootPort, nic] where
  toRegistersOk := nic_registers (by decide) (List.forall_mem_cons.mpr ⟨⟨0x0008, 1, Or.inl rfl⟩,
    List.forall_mem_singleton.mpr ⟨0x0100, 0, Or.inr rfl⟩⟩)
  sorted := List.pairwise_cons.mpr ⟨by simp [rootPort, nic, PciDevice.bus],
    List.pairwise_singleton _ _⟩
  busses := by simp [rootPort, nic, PciDevice.bus]
  bridges := by simp [rootPort, nic, PciDevice.bus, PciDevice.isBridge]
  last := by decide

end KvmOsx.Firmware.Pci
