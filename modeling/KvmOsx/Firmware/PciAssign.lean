import KvmOsx.Firmware.PciRegions

/-!
# The addresses of the BARs (`pci_bios_map_devices`, `fw/pciinit.c` lines 978-1140)

The lists of bus 0 get their bases from the free address space. If the memory does not fit below
4G, the 64-bit entries of bus 0 move above the RAM. Then the regions are mapped, bus by bus: each
entry is written to its device, and one for a bridge is the base of the bus behind it.

* `layout`: the lists that `pci_bios_check_devices` leaves are a `Packing.Layout`.
* `mapDevices_spec`: every region is placed in the window of its bridge.
* `bars_apart`, `bars_once`, `bars_space`, `bars_aligned`, `bars_routed`: the BARs share no
  address, each is written once, inside the free space, aligned, and inside the windows of the
  bridges that it is behind.
-/

namespace KvmOsx.Firmware.Pci

open Packing

/-! ## Model -/

/-- `pcimem_start`, `pcimem_end`, `pci_io_low_end`, `RamSizeOver4G` and the romfile
    `etc/reserved-memory-end`. -/
structure PciConf where
  pcimemStart : ℕ
  pcimemEnd : ℕ
  pciIoLowEnd : ℕ
  ramSizeOver4G : ℕ
  reservedMemoryEnd : ℕ

/-- `PCI_CLASS_SERIAL_USB`. -/
def pciClassSerialUsb : ℕ := 0x0c03

/-- The regions: `r64_mem`, `r64_pref`, and those of the busses. -/
inductive Region
  | mem64
  | pref64
  | bus (n : ℕ) (type : RegionType)
  deriving DecidableEq

/-- What `pci_region_migrate_64bit_entries` moves. -/
def migrates (e : Entry) : Bool := e.is64 && e.dev.devClass != pciClassSerialUsb

/-- The entries of a region, with the 64-bit entries of bus 0 moved if `high`. -/
def regionList (b : Busses) (high : Bool) : Region → List Entry
  | .mem64 => (b.list .mem 0).filter fun e => high && migrates e
  | .pref64 => (b.list .prefmem 0).filter fun e => high && migrates e
  | .bus n type =>
    (b.list type n).filter fun e => !(high && n == 0 && type != .io && migrates e)

/-- `pci_bios_init_root_regions_io`. -/
def initRootRegionsIo (conf : PciConf) (l : List Entry) : Option ℕ :=
  let sum := pciRegionSum l
  if sum < 0x4000 then some 0xc000
  else if sum < u64 (conf.pciIoLowEnd + 2 ^ 64 - 0x1000) then some 0x1000
  else none

/-- `pci_bios_init_root_regions_mem`: the bases of the regions of `mem` and of `pref`. -/
def initRootRegionsMem (conf : PciConf) (mem pref : List Entry) : Option (ℕ × ℕ) :=
  let swap := pciRegionAlign mem < pciRegionAlign pref
  let rEnd := if swap then mem else pref
  let rStart := if swap then pref else mem
  let endBase :=
    alignDown64 (u64 (conf.pcimemEnd + 2 ^ 64 - pciRegionSum rEnd)) (pciRegionAlign rEnd)
  let startBase :=
    alignDown64 (u64 (endBase + 2 ^ 64 - pciRegionSum rStart)) (pciRegionAlign rStart)
  if startBase < conf.pcimemStart ∨ conf.pcimemEnd < startBase then none
  else some (if swap then (endBase, startBase) else (startBase, endBase))

/-- The bases of `r64_mem` and `r64_pref` (lines 1112-1120). -/
def initHighRegions (conf : PciConf) (mem pref : List Entry) : ℕ × ℕ :=
  let ramEnd := u64 (2 ^ 32 + conf.ramSizeOver4G)
  let base := if conf.reservedMemoryEnd < ramEnd then ramEnd else conf.reservedMemoryEnd
  let memBase := align64 (align64 base (pciRegionAlign mem)) (2 ^ 30)
  let prefBase :=
    align64 (align64 (u64 (memBase + pciRegionSum mem)) (pciRegionAlign pref)) (2 ^ 30)
  (memBase, prefBase)

/-- `busses[..].r[..].base` before the regions are mapped. -/
def rootBase (io : ℕ) (low high : ℕ × ℕ) : Region → ℕ
  | .mem64 => high.1
  | .pref64 => high.2
  | .bus 0 .io => io
  | .bus 0 .mem => low.1
  | .bus 0 .prefmem => low.2
  | .bus (_ + 1) _ => 0

/-- One entry of `pci_region_map_entries`: the bases, and what `pci_region_map_one_entry` is
    called with. -/
def mapEntry (r : Region) (st : (Region → ℕ) × List (Entry × ℕ)) (entry : Entry) :
    (Region → ℕ) × List (Entry × ℕ) :=
  let addr := st.1 r
  let base := Function.update st.1 r (u64 (addr + entry.size))
  let base :=
    if entry.bar = -1 then Function.update base (.bus entry.dev.secondaryBus entry.type) addr
    else base
  (base, st.2 ++ [(entry, addr)])

/-- The regions in the order in which they are mapped. Without the move, the first two are
    empty. -/
def regions (maxPciBus : ℕ) : List Region :=
  [.mem64, .pref64] ++
    (List.range (maxPciBus + 1)).flatMap fun n => [.bus n .io, .bus n .mem, .bus n .prefmem]

/-- `pci_region_map_entries` for every region. -/
def mapRegions (list : Region → List Entry) (maxPciBus : ℕ) (base : Region → ℕ) :
    List (Entry × ℕ) :=
  ((regions maxPciBus).foldl (fun st r => (list r).foldl (mapEntry r) st) (base, [])).2

/-- `pci_bios_map_devices`: the entries with their addresses, as they are written, or `none` if
    the code panics. -/
def mapDevices (conf : PciConf) (maxPciBus : ℕ) (b : Busses) : Option (List (Entry × ℕ)) := do
  let io ← initRootRegionsIo conf (b.list .io 0)
  match initRootRegionsMem conf (b.list .mem 0) (b.list .prefmem 0) with
  | some low => some (mapRegions (regionList b false) maxPciBus (rootBase io low (0, 0)))
  | none =>
    let list := regionList b true
    let low ← initRootRegionsMem conf (list (.bus 0 .mem)) (list (.bus 0 .prefmem))
    some (mapRegions list maxPciBus
      (rootBase io low (initHighRegions conf (list .mem64) (list .pref64))))

/-! ## The layout -/

variable {conf : PciConf} {maxPciBus : ℕ} {devs : List PciDevice} {b : Busses} {high : Bool}
  {r r' q : Region} {e e' : Entry} {n : ℕ} {type : RegionType}

/-- The list that the entries of a region come from. -/
def Region.kind : Region → RegionType
  | .mem64 => .mem
  | .pref64 => .prefmem
  | .bus _ type => type

def Region.rank : Region → ℕ
  | .bus n _ => n
  | _ => 0

/-- The region that an entry for a bridge is the window of. -/
def Entry.target (e : Entry) : Option Region :=
  if e.bar = -1 then some (.bus e.dev.secondaryBus e.type) else none

theorem Entry.target_eq_some : e.target = some q ↔
    e.bar = -1 ∧ q = .bus e.dev.secondaryBus e.type := by
  unfold Entry.target
  split
  next h => simp [h, eq_comm]
  next h => simp [h]

theorem regionList_sublist (b : Busses) (high : Bool) (r : Region) :
    (regionList b high r).Sublist (b.list r.kind r.rank) := by
  cases r with
  | mem64 => exact List.filter_sublist
  | pref64 => exact List.filter_sublist
  | bus n type => exact List.filter_sublist

theorem mem_regionList_kind (he : e ∈ regionList b high r) : e ∈ b.list r.kind r.rank :=
  (regionList_sublist b high r).subset he

/-- The region of an entry of a list. -/
def regionOf (high : Bool) (type : RegionType) (n : ℕ) (e : Entry) : Region :=
  if high ∧ n = 0 ∧ migrates e then
    match type with
    | .io => .bus n type
    | .mem => .mem64
    | .prefmem => .pref64
  else .bus n type

theorem regionOf_kind (high : Bool) (type : RegionType) (n : ℕ) (e : Entry) :
    (regionOf high type n e).kind = type ∧ (regionOf high type n e).rank = n := by
  unfold regionOf
  split
  next h =>
    obtain ⟨-, rfl, -⟩ := h
    cases type <;> exact ⟨rfl, rfl⟩
  next => exact ⟨rfl, rfl⟩

theorem mem_regionList : e ∈ regionList b high r ↔
    e ∈ b.list r.kind r.rank ∧ regionOf high r.kind r.rank e = r := by
  cases r with
  | mem64 => simp [regionList, regionOf, Region.kind, Region.rank]
  | pref64 => simp [regionList, regionOf, Region.kind, Region.rank]
  | bus n type =>
    by_cases hmove : high = true ∧ n = 0 ∧ migrates e = true
    · obtain ⟨rfl, rfl, hmove⟩ := hmove
      cases type <;> simp [regionList, regionOf, Region.kind, Region.rank, hmove]
    · have hstay : ((high = false ∨ ¬ n = 0) ∨ type = .io) ∨ migrates e = false := by grind
      simp [regionList, regionOf, Region.kind, Region.rank, hmove, hstay]

/-- An entry of a list is in one region. -/
theorem region_unique (he : e ∈ regionList b high r) (he' : e ∈ regionList b high r')
    (hkind : r.kind = r'.kind) (hrank : r.rank = r'.rank) : r = r' := by
  rw [← (mem_regionList.mp he).2, hkind, hrank, (mem_regionList.mp he').2]

theorem exists_region (high : Bool) (he : e ∈ b.list type n) :
    ∃ r : Region, r.kind = type ∧ r.rank = n ∧ e ∈ regionList b high r := by
  obtain ⟨hkind, hrank⟩ := regionOf_kind high type n e
  refine ⟨regionOf high type n e, hkind, hrank, mem_regionList.mpr ?_⟩
  rw [hkind, hrank]
  exact ⟨he, rfl⟩

/-- A window is that of the bus behind its bridge. -/
theorem window_spec (ht : Topology maxPciBus devs)
    (he : e ∈ regionList (checkDevices maxPciBus devs) high r) (hq : e.target = some q) :
    q = .bus e.dev.secondaryBus r.kind ∧ r.rank < e.dev.secondaryBus ∧
      (checkDevices maxPciBus devs).busDev e.dev.secondaryBus = some e.dev ∧
      Holds e (regionList (checkDevices maxPciBus devs) high q) := by
  have hs := checkDevices_sized ht r.kind
  have hmem := mem_regionList_kind he
  obtain ⟨hbar, hq⟩ := Entry.target_eq_some.mp hq
  obtain ⟨-, hdev, hholds⟩ := hs.window hmem hbar
  obtain ⟨hd, hbridge, -⟩ := (checkDevices_busDev ht).1 hdev
  have hlt := (ht.bridges _ hd hbridge).1
  have hrank : r.rank ≤ e.dev.bus := (hs.home hmem).le.trans (resourceBus_le _ _)
  rw [(hs.entry hmem).type_eq] at hq
  have hsub := regionList_sublist (checkDevices maxPciBus devs) high q
  rw [hq] at hsub ⊢
  refine ⟨rfl, by omega, hdev, ?_, fun c hc => hholds.align c (hsub.subset hc),
    fun h c hc => hholds.is64 h c (hsub.subset hc)⟩
  exact ((hsub.map Entry.size).sum_le_sum fun _ _ => Nat.zero_le _).trans hholds.size

/-- A list has one entry for a bridge. -/
theorem window_once (ht : Topology maxPciBus devs)
    (he : e ∈ (checkDevices maxPciBus devs).list type n)
    (he' : e' ∈ (checkDevices maxPciBus devs).list type n) (hbar : e.bar = -1)
    (hbar' : e'.bar = -1) (hsec : e.dev.secondaryBus = e'.dev.secondaryBus) : e = e' := by
  by_contra hne
  have hsymm : Std.Symm fun e e' : Entry =>
      e.bar = -1 → e'.bar = -1 → e.dev.secondaryBus ≠ e'.dev.secondaryBus :=
    ⟨fun _ _ h hbar hbar' => (h hbar' hbar).symm⟩
  exact ((checkDevices_sized ht type).once n).forall he he' hne hbar hbar' hsec

/-- The lists of `pci_bios_check_devices`, with or without the move. -/
def layout (ht : Topology maxPciBus devs) (high : Bool) : Layout Region Entry where
  items := regionList (checkDevices maxPciBus devs) high
  size := Entry.size
  target := Entry.target
  rank := Region.rank
  deeper he hq := by
    obtain ⟨rfl, hlt, -⟩ := window_spec ht he hq
    exact hlt
  fits he hq := (window_spec ht he hq).2.2.2.size
  home {r r' q e e'} he he' hq hq' := by
    obtain ⟨heq, -, hdev, -⟩ := window_spec ht he hq
    obtain ⟨heq', -, hdev', -⟩ := window_spec ht he' hq'
    obtain ⟨hsec, hkind⟩ := Region.bus.inj (heq.symm.trans heq')
    have hmem := mem_regionList_kind he
    have hmem' := mem_regionList_kind he'
    have hrank : r.rank = r'.rank := by
      rw [hsec, hdev'] at hdev
      rw [(checkDevices_sized ht r.kind).home hmem, (checkDevices_sized ht r'.kind).home hmem',
        Option.some.inj hdev]
    rw [← hkind, ← hrank] at hmem'
    have hsame := window_once ht hmem hmem' (Entry.target_eq_some.mp hq).1
      (Entry.target_eq_some.mp hq').1 hsec
    exact region_unique he (hsame ▸ he') hkind hrank
  once r := by
    refine ((checkDevices_sized ht r.kind).once r.rank).sublist (regionList_sublist _ high r)
      |>.imp fun {e e'} hne => ?_
    by_contra! h
    obtain ⟨hsome, heq⟩ := h
    obtain ⟨q, hq⟩ := Option.ne_none_iff_exists'.mp hsome
    obtain ⟨hbar, hsec⟩ := Entry.target_eq_some.mp hq
    obtain ⟨hbar', hsec'⟩ := Entry.target_eq_some.mp (heq ▸ hq)
    exact hne hbar hbar' (Region.bus.inj (hsec.symm.trans hsec')).1

/-- What is behind a bridge has a window. -/
theorem layout_rooted (ht : Topology maxPciBus devs) (high : Bool) : (layout ht high).Rooted := by
  intro r hr hrank
  obtain ⟨e, he⟩ := List.exists_mem_of_ne_nil _ hr
  have hs := checkDevices_sized ht r.kind
  have hmem := mem_regionList_kind he
  have hhome := hs.home hmem
  obtain ⟨d, hd⟩ : ∃ d, (checkDevices maxPciBus devs).busDev e.dev.bus = some d := by
    cases hd : (checkDevices maxPciBus devs).busDev e.dev.bus with
    | none =>
      unfold resourceBus at hhome
      rw [hd] at hhome
      exact absurd hhome hrank
    | some d => exact ⟨d, rfl⟩
  have hbus : r.rank = e.dev.bus := by
    unfold resourceBus at hhome
    rwa [hd] at hhome
  obtain ⟨hdmem, hbridge, hsec⟩ := (checkDevices_busDev ht).1 hd
  have hregion : pciBridgeHasRegion d r.kind = true := by
    by_contra hno
    obtain ⟨hdev, hsource⟩ := hs.source hmem
    obtain ⟨hnone, hbridges⟩ :=
      ht.forwards d hdmem hbridge r.kind (Bool.eq_false_iff.mpr hno) _ hdev hsec.symm
    rcases hsource with ⟨-, hbridge', hregion⟩ | ⟨-, hentry⟩
    · rw [hbridges hbridge'] at hregion
      cases hregion
    · exact hnone e hentry (hs.entry hmem).type_eq
  have hpos : 0 < e.dev.bus := Nat.pos_of_ne_zero fun hzero => hrank (hbus.trans hzero)
  obtain ⟨w, hw, hwbar, hwdev⟩ := hs.present hpos hd hregion
  obtain ⟨r', -, -, hw'⟩ := exists_region high hw
  refine ⟨r', w, hw', Entry.target_eq_some.mpr ⟨hwbar, ?_⟩⟩
  rw [hwdev, hsec, (hs.entry hw).type_eq, ← hbus]
  cases r with
  | mem64 => exact absurd rfl hrank
  | pref64 => exact absurd rfl hrank
  | bus n type => rfl

/-! ## Behind a bridge -/

/-- Bridge `d` is between bus `n` and the root. -/
inductive Above (devs : List PciDevice) : ℕ → PciDevice → Prop
  | here {d : PciDevice} : d ∈ devs → d.isBridge → Above devs d.secondaryBus d
  | up {d d' : PciDevice} : d' ∈ devs → d'.isBridge → Above devs d'.bus d →
      Above devs d'.secondaryBus d

/-- Two entries are apart, or one is for a bridge that the other is behind. -/
def Parted (devs : List PciDevice) (p q : Entry × ℕ) : Prop :=
  p.2 + p.1.size ≤ q.2 ∨ q.2 + q.1.size ≤ p.2 ∨
    q.1.bar = -1 ∧ Above devs p.1.dev.bus q.1.dev ∨ p.1.bar = -1 ∧ Above devs q.1.dev.bus p.1.dev

theorem Parted.symm {p q : Entry × ℕ} (h : Parted devs p q) : Parted devs q p := by
  rcases h with h | h | h | h
  · exact Or.inr (Or.inl h)
  · exact Or.inl h
  · exact Or.inr (Or.inr (Or.inr h))
  · exact Or.inr (Or.inr (Or.inl h))

/-- What is in the window of a bridge is right behind the bridge. -/
theorem window_home (ht : Topology maxPciBus devs)
    (hw : e' ∈ regionList (checkDevices maxPciBus devs) high r) (hq : e'.target = some q)
    (he : e ∈ regionList (checkDevices maxPciBus devs) high q) :
    e'.dev ∈ devs ∧ e'.dev.isBridge ∧ e.dev.bus = e'.dev.secondaryBus := by
  obtain ⟨rfl, hlt, hdev, -⟩ := window_spec ht hw hq
  obtain ⟨hmem, hbridge, -⟩ := (checkDevices_busDev ht).1 hdev
  have hhome : e'.dev.secondaryBus =
      resourceBus (checkDevices maxPciBus devs).busDev e.dev.bus :=
    (checkDevices_sized ht r.kind).home (mem_regionList_kind he)
  refine ⟨hmem, hbridge, ?_⟩
  unfold resourceBus at hhome
  split at hhome
  · exact hhome.symm
  · omega

theorem behind_above (ht : Topology maxPciBus devs) {p : Region × ℕ}
    (h : (layout ht high).Behind r p) (hget : ((layout ht high).items p.1)[p.2]? = some e')
    (he : e ∈ (layout ht high).items r) : e'.bar = -1 ∧ Above devs e.dev.bus e'.dev := by
  induction h generalizing e with
  | self hget' hb =>
    obtain rfl := Option.some.inj (hget'.symm.trans hget)
    obtain ⟨hmem, hbridge, hbus⟩ := window_home ht (List.mem_of_getElem? hget) hb he
    exact ⟨(Entry.target_eq_some.mp hb).1, hbus ▸ .here hmem hbridge⟩
  | up hmem hb _ ih =>
    obtain ⟨hdev, hbridge, hbus⟩ := window_home ht hmem hb he
    obtain ⟨hbar, habove⟩ := ih hget hmem
    exact ⟨hbar, hbus ▸ .up hdev hbridge habove⟩

/-! ## The free space -/

variable {l l' mem pref : List Entry} {io : ℕ} {low : ℕ × ℕ}

/-- The 32-bit window ends below 4G, and no size overflows. -/
structure ConfOk (conf : PciConf) : Prop where
  pcimemEnd : conf.pcimemEnd < 2 ^ 32
  pciIoLowEnd : 0x1000 ≤ conf.pciIoLowEnd ∧ conf.pciIoLowEnd ≤ 0x10000
  ramSizeOver4G : conf.ramSizeOver4G ≤ 2 ^ 60
  reservedMemoryEnd : conf.reservedMemoryEnd ≤ 2 ^ 60

/-- What the bases of the root regions need to know of a list. -/
structure ListOk (l : List Entry) : Prop where
  align : IsSize (pciRegionAlign l)
  size : total Entry.size l ≤ 2 ^ 60

theorem ListOk.sum (h : ListOk l) : pciRegionSum l = total Entry.size l := by
  have hsize := h.size
  exact Nat.mod_eq_of_lt (by omega)

theorem initRootRegionsIo_spec (hc : ConfOk conf) (hl : ListOk l)
    (h : initRootRegionsIo conf l = some io) :
    0x1000 ≤ io ∧ io + total Entry.size l ≤ 0x10000 := by
  have hend := hc.pciIoLowEnd
  have hword : u64 (conf.pciIoLowEnd + 2 ^ 64 - 0x1000) = conf.pciIoLowEnd - 0x1000 := by
    unfold u64
    omega
  unfold initRootRegionsIo at h
  rw [hl.sum, hword] at h
  dsimp only at h
  split at h
  · obtain rfl := Option.some.inj h
    omega
  · split at h
    · obtain rfl := Option.some.inj h
      omega
    · cases h

/-- A region below `top`, and what a failed subtraction gives. -/
theorem alignDown_below (hl : ListOk l) {top base : ℕ} (htop : top < 2 ^ 64)
    (hbase : base = alignDown64 (u64 (top + 2 ^ 64 - pciRegionSum l)) (pciRegionAlign l)) :
    pciRegionAlign l ∣ base ∧ base < 2 ^ 64 ∧
      (base + total Entry.size l ≤ top ∧ top < base + total Entry.size l + 2 ^ 40 ∨
        top < total Entry.size l ∧ 2 ^ 64 + top < base + total Entry.size l + 2 ^ 40) := by
  obtain ⟨k, hk, halign⟩ := hl.align
  have hle : 2 ^ k ≤ 2 ^ 40 := Nat.pow_le_pow_right (by decide) hk
  have hlt : u64 (top + 2 ^ 64 - pciRegionSum l) < 2 ^ 64 := Nat.mod_lt _ (by decide)
  have hspec := alignDown64_spec (k := k) (by omega) hlt
  rw [← halign, ← hbase, halign] at hspec
  refine ⟨halign ▸ hspec.2.2, hspec.1.trans_lt hlt, ?_⟩
  have hsize := hl.size
  rw [hl.sum] at hspec
  unfold u64 at hspec
  omega

theorem initRootRegionsMem_spec (hc : ConfOk conf) (hmem : ListOk mem) (hpref : ListOk pref)
    (h : initRootRegionsMem conf mem pref = some low) :
    (conf.pcimemStart ≤ low.1 ∧ low.1 + total Entry.size mem ≤ conf.pcimemEnd) ∧
      (conf.pcimemStart ≤ low.2 ∧ low.2 + total Entry.size pref ≤ conf.pcimemEnd) ∧
      (low.1 + total Entry.size mem ≤ low.2 ∨ low.2 + total Entry.size pref ≤ low.1) ∧
      pciRegionAlign mem ∣ low.1 ∧ pciRegionAlign pref ∣ low.2 := by
  have hend := hc.pcimemEnd
  -- One region above the other, whichever comes first.
  have hstack : ∀ {rStart rEnd endBase startBase}, ListOk rStart → ListOk rEnd →
      endBase = alignDown64 (u64 (conf.pcimemEnd + 2 ^ 64 - pciRegionSum rEnd))
        (pciRegionAlign rEnd) →
      startBase = alignDown64 (u64 (endBase + 2 ^ 64 - pciRegionSum rStart))
        (pciRegionAlign rStart) →
      ¬ (startBase < conf.pcimemStart ∨ conf.pcimemEnd < startBase) →
      conf.pcimemStart ≤ startBase ∧ startBase + total Entry.size rStart ≤ endBase ∧
        endBase + total Entry.size rEnd ≤ conf.pcimemEnd ∧ pciRegionAlign rStart ∣ startBase ∧
        pciRegionAlign rEnd ∣ endBase := by
    intro rStart rEnd endBase startBase hs he hendBase hstartBase hin
    obtain ⟨hdvd, hlt, hbelow⟩ := alignDown_below he (by omega) hendBase
    obtain ⟨hdvd', hlt', hbelow'⟩ := alignDown_below hs hlt hstartBase
    have hsize := he.size
    have hsize' := hs.size
    exact ⟨by omega, by omega, by omega, hdvd', hdvd⟩
  unfold initRootRegionsMem at h
  dsimp only at h
  by_cases hswap : pciRegionAlign mem < pciRegionAlign pref
  · simp only [if_pos hswap] at h
    split at h
    · cases h
    next hin =>
      obtain rfl := Option.some.inj h
      have hspec := hstack hpref hmem rfl rfl hin
      exact ⟨by omega, by omega, by omega, hspec.2.2.2.2, hspec.2.2.2.1⟩
  · simp only [if_neg hswap] at h
    split at h
    · cases h
    next hin =>
      obtain rfl := Option.some.inj h
      have hspec := hstack hmem hpref rfl rfl hin
      exact ⟨by omega, by omega, by omega, hspec.2.2.2.1, hspec.2.2.2.2⟩

/-- `ALIGN` to the alignment of a region, and then to a huge page. -/
theorem align_page (hl : ListOk l) {x : ℕ} (hx : x ≤ 2 ^ 62) :
    x ≤ align64 (align64 x (pciRegionAlign l)) (2 ^ 30) ∧
      align64 (align64 x (pciRegionAlign l)) (2 ^ 30) < x + 2 ^ 41 ∧
      pciRegionAlign l ∣ align64 (align64 x (pciRegionAlign l)) (2 ^ 30) := by
  obtain ⟨k, hk, halign⟩ := hl.align
  have hle : 2 ^ k ≤ 2 ^ 40 := Nat.pow_le_pow_right (by decide) hk
  rw [halign]
  obtain ⟨y, hy⟩ : ∃ y, y = align64 x (2 ^ k) := ⟨_, rfl⟩
  have hspec := align64_spec (x := x) (k := k) (by omega) (by omega)
  rw [← hy] at hspec ⊢
  have hpage := align64_spec (x := y) (k := 30) (by decide) (by omega)
  refine ⟨by omega, by omega, ?_⟩
  rcases le_total k 30 with hk30 | hk30
  · exact (Nat.pow_dvd_pow 2 hk30).trans hpage.2.2
  · -- A larger alignment is one of pages, and the second `ALIGN` does nothing.
    have hy30 : 2 ^ 30 ∣ y := (Nat.pow_dvd_pow 2 hk30).trans hspec.2.2
    obtain ⟨c, hc⟩ := hpage.2.2
    obtain ⟨c', hc'⟩ := hy30
    have hsame : align64 y (2 ^ 30) = y := by omega
    rw [hsame]
    exact hspec.2.2

theorem initHighRegions_spec (hc : ConfOk conf) (hmem : ListOk mem) (hpref : ListOk pref)
    {high : ℕ × ℕ} (h : high = initHighRegions conf mem pref) :
    2 ^ 32 + conf.ramSizeOver4G ≤ high.1 ∧ high.1 + total Entry.size mem ≤ high.2 ∧
      high.2 + total Entry.size pref ≤ 2 ^ 63 ∧ pciRegionAlign mem ∣ high.1 ∧
      pciRegionAlign pref ∣ high.2 := by
  have hram := hc.ramSizeOver4G
  have hres := hc.reservedMemoryEnd
  have hword : u64 (2 ^ 32 + conf.ramSizeOver4G) = 2 ^ 32 + conf.ramSizeOver4G :=
    Nat.mod_eq_of_lt (by omega)
  obtain ⟨base, hbase⟩ : ∃ base, base =
      if conf.reservedMemoryEnd < u64 (2 ^ 32 + conf.ramSizeOver4G) then
        u64 (2 ^ 32 + conf.ramSizeOver4G) else conf.reservedMemoryEnd := ⟨_, rfl⟩
  have hbounds : 2 ^ 32 + conf.ramSizeOver4G ≤ base ∧ base ≤ 2 ^ 60 + 2 ^ 32 := by
    rw [hbase, hword]
    split <;> omega
  have hfirst : high.1 = align64 (align64 base (pciRegionAlign mem)) (2 ^ 30) := by
    rw [h, hbase]
    rfl
  have hspec := align_page hmem (x := base) (by omega)
  rw [← hfirst] at hspec
  have hsize := hmem.size
  have hsize' := hpref.size
  have hsum : u64 (high.1 + pciRegionSum mem) = high.1 + total Entry.size mem := by
    rw [hmem.sum]
    exact Nat.mod_eq_of_lt (by omega)
  have hsecond : high.2 =
      align64 (align64 (high.1 + total Entry.size mem) (pciRegionAlign pref)) (2 ^ 30) := by
    rw [← hsum, h]
    rfl
  have hspec' := align_page hpref (x := high.1 + total Entry.size mem) (by omega)
  rw [← hsecond] at hspec'
  exact ⟨by omega, by omega, by omega, hspec.2.2, hspec'.2.2⟩

/-! ## The regions at their addresses -/

variable {base : Region → ℕ} {list : Region → List Entry} {log : List (Entry × ℕ)}

/-- The bases that the root regions begin with. -/
structure Roots (conf : PciConf) (list : Region → List Entry) (base : Region → ℕ) : Prop where
  io : 0x1000 ≤ base (.bus 0 .io) ∧
    base (.bus 0 .io) + total Entry.size (list (.bus 0 .io)) ≤ 0x10000
  mem : conf.pcimemStart ≤ base (.bus 0 .mem) ∧
    base (.bus 0 .mem) + total Entry.size (list (.bus 0 .mem)) ≤ conf.pcimemEnd
  prefmem : conf.pcimemStart ≤ base (.bus 0 .prefmem) ∧
    base (.bus 0 .prefmem) + total Entry.size (list (.bus 0 .prefmem)) ≤ conf.pcimemEnd
  apart : base (.bus 0 .mem) + total Entry.size (list (.bus 0 .mem)) ≤ base (.bus 0 .prefmem) ∨
    base (.bus 0 .prefmem) + total Entry.size (list (.bus 0 .prefmem)) ≤ base (.bus 0 .mem)
  high : list .mem64 = [] ∧ list .pref64 = [] ∧ base .mem64 = 0 ∧ base .pref64 = 0 ∨
    2 ^ 32 + conf.ramSizeOver4G ≤ base .mem64
  pref64 : base .mem64 + total Entry.size (list .mem64) ≤ base .pref64 ∧
    base .pref64 + total Entry.size (list .pref64) ≤ 2 ^ 63
  align : ∀ r : Region, r.kind ≠ .io → r.rank = 0 → pciRegionAlign (list r) ∣ base r

theorem Roots.congr {base₀ : Region → ℕ} (h : Roots conf list base₀)
    (hbase : ∀ r : Region, r.rank = 0 → base r = base₀ r) : Roots conf list base := by
  have hio := hbase (.bus 0 .io) rfl
  have hmem := hbase (.bus 0 .mem) rfl
  have hprefmem := hbase (.bus 0 .prefmem) rfl
  have hmem64 := hbase .mem64 rfl
  have hpref64 := hbase .pref64 rfl
  constructor
  · rw [hio]
    exact h.io
  · rw [hmem]
    exact h.mem
  · rw [hprefmem]
    exact h.prefmem
  · rw [hmem, hprefmem]
    exact h.apart
  · rw [hmem64, hpref64]
    exact h.high
  · rw [hmem64, hpref64]
    exact h.pref64
  · intro r hkind hrank
    rw [hbase r hrank]
    exact h.align r hkind hrank

theorem regionList_false (b : Busses) (n : ℕ) (type : RegionType) :
    regionList b false (.bus n type) = b.list type n :=
  List.filter_eq_self.mpr fun _ _ => rfl

theorem regionList_io (b : Busses) (high : Bool) (n : ℕ) :
    regionList b high (.bus n .io) = b.list .io n :=
  List.filter_eq_self.mpr fun _ _ => by simp

theorem regionList_ok (ht : Topology maxPciBus devs) (high : Bool) (r : Region) :
    ListOk (regionList (checkDevices maxPciBus devs) high r) where
  align := pciRegionAlign_isSize fun _ he =>
    ((checkDevices_sized ht r.kind).entry (mem_regionList_kind he)).align
  size := by
    have hs := checkDevices_sized ht r.kind
    have hle : total Entry.size ((checkDevices maxPciBus devs).list r.kind r.rank) ≤ 2 ^ 60 := by
      rcases Nat.eq_zero_or_pos r.rank with hzero | hpos
      · have hroom := hs.room
        have htally : total Entry.size ((checkDevices maxPciBus devs).list r.kind 0) ≤
          tally Entry.size (0 + 1) ((checkDevices maxPciBus devs).list r.kind) :=
            total_le_tally Nat.one_pos
        rw [hzero]
        omega
      · exact hs.done hpos
    exact (((regionList_sublist _ high r).map Entry.size).sum_le_sum
      fun _ _ => Nat.zero_le _).trans hle

theorem mapEntry_eq (ht : Topology maxPciBus devs) (high : Bool) (r : Region)
    (st : (Region → ℕ) × List (Entry × ℕ)) (e : Entry) :
    mapEntry r st e = (layout ht high).putItem (2 ^ 64) r st e := by
  unfold mapEntry Layout.putItem
  show _ = (e.target.elim _ _, _)
  unfold Entry.target
  split <;> rfl

/-- The bases are set, and the entries are mapped. -/
theorem mapDevices_roots (hc : ConfOk conf) (ht : Topology maxPciBus devs)
    (h : mapDevices conf maxPciBus (checkDevices maxPciBus devs) = some log) :
    ∃ high base, Roots conf (layout ht high).items base ∧
      (∀ n type, base (.bus (n + 1) type) = 0) ∧
      log = mapRegions (layout ht high).items maxPciBus base := by
  have hok := regionList_ok ht
  unfold mapDevices at h
  obtain ⟨io, hio, h⟩ := Option.bind_eq_some_iff.mp h
  have hio : ∀ high, 0x1000 ≤ io ∧ io + total Entry.size
      (regionList (checkDevices maxPciBus devs) high (.bus 0 .io)) ≤ 0x10000 := fun high =>
    initRootRegionsIo_spec hc (hok high _) (by rwa [regionList_io])
  cases hlow : initRootRegionsMem conf ((checkDevices maxPciBus devs).list .mem 0)
      ((checkDevices maxPciBus devs).list .prefmem 0) with
  | some low =>
    rw [hlow] at h
    rw [← regionList_false _ 0 .mem, ← regionList_false _ 0 .prefmem] at hlow
    have hspec := initRootRegionsMem_spec hc (hok _ _) (hok _ _) hlow
    have hempty : ∀ r, r = .mem64 ∨ r = .pref64 →
        regionList (checkDevices maxPciBus devs) false r = [] := by
      rintro r (rfl | rfl)
      · exact List.filter_eq_nil_iff.mpr fun _ _ => by simp
      · exact List.filter_eq_nil_iff.mpr fun _ _ => by simp
    have hmem := hempty .mem64 (Or.inl rfl)
    have hpref := hempty .pref64 (Or.inr rfl)
    refine ⟨false, rootBase io low (0, 0), ⟨hio false, hspec.1, hspec.2.1, hspec.2.2.1,
      Or.inl ⟨hmem, hpref, rfl, rfl⟩, ?_, ?_⟩, fun _ _ => rfl, (Option.some.inj h).symm⟩
    · show 0 + total Entry.size (regionList _ false .mem64) ≤ 0 ∧
        0 + total Entry.size (regionList _ false .pref64) ≤ 2 ^ 63
      rw [hmem, hpref]
      exact ⟨le_refl _, Nat.zero_le _⟩
    · rintro (_ | _ | ⟨n, type⟩) hkind hrank
      · exact dvd_zero _
      · exact dvd_zero _
      · obtain rfl : n = 0 := hrank
        cases type with
        | io => exact absurd rfl hkind
        | mem => exact hspec.2.2.2.1
        | prefmem => exact hspec.2.2.2.2
  | none =>
    rw [hlow] at h
    obtain ⟨low, hlow', h⟩ := Option.bind_eq_some_iff.mp h
    have hspec := initRootRegionsMem_spec hc (hok _ _) (hok _ _) hlow'
    obtain ⟨top, htop⟩ : ∃ top, top = initHighRegions conf
        (regionList (checkDevices maxPciBus devs) true .mem64)
        (regionList (checkDevices maxPciBus devs) true .pref64) := ⟨_, rfl⟩
    have hhigh := initHighRegions_spec hc (hok _ _) (hok _ _) htop
    rw [← htop] at h
    refine ⟨true, rootBase io low top, ⟨hio true, hspec.1, hspec.2.1, hspec.2.2.1,
      Or.inr hhigh.1, ⟨hhigh.2.1, hhigh.2.2.1⟩, ?_⟩, fun _ _ => rfl, (Option.some.inj h).symm⟩
    rintro (_ | _ | ⟨n, type⟩) hkind hrank
    · exact hhigh.2.2.2.1
    · exact hhigh.2.2.2.2
    · obtain rfl : n = 0 := hrank
      cases type with
      | io => exact absurd rfl hkind
      | mem => exact hspec.2.2.2.1
      | prefmem => exact hspec.2.2.2.2

theorem regions_pairwise (maxPciBus : ℕ) :
    (regions maxPciBus).Pairwise (fun r r' => r.rank ≤ r'.rank) ∧ (regions maxPciBus).Nodup := by
  have hbus : ∀ {n : ℕ} {r : Region}, r ∈ [Region.bus n .io, .bus n .mem, .bus n .prefmem] →
      r.rank = n := by
    intro n r hr
    simp only [List.mem_cons, List.not_mem_nil, or_false] at hr
    rcases hr with rfl | rfl | rfl <;> rfl
  constructor
  · refine List.pairwise_cons.mpr ⟨fun _ _ => Nat.zero_le _,
      List.pairwise_cons.mpr ⟨fun _ _ => Nat.zero_le _, List.pairwise_flatMap.mpr ⟨?_, ?_⟩⟩⟩
    · intro n _
      exact List.pairwise_of_forall_mem_list fun r hr r' hr' =>
        ((hbus hr).trans (hbus hr').symm).le
    · refine List.pairwise_lt_range.imp fun {n m} hlt r hr r' hr' => ?_
      rw [hbus hr, hbus hr']
      exact hlt.le
  · refine List.nodup_cons.mpr ⟨by simp, List.nodup_cons.mpr ⟨by simp, ?_⟩⟩
    refine List.nodup_flatMap.mpr ⟨fun n _ => by simp, ?_⟩
    refine List.nodup_range.imp fun {n m} hne r hr hr' => ?_
    exact hne ((hbus hr).symm.trans (hbus hr'))

theorem mem_regions : r ∈ regions maxPciBus ↔ r.rank ≤ maxPciBus := by
  cases r with
  | mem64 => simp [regions, Region.rank]
  | pref64 => simp [regions, Region.rank]
  | bus n type => cases type <;> simp [regions, Region.rank]

theorem regionList_rank (ht : Topology maxPciBus devs)
    (he : e ∈ regionList (checkDevices maxPciBus devs) high r) : r.rank ≤ maxPciBus := by
  have hs := checkDevices_sized ht r.kind
  have hmem := mem_regionList_kind he
  have hdev := ht.busses _ (hs.source hmem).1
  exact (hs.home hmem).le.trans ((resourceBus_le _ _).trans hdev)

/-- **`pci_bios_map_devices`** puts the root regions into the free space, and every other region
    into the window of its bridge. -/
theorem mapDevices_spec (hc : ConfOk conf) (ht : Topology maxPciBus devs)
    (h : mapDevices conf maxPciBus (checkDevices maxPciBus devs) = some log) :
    ∃ high base, (layout ht high).Based base ∧ Roots conf (layout ht high).items base ∧
      log = (regions maxPciBus).flatMap fun r =>
        place Entry.size (base r) ((layout ht high).items r) := by
  obtain ⟨high, base₀, hroots, hrest, hlog⟩ := mapDevices_roots hc ht h
  have hfit : ∀ r ∈ regions maxPciBus,
      base₀ r + total Entry.size ((layout ht high).items r) < 2 ^ 64 := by
    intro r _
    have hend := hc.pcimemEnd
    have hsize := (regionList_ok ht high r).size
    rcases r with _ | _ | ⟨_ | n, type⟩
    · have hspec := hroots.pref64
      omega
    · have hspec := hroots.pref64
      omega
    · cases type with
      | io =>
        have hspec := hroots.io
        omega
      | mem =>
        have hspec := hroots.mem
        omega
      | prefmem =>
        have hspec := hroots.prefmem
        omega
    · rw [hrest]
      change total Entry.size ((layout ht high).items (.bus (n + 1) type)) ≤ 2 ^ 60 at hsize
      omega
  obtain ⟨hrank, hnodup⟩ := regions_pairwise maxPciBus
  obtain ⟨base, hbased, hput, hkeep⟩ :=
    (layout ht high).putAll_based (base₀, []) hrank hnodup hfit
  have hroot : ∀ r : Region, r.rank = 0 → base r = base₀ r := by
    intro r hzero
    refine hkeep r fun r' _ e he hr => ?_
    have hlt : r'.rank < r.rank := (layout ht high).deeper he hr
    omega
  have hentry : mapEntry = (layout ht high).putItem (2 ^ 64) :=
    funext fun r => funext fun st => funext fun e => mapEntry_eq ht high r st e
  refine ⟨high, base, ?_, hroots.congr hroot, ?_⟩
  · intro r k e addr q hat hq
    exact hbased r (mem_regions.mpr (regionList_rank ht hat.mem)) hat hq
  · rw [hlog]
    unfold mapRegions
    rw [hentry]
    exact hput

/-! ## What is written -/

/-- I/O ports, or memory. -/
def Region.space (r : Region) : Bool := r.kind == .io

theorem Region.of_rank (h : r.rank = 0) : r = .mem64 ∨ r = .pref64 ∨ ∃ type, r = .bus 0 type := by
  rcases r with _ | _ | ⟨n, type⟩
  · exact Or.inl rfl
  · exact Or.inr (Or.inl rfl)
  · obtain rfl : n = 0 := h
    exact Or.inr (Or.inr ⟨type, rfl⟩)

/-- The move takes nothing away from the lists of bus 0. -/
theorem tally_moved {M : Type*} [AddCommMonoid M] (g : Entry → M) (b : Busses) (high : Bool)
    (N : ℕ) (hmoved : r.rank = 0) (hkind : r.kind ≠ .io) (hbus : r ≠ .bus 0 r.kind) :
    ((regionList b high r).map g).sum +
      tally g (N + 1) (fun n => regionList b high (.bus n r.kind)) =
        tally g (N + 1) (b.list r.kind) := by
  have hlist : ∀ n, regionList b high (.bus (n + 1) r.kind) = b.list r.kind (n + 1) := fun n =>
    List.filter_eq_self.mpr fun _ _ => by simp
  have hsplit : ((regionList b high r).map g).sum +
      ((regionList b high (.bus 0 r.kind)).map g).sum = ((b.list r.kind 0).map g).sum := by
    have hstay : regionList b high (.bus 0 r.kind) =
        (b.list r.kind 0).filter fun e => !(high && migrates e) := by
      refine List.filter_congr fun e _ => ?_
      rw [bne_iff_ne.mpr hkind]
      cases high <;> rfl
    have hmove : regionList b high r = (b.list r.kind 0).filter fun e => high && migrates e := by
      rcases Region.of_rank hmoved with rfl | rfl | ⟨type, rfl⟩
      · rfl
      · rfl
      · exact absurd rfl hbus
    rw [hstay, hmove, ← List.sum_append, ← List.map_append]
    exact ((List.filter_append_perm _ _).map g).sum_eq
  have hrest : ∑ n ∈ Finset.range N, ((regionList b high (.bus (n + 1) r.kind)).map g).sum =
      ∑ n ∈ Finset.range N, ((b.list r.kind (n + 1)).map g).sum :=
    Finset.sum_congr rfl fun n _ => by rw [hlist n]
  unfold tally
  rw [Finset.sum_range_succ', Finset.sum_range_succ', hrest, ← hsplit]
  abel

/-- The regions hold what the lists do. -/
theorem sum_regions {M : Type*} [AddCommMonoid M] (g : Entry → M) (b : Busses) (high : Bool)
    (N : ℕ) : (((regions N).flatMap (regionList b high)).map g).sum =
      tally g (N + 1) (b.list .io) + tally g (N + 1) (b.list .mem) +
        tally g (N + 1) (b.list .prefmem) := by
  have hbus : (((List.range (N + 1)).flatMap fun n => regionList b high (.bus n .io) ++
        (regionList b high (.bus n .mem) ++ regionList b high (.bus n .prefmem))).map g).sum =
      tally g (N + 1) (b.list .io) + (tally g (N + 1) (fun n => regionList b high (.bus n .mem)) +
        tally g (N + 1) (fun n => regionList b high (.bus n .prefmem))) := by
    unfold tally
    rw [← Finset.sum_add_distrib, ← Finset.sum_add_distrib, List.map_flatMap, List.flatMap,
      List.sum_flatten, List.map_map]
    refine congrArg List.sum (List.map_congr_left fun n _ => ?_)
    show ((regionList b high (.bus n .io) ++ (regionList b high (.bus n .mem) ++
      regionList b high (.bus n .prefmem))).map g).sum = _
    rw [List.map_append, List.map_append, List.sum_append, List.sum_append, regionList_io]
  have hmem := tally_moved g b high N (r := .mem64) rfl (by decide) (by decide)
  have hpref := tally_moved g b high N (r := .pref64) rfl (by decide) (by decide)
  have hregions : (regions N).flatMap (regionList b high) =
      regionList b high .mem64 ++ (regionList b high .pref64 ++
        (List.range (N + 1)).flatMap fun n => regionList b high (.bus n .io) ++
          (regionList b high (.bus n .mem) ++ regionList b high (.bus n .prefmem))) := by
    simp [regions, List.flatMap_assoc]
  rw [hregions, List.map_append, List.map_append, List.sum_append, List.sum_append, hbus]
  change _ + tally g (N + 1) (fun n => regionList b high (.bus n .mem)) =
    tally g (N + 1) (b.list .mem) at hmem
  change _ + tally g (N + 1) (fun n => regionList b high (.bus n .prefmem)) =
    tally g (N + 1) (b.list .prefmem) at hpref
  rw [← hmem, ← hpref]
  abel

/-- The roots of a space are apart. -/
theorem Roots.apart' (hc : ConfOk conf) (h : Roots conf list base) (hr : r.rank = 0)
    (hr' : r'.rank = 0) (hspace : r.space = r'.space) (hne : r ≠ r') :
    base r + total Entry.size (list r) ≤ base r' ∨
      base r' + total Entry.size (list r') ≤ base r := by
  have hend := hc.pcimemEnd
  have hmem := h.mem
  have hprefmem := h.prefmem
  have hlow := h.apart
  have hpref64 := h.pref64
  have hhigh : total Entry.size (list .mem64) = 0 ∧ total Entry.size (list .pref64) = 0 ∧
      base .mem64 = 0 ∧ base .pref64 = 0 ∨ 2 ^ 32 + conf.ramSizeOver4G ≤ base .mem64 := by
    rcases h.high with ⟨hmem, hpref, hbase⟩ | hhigh
    · rw [hmem, hpref]
      exact Or.inl ⟨rfl, rfl, hbase⟩
    · exact Or.inr hhigh
  rcases Region.of_rank hr with rfl | rfl | ⟨_ | _ | _, rfl⟩ <;>
    rcases Region.of_rank hr' with rfl | rfl | ⟨_ | _ | _, rfl⟩ <;>
      first
      | exact absurd rfl hne
      | exact absurd hspace (by decide)
      | omega

/-- A region of a kind is inside the space for it. -/
structure InSpace (conf : PciConf) (base : ℕ) (l : List Entry) (type : RegionType) : Prop where
  io : type = .io → 0x1000 ≤ base ∧ base + total Entry.size l ≤ 0x10000
  mem : type ≠ .io → conf.pcimemStart ≤ base ∧ base + total Entry.size l ≤ conf.pcimemEnd ∨
    (∀ e ∈ l, e.is64) ∧ 2 ^ 32 + conf.ramSizeOver4G ≤ base ∧ base + total Entry.size l ≤ 2 ^ 63

theorem Roots.inSpace (h : Roots conf list base)
    (hmoved : ∀ e, e ∈ list .mem64 ∨ e ∈ list .pref64 → e.is64) (hrank : r.rank = 0)
    (hne : list r ≠ []) : InSpace conf (base r) (list r) r.kind := by
  have hpref64 := h.pref64
  rcases Region.of_rank hrank with rfl | rfl | ⟨_ | _ | _, rfl⟩
  · refine ⟨fun hkind => absurd hkind (by decide), fun _ => ?_⟩
    rcases h.high with ⟨hnil, -⟩ | hhigh
    · exact absurd hnil hne
    · exact Or.inr ⟨fun e he => hmoved e (Or.inl he), by omega, by omega⟩
  · refine ⟨fun hkind => absurd hkind (by decide), fun _ => ?_⟩
    rcases h.high with ⟨-, hnil, -⟩ | hhigh
    · exact absurd hnil hne
    · exact Or.inr ⟨fun e he => hmoved e (Or.inr he), by omega, by omega⟩
  · exact ⟨fun _ => h.io, fun hkind => absurd rfl hkind⟩
  · exact ⟨fun hkind => absurd hkind (by decide), fun _ => Or.inl h.mem⟩
  · exact ⟨fun hkind => absurd hkind (by decide), fun _ => Or.inl h.prefmem⟩

/-- An entry for a BAR, as a bag. -/
def barBag (e : Entry) : Multiset Entry := if 0 ≤ e.bar then {e} else 0

theorem barBag_bridge (e : Entry) (he : e.bar = -1) : barBag e = 0 := if_neg (by omega)

theorem sum_barBag (l : List Entry) :
    (l.map barBag).sum = ((l.filter fun e => 0 ≤ e.bar : List Entry) : Multiset Entry) := by
  induction l with
  | nil => rfl
  | cons e l ih =>
    rw [List.map_cons, List.sum_cons, ih]
    by_cases he : 0 ≤ e.bar
    · rw [List.filter_cons_of_pos (by simpa using he)]
      unfold barBag
      rw [if_pos he]
      rfl
    · rw [List.filter_cons_of_neg (by simpa using he)]
      unfold barBag
      rw [if_neg he]
      exact zero_add _

theorem sum_barBag_of (hl : ∀ e ∈ l, 0 ≤ e.bar) : (l.map barBag).sum = (l : Multiset Entry) := by
  rw [sum_barBag, List.filter_eq_self.mpr fun e he => decide_eq_true (hl e he)]

/-- Every entry is of one kind. -/
theorem sum_types {M : Type*} [AddCommMonoid M] (g : Entry → M) (l : List Entry) :
    ((l.filter (·.type = .io)).map g).sum + ((l.filter (·.type = .mem)).map g).sum +
      ((l.filter (·.type = .prefmem)).map g).sum = (l.map g).sum := by
  induction l with
  | nil => simp
  | cons e l ih =>
    rw [List.map_cons, List.sum_cons, ← ih]
    cases htype : e.type <;> simp [htype] <;> abel

section Mapped

variable (hc : ConfOk conf) (ht : Topology maxPciBus devs)
  (h : mapDevices conf maxPciBus (checkDevices maxPciBus devs) = some log)

include hc ht h

theorem log_apart : log.Pairwise fun p q =>
    (p.1.type = .io ↔ q.1.type = .io) → Parted devs p q := by
  obtain ⟨high, base, hbased, hroots, rfl⟩ := mapDevices_spec hc ht h
  refine List.pairwise_flatMap.mpr ⟨fun r _ => ?_, ?_⟩
  · exact (place_pairwise Entry.size (base r) _).imp fun hle _ => Or.inl hle
  refine (regions_pairwise maxPciBus).2.imp fun {r r'} hne p hp q hq htype => ?_
  obtain ⟨k, hk⟩ := List.mem_iff_getElem?.mp hp
  obtain ⟨k', hk'⟩ := List.mem_iff_getElem?.mp hq
  have hat : (layout ht high).At base r k p.1 p.2 := hk
  have hat' : (layout ht high).At base r' k' q.1 q.2 := hk'
  have hkind : ∀ {r k e addr}, (layout ht high).At base r k e addr → e.type = r.kind :=
    fun hat => ((checkDevices_sized ht _).entry (mem_regionList_kind hat.mem)).type_eq
  have hspace : r.space = r'.space := by
    rw [hkind hat, hkind hat'] at htype
    exact Bool.eq_iff_iff.mpr (by simpa [Region.space] using htype)
  rcases hbased.apart (layout_rooted ht high)
    (fun r q e he hq => by rw [(window_spec ht he hq).1]; rfl)
    (fun r r' hr hr' => hroots.apart' hc hr hr') hspace hat hat'
    (fun heq => hne (Prod.mk.inj heq).1) with hapart | hapart | hbehind | hbehind
  · exact Or.inl hapart
  · exact Or.inr (Or.inl hapart)
  · exact Or.inr (Or.inr (Or.inl (behind_above ht hbehind hat'.get hat.mem)))
  · exact Or.inr (Or.inr (Or.inr (behind_above ht hbehind hat.get hat'.mem)))

/-- Every I/O entry is below 64K. The memory is free: below 4G it is in the window above the
    RAM, and only what decodes 64 bits is above 4G, behind the rest of the RAM. -/
theorem bars_space : ∀ p ∈ log,
    (p.1.type = .io → 0x1000 ≤ p.2 ∧ p.2 + p.1.size ≤ 0x10000) ∧
    (p.1.type ≠ .io → conf.pcimemStart ≤ p.2 ∧ p.2 + p.1.size ≤ conf.pcimemEnd ∨
      p.1.is64 ∧ 2 ^ 32 + conf.ramSizeOver4G ≤ p.2 ∧ p.2 + p.1.size ≤ 2 ^ 63) := by
  obtain ⟨high, base, hbased, hroots, rfl⟩ := mapDevices_spec hc ht h
  have hmoved : ∀ e, e ∈ (layout ht high).items .mem64 ∨ e ∈ (layout ht high).items .pref64 →
      e.is64 := by
    rintro e (he | he) <;>
      exact (Bool.and_eq_true_iff.mp (Bool.and_eq_true_iff.mp (List.mem_filter.mp he).2).2).1
  have hregion : ∀ {r}, (layout ht high).items r ≠ [] →
      InSpace conf (base r) ((layout ht high).items r) r.kind := by
    intro r hne
    refine hbased.induct (P := fun r => (layout ht high).items r ≠ [] →
      InSpace conf (base r) ((layout ht high).items r) r.kind) (layout_rooted ht high)
      (fun r hrank hne => hroots.inSpace hmoved hrank hne) ?_ hne hne
    intro r k w q ih hat hq _
    obtain ⟨rfl, -, -, hholds⟩ := window_spec ht hat.mem hq
    obtain ⟨q, hqdef⟩ : ∃ q, q = Region.bus w.dev.secondaryBus r.kind := ⟨_, rfl⟩
    rw [← hqdef] at hat hholds ⊢
    have hin : base r ≤ base q ∧
        base q + w.size ≤ base r + total Entry.size ((layout ht high).items r) :=
      place_bounds hat.mem_place
    have hsize : total Entry.size ((layout ht high).items q) ≤ w.size := hholds.size
    rw [show q.kind = r.kind by rw [hqdef]; rfl]
    have hspace := ih (List.ne_nil_of_mem hat.mem)
    refine ⟨fun hkind => ?_, fun hkind => ?_⟩
    · have hio := hspace.io hkind
      exact ⟨by omega, by omega⟩
    · rcases hspace.mem hkind with hlow | ⟨his64, hhigh⟩
      · exact Or.inl ⟨by omega, by omega⟩
      · exact Or.inr ⟨hholds.is64 (his64 w hat.mem), by omega, by omega⟩
  intro p hp
  obtain ⟨r, -, hmem⟩ := List.mem_flatMap.mp hp
  have he : p.1 ∈ (layout ht high).items r := mem_of_mem_place hmem
  have hin : base r ≤ p.2 ∧
      p.2 + p.1.size ≤ base r + total Entry.size ((layout ht high).items r) := place_bounds hmem
  have hspace := hregion (List.ne_nil_of_mem he)
  rw [← ((checkDevices_sized ht _).entry (mem_regionList_kind he)).type_eq] at hspace
  refine ⟨fun htype => ?_, fun htype => ?_⟩
  · have hio := hspace.io htype
    exact ⟨by omega, by omega⟩
  · rcases hspace.mem htype with hlow | ⟨his64, hhigh⟩
    · exact Or.inl ⟨by omega, by omega⟩
    · exact Or.inr ⟨his64 p.1 he, by omega, by omega⟩

/-- Every memory entry is a multiple of its alignment. -/
theorem bars_aligned : ∀ p ∈ log, p.1.type ≠ .io → p.1.align ∣ p.2 := by
  obtain ⟨high, base, hbased, hroots, rfl⟩ := mapDevices_spec hc ht h
  have hentry : ∀ {r e}, e ∈ (layout ht high).items r → EntryOk r.kind e := fun he =>
    (checkDevices_sized ht _).entry (mem_regionList_kind he)
  have hsorted : ∀ r, Sorted ((layout ht high).items r) := fun r =>
    ((checkDevices_sized ht r.kind).sorted r.rank).sublist (regionList_sublist _ high r)
  -- What is in a region is aligned if the region is aligned for its first entry.
  have hplace : ∀ {r e addr}, r.kind ≠ .io → pciRegionAlign ((layout ht high).items r) ∣ base r →
      (e, addr) ∈ place Entry.size (base r) ((layout ht high).items r) → e.align ∣ addr := by
    intro r e addr hkind hbase hmem
    refine place_aligned (fun a ha => (hentry ha).size hkind) ?_ ?_ hmem
    · exact (hsorted r).imp_of_mem fun ha hb hle => (hentry hb).align.dvd (hentry ha).align hle
    · intro a ha
      cases hitems : (layout ht high).items r with
      | nil =>
        rw [hitems] at ha
        cases ha
      | cons b l =>
        rw [hitems] at ha hbase
        obtain rfl := Option.some.inj ha
        exact hbase
  have hregion : ∀ {r}, (layout ht high).items r ≠ [] → r.kind ≠ .io →
      pciRegionAlign ((layout ht high).items r) ∣ base r := by
    intro r hne
    refine hbased.induct (P := fun r => r.kind ≠ .io →
      pciRegionAlign ((layout ht high).items r) ∣ base r) (layout_rooted ht high)
      (fun r hrank hkind => hroots.align r hkind hrank) ?_ hne
    intro r k w q ih hat hq hkind
    obtain ⟨rfl, -, -, hholds⟩ := window_spec ht hat.mem hq
    have hdvd : pciRegionAlign ((layout ht high).items (.bus w.dev.secondaryBus r.kind)) ∣
        w.align := hholds.align_dvd
      (fun e he => (hentry (r := .bus w.dev.secondaryBus r.kind) he).align) (hentry hat.mem).align
    exact hdvd.trans (hplace (r := r) hkind (ih hkind) hat.mem_place)
  rintro ⟨e, addr⟩ hp htype
  obtain ⟨r, -, hmem⟩ := List.mem_flatMap.mp hp
  have he : e ∈ (layout ht high).items r := mem_of_mem_place hmem
  have hkind : r.kind ≠ .io := (hentry he).type_eq ▸ htype
  exact hplace hkind (hregion (List.ne_nil_of_mem he) hkind) hmem

/-- **What is behind a bridge** is inside its window. -/
theorem bars_routed : ∀ p ∈ log,
    (∃ d ∈ devs, d.isBridge ∧ d.secondaryBus = p.1.dev.bus) →
    ∃ w ∈ log, w.1.bar = -1 ∧ w.1.dev.secondaryBus = p.1.dev.bus ∧ w.1.type = p.1.type ∧
      w.2 ≤ p.2 ∧ p.2 + p.1.size ≤ w.2 + w.1.size := by
  obtain ⟨high, base, hbased, hroots, rfl⟩ := mapDevices_spec hc ht h
  rintro ⟨e, addr⟩ hp ⟨d, hd, hbridge, hsec⟩
  obtain ⟨r, -, hmem⟩ := List.mem_flatMap.mp hp
  have he : e ∈ (layout ht high).items r := mem_of_mem_place hmem
  have hs := checkDevices_sized ht r.kind
  have hhome := hs.home (mem_regionList_kind he)
  have hbus : r.rank = e.dev.bus := by
    have hsome := (checkDevices_busDev ht).2 d hd hbridge
    rw [hsec] at hsome
    rw [hhome]
    exact if_pos (Option.isSome_iff_ne_none.mpr hsome)
  have hlt := (ht.bridges d hd hbridge).1
  have hrank : r.rank ≠ 0 := by
    rw [hbus, ← hsec]
    omega
  obtain ⟨r', w, hw, hq⟩ := layout_rooted ht high (List.ne_nil_of_mem he) hrank
  obtain ⟨k, waddr, hat⟩ := Layout.exists_at base hw
  obtain ⟨hr, -⟩ := window_spec ht hw hq
  have hbase : base r = waddr := hbased hat hq
  have hin := place_bounds hmem
  have hsize : total Entry.size ((layout ht high).items r) ≤ w.size := (layout ht high).fits hw hq
  have hwkind := ((checkDevices_sized ht _).entry (mem_regionList_kind hw)).type_eq
  have hekind := ((checkDevices_sized ht _).entry (mem_regionList_kind he)).type_eq
  have hwlog : (w, waddr) ∈ (regions maxPciBus).flatMap fun r =>
      place Entry.size (base r) ((layout ht high).items r) :=
    List.mem_flatMap.mpr ⟨r', mem_regions.mpr (regionList_rank ht hw), hat.mem_place⟩
  refine ⟨(w, waddr), hwlog, (Entry.target_eq_some.mp hq).1, ?_, ?_, ?_, ?_⟩
  · show w.dev.secondaryBus = e.dev.bus
    rw [← hbus, hr]
    rfl
  · show w.type = e.type
    rw [hwkind, hekind, hr]
    rfl
  · exact hbase ▸ hin.1
  · show addr + e.size ≤ waddr + w.size
    omega

end Mapped

/-! ## A network card behind a root port -/

/-- A window of 2M below 4G. -/
def lowConf : PciConf := ⟨0x80000000, 0x80200000, 0xa000, 0, 0⟩

theorem lowConf_ok : ConfOk lowConf := ⟨by decide, by decide, by decide, by decide⟩

/-- The 64-bit BAR and its bridge are moved above 4G. -/
theorem nic_mapped : ∃ log, mapDevices lowConf 1 (checkDevices 1 [rootPort, nic]) = some log ∧
    log.map (fun p => (p.1.dev.bdf, p.1.bar, p.1.type, p.2)) =
      [(0x8, -1, .prefmem, 0x100000000), (0x8, -1, .io, 0xc000), (0x8, -1, .mem, 0x80000000),
        (0x100, 1, .io, 0xc000), (0x100, 0, .mem, 0x80000000),
        (0x100, 2, .prefmem, 0x100000000)] := by
  have h : (mapDevices lowConf 1 (checkDevices 1 [rootPort, nic])).map
      (fun log => log.map fun p => (p.1.dev.bdf, p.1.bar, p.1.type, p.2)) =
      some [(0x8, -1, .prefmem, 0x100000000), (0x8, -1, .io, 0xc000), (0x8, -1, .mem, 0x80000000),
        (0x100, 1, .io, 0xc000), (0x100, 0, .mem, 0x80000000),
        (0x100, 2, .prefmem, 0x100000000)] := by decide
  exact Option.map_eq_some_iff.mp h

end KvmOsx.Firmware.Pci
