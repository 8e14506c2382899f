import KvmOsx.Firmware.PciAssign

/-!
# The registers of the BARs and of the bridges (`pci_region_map_one_entry`, `fw/pciinit.c` lines
86-94 and 1041-1072)

* `bars_decode`: a BAR register holds the address that the entry was given.
* `windows_forward`: a bridge forwards the memory of its entry, and no other.
* `bars_forwarded`: every bridge between a memory BAR and the root forwards the BAR.
* `bars_forwarded_iff`: no other bridge forwards any address of it.
-/

namespace KvmOsx.Firmware.Pci

open Packing

/-! ## Model -/

/-- The registers of a bridge for one kind: base, limit, and their upper halves. -/
structure Window where
  base : ℕ
  limit : ℕ
  baseUpper : ℕ
  limitUpper : ℕ
  deriving DecidableEq

/-- `pci_set_io_region_addr`: the BAR, and the register behind it. -/
def pciSetIoRegionAddr (addr : ℕ) (is64 : Bool) : ℕ × Option ℕ :=
  (addr % 2 ^ 32, if is64 then some (addr >>> 32 % 2 ^ 32) else none)

/-- `pci_region_map_one_entry` for a bridge. -/
def mapWindow (entry : Entry) (addr : ℕ) : Window :=
  let limit := u64 (addr + entry.size + 2 ^ 64 - 1)
  match entry.type with
  | .io => ⟨addr >>> 8 % 2 ^ 8, limit >>> 8 % 2 ^ 8, 0, 0⟩
  | .mem => ⟨addr >>> 16 % 2 ^ 16, limit >>> 16 % 2 ^ 16, 0, 0⟩
  | .prefmem =>
    ⟨addr >>> 16 % 2 ^ 16, limit >>> 16 % 2 ^ 16, addr >>> 32 % 2 ^ 32, limit >>> 32 % 2 ^ 32⟩

/-- The address in a BAR. -/
def barAddr (r : ℕ × Option ℕ) : ℕ := r.1 + 2 ^ 32 * r.2.getD 0

/-- What a bridge forwards of the memory: the low bits of a base are clear, those of a limit are
    set. -/
def Window.Forwards (w : Window) (x : ℕ) : Prop :=
  (w.baseUpper <<< 32) + ((w.base &&& 0xfff0) <<< 16) ≤ x ∧
    x ≤ (w.limitUpper <<< 32) + ((w.limit &&& 0xfff0) <<< 16) + 0xfffff

/-! ## Decoding -/

variable {conf : PciConf} {maxPciBus : ℕ} {devs : List PciDevice} {log : List (Entry × ℕ)}

theorem and_fff0 {y : ℕ} (hy : y < 2 ^ 16) : y &&& 0xfff0 = y - y % 2 ^ 4 :=
  and_mask (w := 16) (k := 4) hy (by decide)

/-- The registers of an address, with its upper half or below 4G. -/
theorem decode_addr {a u : ℕ} (ha : a < 2 ^ 64)
    (hu : u = a >>> 32 % 2 ^ 32 ∨ u = 0 ∧ a < 2 ^ 32) :
    (u <<< 32) + ((a >>> 16 % 2 ^ 16 &&& 0xfff0) <<< 16) = a - a % 2 ^ 20 := by
  have hlt : a >>> 16 % 2 ^ 16 < 2 ^ 16 := Nat.mod_lt _ (by decide)
  rw [and_fff0 hlt]
  simp only [Nat.shiftLeft_eq, Nat.shiftRight_eq_div_pow] at hu ⊢
  omega

section Mapped

variable (hc : ConfOk conf) (ht : Topology maxPciBus devs)
  (h : mapDevices conf maxPciBus (checkDevices maxPciBus devs) = some log)

include hc ht h

theorem log_entry : ∀ p ∈ log, EntryOk p.1.type p.1 ∧ p.1.dev ∈ devs ∧
    (p.1.bar = -1 → p.1.dev.isBridge) ∧ (0 ≤ p.1.bar → p.1.align = p.1.size) := by
  obtain ⟨high, base, -, -, rfl⟩ := mapDevices_spec hc ht h
  intro p hp
  obtain ⟨r, -, hmem⟩ := List.mem_flatMap.mp hp
  have hs := checkDevices_sized ht r.kind
  have hlist := mem_regionList_kind (mem_of_mem_place hmem)
  have hok := hs.entry hlist
  obtain ⟨hdev, hsource⟩ := hs.source hlist
  refine ⟨hok.type_eq.symm ▸ hok, hdev, fun hbar => ?_, fun hbar => ?_⟩
  · rcases hsource with ⟨-, hbridge, -⟩ | ⟨hpos, -⟩
    · exact hbridge
    · omega
  · rcases hsource with ⟨hbridge, -⟩ | ⟨-, hentry⟩
    · omega
    · exact (deviceEntries_spec (ht.bars _ hdev) hentry).align

/-- **A BAR register** holds the address of its entry. -/
theorem bars_decode : ∀ p ∈ log, barAddr (pciSetIoRegionAddr p.2 p.1.is64) = p.2 := by
  intro p hp
  obtain ⟨hio, hmem⟩ := bars_space hc ht h p hp
  have hend := hc.pcimemEnd
  have hbound : p.2 < 2 ^ 64 ∧ (p.1.is64 = false → p.2 < 2 ^ 32) := by
    by_cases htype : p.1.type = .io
    · have hport := hio htype
      omega
    · rcases hmem htype with hlow | ⟨his64, hhigh⟩
      · omega
      · rw [his64]
        exact ⟨by omega, nofun⟩
  unfold barAddr pciSetIoRegionAddr
  cases his64 : p.1.is64 with
  | false => exact Nat.mod_eq_of_lt (hbound.2 his64)
  | true =>
    show p.2 % 2 ^ 32 + 2 ^ 32 * (p.2 >>> 32 % 2 ^ 32) = p.2
    rw [Nat.shiftRight_eq_div_pow]
    omega

/-- **A bridge forwards** the memory of its entry, and no other. -/
theorem windows_forward (hstart : 0 < conf.pcimemStart) : ∀ p ∈ log, p.1.bar = -1 →
    p.1.type ≠ .io → ∀ x, (mapWindow p.1 p.2).Forwards x ↔ p.2 ≤ x ∧ x < p.2 + p.1.size := by
  intro p hp hbar htype x
  have hok := (log_entry hc ht h p hp).1
  have hend := hc.pcimemEnd
  have hspace := (bars_space hc ht h p hp).2 htype
  -- The entry is a number of megabytes, and so are its bounds.
  have hunit : 2 ^ 20 ∣ p.1.align :=
    IsSize.dvd ⟨20, by decide, rfl⟩ hok.align
      ((by decide : 2 ^ 20 ≤ pciBridgeMemMin).trans (hok.least hbar htype))
  obtain ⟨a, ha⟩ := hunit.trans (bars_aligned hc ht h p hp htype)
  obtain ⟨c, hc'⟩ := hunit.trans (hok.size htype)
  obtain ⟨last, hlast⟩ : ∃ last, last = u64 (p.2 + p.1.size + 2 ^ 64 - 1) := ⟨_, rfl⟩
  have hlast' : last = p.2 + p.1.size - 1 := by
    rw [hlast]
    unfold u64
    omega
  have hforward : (mapWindow p.1 p.2).Forwards x ↔
      p.2 - p.2 % 2 ^ 20 ≤ x ∧ x ≤ last - last % 2 ^ 20 + 0xfffff := by
    cases hkind : p.1.type with
    | io => exact absurd hkind htype
    | mem =>
      have hlow : p.2 + p.1.size < 2 ^ 32 := by
        rcases hspace with hlow | ⟨his64, -⟩
        · omega
        · have hpref := hok.is64 hbar his64
          rw [hkind] at hpref
          cases hpref
      rw [← decode_addr (a := p.2) (u := 0) (by omega) (Or.inr ⟨rfl, by omega⟩),
        ← decode_addr (a := last) (u := 0) (by omega) (Or.inr ⟨rfl, by omega⟩), hlast]
      unfold mapWindow
      rw [hkind]
      exact Iff.rfl
    | prefmem =>
      rw [← decode_addr (a := p.2) (by omega) (Or.inl rfl),
        ← decode_addr (a := last) (by omega) (Or.inl rfl), hlast]
      unfold mapWindow
      rw [hkind]
      exact Iff.rfl
  rw [hforward]
  omega

/-- What is behind a bridge, however far, is inside its window. -/
theorem bars_nested (hunique : ∀ d ∈ devs, ∀ d' ∈ devs, d.isBridge → d'.isBridge →
    d.secondaryBus = d'.secondaryBus → d = d') {p : Entry × ℕ} {d : PciDevice} (hp : p ∈ log)
    (habove : Above devs p.1.dev.bus d) : ∃ w ∈ log, w.1.bar = -1 ∧ w.1.dev = d ∧
      w.1.type = p.1.type ∧ w.2 ≤ p.2 ∧ p.2 + p.1.size ≤ w.2 + w.1.size := by
  -- The window of the bridge to the bus that the entry is on.
  have hnext : ∀ {p : Entry × ℕ} {d}, p ∈ log → d ∈ devs → d.isBridge →
      d.secondaryBus = p.1.dev.bus → ∃ w ∈ log, w.1.bar = -1 ∧ w.1.dev = d ∧
        w.1.type = p.1.type ∧ w.2 ≤ p.2 ∧ p.2 + p.1.size ≤ w.2 + w.1.size := by
    intro p d hp hd hbridge hsec
    obtain ⟨w, hw, hbar, hwsec, hin⟩ := bars_routed hc ht h p hp ⟨d, hd, hbridge, hsec⟩
    obtain ⟨-, hwdev, hwbridge, -⟩ := log_entry hc ht h w hw
    have hwd := hunique _ hwdev d hd (hwbridge hbar) hbridge (hwsec.trans hsec.symm)
    exact ⟨w, hw, hbar, hwd, hin⟩
  obtain ⟨n, hn⟩ : ∃ n, n = p.1.dev.bus := ⟨_, rfl⟩
  rw [← hn] at habove
  induction habove generalizing p with
  | here hd hbridge => exact hnext hp hd hbridge hn
  | up hd hbridge _ ih =>
    obtain ⟨w, hw, hbar, hdev, htype, hin⟩ := hnext hp hd hbridge hn
    obtain ⟨w', hw', hbar', hdev', htype', hin'⟩ := ih hw (by rw [hdev])
    exact ⟨w', hw', hbar', hdev', htype'.trans htype, by omega, by omega⟩

/-- What a bridge forwards of a memory BAR is right or further behind it. -/
theorem forwards_above (hstart : 0 < conf.pcimemStart) {p w : Entry × ℕ} {x : ℕ} (hp : p ∈ log)
    (hbar : 0 ≤ p.1.bar) (htype : p.1.type ≠ .io) (hx : p.2 ≤ x ∧ x < p.2 + p.1.size)
    (hw : w ∈ log) (hwbar : w.1.bar = -1) (hwtype : w.1.type ≠ .io)
    (hforward : (mapWindow w.1 w.2).Forwards x) : Above devs p.1.dev.bus w.1.dev := by
  have hin := (windows_forward hc ht h hstart w hw hwbar hwtype x).mp hforward
  have hne : p ≠ w := by
    rintro rfl
    omega
  have hsymm : Std.Symm fun p q : Entry × ℕ =>
      (p.1.type = .io ↔ q.1.type = .io) → Parted devs p q :=
    ⟨fun p q hpq htype => (hpq htype.symm).symm⟩
  have hparted := (log_apart hc ht h).forall hp hw hne (iff_of_false htype hwtype)
  rcases hparted with hle | hle | ⟨-, habove⟩ | ⟨hwindow, -⟩
  · omega
  · omega
  · exact habove
  · omega

/-- **The bridges** that forward an address of a memory BAR are those above the BAR. -/
theorem bars_forwarded_iff (hstart : 0 < conf.pcimemStart)
    (hunique : ∀ d ∈ devs, ∀ d' ∈ devs, d.isBridge → d'.isBridge →
      d.secondaryBus = d'.secondaryBus → d = d') {p : Entry × ℕ} {x : ℕ} (hp : p ∈ log)
    (hbar : 0 ≤ p.1.bar) (htype : p.1.type ≠ .io) (hx : p.2 ≤ x ∧ x < p.2 + p.1.size)
    (d : PciDevice) :
    (∃ w ∈ log, w.1.bar = -1 ∧ w.1.dev = d ∧ w.1.type ≠ .io ∧ (mapWindow w.1 w.2).Forwards x) ↔
      Above devs p.1.dev.bus d := by
  constructor
  · rintro ⟨w, hw, hwbar, rfl, hwtype, hforward⟩
    exact forwards_above hc ht h hstart hp hbar htype hx hw hwbar hwtype hforward
  · intro habove
    obtain ⟨w, hw, hwbar, hdev, hwtype, hin⟩ := bars_nested hc ht h hunique hp habove
    have hmem : w.1.type ≠ .io := hwtype ▸ htype
    refine ⟨w, hw, hwbar, hdev, hmem, ?_⟩
    exact (windows_forward hc ht h hstart w hw hwbar hmem x).mpr (by omega)

end Mapped

/-- The first BAR of the card. -/
theorem nic_bar : ∃ log, mapDevices lowConf 1 (checkDevices 1 [rootPort, nic]) = some log ∧
    ∃ p ∈ log, p.1.bar = 0 ∧ p.1.type = .mem ∧ p.1.dev.bus = rootPort.secondaryBus ∧
      p.2 = 0x80000000 := by
  obtain ⟨log, hlog, hmap⟩ := nic_mapped
  have hmem : (0x100, (0 : ℤ), RegionType.mem, 0x80000000) ∈
      log.map fun p => (p.1.dev.bdf, p.1.bar, p.1.type, p.2) := by
    rw [hmap]
    decide
  obtain ⟨p, hp, heq⟩ := List.mem_map.mp hmem
  simp only [Prod.mk.injEq] at heq
  obtain ⟨hbdf, hbar, htype, haddr⟩ := heq
  refine ⟨log, hlog, p, hp, hbar, htype, ?_, haddr⟩
  unfold PciDevice.bus
  rw [hbdf]
  rfl

theorem nic_unique : ∀ d ∈ [rootPort, nic], ∀ d' ∈ [rootPort, nic], d.isBridge → d'.isBridge →
    d.secondaryBus = d'.secondaryBus → d = d' := by
  have hbridge : ∀ d ∈ [rootPort, nic], d.isBridge → d = rootPort := by
    intro d hd hbridge
    rcases List.mem_cons.mp hd with rfl | hd
    · rfl
    · obtain rfl := List.mem_singleton.mp hd
      exact absurd hbridge (by decide)
  intro d hd d' hd' h h' _
  rw [hbridge d hd h, hbridge d' hd' h']

/-- Only the root port forwards it. -/
theorem bars_forwarded_iff_nic :
    ∃ log, mapDevices lowConf 1 (checkDevices 1 [rootPort, nic]) = some log ∧
      ∃ p ∈ log, p.1.bar = 0 ∧ p.2 = 0x80000000 ∧ ∀ d, (∃ w ∈ log, w.1.bar = -1 ∧ w.1.dev = d ∧
        w.1.type ≠ .io ∧ (mapWindow w.1 w.2).Forwards p.2) ↔
          Above [rootPort, nic] p.1.dev.bus d := by
  obtain ⟨log, hlog, p, hp, hbar, htype, -, haddr⟩ := nic_bar
  obtain ⟨hok, -, -, hsize⟩ := log_entry lowConf_ok nic_topology hlog p hp
  refine ⟨log, hlog, p, hp, hbar, haddr, ?_⟩
  exact bars_forwarded_iff lowConf_ok nic_topology hlog (by decide) nic_unique hp hbar.ge
    (by rw [htype]; decide) ⟨le_rfl, Nat.lt_add_of_pos_right (hsize hbar.ge ▸ hok.align.pos)⟩

end KvmOsx.Firmware.Pci
