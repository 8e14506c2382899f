import KvmOsx.Firmware.PciNumbering

/-!
# The list of the devices (`pci_probe_devices`, `hw/pcidevice.c` lines 19-84)

* `probeLoop_eq`: the probe goes over the busses from 0 up to the last number that it saw.
* `pciProbeDevices_topology`: behind `pci_bios_init_bus` it lists every function once, and the
  list is what `pci_bios_check_devices` relies on.
-/

namespace KvmOsx.Firmware.Pci

open Bus

/-! ## Model -/

/-- `struct pci_device` of a function on bus `bus`. -/
def probed (bus secbus : ℕ) (pci : PciDevice) : PciDevice :=
  { pci with bdf := bus <<< 8 ||| pci.bdf, secondaryBus := secbus }

/-- `foreachbdf` on bus `bus` (lines 32-81). -/
def Bus.functions (bus : ℕ) : Bus → List PciDevice
  | nil => []
  | device pci rest => probed bus 0 pci.1 :: rest.functions bus
  | bridge pci _ regs _ rest => probed bus regs.secondary pci.1 :: rest.functions bus

/-- What answers to bus number `bus`. -/
def functionsAt (root : Bus) (bus : ℕ) : List PciDevice :=
  match root.busAt bus with
  | some b => b.functions bus
  | none => []

/-- `if (secbus > MaxPCIBus) MaxPCIBus = secbus`. -/
def maxBus (maxPciBus : ℕ) (l : List PciDevice) : ℕ :=
  l.foldl (fun m pci => if m < pci.secondaryBus then pci.secondaryBus else m) maxPciBus

/-- The loop (lines 29-82) from bus `bus` on: the list, and `MaxPCIBus`. -/
def probeLoop (root : Bus) : ℕ → ℕ → ℕ → List PciDevice × ℕ
  | 0, _, maxPciBus => ([], maxPciBus)
  | fuel + 1, bus, maxPciBus =>
    let here := functionsAt root bus
    let maxPciBus := maxBus maxPciBus here
    if bus < 0xff ∧ bus < maxPciBus then
      let rest := probeLoop root fuel (bus + 1) maxPciBus
      (here ++ rest.1, rest.2)
    else (here, maxPciBus)

/-- `pci_probe_devices` without extra roots. -/
def pciProbeDevices (root : Bus) : List PciDevice × ℕ := probeLoop root 0x100 0 0

/-! ## The loop -/

variable {root b t : Bus} {bus n k m fuel : ℕ} {x : PciDevice} {l : List PciDevice}
  {v : Bridge × BusRegs × Bus}

theorem maxBus_cons (m : ℕ) (x : PciDevice) (l : List PciDevice) :
    maxBus m (x :: l) = maxBus (max m x.secondaryBus) l := by
  show maxBus (if m < x.secondaryBus then x.secondaryBus else m) l = _
  congr 1
  split <;> omega

theorem le_maxBus (m : ℕ) (l : List PciDevice) :
    m ≤ maxBus m l ∧ ∀ x ∈ l, x.secondaryBus ≤ maxBus m l := by
  induction l generalizing m with
  | nil => exact ⟨le_rfl, fun _ h => absurd h List.not_mem_nil⟩
  | cons a l ih =>
    obtain ⟨hle, hall⟩ := ih (max m a.secondaryBus)
    rw [maxBus_cons]
    exact ⟨by omega, List.forall_mem_cons.mpr ⟨by omega, hall⟩⟩

theorem maxBus_le (hm : m ≤ n) (hl : ∀ x ∈ l, x.secondaryBus ≤ n) : maxBus m l ≤ n := by
  induction l generalizing m with
  | nil => exact hm
  | cons a l ih =>
    obtain ⟨ha, hl⟩ := List.forall_mem_cons.mp hl
    rw [maxBus_cons]
    exact ih (by omega) hl

/-- The probe goes up to the last number that it saw. -/
theorem probeLoop_eq (root : Bus) (fuel bus m : ℕ)
    (hroot : ∀ k, ∀ x ∈ functionsAt root k, x.secondaryBus ≤ 255)
    (hbus : bus ≤ m) (hm : m ≤ 255) (hfuel : 255 < bus + fuel) :
    ∃ last, probeLoop root fuel bus m =
        ((List.range' bus (last + 1 - bus)).flatMap (functionsAt root), last) ∧
      m ≤ last ∧ last ≤ 255 ∧
        ∀ k, bus ≤ k → k ≤ last → ∀ x ∈ functionsAt root k, x.secondaryBus ≤ last := by
  induction fuel generalizing bus m with
  | zero => omega
  | succ fuel ih =>
    obtain ⟨hle, hhere⟩ := le_maxBus m (functionsAt root bus)
    have htop := maxBus_le hm (hroot bus)
    unfold probeLoop
    dsimp only
    split
    next hmore =>
      obtain ⟨last, heq, hlast, hend, hall⟩ := ih _ _ hmore.2 htop (by omega)
      refine ⟨last, ?_, by omega, hend, fun k hk hkl => ?_⟩
      · rw [heq, show last + 1 - bus = (last + 1 - (bus + 1)) + 1 by omega, List.range'_succ,
          List.flatMap_cons]
      · rcases Nat.lt_or_eq_of_le hk with hlt | rfl
        · exact hall k hlt hkl
        · exact fun x hx => (hhere x hx).trans hlast
    next hend =>
      have hlast : maxBus m (functionsAt root bus) = bus := by omega
      refine ⟨bus, ?_, by omega, by omega, fun k hk hkl => ?_⟩
      · rw [hlast, Nat.add_sub_cancel_left]
        simp
      · obtain rfl : k = bus := by omega
        exact fun x hx => hlast ▸ hhere x hx

/-! ## Behind `pci_bios_init_bus` -/

@[simp] theorem probed_isBridge (bus secbus : ℕ) (pci : PciDevice) :
    (probed bus secbus pci).isBridge = pci.isBridge := rfl

@[simp] theorem probed_secondaryBus (bus secbus : ℕ) (pci : PciDevice) :
    (probed bus secbus pci).secondaryBus = secbus := rfl

theorem probed_bus {pci : PciDevice} (secbus : ℕ) (h : pci.bdf < 2 ^ 8) :
    (probed bus secbus pci).bus = bus := by
  show (bus <<< 8 ||| pci.bdf) >>> 8 = bus
  rw [Nat.shiftRight_or_distrib, Nat.shiftLeft_shiftRight, Nat.shiftRight_eq_div_pow pci.bdf,
    Nat.div_eq_of_lt h, Nat.or_zero]

theorem functions_bus (hx : x ∈ b.functions bus) : x.bus = bus := by
  induction b with
  | nil => cases hx
  | device pci rest ih =>
    rcases List.mem_cons.mp hx with rfl | hx
    · exact probed_bus _ pci.2.2
    · exact ih hx
  | bridge pci reserve regs behind rest _ ih =>
    rcases List.mem_cons.mp hx with rfl | hx
    · exact probed_bus _ pci.2.2
    · exact ih hx

/-- A bridge on a bus is one of the tree. -/
theorem functions_bridge (hx : x ∈ (t.number bus n).functions bus) (hbridge : x.isBridge) :
    ∃ v ∈ (t.number bus n).bridges, v.2.1.primary = bus ∧
      x = probed bus v.2.1.secondary v.1.1 := by
  induction t generalizing n with
  | nil => cases hx
  | device pci rest ih =>
    rcases List.mem_cons.mp hx with rfl | hx
    · rw [probed_isBridge, pci.2.1] at hbridge
      cases hbridge
    · exact ih hx
  | bridge pci reserve regs behind rest _ ih =>
    rcases List.mem_cons.mp hx with rfl | hx
    · exact ⟨_, List.mem_cons_self .., rfl, rfl⟩
    · obtain ⟨v, hv, hspec⟩ := ih hx
      exact ⟨v, List.mem_cons_of_mem _ (List.mem_append_right _ hv), hspec⟩

/-- What a bus of a walk is. -/
theorem bridges_number (hv : v ∈ (t.number bus n).bridges) (hreserved : t.Reserved) :
    ∃ t' : Bus, v.2.2 = t'.number v.2.1.secondary v.2.1.secondary ∧ t'.Reserved ∧
      v.2.1.secondary + t'.need ≤ v.2.1.subordinate := by
  induction t generalizing bus n with
  | nil => cases hv
  | device pci rest ih => exact ih hv hreserved
  | bridge pci reserve regs behind rest ihb ihr =>
    obtain ⟨hroom, hbehind, hrest⟩ := hreserved
    rcases List.mem_cons.mp hv with rfl | hv
    · have hmore := Reserved.need_le hroom
      exact ⟨behind, rfl, hbehind, Nat.add_le_add_left hmore _⟩
    rcases List.mem_append.mp hv with hv | hv
    · exact ihb hv hbehind
    · exact ihr hv hrest

/-- A bridge of the tree is on a bus of the walk. -/
theorem bridges_home (hv : v ∈ (t.number bus n).bridges) :
    v.2.1.primary = bus ∧
        probed bus v.2.1.secondary v.1.1 ∈ (t.number bus n).functions bus ∨
      ∃ u ∈ (t.number bus n).bridges, u.2.1.secondary = v.2.1.primary ∧
        probed v.2.1.primary v.2.1.secondary v.1.1 ∈ u.2.2.functions v.2.1.primary := by
  induction t generalizing bus n with
  | nil => cases hv
  | device pci rest ih =>
    rcases ih hv with ⟨hbus, hx⟩ | hu
    · exact Or.inl ⟨hbus, List.mem_cons_of_mem _ hx⟩
    · exact Or.inr hu
  | bridge pci reserve regs behind rest ihb ihr =>
    rcases List.mem_cons.mp hv with rfl | hv
    · exact Or.inl ⟨rfl, List.mem_cons_self ..⟩
    rcases List.mem_append.mp hv with hv | hv
    · refine Or.inr ?_
      rcases ihb hv with ⟨hbus, hx⟩ | ⟨u, hu, hspec⟩
      · refine ⟨_, List.mem_cons_self .., hbus.symm, ?_⟩
        rw [hbus]
        exact hx
      · exact ⟨u, List.mem_cons_of_mem _ (List.mem_append_left _ hu), hspec⟩
    · rcases ihr hv with ⟨hbus, hx⟩ | ⟨u, hu, hspec⟩
      · exact Or.inl ⟨hbus, List.mem_cons_of_mem _ hx⟩
      · exact Or.inr ⟨u, List.mem_cons_of_mem _ (List.mem_append_right _ hu), hspec⟩

theorem mem_reach (h : b ∈ t.reach k) : ∃ v ∈ t.bridges, v.2.1.secondary = k ∧ v.2.2 = b := by
  induction t with
  | nil => cases h
  | device pci rest ih => exact ih h
  | bridge pci reserve regs behind rest ihb ihr =>
    rcases List.mem_append.mp h with h | h
    · split at h
      · split at h
        next hsec => exact ⟨_, List.mem_cons_self .., hsec, (List.mem_singleton.mp h).symm⟩
        next =>
          obtain ⟨v, hv, hspec⟩ := ihb h
          exact ⟨v, List.mem_cons_of_mem _ (List.mem_append_left _ hv), hspec⟩
      · cases h
    · obtain ⟨v, hv, hspec⟩ := ihr h
      exact ⟨v, List.mem_cons_of_mem _ (List.mem_append_right _ hv), hspec⟩

/-- The numbers of a walk are all different. -/
theorem bridges_nodup (hreserved : t.Reserved) (hbus : bus ≤ n) :
    ((t.number bus n).bridges.map fun v => v.2.1.secondary).Nodup := by
  induction t generalizing bus n with
  | nil => exact List.nodup_nil
  | device pci rest ih => exact ih hreserved hbus
  | bridge pci reserve regs behind rest ihb ihr =>
    obtain ⟨hroom, hbehind, hrest⟩ := hreserved
    have hmore := Reserved.need_le hroom
    obtain ⟨own, hown⟩ : ∃ own, own = (reservedBusses reserve).getD behind.need := ⟨_, rfl⟩
    rw [← hown] at hmore
    rw [number, ← hown, bridges, List.map_cons, List.map_append]
    have hinner : ∀ s ∈ (behind.number (n + 1) (n + 1)).bridges.map fun v => v.2.1.secondary,
        n + 1 < s ∧ s ≤ n + 1 + own := by
      intro s hs
      obtain ⟨v, hv, rfl⟩ := List.mem_map.mp hs
      have hspec := mem_bridges_number hbehind le_rfl hv
      omega
    have houter : ∀ s ∈ (rest.number bus (n + 1 + own)).bridges.map fun v => v.2.1.secondary,
        n + 1 + own < s := by
      intro s hs
      obtain ⟨v, hv, rfl⟩ := List.mem_map.mp hs
      exact (mem_bridges_number hrest (by omega) hv).1
    refine List.nodup_cons.mpr ⟨fun hs => ?_, List.Nodup.append (ihb hbehind le_rfl)
      (ihr hrest (by omega)) fun s hs hs' => ?_⟩
    · rcases List.mem_append.mp hs with hs | hs
      · have hlt := (hinner _ hs).1
        dsimp only at hlt
        omega
      · have hlt := houter _ hs
        dsimp only at hlt
        omega
    · have hle := (hinner s hs).2
      have hlt := houter s hs'
      omega

theorem bridges_trans {u : Bridge × BusRegs × Bus} (hv : v ∈ t.bridges)
    (hu : u ∈ v.2.2.bridges) : u ∈ t.bridges := by
  induction t with
  | nil => cases hv
  | device pci rest ih => exact ih hv
  | bridge pci reserve regs behind rest ihb ihr =>
    rcases List.mem_cons.mp hv with rfl | hv
    · exact List.mem_cons_of_mem _ (List.mem_append_left _ hu)
    rcases List.mem_append.mp hv with hv | hv
    · exact List.mem_cons_of_mem _ (List.mem_append_left _ (ihb hv))
    · exact List.mem_cons_of_mem _ (List.mem_append_right _ (ihr hv))

theorem functions_device (hx : x ∈ b.functions bus) (hdevice : x.isBridge = false) :
    x.secondaryBus = 0 := by
  induction b with
  | nil => cases hx
  | device pci rest ih =>
    rcases List.mem_cons.mp hx with rfl | hx
    · rfl
    · exact ih hx
  | bridge pci reserve regs behind rest _ ih =>
    rcases List.mem_cons.mp hx with rfl | hx
    · rw [probed_isBridge, pci.2.1] at hdevice
      cases hdevice
    · exact ih hx

/-- What answers to the number of a bridge. -/
theorem functionsAt_number (hreserved : root.Reserved)
    (hv : v ∈ (root.number 0 0).bridges) :
    functionsAt (root.number 0 0) v.2.1.secondary = v.2.2.functions v.2.1.secondary := by
  have hpos := (mem_bridges_number hreserved le_rfl hv).1
  unfold functionsAt busAt
  rw [if_neg (by omega), reach_number hreserved hv le_rfl]

/-- What answers to a number is a bus of the walk. -/
theorem functionsAt_bus (hreserved : root.Reserved) (hx : x ∈ functionsAt (root.number 0 0) k) :
    ∃ t : Bus, x ∈ (t.number k k).functions k ∧ t.Reserved ∧ k + t.need ≤ root.need ∧
      ∀ v ∈ (t.number k k).bridges, v ∈ (root.number 0 0).bridges := by
  unfold functionsAt busAt at hx
  by_cases hk : k = 0
  · subst hk
    exact ⟨root, hx, hreserved, (Nat.zero_add _).le, fun _ h => h⟩
  · rw [if_neg hk] at hx
    split at hx
    next b hb =>
      split at hb
      next b' hreach =>
        obtain rfl := Option.some.inj hb
        obtain ⟨v, hv, rfl, rfl⟩ := mem_reach (hreach ▸ List.mem_singleton_self _)
        obtain ⟨t, ht, hres, hle⟩ := bridges_number hv hreserved
        have hsub := (mem_bridges_number hreserved le_rfl hv).2.2.2
        refine ⟨t, ht ▸ hx, hres, by omega, fun u hu => bridges_trans hv (ht ▸ hu)⟩
      · cases hb
    · cases hx

theorem functionsAt_spec (hreserved : root.Reserved)
    (hx : x ∈ functionsAt (root.number 0 0) k) : x.bus = k ∧ x.secondaryBus ≤ root.need ∧
      (x.isBridge → k < x.secondaryBus ∧ ∃ v ∈ (root.number 0 0).bridges,
        x = probed v.2.1.primary v.2.1.secondary v.1.1) := by
  obtain ⟨t, hx, hres, hle, hin⟩ := functionsAt_bus hreserved hx
  have hbridge : x.isBridge → k < x.secondaryBus ∧ x.secondaryBus ≤ root.need ∧
      ∃ v ∈ (root.number 0 0).bridges, x = probed v.2.1.primary v.2.1.secondary v.1.1 := by
    intro hbridge
    obtain ⟨v, hv, hbus, rfl⟩ := functions_bridge hx hbridge
    have hspec := mem_bridges_number hres le_rfl hv
    refine ⟨hspec.1, ?_, v, hin v hv, by rw [hbus]⟩
    rw [probed_secondaryBus]
    omega
  refine ⟨functions_bus hx, ?_, fun h => ⟨(hbridge h).1, (hbridge h).2.2⟩⟩
  cases hclass : x.isBridge with
  | true => exact (hbridge hclass).2.1
  | false =>
    rw [functions_device hx hclass]
    exact Nat.zero_le _

/-! ## The whole list -/

/-- The busses with their numbers. -/
def Bus.busses (root : Bus) : List (ℕ × Bus) :=
  (0, root) :: root.bridges.map fun v => (v.2.1.secondary, v.2.2)

theorem functionsAt_key (hx : x ∈ functionsAt root k) : k ∈ root.busses.map Prod.fst := by
  unfold functionsAt busAt at hx
  by_cases hk : k = 0
  · rw [hk]
    exact List.mem_cons_self ..
  · rw [if_neg hk] at hx
    split at hx
    next b hb =>
      split at hb
      next b' hreach =>
        obtain ⟨v, hv, hsec, -⟩ := mem_reach (hreach ▸ List.mem_singleton_self _)
        exact List.mem_map.mpr
          ⟨(v.2.1.secondary, v.2.2), List.mem_cons_of_mem _ (List.mem_map_of_mem hv), hsec⟩
      · cases hb
    · cases hx

/-- A walk over all numbers meets what the keys have. -/
theorem range_flatMap_perm {A B : Type*} {keyed : List (ℕ × A)} {f : ℕ → List B}
    {g : ℕ × A → List B} {N : ℕ} (hnodup : (keyed.map Prod.fst).Nodup)
    (hlt : ∀ p ∈ keyed, p.1 < N) (hfg : ∀ p ∈ keyed, f p.1 = g p)
    (hnone : ∀ k, k ∉ keyed.map Prod.fst → f k = []) :
    ((List.range N).flatMap f).Perm (keyed.flatMap g) := by
  have hrange : (List.range N).Perm
      (keyed.map Prod.fst ++ (List.range N).filter (· ∉ keyed.map Prod.fst)) := by
    refine (List.perm_ext_iff_of_nodup List.nodup_range ?_).mpr fun k => ?_
    · refine hnodup.append (List.nodup_range.filter _) fun k hk hk' => ?_
      exact (of_decide_eq_true (List.mem_filter.mp hk').2) hk
    · rw [List.mem_append, List.mem_filter, List.mem_range]
      constructor
      · intro hk
        by_cases hkey : k ∈ keyed.map Prod.fst
        · exact Or.inl hkey
        · exact Or.inr ⟨hk, decide_eq_true hkey⟩
      · rintro (hkey | hk)
        · obtain ⟨p, hp, rfl⟩ := List.mem_map.mp hkey
          exact hlt p hp
        · exact hk.1
  have hrest : ((List.range N).filter (· ∉ keyed.map Prod.fst)).flatMap f = [] :=
    List.flatMap_eq_nil_iff.mpr fun k hk => hnone k (of_decide_eq_true (List.mem_filter.mp hk).2)
  have hkeys : (keyed.map Prod.fst).flatMap f = keyed.flatMap g := by
    rw [List.flatMap_map]
    exact List.flatMap_congr hfg
  refine (hrange.flatMap_right f).trans (List.Perm.of_eq ?_)
  rw [List.flatMap_append, hrest, hkeys, List.append_nil]

/-- The probe of the numbers of `Bus.number`. -/
theorem probe_number {root : Bus} (hreserved : root.Reserved) (hneed : root.need ≤ 255) :
    (pciProbeDevices (root.number 0 0)).1.Perm
        ((root.number 0 0).busses.flatMap fun p => p.2.functions p.1) ∧
      (∀ x ∈ (pciProbeDevices (root.number 0 0)).1, ∀ y ∈ (pciProbeDevices (root.number 0 0)).1,
        x.isBridge → y.isBridge → x.secondaryBus = y.secondaryBus → x = y) ∧
      (RegistersOk (pciProbeDevices (root.number 0 0)).1 →
        Topology (pciProbeDevices (root.number 0 0)).2 (pciProbeDevices (root.number 0 0)).1) := by
  obtain ⟨last, hloop, -, hlast, hall⟩ := probeLoop_eq (root.number 0 0) 0x100 0 0
    (fun k x hx => (functionsAt_spec hreserved hx).2.1.trans hneed) le_rfl (by decide) (by decide)
  have hprobe : pciProbeDevices (root.number 0 0) =
      ((List.range (last + 1)).flatMap (functionsAt (root.number 0 0)), last) := by
    rw [List.range_eq_range']
    exact hloop
  have hnumbers : ∀ v ∈ (root.number 0 0).bridges, v.2.1.secondary ≤ last := by
    intro v hv
    induction hs : v.2.1.secondary using Nat.strong_induction_on generalizing v with
    | _ s ih =>
      rcases bridges_home hv with ⟨-, hx⟩ | ⟨u, hu, hsec, hx⟩
      · exact hs ▸ hall 0 le_rfl (Nat.zero_le _) _ hx
      · have hlt := (mem_bridges_number hreserved le_rfl hv).2.1
        have hle := ih _ (by omega) u hu rfl
        rw [← hsec, ← functionsAt_number hreserved hu] at hx
        exact hs ▸ hall _ (Nat.zero_le _) hle _ hx
  have hmem : ∀ {x}, x ∈ (pciProbeDevices (root.number 0 0)).1 →
      ∃ k ≤ last, x ∈ functionsAt (root.number 0 0) k := by
    intro x hx
    rw [hprobe] at hx
    obtain ⟨k, hk, hx⟩ := List.mem_flatMap.mp hx
    exact ⟨k, Nat.lt_succ_iff.mp (List.mem_range.mp hk), hx⟩
  have hkeys : ((root.number 0 0).busses.map Prod.fst).Nodup := by
    have hfst : (root.number 0 0).busses.map Prod.fst =
        0 :: (root.number 0 0).bridges.map fun v => v.2.1.secondary := by
      simp [Bus.busses, Function.comp_def]
    rw [hfst]
    refine List.nodup_cons.mpr ⟨fun hzero => ?_, bridges_nodup hreserved le_rfl⟩
    obtain ⟨v, hv, heq⟩ := List.mem_map.mp hzero
    have hpos := (mem_bridges_number hreserved le_rfl hv).1
    omega
  refine ⟨?_, ?_, fun hregs => ?_⟩
  · rw [hprobe]
    refine range_flatMap_perm hkeys (fun p hp => ?_) (fun p hp => ?_) fun k hk => ?_
    · rcases List.mem_cons.mp hp with rfl | hp
      · exact Nat.succ_pos _
      · obtain ⟨v, hv, rfl⟩ := List.mem_map.mp hp
        exact Nat.lt_succ_of_le (hnumbers v hv)
    · rcases List.mem_cons.mp hp with rfl | hp
      · rfl
      · obtain ⟨v, hv, rfl⟩ := List.mem_map.mp hp
        exact functionsAt_number hreserved hv
    · exact List.eq_nil_iff_forall_not_mem.mpr fun x hx => hk (functionsAt_key hx)
  · intro x hx y hy hbx hby hsec
    obtain ⟨k, -, hx⟩ := hmem hx
    obtain ⟨k', -, hy⟩ := hmem hy
    obtain ⟨-, v, hv, rfl⟩ := (functionsAt_spec hreserved hx).2.2 hbx
    obtain ⟨-, v', hv', rfl⟩ := (functionsAt_spec hreserved hy).2.2 hby
    have heq := List.inj_on_of_nodup_map (bridges_nodup hreserved le_rfl) hv hv' hsec
    rw [heq]
  · rw [hprobe] at hregs ⊢
    have hbus : ∀ {k x}, x ∈ functionsAt (root.number 0 0) k → x.bus = k := fun hx =>
      (functionsAt_spec hreserved hx).1
    refine ⟨hregs, ?_, fun x hx => ?_, fun x hx hbridge => ?_, hlast⟩
    · refine List.pairwise_flatMap.mpr ⟨fun k _ => ?_, ?_⟩
      · exact List.pairwise_of_forall_mem_list fun x hx y hy => (hbus hx).trans_le (hbus hy).ge
      · refine List.pairwise_lt_range.imp fun {k k'} hlt x hx y hy => ?_
        rw [hbus hx, hbus hy]
        exact hlt.le
    · obtain ⟨k, hk, hx⟩ := hmem (hprobe.symm ▸ hx)
      exact (hbus hx).trans_le hk
    · obtain ⟨k, hk, hx⟩ := hmem (hprobe.symm ▸ hx)
      rw [hbus hx]
      exact ⟨((functionsAt_spec hreserved hx).2.2 hbridge).1, hall k (Nat.zero_le _) hk x hx⟩

end KvmOsx.Firmware.Pci
