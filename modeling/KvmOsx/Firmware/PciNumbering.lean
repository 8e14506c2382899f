import KvmOsx.Firmware.PciRegions

/-!
# The numbers of the busses (`pci_bios_init_bus_rec`, `fw/pciinit.c` lines 560-645)

The code numbers the busses while it walks over them, and reaches a bus only by its number: a
bridge passes on an access to the busses from its secondary number up to its subordinate one. So
first every bridge on a bus is closed (255 and 0), and a bridge is open up to 255 while the
busses behind it get their numbers.

* `initBusRec`: the walk, by accesses to bus numbers only.
* `initBusLoop_eq`: every access is answered by one bus, the one that the code means, and the
  walk leaves the numbers of `Bus.number`.
* `pciBiosInitBus_reach`: afterwards the number of every bus reaches that bus.
-/

namespace KvmOsx.Firmware.Pci

/-! ## Model -/

/-- `PCI_PRIMARY_BUS`, `PCI_SECONDARY_BUS` and `PCI_SUBORDINATE_BUS`. -/
structure BusRegs where
  primary : ℕ
  secondary : ℕ
  subordinate : ℕ
  deriving DecidableEq

/-- A function of class `PCI_CLASS_BRIDGE_PCI`, by the device and function number. -/
abbrev Bridge : Type := { pci : PciDevice // pci.isBridge = true ∧ pci.bdf < 2 ^ 8 }

/-- Any other function. -/
abbrev Device : Type := { pci : PciDevice // pci.isBridge = false ∧ pci.bdf < 2 ^ 8 }

/-- What is on a bus, in the order of `foreachbdf`. A bridge has what `RES_RESERVE_BUS_RES` reads,
    if it has the capability, and the bus behind it. -/
inductive Bus
  | nil
  | device (pci : Device) (rest : Bus)
  | bridge (pci : Bridge) (reserve : Option ℕ) (regs : BusRegs) (behind rest : Bus)

namespace Bus

/-- The busses that an access to bus `k` on this bus reaches. -/
def reach (k : ℕ) : Bus → List Bus
  | nil => []
  | device _ rest => rest.reach k
  | bridge _ _ regs behind rest =>
    (if regs.secondary ≤ k ∧ k ≤ regs.subordinate then
      if regs.secondary = k then [behind] else behind.reach k
    else []) ++ rest.reach k

/-- The bus that answers to number `k` behind the host bridge. -/
def busAt (k : ℕ) (root : Bus) : Option Bus :=
  if k = 0 then some root
  else
    match root.reach k with
    | [b] => some b
    | _ => none

/-- A write to bus `k` from this bus. -/
def modify (k : ℕ) (g : Bus → Bus) : Bus → Bus
  | nil => nil
  | device pci rest => device pci (rest.modify k g)
  | bridge pci reserve regs behind rest =>
    bridge pci reserve regs
      (if regs.secondary ≤ k ∧ k ≤ regs.subordinate then
        if regs.secondary = k then g behind else behind.modify k g
      else behind) (rest.modify k g)

/-- A write to bus `k` behind the host bridge. -/
def writeBus (k : ℕ) (g : Bus → Bus) (root : Bus) : Bus :=
  if k = 0 then g root else root.modify k g

/-- The first loop (lines 569-575): all bridges on the bus are closed. -/
def close : Bus → Bus
  | nil => nil
  | device pci rest => device pci rest.close
  | bridge pci reserve regs behind rest =>
    bridge pci reserve ⟨regs.primary, 255, 0⟩ behind rest.close

/-- What `foreachbdf` has in front of it after `i` functions. -/
def drop : ℕ → Bus → Bus
  | 0, b => b
  | _ + 1, nil => nil
  | i + 1, device _ rest => rest.drop i
  | i + 1, bridge _ _ _ _ rest => rest.drop i

/-- The registers of function `i` of the bus. -/
def setRegs (regs : BusRegs) : ℕ → Bus → Bus
  | _, nil => nil
  | 0, device pci rest => device pci rest
  | 0, bridge pci reserve _ behind rest => bridge pci reserve regs behind rest
  | i + 1, device pci rest => device pci (rest.setRegs regs i)
  | i + 1, bridge pci reserve regs' behind rest =>
    bridge pci reserve regs' behind (rest.setRegs regs i)

end Bus

/-- `res_bus` (lines 610-631). -/
def resBus (reserve : Option ℕ) (secbus pciBus : ℕ) : ℕ :=
  match reserve with
  | none => pciBus
  | some tmp =>
    if tmp = 2 ^ 32 - 1 then pciBus
    else
      let res := tmp &&& 0xff
      let res := if (res + secbus) % 2 ^ 8 < secbus ∨ (res + secbus) % 2 ^ 8 < res then 0 else res
      if pciBus < secbus + res then (secbus + res) % 2 ^ 8 else res

/-- The second loop (lines 577-642) from function `i` of bus `bus` on: the busses, and
    `*pci_bus`. `none` if no bus answers, or more than one. -/
def initBusLoop : ℕ → ℕ → ℕ → Bus × ℕ → Option (Bus × ℕ)
  | 0, _, _, _ => none
  | fuel + 1, bus, i, (root, pciBus) =>
    match root.busAt bus with
    | none => none
    | some b =>
      match b.drop i with
      | .nil => some (root, pciBus)
      | .device _ _ => initBusLoop fuel bus (i + 1) (root, pciBus)
      | .bridge _ reserve regs _ _ =>
        let secbus := (pciBus + 1) % 2 ^ 8
        let root := root.writeBus bus (Bus.setRegs ⟨bus, secbus, 255⟩ i)
        -- `pci_bios_init_bus_rec` of the bus behind
        match initBusLoop fuel secbus 0 (root.writeBus secbus Bus.close, secbus) with
        | none => none
        | some (root, pciBus) =>
          let subbus := if regs.subordinate ≠ pciBus then resBus reserve secbus pciBus else pciBus
          initBusLoop fuel bus (i + 1)
            (root.writeBus bus (Bus.setRegs ⟨bus, secbus, subbus⟩ i), subbus)

/-- `pci_bios_init_bus_rec`. -/
def initBusRec (fuel bus : ℕ) (st : Bus × ℕ) : Option (Bus × ℕ) :=
  initBusLoop fuel bus 0 (st.1.writeBus bus Bus.close, st.2)

/-- `pci_bios_init_bus` without extra roots. -/
def pciBiosInitBus (fuel : ℕ) (root : Bus) : Option (Bus × ℕ) := initBusRec fuel 0 (root, 0)

/-! ## The numbers -/

/-- The bus numbers that a bridge reserves, if it does. -/
def reservedBusses : Option ℕ → Option ℕ
  | none => none
  | some tmp => if tmp = 2 ^ 32 - 1 then none else some (tmp &&& 0xff)

namespace Bus

/-- The numbers that the bridges on a bus take. -/
def need : Bus → ℕ
  | nil => 0
  | device _ rest => rest.need
  | bridge _ reserve _ behind rest =>
    1 + (reservedBusses reserve).getD behind.need + rest.need

/-- The bridges reserve more than there is behind them. -/
def Reserved : Bus → Prop
  | nil => True
  | device _ rest => rest.Reserved
  | bridge _ reserve _ behind rest =>
    (∀ r, reservedBusses reserve = some r → behind.need < r) ∧ behind.Reserved ∧ rest.Reserved

/-- The busses behind bus `bus` in the order of a walk, numbered from `n + 1` on. -/
def number (bus n : ℕ) : Bus → Bus
  | nil => nil
  | device pci rest => device pci (rest.number bus n)
  | bridge pci reserve _ behind rest =>
    let last := n + 1 + (reservedBusses reserve).getD behind.need
    bridge pci reserve ⟨bus, n + 1, last⟩ (behind.number (n + 1) (n + 1)) (rest.number bus last)

/-- The functions. -/
def size : Bus → ℕ
  | nil => 0
  | device _ rest => 1 + rest.size
  | bridge _ _ _ behind rest => 1 + behind.size + rest.size

/-- The functions of the bus itself. -/
def length : Bus → ℕ
  | nil => 0
  | device _ rest => rest.length + 1
  | bridge _ _ _ _ rest => rest.length + 1

def append : Bus → Bus → Bus
  | nil, b => b
  | device pci rest, b => device pci (rest.append b)
  | bridge pci reserve regs behind rest, b => bridge pci reserve regs behind (rest.append b)

theorem append_nil (b : Bus) : b.append nil = b := by
  induction b with
  | nil => rfl
  | device pci rest ih => rw [append, ih]
  | bridge pci reserve regs behind rest _ ih => rw [append, ih]

theorem append_assoc (a b c : Bus) : (a.append b).append c = a.append (b.append c) := by
  induction a with
  | nil => rfl
  | device pci rest ih => rw [append, append, append, ih]
  | bridge pci reserve regs behind rest _ ih => rw [append, append, append, ih]

theorem length_append (a b : Bus) : (a.append b).length = a.length + b.length := by
  induction a with
  | nil => exact (Nat.zero_add _).symm
  | device pci rest ih => rw [append, length, length, ih, Nat.add_right_comm]
  | bridge pci reserve regs behind rest _ ih => rw [append, length, length, ih, Nat.add_right_comm]

theorem reach_append (k : ℕ) (a b : Bus) : (a.append b).reach k = a.reach k ++ b.reach k := by
  induction a with
  | nil => rfl
  | device pci rest ih => exact ih
  | bridge pci reserve regs behind rest _ ih => rw [append, reach, reach, ih, List.append_assoc]

theorem modify_append (k : ℕ) (g : Bus → Bus) (a b : Bus) :
    (a.append b).modify k g = (a.modify k g).append (b.modify k g) := by
  induction a with
  | nil => rfl
  | device pci rest ih => rw [append, modify, modify, ih, append]
  | bridge pci reserve regs behind rest _ ih => rw [append, modify, modify, ih, append]

theorem drop_append (a b : Bus) : (a.append b).drop a.length = b := by
  induction a with
  | nil => rfl
  | device pci rest ih => exact ih
  | bridge pci reserve regs behind rest _ ih => exact ih

theorem setRegs_append (regs : BusRegs) (a b : Bus) :
    (a.append b).setRegs regs a.length = a.append (b.setRegs regs 0) := by
  induction a with
  | nil => rfl
  | device pci rest ih => rw [append, length, setRegs, ih, append]
  | bridge pci reserve regs' behind rest _ ih => rw [append, length, setRegs, ih, append]

/-- A closed bus passes no access on. -/
theorem reach_close (k : ℕ) (b : Bus) : b.close.reach k = [] := by
  induction b with
  | nil => rfl
  | device pci rest ih => exact ih
  | bridge pci reserve regs behind rest _ ih =>
    rw [close, reach, ih, if_neg (by dsimp only; omega)]
    rfl

theorem modify_close (k : ℕ) (g : Bus → Bus) (b : Bus) : b.close.modify k g = b.close := by
  induction b with
  | nil => rfl
  | device pci rest ih => rw [close, modify, ih]
  | bridge pci reserve regs behind rest _ ih =>
    rw [close, modify, ih, if_neg (by dsimp only; omega)]

/-- An access above all open ranges. -/
def Below (n : ℕ) (b : Bus) : Prop := ∀ k, n < k → b.reach k = [] ∧ ∀ g, b.modify k g = b

end Bus

theorem resBus_eq {reserve : Option ℕ} {secbus m : ℕ}
    (hreserve : ∀ r, reservedBusses reserve = some r → m < r)
    (hfit : secbus + (reservedBusses reserve).getD m ≤ 255) :
    resBus reserve secbus (secbus + m) = secbus + (reservedBusses reserve).getD m := by
  cases reserve with
  | none => rfl
  | some tmp =>
    unfold resBus
    unfold reservedBusses at hreserve hfit ⊢
    dsimp only at hreserve hfit ⊢
    by_cases hnone : tmp = 2 ^ 32 - 1
    · simp only [if_pos hnone]
      rfl
    · simp only [if_neg hnone] at hreserve hfit ⊢
      have hlt := hreserve _ rfl
      obtain ⟨res, hres⟩ : ∃ res, res = tmp &&& 0xff := ⟨_, rfl⟩
      rw [← hres] at hlt hfit ⊢
      change secbus + res ≤ 255 at hfit
      have hword : (res + secbus) % 2 ^ 8 = res + secbus := Nat.mod_eq_of_lt (by omega)
      have hvalid : ¬ (res + secbus < secbus ∨ res + secbus < res) := by omega
      have hlarger : secbus + m < secbus + res := by omega
      rw [hword]
      simp only [if_neg hvalid, if_pos hlarger]
      exact Nat.mod_eq_of_lt (by omega)

-- A reservation of no more than there is behind is taken for the last number itself.
example : resBus (some 2) 5 7 = 2 := by decide

/-! ## The walk -/

namespace Bus

/-- Everything but one bus: accesses to `bus` reach it, and those above `n` go through it. -/
structure Focus (c : Bus → Bus) (bus n : ℕ) : Prop where
  busAt : ∀ b, (c b).busAt bus = some b
  writeBus : ∀ g b, (c b).writeBus bus g = c (g b)
  reach : ∀ k, n < k → k ≤ 255 → ∀ b b', b.reach k = [b'] → (c b).busAt k = some b'
  modify : ∀ k, n < k → k ≤ 255 → ∀ g b, (c b).writeBus k g = c (b.modify k g)

variable {c : Bus → Bus} {bus n m : ℕ} {pre : Bus}

theorem Focus.root : Focus id 0 0 where
  busAt _ := rfl
  writeBus _ _ := rfl
  reach k hk _ b b' h := by
    unfold Bus.busAt
    rw [if_neg (by omega), show (id b).reach k = [b'] from h]
  modify k hk _ g b := if_neg (by omega)

theorem Focus.mono (h : Focus c bus n) (hle : n ≤ m) : Focus c bus m where
  busAt := h.busAt
  writeBus := h.writeBus
  reach k hk := h.reach k (by omega)
  modify k hk := h.modify k (by omega)

/-- The bus behind a bridge that is open up to 255, between closed bridges and bridges with lower
    numbers. -/
theorem Focus.open (h : Focus c bus n) (hpre : Below n pre) (hn : n + 1 ≤ 255)
    (pci : Bridge) (reserve : Option ℕ) (rest : Bus) :
    Focus (fun x => c (pre.append (bridge pci reserve ⟨bus, n + 1, 255⟩ x rest.close)))
      (n + 1) (n + 1) := by
  have hreach : ∀ k, n < k → k ≤ 255 → ∀ x,
      (pre.append (bridge pci reserve ⟨bus, n + 1, 255⟩ x rest.close)).reach k =
        if n + 1 = k then [x] else x.reach k := by
    intro k hk hle x
    have hin : n + 1 ≤ k ∧ k ≤ 255 := ⟨hk, hle⟩
    rw [reach_append, (hpre k hk).1, Bus.reach, reach_close, List.append_nil, List.nil_append]
    exact if_pos hin
  have hmodify : ∀ k, n < k → k ≤ 255 → ∀ g x,
      (pre.append (bridge pci reserve ⟨bus, n + 1, 255⟩ x rest.close)).modify k g =
        pre.append (bridge pci reserve ⟨bus, n + 1, 255⟩
          (if n + 1 = k then g x else x.modify k g) rest.close) := by
    intro k hk hle g x
    have hin : n + 1 ≤ k ∧ k ≤ 255 := ⟨hk, hle⟩
    rw [modify_append, (hpre k hk).2, Bus.modify, modify_close]
    simp only [if_pos hin]
  constructor
  · intro x
    exact h.reach _ (Nat.lt_succ_self n) hn _ _
      ((hreach _ (Nat.lt_succ_self n) hn x).trans (if_pos rfl))
  · intro g x
    rw [h.modify _ (Nat.lt_succ_self n) hn, hmodify _ (Nat.lt_succ_self n) hn, if_pos rfl]
  · intro k hk hle x x' hx
    have hlt : n < k := by omega
    exact h.reach k hlt hle _ _ ((hreach k hlt hle x).trans ((if_neg (by omega)).trans hx))
  · intro k hk hle g x
    have hlt : n < k := by omega
    rw [h.modify k hlt hle, hmodify k hlt hle, if_neg (by omega)]

theorem below_nil (n : ℕ) : Below n nil := fun _ _ => ⟨rfl, fun _ => rfl⟩

theorem Below.device (h : Below n pre) (pci : Device) :
    Below n (pre.append (device pci nil)) := by
  intro k hk
  obtain ⟨hreach, hmodify⟩ := h k hk
  refine ⟨by rw [reach_append, hreach]; rfl, fun g => ?_⟩
  rw [modify_append, hmodify]
  rfl

theorem Below.bridge (h : Below n pre) (pci : Bridge) (reserve : Option ℕ) (regs : BusRegs)
    (x : Bus) (hle : n ≤ regs.subordinate) :
    Below regs.subordinate (pre.append (bridge pci reserve regs x nil)) := by
  intro k hk
  obtain ⟨hreach, hmodify⟩ := h k (by omega)
  have hout : ¬ (regs.secondary ≤ k ∧ k ≤ regs.subordinate) := by omega
  refine ⟨by rw [reach_append, hreach, Bus.reach, if_neg hout]; rfl, fun g => ?_⟩
  rw [modify_append, hmodify, Bus.modify, if_neg hout]
  rfl

end Bus

open Bus

/-- The next function of a bus. -/
theorem length_device (pre : Bus) (pci : Device) :
    (pre.append (device pci nil)).length = pre.length + 1 := length_append _ _

theorem length_bridge (pre x : Bus) (pci : Bridge) (reserve : Option ℕ) (regs : BusRegs) :
    (pre.append (bridge pci reserve regs x nil)).length = pre.length + 1 := length_append _ _

/-- The second loop numbers the rest of a bus. -/
theorem initBusLoop_eq {t : Bus} {c : Bus → Bus} {bus n fuel : ℕ} {pre : Bus}
    (hfocus : Focus c bus n) (hpre : Below n pre) (hreserved : t.Reserved)
    (hfit : n + t.need ≤ 255) (hfuel : t.size < fuel) :
    initBusLoop fuel bus pre.length (c (pre.append t.close), n) =
      some (c (pre.append (t.number bus n)), n + t.need) := by
  induction t generalizing c bus n fuel pre with
  | nil =>
    obtain ⟨fuel, rfl⟩ := Nat.exists_eq_succ_of_ne_zero (Nat.ne_of_gt hfuel)
    unfold initBusLoop
    rw [hfocus.busAt]
    simp only [close, drop_append]
    rfl
  | device pci rest ih =>
    obtain ⟨fuel, rfl⟩ := Nat.exists_eq_succ_of_ne_zero (Nat.ne_of_gt (Nat.zero_lt_of_lt hfuel))
    have hsize : (device pci rest).size = 1 + rest.size := rfl
    have hrest := ih hfocus (hpre.device pci) hreserved hfit (by omega : rest.size < fuel)
    rw [length_device, append_assoc, append_assoc] at hrest
    unfold initBusLoop
    rw [hfocus.busAt]
    simp only [close, drop_append]
    exact hrest
  | bridge pci reserve regs behind rest ihb ihr =>
    obtain ⟨fuel, rfl⟩ := Nat.exists_eq_succ_of_ne_zero (Nat.ne_of_gt (Nat.zero_lt_of_lt hfuel))
    obtain ⟨hroom, hbehind, hrest⟩ := hreserved
    obtain ⟨own, hown⟩ : ∃ own, own = (reservedBusses reserve).getD behind.need := ⟨_, rfl⟩
    have hneed : (bridge pci reserve regs behind rest).need = 1 + own + rest.need := by
      rw [hown]
      rfl
    have hsize : (bridge pci reserve regs behind rest).size = 1 + behind.size + rest.size := rfl
    have hmore : behind.need ≤ own := by
      rw [hown]
      cases hr : reservedBusses reserve with
      | none => exact le_rfl
      | some r => exact (hroom r hr).le
    have hsec : (n + 1) % 2 ^ 8 = n + 1 := Nat.mod_eq_of_lt (by omega)
    -- The bridge is opened, and the walk goes on behind it.
    have hopen := hfocus.open hpre (by omega) pci reserve rest
    have hinner := ihb hopen (below_nil _) hbehind (by omega) (by omega : behind.size < fuel)
    have hset : ∀ regs' regs'' x,
        (c (pre.append (bridge pci reserve regs'' x rest.close))).writeBus bus
          (setRegs regs' pre.length) = c (pre.append (bridge pci reserve regs' x rest.close)) := by
      intro regs' regs'' x
      rw [hfocus.writeBus, setRegs_append]
      rfl
    have hsub : resBus reserve (n + 1) (n + 1 + behind.need) = n + 1 + own := by
      rw [hown] at hneed ⊢
      exact resBus_eq hroom (by omega)
    have hpre' := hpre.bridge pci reserve ⟨bus, n + 1, n + 1 + own⟩
      (behind.number (n + 1) (n + 1)) (by omega : n ≤ n + 1 + own)
    have hstep := ihr (hfocus.mono (by omega : n ≤ n + 1 + own)) hpre' hrest (by omega)
      (by omega : rest.size < fuel)
    rw [length_bridge, append_assoc, append_assoc] at hstep
    unfold initBusLoop
    rw [hfocus.busAt]
    simp only [close, drop_append]
    rw [hset, hsec, hopen.writeBus]
    have hinner' : initBusLoop fuel (n + 1) 0 (c (pre.append (bridge pci reserve
        ⟨bus, n + 1, 255⟩ behind.close rest.close)), n + 1) = some (c (pre.append
          (bridge pci reserve ⟨bus, n + 1, 255⟩ (behind.number (n + 1) (n + 1)) rest.close)),
            n + 1 + behind.need) := hinner
    rw [hinner']
    dsimp only
    rw [if_pos (by omega : 0 ≠ n + 1 + behind.need), hsub, hset]
    have hnumber : (bridge pci reserve regs behind rest).number bus n =
        bridge pci reserve ⟨bus, n + 1, n + 1 + own⟩ (behind.number (n + 1) (n + 1))
          (rest.number bus (n + 1 + own)) := by
      rw [hown]
      rfl
    rw [hnumber, hneed, show n + (1 + own + rest.need) = n + 1 + own + rest.need by omega]
    exact hstep

/-! ## What the numbers reach -/

namespace Bus

/-- The bridges, with their numbers and what is behind them. -/
def bridges : Bus → List (Bridge × BusRegs × Bus)
  | nil => []
  | device _ rest => rest.bridges
  | bridge pci _ regs behind rest => (pci, regs, behind) :: (behind.bridges ++ rest.bridges)

/-- The tree without its numbers. -/
def unset : Bus → Bus
  | nil => nil
  | device pci rest => device pci rest.unset
  | bridge pci reserve _ behind rest => bridge pci reserve ⟨0, 0, 0⟩ behind.unset rest.unset

theorem unset_number (bus n : ℕ) (t : Bus) : (t.number bus n).unset = t.unset := by
  induction t generalizing bus n with
  | nil => rfl
  | device pci rest ih => rw [number, unset, ih, unset]
  | bridge pci reserve regs behind rest ihb ihr => rw [number, unset, ihb, ihr, unset]

theorem Reserved.need_le {reserve : Option ℕ} {behind : Bus}
    (h : ∀ r, reservedBusses reserve = some r → behind.need < r) :
    behind.need ≤ (reservedBusses reserve).getD behind.need := by
  cases hr : reservedBusses reserve with
  | none => exact le_rfl
  | some r => exact (h r hr).le

variable {t : Bus} {k : ℕ} {v : Bridge × BusRegs × Bus}

/-- An access to another number than those of the walk is not passed on. -/
theorem reach_number_out (hreserved : t.Reserved) (hk : k ≤ n ∨ n + t.need < k) :
    (t.number bus n).reach k = [] := by
  induction t generalizing bus n with
  | nil => rfl
  | device pci rest ih => exact ih hreserved hk
  | bridge pci reserve regs behind rest ihb ihr =>
    obtain ⟨hroom, -, hrest⟩ := hreserved
    obtain ⟨own, hown⟩ : ∃ own, own = (reservedBusses reserve).getD behind.need := ⟨_, rfl⟩
    rw [need, ← hown] at hk
    rw [number, ← hown, reach, if_neg (by dsimp only; omega), ihr hrest (by omega)]
    rfl

/-- The numbers of a walk are above `n`, and nested. -/
theorem mem_bridges_number (hreserved : t.Reserved) (hbus : bus ≤ n)
    (hv : v ∈ (t.number bus n).bridges) : n < v.2.1.secondary ∧ v.2.1.primary < v.2.1.secondary ∧
      v.2.1.secondary ≤ v.2.1.subordinate ∧ v.2.1.subordinate ≤ n + t.need := by
  induction t generalizing bus n with
  | nil => cases hv
  | device pci rest ih => exact ih hreserved hbus hv
  | bridge pci reserve regs behind rest ihb ihr =>
    obtain ⟨hroom, hbehind, hrest⟩ := hreserved
    have hmore := Reserved.need_le hroom
    rw [number, bridges] at hv
    rw [need]
    rcases List.mem_cons.mp hv with rfl | hv
    · dsimp only
      omega
    rcases List.mem_append.mp hv with hv | hv
    · have hspec := ihb hbehind le_rfl hv
      omega
    · have hspec := ihr hrest (by omega) hv
      omega

/-- **Every number** of a walk reaches its bus. -/
theorem reach_number (hreserved : t.Reserved) (hv : v ∈ (t.number bus n).bridges)
    (hbus : bus ≤ n) : (t.number bus n).reach v.2.1.secondary = [v.2.2] := by
  induction t generalizing bus n with
  | nil => cases hv
  | device pci rest ih => exact ih hreserved hv hbus
  | bridge pci reserve regs behind rest ihb ihr =>
    obtain ⟨hroom, hbehind, hrest⟩ := hreserved
    have hmore := Reserved.need_le hroom
    obtain ⟨own, hown⟩ : ∃ own, own = (reservedBusses reserve).getD behind.need := ⟨_, rfl⟩
    rw [← hown] at hmore
    rw [number, ← hown, bridges] at hv
    rw [number, ← hown, reach]
    dsimp only
    rcases List.mem_cons.mp hv with rfl | hv
    · dsimp only
      rw [if_pos (by omega), if_pos rfl, reach_number_out hrest (Or.inl (by omega))]
      rfl
    rcases List.mem_append.mp hv with hv | hv
    · have hspec := mem_bridges_number hbehind le_rfl hv
      rw [if_pos (by omega), if_neg (by omega), ihb hbehind hv le_rfl,
        reach_number_out hrest (Or.inl (by omega))]
      rfl
    · have hspec := mem_bridges_number hrest (by omega) hv
      rw [if_neg (by omega), ihr hrest hv (by omega)]
      rfl

end Bus

theorem pciBiosInitBus_eq {root : Bus} {fuel : ℕ} (hreserved : root.Reserved)
    (hneed : root.need ≤ 255) (hfuel : root.size < fuel) :
    pciBiosInitBus fuel root = some (root.number 0 0, root.need) := by
  have hwalk := initBusLoop_eq Focus.root (below_nil 0) hreserved (by omega) hfuel
  rwa [Nat.zero_add] at hwalk

/-- **`pci_bios_init_bus`** ends, whatever is on the busses: each access is answered by the bus it
    is meant for, and afterwards the secondary number of every bridge reaches the bus behind the
    bridge, and no other. -/
theorem pciBiosInitBus_reach {root : Bus} {fuel : ℕ} (hreserved : root.Reserved)
    (hneed : root.need ≤ 255) (hfuel : root.size < fuel) :
    ∃ root', pciBiosInitBus fuel root = some (root', root.need) ∧ root'.unset = root.unset ∧
      ∀ v ∈ root'.bridges, root'.busAt v.2.1.secondary = some v.2.2 ∧
        v.2.1.primary < v.2.1.secondary ∧ v.2.1.secondary ≤ v.2.1.subordinate ∧
        v.2.1.subordinate ≤ root.need := by
  refine ⟨root.number 0 0, pciBiosInitBus_eq hreserved hneed hfuel, unset_number 0 0 root,
    fun v hv => ?_⟩
  have hspec := mem_bridges_number hreserved le_rfl hv
  rw [Nat.zero_add] at hspec
  refine ⟨?_, hspec.2⟩
  unfold busAt
  rw [if_neg (by omega), reach_number hreserved hv le_rfl]

/-- A card behind one root port, and a root port that reserves two busses. -/
def machine : Bus :=
  bridge ⟨rootPort, rfl, by decide⟩ none ⟨0, 0, 0⟩
    (device ⟨{ nic with bdf := 0 }, rfl, by decide⟩ nil)
    (bridge ⟨{ rootPort with bdf := 0x10 }, rfl, by decide⟩ (some 2) ⟨0, 7, 9⟩ nil nil)

theorem machine_reserved : machine.Reserved := by
  simp [machine, Reserved, reservedBusses, need]

theorem pciBiosInitBus_reach_machine : ∃ root', pciBiosInitBus 4 machine = some (root', 4) ∧
    root'.unset = machine.unset ∧ ∀ v ∈ root'.bridges, root'.busAt v.2.1.secondary = some v.2.2 ∧
      v.2.1.primary < v.2.1.secondary ∧ v.2.1.secondary ≤ v.2.1.subordinate ∧
      v.2.1.subordinate ≤ 4 :=
  pciBiosInitBus_reach machine_reserved (by decide) (by decide)

end KvmOsx.Firmware.Pci
