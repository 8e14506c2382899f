import KvmOsx.Lib.Slots

/-!
# The allocator of the BIOS (`bios/seabios-1.13.0/src/malloc.c`)

Five zones of memory hold the firmware's own data and what option ROMs ask for. Each is a list
of `allocinfo_s` from high to low addresses; `alloc_new` takes the first info with room and
cuts the new range off its top. An allocation is tracked by an `allocdetail_s`, which lives in
memory that `alloc_new` takes from one of the two temporary zones, and whose two infos are
nodes of the same lists.

* `allocNew_spec`, `allocNewDetail_spec`: what a search that finds room does to the zones.
* `mallocPalloc_spec`, `mallocPfree_spec`: what is in the zones after a request and after
  a block is freed.
-/

namespace KvmOsx.Firmware

open Slots

/-! ## Model -/

/-- The zones, in the order of `Zones`. -/
inductive ZoneId where
  | tmpLow | low | fSeg | tmpHigh | high
  deriving DecidableEq, Repr

/-- `Zones`. -/
def zones : List ZoneId := [.tmpLow, .low, .fSeg, .tmpHigh, .high]

/-- The place of an `allocinfo_s`: in the detail at an address, or the `datainfo` of the
    `tempdetail` on the stack. -/
inductive Node where
  | temp
  | detailinfo (detail : ℕ)
  | datainfo (detail : ℕ)
  deriving DecidableEq, Repr

/-- `sizeof(struct allocinfo_s)`. -/
def sizeofAllocinfo : ℕ := 20

/-- `sizeof(struct allocdetail_s)`. -/
def sizeofAllocdetail : ℕ := 44

/-- `MALLOC_MIN_ALIGN`. -/
def mallocMinAlign : ℕ := 16

/-- `virt_to_phys(info)`; the stack is not in a zone. -/
def Node.addr : Node → Option ℕ
  | temp => none
  | detailinfo d => some d
  | datainfo d => some (d + sizeofAllocinfo)

/-- `struct allocinfo_s`: `start` is its `range_start`, `stop` its `range_end` and `used` its
    `alloc_size`. -/
abbrev Info := Slot Node

/-- The lists of the zones. -/
abbrev Heap := ZoneId → List Info

/-- A `u32`. -/
def u32 (n : ℕ) : ℕ := n % 2 ^ 32

/-- `ALIGN_DOWN` on `u32`. -/
def alignDown (x a : ℕ) : ℕ := x &&& (2 ^ 32 - 1 - (a - 1))

/-- `alloc_new` (lines 50-70): the address, 0 if there is none, and the list. `fill` gives the
    node for an address. -/
def allocNew (size align : ℕ) (fill : ℕ → Node) : List Info → ℕ × List Info
  | [] => (0, [])
  | info :: l =>
    let allocEnd := u32 (info.start + info.used)
    let newRangeEnd := alignDown (u32 (info.stop + 2 ^ 32 - size)) align
    if allocEnd ≤ newRangeEnd ∧ newRangeEnd ≤ info.stop then
      (newRangeEnd, ⟨newRangeEnd, size, info.stop, fill newRangeEnd⟩ ::
        { info with stop := newRangeEnd } :: l)
    else
      let r := allocNew size align fill l
      (r.1, info :: r.2)

/-- `hlist_replace` of the `datainfo` on the stack by that of the detail. -/
def replaceTemp (detail : ℕ) (h : Heap) : Heap := fun z =>
  (h z).map (Slot.rekey fun k => if k = .temp then .datainfo detail else k)

/-- `alloc_new` of a zone, for a detail. -/
def allocDetailIn (z : ZoneId) (h : Heap) : ℕ × Heap :=
  let r := allocNew sizeofAllocdetail mallocMinAlign .detailinfo (h z)
  (r.1, Function.update h z r.2)

/-- `alloc_new_detail` (lines 73-93). -/
def allocNewDetail (h : Heap) : Bool × Heap :=
  let r := allocDetailIn .tmpHigh h
  if r.1 ≠ 0 then (true, replaceTemp r.1 r.2)
  else
    let r := allocDetailIn .tmpLow r.2
    if r.1 ≠ 0 then (true, replaceTemp r.1 r.2) else (false, r.2)

/-- `alloc_free` (lines 122-130), for the info at a node. -/
def allocFree (node : Node) : List Info → List Info
  | [] => []
  | info :: l =>
    if info.key = node then
      match l with
      | [] => []
      | next :: l =>
        if next.stop = info.start then { next with stop := info.stop } :: l else next :: l
    else info :: allocFree node l

/-- `alloc_add` (lines 96-119). -/
def allocAdd (z : ZoneId) (start stop : ℕ) (h : Heap) : Heap :=
  let above := (h z).takeWhile fun info => !decide (info.start < start)
  let rest := (h z).dropWhile fun info => !decide (info.start < start)
  let r := allocNewDetail (Function.update h z (above ++ ⟨start, 0, stop, .temp⟩ :: rest))
  if r.1 then r.2 else fun z => (r.2 z).filter fun info => info.key ≠ .temp

/-- `alloc_find` (lines 133-145). -/
def allocFind (data : ℕ) (h : Heap) : Option Info :=
  (zones.flatMap h).find? fun info => info.start = data

/-- `malloc_palloc` (lines 235-262). -/
def mallocPalloc (z : ZoneId) (size align : ℕ) (h : Heap) : ℕ × Heap :=
  if size = 0 then (0, h)
  else
    let r := allocNew size align (fun _ => .temp) (h z)
    let h := Function.update h z r.2
    if r.1 = 0 then (0, h)
    else
      let d := allocNewDetail h
      if d.1 then (r.1, d.2) else (0, fun z => allocFree .temp (d.2 z))

/-- `malloc_pfree` (lines 272-285): whether it returns 0. -/
def mallocPfree (data : ℕ) (h : Heap) : Bool × Heap :=
  match allocFind data h with
  | none => (false, h)
  | some info =>
    if info.key.addr = some data ∨ info.used = 0 then (false, h)
    else
      match info.key with
      | .datainfo d =>
        (true, fun z => allocFree (.detailinfo d) (allocFree (.datainfo d) (h z)))
      | _ => (false, h)

/-! ## The search -/

section Search

variable {size k : ℕ} {fill : ℕ → Node} {l : List Info}

theorem alignDown_eq {x : ℕ} (hx : x < 2 ^ 32) (hk : k ≤ 32) :
    alignDown x (2 ^ k) = x - x % 2 ^ k := by
  have hmask : 2 ^ 32 - 1 - (2 ^ k - 1) = (2 ^ (32 - k) - 1) <<< k := by
    have hpow : 2 ^ (32 - k) * 2 ^ k = 2 ^ 32 := by rw [← pow_add, Nat.sub_add_cancel hk]
    have hpos : 0 < 2 ^ k := Nat.two_pow_pos k
    rw [Nat.shiftLeft_eq, Nat.sub_mul, one_mul, hpow]
    omega
  have hdiv : x - x % 2 ^ k = (x >>> k) <<< k := by
    have hsplit := Nat.div_add_mod x (2 ^ k)
    rw [Nat.shiftLeft_eq, Nat.shiftRight_eq_div_pow, mul_comm]
    omega
  unfold alignDown
  rw [hmask, hdiv]
  refine Nat.eq_of_testBit_eq fun i => ?_
  rw [Nat.testBit_and, Nat.testBit_shiftLeft, Nat.testBit_shiftLeft, Nat.testBit_shiftRight,
    Nat.testBit_two_pow_sub_one]
  by_cases hik : k ≤ i
  · rw [Nat.add_sub_cancel' hik]
    by_cases hi : i < 32
    · have hlt : i - k < 32 - k := by omega
      simp [hik, hlt]
    · have hbit : x.testBit i = false :=
        Nat.testBit_lt_two_pow (hx.trans_le (Nat.pow_le_pow_right (by decide) (not_lt.mp hi)))
      simp [hbit]
  · simp [hik]

/-- No slot has room for an aligned range. -/
def NoRoom (l : List Info) (size align : ℕ) : Prop :=
  ∀ s ∈ l, ∀ a, align ∣ a → s.start + s.used ≤ a → s.stop < a + size

theorem not_noRoom {l' : List Info} {slot : Info} {align : ℕ} (h : Carved l l' slot)
    (hdvd : align ∣ slot.start) : ¬ NoRoom l slot.used align := by
  obtain ⟨pre, s, post, rfl, -, hfree, hroom, hstop⟩ := h
  intro hno
  have hlt := hno s (List.mem_append_right pre List.mem_cons_self) slot.start hdvd hfree
  omega

/-- The search finds the highest aligned range of the first slot with room. -/
theorem allocNew_spec (hl : ∀ s ∈ l, s.start + s.used ≤ s.stop ∧ 0 < s.start ∧ s.stop < 2 ^ 32)
    (hsize : 0 < size) (hk : k ≤ 32) (hfit : size + 2 ^ k ≤ 2 ^ 32) :
    (allocNew size (2 ^ k) fill l = (0, l) ∧ NoRoom l size (2 ^ k)) ∨
    ∃ a stop l', allocNew size (2 ^ k) fill l = (a, l') ∧ 0 < a ∧ 2 ^ k ∣ a ∧
      Carved l l' ⟨a, size, stop, fill a⟩ := by
  induction l with
  | nil => exact Or.inl ⟨rfl, by simp [NoRoom]⟩
  | cons info l ih =>
    obtain ⟨⟨hroom, hpos, hbound⟩, hrest⟩ := List.forall_mem_cons.mp hl
    have hend : u32 (info.start + info.used) = info.start + info.used :=
      Nat.mod_eq_of_lt (hroom.trans_lt hbound)
    have hmod : ∀ x, x % 2 ^ k < 2 ^ k := fun x => Nat.mod_lt x (Nat.two_pow_pos k)
    unfold allocNew
    simp only [hend]
    by_cases hle : size ≤ info.stop
    · have hsub : u32 (info.stop + 2 ^ 32 - size) = info.stop - size := by
        unfold u32
        omega
      have hdown := alignDown_eq (x := info.stop - size) (by omega) hk
      have hdvd : 2 ^ k ∣ info.stop - size - (info.stop - size) % 2 ^ k := Nat.dvd_sub_mod _
      rw [hsub, hdown]
      by_cases hfree : info.start + info.used ≤
          info.stop - size - (info.stop - size) % 2 ^ k
      · rw [if_pos ⟨hfree, by omega⟩]
        exact Or.inr ⟨_, info.stop, _, rfl, by omega, hdvd, [], info, l, rfl, rfl, hfree,
          by simp only; omega, rfl⟩
      · rw [if_neg fun hboth => hfree hboth.1]
        rcases ih hrest with ⟨heq, hno⟩ | ⟨a, stop, l', heq, ha, hda, hcarved⟩
        · refine Or.inl ⟨by rw [heq], List.forall_mem_cons.mpr ⟨fun a hda hstart => ?_, hno⟩⟩
          -- The highest aligned address with room for the size lies in the used part.
          by_contra hlt
          have hle' : a ≤ info.stop - size := by omega
          have hmono : a - a % 2 ^ k ≤ info.stop - size - (info.stop - size) % 2 ^ k := by
            have hdiv := Nat.div_le_div_right (c := 2 ^ k) hle'
            have ha := Nat.div_add_mod a (2 ^ k)
            have hs := Nat.div_add_mod (info.stop - size) (2 ^ k)
            have hmul := Nat.mul_le_mul_left (2 ^ k) hdiv
            omega
          rw [Nat.mod_eq_zero_of_dvd hda] at hmono
          omega
        · exact Or.inr ⟨a, stop, info :: l', by rw [heq], ha, hda, hcarved.cons info⟩
    · -- The subtraction wraps around, and the result is above the slot.
      have hsub : u32 (info.stop + 2 ^ 32 - size) = info.stop + 2 ^ 32 - size := by
        unfold u32
        omega
      have hdown := alignDown_eq (x := info.stop + 2 ^ 32 - size) (by omega) hk
      have hlow := hmod (info.stop + 2 ^ 32 - size)
      rw [hsub, hdown, if_neg fun hboth => by omega]
      rcases ih hrest with ⟨heq, hno⟩ | ⟨a, stop, l', heq, ha, hda, hcarved⟩
      · refine Or.inl ⟨by rw [heq], List.forall_mem_cons.mpr ⟨fun a _ _ => by omega, hno⟩⟩
      · exact Or.inr ⟨a, stop, info :: l', by rw [heq], ha, hda, hcarved.cons info⟩

end Search

/-! ## The zones between two calls -/

/-- The infos share no address and no node, addresses are 32 bits wide and not 0, and the
    `detailinfo` of a detail is the block the detail lives in. -/
structure HeapInv (h : Heap) : Prop extends Family h where
  addrs : ∀ {z x}, Covered (h z) x → 0 < x ∧ x + 1 < 2 ^ 32
  details : ∀ {z s d}, s ∈ h z → s.key = .detailinfo d →
    s.start = d ∧ s.used = sizeofAllocdetail

/-- The node is in a list. -/
def Used (h : Heap) (node : Node) : Prop := ∃ z, ∃ s ∈ h z, s.key = node

/-- Between two calls the stack is in no list, and details are there as a whole. -/
structure Sound (h : Heap) : Prop extends HeapInv h where
  settled : ¬ Used h .temp
  paired : ∀ d, Used h (.datainfo d) ↔ Used h (.detailinfo d)

section Invariant

variable {h : Heap} {z : ZoneId} {l : List Info} {s slot : Info} {node : Node} {x d : ℕ}

theorem HeapInv.bounds (hinv : HeapInv h) (hs : s ∈ h z) :
    s.start + s.used ≤ s.stop ∧ 0 < s.start ∧ s.stop < 2 ^ 32 := by
  have hroom := (hinv.zone z).room s hs
  have hroot := hinv.addrs ((hinv.zone z).rooted s hs)
  refine ⟨hroom, hroot.1, ?_⟩
  rcases Nat.eq_or_lt_of_le ((Nat.le_add_right _ _).trans hroom) with heq | hlt
  · omega
  · have hlast := hinv.addrs (z := z) (x := s.stop - 1) ⟨s, hs, by omega, by omega⟩
    omega

theorem covered_update (hcov : ∀ x, Covered l x ↔ Covered (h z) x) (z' : ZoneId) :
    Covered (Function.update h z l z') x ↔ Covered (h z') x := by
  by_cases hz : z' = z
  · rw [hz, Function.update_self, hcov]
  · rw [Function.update_of_ne hz]

theorem used_carved (hcarved : Carved (h z) l slot) :
    Used (Function.update h z l) node ↔ node = slot.key ∨ Used h node := by
  have hkeys := hcarved.keys
  have hmem : (∃ s ∈ l, s.key = node) ↔ node = slot.key ∨ ∃ s ∈ h z, s.key = node := by
    have hiff := hkeys.mem_iff (a := node)
    simpa only [List.mem_map, List.mem_cons] using hiff
  constructor
  · rintro ⟨z', s, hs, hkey⟩
    by_cases hz : z' = z
    · rw [hz, Function.update_self] at hs
      exact (hmem.mp ⟨s, hs, hkey⟩).imp_right fun hold => ⟨z, hold⟩
    · rw [Function.update_of_ne hz] at hs
      exact Or.inr ⟨z', s, hs, hkey⟩
  · intro hnode
    have hz : (∃ s ∈ l, s.key = node) → Used (Function.update h z l) node := by
      rintro ⟨s, hs, hkey⟩
      exact ⟨z, s, by rwa [Function.update_self], hkey⟩
    rcases hnode with hnew | ⟨z', s, hs, hkey⟩
    · exact hz (hmem.mpr (Or.inl hnew))
    · by_cases hz' : z' = z
      · exact hz (hmem.mpr (Or.inr ⟨s, hz' ▸ hs, hkey⟩))
      · exact ⟨z', s, by rwa [Function.update_of_ne hz'], hkey⟩

theorem HeapInv.carve (hinv : HeapInv h) (hcarved : Carved (h z) l slot) (hused : 0 < slot.used)
    (hfresh : ¬ Used h slot.key)
    (hdetail : ∀ d, slot.key = .detailinfo d → slot.start = d ∧ slot.used = sizeofAllocdetail) :
    HeapInv (Function.update h z l) := by
  refine ⟨hinv.toFamily.carve hcarved hused fun j t ht hkey => hfresh ⟨j, t, ht, hkey⟩,
    fun {z' x} hx => hinv.addrs ((covered_update (fun x => hcarved.covered) z').mp hx), ?_⟩
  intro z' s d hs hkey
  have hold : ∀ {s : Info}, s ∈ h z' → s.key = .detailinfo d →
      s.start = d ∧ s.used = sizeofAllocdetail := hinv.details
  by_cases hz : z' = z
  · rw [hz, Function.update_self] at hs
    have hmark := hcarved.mem_marks.mp (List.mem_map_of_mem (f := Slot.mark) hs)
    rcases hmark with heq | hmem
    · simp only [Slot.mark, Prod.mk.injEq] at heq
      rw [heq.1, heq.2.1]
      exact hdetail d (heq.2.2.symm.trans hkey)
    · obtain ⟨t, ht, heq⟩ := List.mem_map.mp hmem
      simp only [Slot.mark, Prod.mk.injEq] at heq
      rw [← heq.1, ← heq.2.1]
      exact hold (hz ▸ ht) (heq.2.2.trans hkey)
  · rw [Function.update_of_ne hz] at hs
    exact hold hs hkey

/-- A block that is cut off is not where a detail already lives. -/
theorem HeapInv.detail_fresh (hinv : HeapInv h) (hcarved : Carved (h z) l slot)
    (hused : 0 < slot.used) : ¬ Used h (.detailinfo slot.start) := by
  rintro ⟨j, t, ht, hkey⟩
  obtain ⟨hstart, htused⟩ := hinv.details ht hkey
  obtain ⟨pre, s, post, hl, -, hfree, hroom, hstop⟩ := hcarved
  have hs : s ∈ h z := by
    rw [hl]
    exact List.mem_append_right pre List.mem_cons_self
  have htroom := (hinv.zone j).room t ht
  obtain ⟨-, rfl⟩ := hinv.slot_eq (x := slot.start) hs ht (by omega) (by
    unfold sizeofAllocdetail at htused
    omega)
  unfold sizeofAllocdetail at htused
  omega

end Invariant

/-! ## The marks of a zone -/

/-- Start, size and node of the infos of a zone. -/
def marks (h : Heap) (z : ZoneId) : List (ℕ × ℕ × Node) := (h z).map Slot.mark

/-- What `replaceTemp` does to a mark. -/
def settle (detail : ℕ) (m : ℕ × ℕ × Node) : ℕ × ℕ × Node :=
  (m.1, m.2.1, if m.2.2 = .temp then .datainfo detail else m.2.2)

section Marks

variable {h : Heap} {z : ZoneId} {l : List Info} {s slot : Info} {node : Node} {d : ℕ}
  {m : ℕ × ℕ × Node}

theorem used_iff : Used h node ↔ ∃ z, ∃ m ∈ marks h z, m.2.2 = node := by
  simp [Used, marks, Slot.mark]

theorem marks_replaceTemp (d : ℕ) (h : Heap) (z : ZoneId) :
    marks (replaceTemp d h) z = (marks h z).map (settle d) := by
  simp only [marks, replaceTemp, List.map_map]
  rfl

theorem settle_of_ne (hm : m.2.2 ≠ .temp) : settle d m = m := by
  unfold settle
  rw [if_neg hm]

theorem settle_key (hm : m.2.2 = .temp) : settle d m = (m.1, m.2.1, .datainfo d) := by
  unfold settle
  rw [if_pos hm]

theorem HeapInv.rekeyTemp (hinv : HeapInv h) (hfresh : ¬ Used h (.datainfo d)) :
    HeapInv (replaceTemp d h) := by
  refine ⟨hinv.toFamily.rekey _ fun {i j s t} hs ht heq => ?_,
    fun hx => hinv.addrs (covered_rekey.mp hx), fun {z s d'} hs hkey => ?_⟩
  · have hs' : s.key ≠ .datainfo d := fun hkey => hfresh ⟨i, s, hs, hkey⟩
    have ht' : t.key ≠ .datainfo d := fun hkey => hfresh ⟨j, t, ht, hkey⟩
    split_ifs at heq with hst htt htt
    · exact hst.trans htt.symm
    · exact absurd heq.symm ht'
    · exact absurd heq hs'
    · exact heq
  · obtain ⟨t, ht, rfl⟩ := List.mem_map.mp hs
    simp only [Slot.rekey] at hkey ⊢
    split_ifs at hkey
    exact hinv.details ht hkey

/-- `d` is where the detail for the info on the stack went. -/
structure Detailed (h h' : Heap) (zd : ZoneId) (d : ℕ) : Prop where
  zone : zd = .tmpHigh ∨ zd = .tmpLow
  inv : HeapInv h'
  fresh : ¬ Used h (.detailinfo d)
  covered : ∀ z x, Covered (h' z) x ↔ Covered (h z) x
  mem : ∀ z m, m ∈ marks h' z ↔
    (z = zd ∧ m = (d, sizeofAllocdetail, .detailinfo d)) ∨ ∃ m₀ ∈ marks h z, settle d m₀ = m
  sublist : ∀ z, ((marks h z).map (settle d)).Sublist (marks h' z)

/-- Room for a detail in a temporary zone. -/
theorem HeapInv.detailed (hinv : HeapInv h) (hzone : z = .tmpHigh ∨ z = .tmpLow)
    (htracked : ∀ d, Used h (.datainfo d) → Used h (.detailinfo d)) {stop : ℕ}
    (hcarved : Carved (h z) l ⟨d, sizeofAllocdetail, stop, .detailinfo d⟩) :
    Detailed h (replaceTemp d (Function.update h z l)) z d := by
  have hused : 0 < sizeofAllocdetail := by decide
  have hfresh : ¬ Used h (.detailinfo d) := hinv.detail_fresh hcarved hused
  have hinv' : HeapInv (Function.update h z l) := by
    refine hinv.carve hcarved hused hfresh fun d' hd => ?_
    rw [Node.detailinfo.injEq] at hd
    exact ⟨hd, rfl⟩
  have hdata : ¬ Used (Function.update h z l) (.datainfo d) := by
    rw [used_carved hcarved]
    rintro (heq | hold)
    · cases heq
    · exact hfresh (htracked d hold)
  refine ⟨hzone, hinv'.rekeyTemp hdata, hfresh, fun z' x => ?_, fun z' m => ?_, fun z' => ?_⟩
  · exact covered_rekey.trans (covered_update (fun x => hcarved.covered) z')
  · rw [marks_replaceTemp, List.mem_map]
    have hnew : settle d (d, sizeofAllocdetail, .detailinfo d) =
        (d, sizeofAllocdetail, .detailinfo d) := settle_of_ne (by simp)
    have hmem : ∀ m₀, m₀ ∈ marks (Function.update h z l) z' ↔
        (z' = z ∧ m₀ = (d, sizeofAllocdetail, .detailinfo d)) ∨ m₀ ∈ marks h z' := by
      intro m₀
      unfold marks
      by_cases hz : z' = z
      · rw [hz, Function.update_self, hcarved.mem_marks]
        simp only [true_and, Slot.mark]
      · rw [Function.update_of_ne hz]
        simp [hz]
    constructor
    · rintro ⟨m₀, hm₀, rfl⟩
      rcases (hmem m₀).mp hm₀ with ⟨hz, rfl⟩ | hold
      · exact Or.inl ⟨hz, hnew⟩
      · exact Or.inr ⟨m₀, hold, rfl⟩
    · rintro (⟨hz, rfl⟩ | ⟨m₀, hm₀, rfl⟩)
      · exact ⟨_, (hmem _).mpr (Or.inl ⟨hz, rfl⟩), hnew⟩
      · exact ⟨m₀, (hmem m₀).mpr (Or.inr hm₀), rfl⟩
  · rw [marks_replaceTemp]
    refine List.Sublist.map _ ?_
    unfold marks
    by_cases hz : z' = z
    · obtain ⟨pre, post, hold, hnew⟩ := hcarved.marks
      rw [hz, Function.update_self, hold, hnew]
      exact (List.Sublist.refl pre).append (List.sublist_cons_self _ post)
    · rw [Function.update_of_ne hz]

/-- A detail is found room for in one of the temporary zones, unless both have none. -/
theorem allocNewDetail_spec (hinv : HeapInv h)
    (htracked : ∀ d, Used h (.datainfo d) → Used h (.detailinfo d)) :
    (allocNewDetail h = (false, h) ∧ NoRoom (h .tmpHigh) sizeofAllocdetail mallocMinAlign ∧
      NoRoom (h .tmpLow) sizeofAllocdetail mallocMinAlign) ∨
    ∃ zd d h', allocNewDetail h = (true, h') ∧ Detailed h h' zd d ∧
      ¬ NoRoom (h zd) sizeofAllocdetail mallocMinAlign := by
  have hspec : ∀ z, (allocDetailIn z h = (0, h) ∧ NoRoom (h z) sizeofAllocdetail mallocMinAlign) ∨
      ∃ d stop l, allocDetailIn z h = (d, Function.update h z l) ∧ 0 < d ∧
        Carved (h z) l ⟨d, sizeofAllocdetail, stop, .detailinfo d⟩ ∧
        ¬ NoRoom (h z) sizeofAllocdetail mallocMinAlign := by
    intro z
    unfold allocDetailIn
    have halign : mallocMinAlign = 2 ^ 4 := rfl
    rw [halign]
    rcases @allocNew_spec sizeofAllocdetail 4 .detailinfo (h z)
      (fun s hs => hinv.bounds hs) (by decide) (by decide) (by decide) with
      ⟨heq, hno⟩ | ⟨d, stop, l, heq, hd, hdvd, hcarved⟩
    · rw [heq]
      exact Or.inl ⟨by simp, hno⟩
    · rw [heq]
      exact Or.inr ⟨d, stop, l, rfl, hd, hcarved, not_noRoom hcarved hdvd⟩
  unfold allocNewDetail
  rcases hspec .tmpHigh with ⟨heq, hno⟩ | ⟨d, stop, l, heq, hd, hcarved, hroom⟩
  · rw [heq]
    simp only [ne_eq, not_true_eq_false, if_false]
    rcases hspec .tmpLow with ⟨heq', hno'⟩ | ⟨d, stop, l, heq', hd, hcarved, hroom⟩
    · rw [heq']
      exact Or.inl ⟨rfl, hno, hno'⟩
    · rw [heq']
      simp only [hd.ne', not_false_eq_true, if_true]
      exact Or.inr ⟨.tmpLow, d, _, rfl, hinv.detailed (Or.inr rfl) htracked hcarved, hroom⟩
  · rw [heq]
    simp only [ne_eq, hd.ne', not_false_eq_true, if_true]
    exact Or.inr ⟨.tmpHigh, d, _, rfl, hinv.detailed (Or.inl rfl) htracked hcarved, hroom⟩

end Marks

/-! ## Giving a range back -/

section Free

variable {h : Heap} {z : ZoneId} {l l' : List Info} {s slot : Info} {node : Node}

theorem allocFree_of_not_mem (hl : ∀ s ∈ l, s.key ≠ node) : allocFree node l = l := by
  induction l with
  | nil => rfl
  | cons s l ih =>
    obtain ⟨hs, hl⟩ := List.forall_mem_cons.mp hl
    unfold allocFree
    rw [if_neg hs, ih hl]

theorem allocFree_cons_self {s t : Info} (hlink : t.stop = s.start) :
    allocFree s.key (s :: t :: l) = { t with stop := s.stop } :: l := by
  simp [allocFree, hlink]

theorem allocFree_carved (hcarved : Carved l l' slot) (hkeys : (l'.map Slot.key).Nodup) :
    allocFree slot.key l' = l := by
  obtain ⟨pre, s, post, rfl, rfl, -, -, hstop⟩ := hcarved
  induction pre with
  | nil =>
    rw [List.nil_append, List.nil_append, allocFree_cons_self rfl, hstop]
  | cons r pre ih =>
    obtain ⟨hr, hkeys⟩ := List.nodup_cons.mp hkeys
    have hne : r.key ≠ slot.key := fun heq => hr (heq ▸ List.mem_map_of_mem (by simp))
    rw [List.cons_append]
    unfold allocFree
    rw [if_neg hne, ih hkeys, List.cons_append]

theorem allocFree_update (hf : Family h) (hcarved : Carved l (h z) slot) :
    (fun z' => allocFree slot.key (h z')) = Function.update h z l := by
  funext z'
  by_cases hz : z' = z
  · rw [hz, Function.update_self, allocFree_carved hcarved (hf.keys z)]
  · rw [Function.update_of_ne hz, allocFree_of_not_mem]
    intro s hs hkey
    exact hz (hf.keysApart hs hcarved.mem hkey)

theorem HeapInv.free (hinv : HeapInv h) (hs : s ∈ h z) (hused : 0 < s.used) :
    HeapInv (fun z' => allocFree s.key (h z')) ∧
      (∀ z' x, Covered (allocFree s.key (h z')) x ↔ Covered (h z') x) ∧
      ∀ z', marks (fun z' => allocFree s.key (h z')) z' =
        (marks h z').filter fun m => m.2.2 ≠ s.key := by
  obtain ⟨l, hcarved⟩ := (hinv.zone z).carved_of_mem hs hused
  have hupdate := allocFree_update hinv.toFamily hcarved
  have hcovered : ∀ z' x, Covered (Function.update h z l z') x ↔ Covered (h z') x :=
    fun z' x => covered_update (fun x => hcarved.covered.symm) z'
  have hmarks : ∀ z', marks (Function.update h z l) z' =
      (marks h z').filter fun m => m.2.2 ≠ s.key := by
    intro z'
    unfold marks
    by_cases hz : z' = z
    · obtain ⟨pre, post, hl, hl'⟩ := hcarved.marks
      have hnodup : (((h z).map Slot.mark).map fun m => m.2.2).Nodup := by
        simpa [Slot.mark, Function.comp_def] using hinv.keys z
      rw [hz, Function.update_self, hl, hl', List.filter_append, List.filter_cons_of_neg (by
        simp [Slot.mark])]
      rw [hl', List.map_append, List.map_cons] at hnodup
      obtain ⟨-, hpost, hcross⟩ := List.nodup_append.mp hnodup
      congr 1
      · refine (List.filter_eq_self.mpr fun m hm => ?_).symm
        have hne := hcross _ (List.mem_map_of_mem hm) _ List.mem_cons_self
        simpa [Slot.mark] using hne
      · refine (List.filter_eq_self.mpr fun m hm => ?_).symm
        have hne : m.2.2 ≠ s.key := fun heq =>
          (List.nodup_cons.mp hpost).1 (List.mem_map.mpr ⟨m, hm, heq⟩)
        simpa using hne
    · rw [Function.update_of_ne hz]
      refine (List.filter_eq_self.mpr fun m hm => ?_).symm
      obtain ⟨t, ht, rfl⟩ := List.mem_map.mp hm
      have hne : t.mark.2.2 ≠ s.key := fun heq => hz (hinv.keysApart ht hs heq)
      simpa using hne
  refine ⟨?_, fun z' x => ?_, fun z' => ?_⟩
  · rw [hupdate]
    refine ⟨hinv.toFamily.uncarve hcarved, fun {z' x} hx => hinv.addrs ((hcovered z' x).mp hx),
      fun {z' t d} ht hkey => ?_⟩
    have hmem : t.mark ∈ marks (Function.update h z l) z' := List.mem_map_of_mem ht
    rw [hmarks, List.mem_filter] at hmem
    obtain ⟨u, hu, hmark⟩ := List.mem_map.mp hmem.1
    simp only [Slot.mark, Prod.mk.injEq] at hmark
    rw [← hmark.1, ← hmark.2.1]
    exact hinv.details hu (hmark.2.2.trans hkey)
  · rw [← hcovered z' x, ← hupdate]
  · rw [hupdate]
    exact hmarks z'

end Free

/-! ## Requests -/

/-- A block at `data` and its detail at `d` have come into the zones. -/
structure Tracks (h h' : Heap) (z : ZoneId) (data size : ℕ) (zd : ZoneId) (d : ℕ) : Prop where
  sound : Sound h'
  zone : zd = .tmpHigh ∨ zd = .tmpLow
  fresh : ¬ Used h (.detailinfo d)
  mem : ∀ z' m, m ∈ marks h' z' ↔ m ∈ marks h z' ∨ (z' = z ∧ m = (data, size, .datainfo d)) ∨
    (z' = zd ∧ m = (d, sizeofAllocdetail, .detailinfo d))
  sublist : ∀ z', (marks h z').Sublist (marks h' z')

section Requests

variable {h h₁ h' : Heap} {z zd : ZoneId} {data size k d : ℕ}

theorem Sound.tracked (hs : Sound h) (d : ℕ) : Used h (.datainfo d) → Used h (.detailinfo d) :=
  (hs.paired d).mp

/-- The info on the stack goes to its detail. -/
theorem Sound.track (hs : Sound h)
    (hmem : ∀ z' m, m ∈ marks h₁ z' ↔ m ∈ marks h z' ∨ (z' = z ∧ m = (data, size, .temp)))
    (hsub : ∀ z', (marks h z').Sublist (marks h₁ z')) (hd : Detailed h₁ h' zd d) :
    Tracks h h' z data size zd d := by
  have hkeep : ∀ {z' m}, m ∈ marks h z' → settle d m = m := fun {z' m} hm =>
    settle_of_ne fun hkey => hs.settled (used_iff.mpr ⟨z', m, hm, hkey⟩)
  have hused : ∀ node, node ≠ .temp → (Used h₁ node ↔ Used h node) := by
    intro node hnode
    rw [used_iff, used_iff]
    constructor
    · rintro ⟨z', m, hm, rfl⟩
      rcases (hmem z' m).mp hm with hold | ⟨-, rfl⟩
      · exact ⟨z', m, hold, rfl⟩
      · exact absurd rfl hnode
    · rintro ⟨z', m, hm, rfl⟩
      exact ⟨z', m, (hmem z' m).mpr (Or.inl hm), rfl⟩
  have hmem' : ∀ z' m, m ∈ marks h' z' ↔ m ∈ marks h z' ∨
      (z' = z ∧ m = (data, size, .datainfo d)) ∨
      (z' = zd ∧ m = (d, sizeofAllocdetail, .detailinfo d)) := by
    intro z' m
    rw [hd.mem]
    constructor
    · rintro (hnew | ⟨m₀, hm₀, rfl⟩)
      · exact Or.inr (Or.inr hnew)
      · rcases (hmem z' m₀).mp hm₀ with hold | ⟨hz, rfl⟩
        · rw [hkeep hold]
          exact Or.inl hold
        · exact Or.inr (Or.inl ⟨hz, settle_key rfl⟩)
    · rintro (hold | ⟨hz, rfl⟩ | hnew)
      · exact Or.inr ⟨m, (hmem z' m).mpr (Or.inl hold), hkeep hold⟩
      · exact Or.inr ⟨_, (hmem z' _).mpr (Or.inr ⟨hz, rfl⟩), settle_key rfl⟩
      · exact Or.inl hnew
  have hused' : ∀ node, Used h' node ↔ Used h node ∨ node = .datainfo d ∨
      node = .detailinfo d := by
    intro node
    rw [used_iff, used_iff]
    constructor
    · rintro ⟨z', m, hm, rfl⟩
      rcases (hmem' z' m).mp hm with hold | ⟨-, rfl⟩ | ⟨-, rfl⟩
      · exact Or.inl ⟨z', m, hold, rfl⟩
      · exact Or.inr (Or.inl rfl)
      · exact Or.inr (Or.inr rfl)
    · rintro (⟨z', m, hm, rfl⟩ | rfl | rfl)
      · exact ⟨z', m, (hmem' z' m).mpr (Or.inl hm), rfl⟩
      · exact ⟨z, _, (hmem' z _).mpr (Or.inr (Or.inl ⟨rfl, rfl⟩)), rfl⟩
      · exact ⟨zd, _, (hmem' zd _).mpr (Or.inr (Or.inr ⟨rfl, rfl⟩)), rfl⟩
  refine ⟨⟨hd.inv, ?_, fun d' => ?_⟩, hd.zone, ?_, hmem', fun z' => ?_⟩
  · rw [hused']
    rintro (hold | hnew | hnew)
    · exact hs.settled hold
    · cases hnew
    · cases hnew
  · rw [hused', hused', hs.paired d']
    simp
  · rw [← hused _ (by simp)]
    exact hd.fresh
  · have hself : (marks h z').map (settle d) = marks h z' := by
      rw [List.map_congr_left fun m hm => hkeep hm, List.map_id']
    rw [← hself]
    exact ((hsub z').map _).trans (hd.sublist z')

/-- The temporary zones have no room for a detail; `z` is not asked. -/
def NoDetail (h : Heap) (z : ZoneId) : Prop :=
  ∀ zt, zt = .tmpHigh ∨ zt = .tmpLow → zt ≠ z → NoRoom (h zt) sizeofAllocdetail mallocMinAlign

/-- `malloc_palloc` leaves the zones as they are and returns 0, or returns an aligned block that
    is tracked. It fails only if the zone has no room, or the temporary zones have none for
    the detail. -/
theorem mallocPalloc_spec (hs : Sound h) (hk : k ≤ 32) (hfit : size + 2 ^ k ≤ 2 ^ 32) :
    (mallocPalloc z size (2 ^ k) h = (0, h) ∧
      (size = 0 ∨ NoRoom (h z) size (2 ^ k) ∨ NoDetail h z)) ∨
    ∃ data h' zd d, mallocPalloc z size (2 ^ k) h = (data, h') ∧ 0 < data ∧ 0 < size ∧
      2 ^ k ∣ data ∧ Tracks h h' z data size zd d ∧
      (∀ z' x, Covered (h' z') x ↔ Covered (h z') x) ∧ ¬ NoRoom (h z) size (2 ^ k) ∧
      (zd ≠ z → ¬ NoRoom (h zd) sizeofAllocdetail mallocMinAlign) := by
  unfold mallocPalloc
  rcases Nat.eq_zero_or_pos size with rfl | hsize
  · exact Or.inl ⟨if_pos rfl, Or.inl rfl⟩
  rw [if_neg hsize.ne']
  rcases @allocNew_spec size k (fun _ => .temp) (h z) (fun s hs' => hs.bounds hs') hsize hk hfit
    with ⟨heq, hno⟩ | ⟨data, stop, l, heq, hdata, hdvd, hcarved⟩
  · rw [heq]
    exact Or.inl ⟨by simp, Or.inr (Or.inl hno)⟩
  rw [heq]
  simp only [hdata.ne', if_false]
  have hinv₁ : HeapInv (Function.update h z l) :=
    hs.toHeapInv.carve hcarved hsize hs.settled fun d hkey => by cases hkey
  have htracked₁ : ∀ d, Used (Function.update h z l) (.datainfo d) →
      Used (Function.update h z l) (.detailinfo d) := by
    intro d hused
    rw [used_carved hcarved] at hused ⊢
    rcases hused with hkey | hold
    · cases hkey
    · exact Or.inr (hs.tracked d hold)
  rcases allocNewDetail_spec hinv₁ htracked₁ with ⟨heq', hno, hno'⟩ | ⟨zd, d, h', heq', hd, hroom⟩
  · -- The block goes back to where it came from.
    have hback := allocFree_update (z := z) (l := h z) hinv₁.toFamily
      (by rw [Function.update_self]; exact hcarved)
    rw [Function.update_idem, Function.update_eq_self] at hback
    rw [heq']
    refine Or.inl ⟨congrArg (Prod.mk 0) hback, Or.inr (Or.inr fun zt hzt hne => ?_)⟩
    rcases hzt with rfl | rfl
    · rwa [Function.update_of_ne hne] at hno
    · rwa [Function.update_of_ne hne] at hno'
  · rw [heq']
    refine Or.inr ⟨data, h', zd, d, rfl, hdata, hsize, hdvd, hs.track (fun z' m => ?_)
      (fun z' => ?_) hd, fun z' x => (hd.covered z' x).trans
        (covered_update (fun x => hcarved.covered) z'), not_noRoom hcarved hdvd, fun hne => ?_⟩
    · unfold marks
      by_cases hz : z' = z
      · rw [hz, Function.update_self, hcarved.mem_marks]
        simp [Slot.mark, or_comm]
      · rw [Function.update_of_ne hz]
        simp [hz]
    · unfold marks
      by_cases hz : z' = z
      · obtain ⟨pre, post, hl, hl'⟩ := hcarved.marks
        rw [hz, Function.update_self, hl, hl']
        exact (List.Sublist.refl pre).append (List.sublist_cons_self _ post)
      · rw [Function.update_of_ne hz]
    · rwa [Function.update_of_ne hne] at hroom

/-- Regions of memory that no zone has are added with their detail, if there is room for it. -/
theorem allocAdd_spec (hs : Sound h) {start stop : ℕ} (hstart : 0 < start) (hlt : start < stop)
    (hstop : stop < 2 ^ 32)
    (hnew : ∀ x, start ≤ x → x < stop → ∀ z, ¬ Covered (h z) x) :
    allocAdd z start stop h = h ∨
    ∃ zd d, Tracks h (allocAdd z start stop h) z start 0 zd d ∧
      ∀ z' x, Covered (allocAdd z start stop h z') x ↔
        (z' = z ∧ start ≤ x ∧ x < stop) ∨ Covered (h z') x := by
  unfold allocAdd
  have hsplit : h z = (h z).takeWhile (fun info => !decide (info.start < start)) ++
      (h z).dropWhile (fun info => !decide (info.start < start)) :=
    List.takeWhile_append_dropWhile.symm
  have hpre : ∀ s ∈ (h z).takeWhile (fun info => !decide (info.start < start)),
      start ≤ s.start := by
    intro s hmem
    simpa using List.mem_takeWhile_imp hmem
  have hpost : ∀ s ∈ (h z).dropWhile (fun info => !decide (info.start < start)),
      s.start < start := by
    intro s hmem
    have horder := (hs.zone z).order
    rw [hsplit] at horder
    obtain ⟨-, horder, -⟩ := List.pairwise_append.mp horder
    cases hdrop : (h z).dropWhile (fun info => !decide (info.start < start)) with
    | nil =>
      rw [hdrop] at hmem
      cases hmem
    | cons r rest =>
      have hr : r.start < start := by
        have hhead := List.head_dropWhile_not (fun info : Info => !decide (info.start < start))
          (l := h z) (by rw [hdrop]; simp)
        simp only [hdrop, List.head_cons, Bool.not_eq_false'] at hhead
        exact of_decide_eq_true hhead
      rw [hdrop] at hmem horder
      rcases List.mem_cons.mp hmem with rfl | hmem
      · exact hr
      · have hsz : s ∈ h z := by
          rw [hsplit, hdrop]
          exact List.mem_append_right _ (List.mem_cons_of_mem r hmem)
        have hle := (List.pairwise_cons.mp horder).1 s hmem
        have hbounds := hs.bounds hsz
        omega
  generalize (h z).takeWhile (fun info => !decide (info.start < start)) = pre at hsplit hpre ⊢
  generalize (h z).dropWhile (fun info => !decide (info.start < start)) = post at hsplit hpost ⊢
  have hinv₁ : HeapInv (Function.update h z (pre ++ ⟨start, 0, stop, .temp⟩ :: post)) := by
    refine ⟨hs.toFamily.insert hsplit hlt rfl hpre hpost hnew fun j t ht hkey =>
      hs.settled ⟨j, t, ht, hkey⟩, fun {z' x} hx => ?_, fun {z' s d} hmem hkey => ?_⟩
    · by_cases hz : z' = z
      · rw [hz, Function.update_self, covered_insert, ← hsplit] at hx
        rcases hx with hin | hold
        · simp only at hin
          omega
        · exact hs.addrs hold
      · rw [Function.update_of_ne hz] at hx
        exact hs.addrs hx
    · by_cases hz : z' = z
      · rw [hz, Function.update_self] at hmem
        have hold : s ∈ pre ++ post := by
          rcases List.mem_append.mp hmem with hmem | hmem
          · exact List.mem_append_left _ hmem
          rcases List.mem_cons.mp hmem with rfl | hmem
          · cases hkey
          · exact List.mem_append_right _ hmem
        exact hs.details (hsplit ▸ hold) hkey
      · rw [Function.update_of_ne hz] at hmem
        exact hs.details hmem hkey
  have hmarks : ∀ z', marks (Function.update h z (pre ++ ⟨start, 0, stop, .temp⟩ :: post)) z' =
      if z' = z then pre.map Slot.mark ++ (start, 0, .temp) :: post.map Slot.mark
      else marks h z' := by
    intro z'
    unfold marks
    split_ifs with hz
    · rw [hz, Function.update_self, List.map_append, List.map_cons]
      rfl
    · rw [Function.update_of_ne hz]
  have hold : marks h z = pre.map Slot.mark ++ post.map Slot.mark := by
    rw [marks, hsplit, List.map_append]
  have hmem₁ : ∀ z' m, m ∈ marks (Function.update h z (pre ++ ⟨start, 0, stop, .temp⟩ :: post)) z' ↔
      m ∈ marks h z' ∨ (z' = z ∧ m = (start, 0, .temp)) := by
    intro z' m
    rw [hmarks]
    split_ifs with hz
    · subst hz
      rw [hold]
      simp only [List.mem_append, List.mem_cons, true_and]
      tauto
    · simp [hz]
  have htracked₁ : ∀ d, Used (Function.update h z (pre ++ ⟨start, 0, stop, .temp⟩ :: post))
      (.datainfo d) → Used (Function.update h z (pre ++ ⟨start, 0, stop, .temp⟩ :: post))
      (.detailinfo d) := by
    intro d hused
    obtain ⟨z', m, hm, hkey⟩ := used_iff.mp hused
    rcases (hmem₁ z' m).mp hm with hm | ⟨-, rfl⟩
    · obtain ⟨z'', m', hm', hkey'⟩ := used_iff.mp (hs.tracked d (used_iff.mpr ⟨z', m, hm, hkey⟩))
      exact used_iff.mpr ⟨z'', m', (hmem₁ z'' m').mpr (Or.inl hm'), hkey'⟩
    · cases hkey
  simp only
  rcases allocNewDetail_spec hinv₁ htracked₁ with ⟨heq, -⟩ | ⟨zd, d, h', heq, hd, -⟩
  · -- Without a detail the region is taken out again.
    rw [heq]
    refine Or.inl (funext fun z' => ?_)
    have hkeep : ∀ {z' : ZoneId}, (h z').filter (fun info => info.key ≠ .temp) = h z' :=
      fun {z'} => List.filter_eq_self.mpr fun s hmem => by
        have hne : s.key ≠ .temp := fun hkey => hs.settled ⟨z', s, hmem, hkey⟩
        simpa using hne
    simp only [Bool.false_eq_true, if_false]
    by_cases hz : z' = z
    · have hself : (pre ++ post).filter (fun info => info.key ≠ .temp) = pre ++ post := by
        rw [← hsplit]
        exact hkeep
      rw [List.filter_append] at hself
      rw [hz, Function.update_self, List.filter_append, List.filter_cons_of_neg (by simp), hself,
        ← hsplit]
    · rw [Function.update_of_ne hz]
      exact hkeep
  · rw [heq]
    refine Or.inr ⟨zd, d, hs.track hmem₁ (fun z' => ?_) hd, fun z' x => (hd.covered z' x).trans ?_⟩
    · rw [hmarks]
      split_ifs with hz
      · rw [hz, hold]
        exact (List.Sublist.refl _).append (List.sublist_cons_self _ _)
      · exact List.Sublist.refl _
    · by_cases hz : z' = z
      · rw [hz, Function.update_self, covered_insert, ← hsplit]
        simp
      · rw [Function.update_of_ne hz]
        simp [hz]

end Requests

/-! ## Freeing a block -/

section Pfree

variable {h : Heap} {z : ZoneId} {data size d : ℕ} {s : Info}

/-- No info before a block has the block's address, so `alloc_find` finds it. -/
theorem allocFind_eq (hs : Sound h) (hmem : s ∈ h z) (hused : 0 < s.used) :
    allocFind s.start h = some s := by
  have hfirst : (zones.flatMap h).Pairwise fun a b =>
      ¬ (a.start = s.start ∧ b.start = s.start ∧ 0 < b.used) := by
    refine List.pairwise_flatMap.mpr ⟨fun z' _ => ?_, ?_⟩
    · refine (hs.zone z').order.imp_of_mem fun {a b} _ hb hle hboth => ?_
      have hroom := (hs.zone z').room b hb
      omega
    · have hne : zones.Pairwise (· ≠ ·) := by decide
      refine hne.imp fun {z₁ z₂} hz a ha b hb hboth => hz ?_
      obtain ⟨hsa, hsb, hb0⟩ := hboth
      have hroom := (hs.zone z₂).room b hb
      exact hs.apart ((hs.zone z₁).rooted a ha) ⟨b, hb, by omega, by omega⟩
  have hsL : s ∈ zones.flatMap h := List.mem_flatMap.mpr ⟨z, by cases z <;> decide, hmem⟩
  unfold allocFind
  cases hfind : (zones.flatMap h).find? fun info => decide (info.start = s.start) with
  | none => exact absurd (decide_eq_true rfl) (List.find?_eq_none.mp hfind s hsL)
  | some t =>
    obtain ⟨ht, as, bs, hsplit, has⟩ := List.find?_eq_some_iff_append.mp hfind
    rw [hsplit] at hsL hfirst
    rcases List.mem_append.mp hsL with hsas | hsbs
    · have hnot := has s hsas
      simp at hnot
    rcases List.mem_cons.mp hsbs with rfl | hsbs
    · rfl
    · obtain ⟨-, htail, -⟩ := List.pairwise_append.mp hfirst
      exact absurd ⟨of_decide_eq_true ht, rfl, hused⟩
        ((List.pairwise_cons.mp htail).1 s hsbs)

/-- The bookkeeping of a block is not in the block. -/
theorem Sound.addr_ne (hs : Sound h) (hmem : s ∈ h z) (hused : 0 < s.used)
    (hkey : s.key = .datainfo d) : s.key.addr ≠ some s.start := by
  intro haddr
  obtain ⟨z', t, ht, htkey⟩ := (hs.paired d).mp ⟨z, s, hmem, hkey⟩
  obtain ⟨hstart, htused⟩ := hs.details ht htkey
  rw [hkey] at haddr
  have hoff : d + sizeofAllocinfo = s.start := Option.some.inj haddr
  unfold sizeofAllocinfo at hoff
  unfold sizeofAllocdetail at htused
  obtain ⟨-, rfl⟩ := hs.block_eq (x := s.start) hmem ht (by omega) (by omega)
  rw [hkey] at htkey
  cases htkey

/-- `malloc_pfree` takes exactly the blocks that are tracked, each with its detail. -/
theorem mallocPfree_spec (hs : Sound h) (data : ℕ) :
    (mallocPfree data h = (false, h) ∧
      ∀ z size d, 0 < size → (data, size, .datainfo d) ∉ marks h z) ∨
    ∃ h' z size d, mallocPfree data h = (true, h') ∧ 0 < size ∧
      (data, size, .datainfo d) ∈ marks h z ∧ Sound h' ∧
      (∀ z' x, Covered (h' z') x ↔ Covered (h z') x) ∧
      ∀ z', marks h' z' =
        (marks h z').filter fun m => m.2.2 ≠ .datainfo d ∧ m.2.2 ≠ .detailinfo d := by
  by_cases hlive : ∃ z, ∃ s ∈ h z, s.start = data ∧ 0 < s.used ∧ ∃ d, s.key = .datainfo d
  · obtain ⟨z, s, hmem, rfl, hused, d, hkey⟩ := hlive
    have hne := hs.addr_ne hmem hused hkey
    obtain ⟨hinv₁, hcov₁, hmarks₁⟩ := hs.free hmem hused
    obtain ⟨zd, t, ht, htkey⟩ := (hs.paired d).mp ⟨z, s, hmem, hkey⟩
    obtain ⟨htstart, htused⟩ := hs.details ht htkey
    -- The detail's block is still there.
    have htmark : t.mark ∈ marks (fun z' => allocFree s.key (h z')) zd := by
      rw [hmarks₁, List.mem_filter]
      refine ⟨List.mem_map_of_mem ht, ?_⟩
      simp [Slot.mark, htkey, hkey]
    obtain ⟨u, hu, humark⟩ := List.mem_map.mp htmark
    simp only [Slot.mark, Prod.mk.injEq] at humark
    have hukey : u.key = .detailinfo d := humark.2.2.trans htkey
    have huused : 0 < u.used := by
      rw [humark.2.1, htused]
      decide
    obtain ⟨hinv₂, hcov₂, hmarks₂⟩ := hinv₁.free hu huused
    simp only [hkey, hukey] at hinv₂ hcov₂ hmarks₂ hcov₁ hmarks₁
    have hmarks : ∀ z', marks (fun z' => allocFree (.detailinfo d)
        (allocFree (.datainfo d) (h z'))) z' =
        (marks h z').filter fun m => m.2.2 ≠ .datainfo d ∧ m.2.2 ≠ .detailinfo d := by
      intro z'
      rw [hmarks₂, hmarks₁, List.filter_filter]
      refine List.filter_congr fun m _ => ?_
      simp [Bool.and_comm]
    have hused' : ∀ node, Used (fun z' => allocFree (.detailinfo d)
        (allocFree (.datainfo d) (h z'))) node ↔
        Used h node ∧ node ≠ .datainfo d ∧ node ≠ .detailinfo d := by
      intro node
      rw [used_iff, used_iff]
      constructor
      · rintro ⟨z', m, hm, rfl⟩
        rw [hmarks, List.mem_filter] at hm
        exact ⟨⟨z', m, hm.1, rfl⟩, of_decide_eq_true hm.2⟩
      · rintro ⟨⟨z', m, hm, rfl⟩, hnode⟩
        refine ⟨z', m, ?_, rfl⟩
        rw [hmarks, List.mem_filter]
        exact ⟨hm, decide_eq_true hnode⟩
    have hfree : mallocPfree s.start h = (true, fun z' => allocFree (.detailinfo d)
        (allocFree (.datainfo d) (h z'))) := by
      unfold mallocPfree
      rw [allocFind_eq hs hmem hused]
      simp only [hne, hused.ne', or_self, if_false]
      rw [hkey]
    refine Or.inr ⟨_, z, s.used, d, hfree, hused, ?_, ⟨hinv₂, ?_, fun d' => ?_⟩,
      fun z' x => (hcov₂ z' x).trans (hcov₁ z' x), hmarks⟩
    · rw [← hkey]
      exact List.mem_map_of_mem hmem
    · rw [hused']
      exact fun hold => hs.settled hold.1
    · rw [hused', hused', hs.paired d']
      simp
  · have hnone : ∀ z size d, 0 < size → (data, size, .datainfo d) ∉ marks h z := by
      intro z size d hsize hm
      obtain ⟨s, hmem, hmark⟩ := List.mem_map.mp hm
      simp only [Slot.mark, Prod.mk.injEq] at hmark
      exact hlive ⟨z, s, hmem, hmark.1, hmark.2.1 ▸ hsize, d, hmark.2.2⟩
    refine Or.inl ⟨?_, hnone⟩
    unfold mallocPfree
    cases hfind : allocFind data h with
    | none => rfl
    | some info =>
      obtain ⟨z, -, hmem⟩ := List.mem_flatMap.mp (List.mem_of_find?_eq_some hfind)
      have hstart : info.start = data := by
        unfold allocFind at hfind
        simpa using List.find?_some hfind
      by_cases hcond : info.key.addr = some data ∨ info.used = 0
      · exact if_pos hcond
      · simp only [if_neg hcond]
        rw [not_or] at hcond
        cases hkey : info.key with
        | temp => exact absurd ⟨z, info, hmem, hkey⟩ hs.settled
        | detailinfo d =>
          -- A detail's own info begins where the detail does.
          have haddr : info.key.addr = some data := by
            rw [hkey, ← hstart, (hs.details hmem hkey).1]
            rfl
          exact absurd haddr hcond.1
        | datainfo d =>
          exact absurd ⟨z, info, hmem, hstart, Nat.pos_of_ne_zero hcond.2, d, hkey⟩ hlive

end Pfree

end KvmOsx.Firmware
