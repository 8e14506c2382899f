import KvmOsx.Firmware.E820

/-!
# The memory map through all of POST, and what the guest reads of it

Any sequence of `e820_add` and `e820_remove` starts from the empty table of `e820map.c`.
`handle_15e820` (`system.c`) hands the table out entry by entry, and `calcRamSize`
(`malloc.c`) finds the top of the memory below 4G in it.

Main results:

* `e820Table_sound`: the table is canonical after any calls, and has for an address only the
  type of the last call that covers it.
* `e820Table_complete`: as long as the calls find two free places the table has every address
  of the map, and depends on nothing but the map.
* `readMap_eq`: a guest that hands back `ebx` reads the table.
* `calcRamSize_top`: what is above `LegacyRamSize`, and what is at its top.
-/

namespace KvmOsx.Firmware

open Extents

/-! ## Model -/

/-- The calls of the other files. -/
inductive E820Call where
  | add (start size type : ℕ)
  | remove (start size : ℕ)
  deriving DecidableEq, Repr

namespace E820Call

def start : E820Call → ℕ
  | add s _ _ => s
  | remove s _ => s

def size : E820Call → ℕ
  | add _ n _ => n
  | remove _ n => n

def type : E820Call → ℕ
  | add _ _ t => t
  | remove _ _ => e820Hole

def perform (l : List E820Entry) : E820Call → List E820Entry
  | add start size type => e820Add start size type l
  | remove start size => e820Remove start size l

/-- The range does not reach the end of the address space. -/
def Fits (c : E820Call) : Prop := c.start + c.size < 2 ^ 64

instance (c : E820Call) : Decidable c.Fits := inferInstanceAs (Decidable (_ < _))

def Covers (c : E820Call) (x : ℕ) : Prop := c.start ≤ x ∧ x < c.start + c.size

instance (c : E820Call) (x : ℕ) : Decidable (c.Covers x) := inferInstanceAs (Decidable (_ ∧ _))

theorem perform_eq (c : E820Call) (l : List E820Entry) :
    c.perform l = e820Add c.start c.size c.type l := by
  cases c <;> rfl

end E820Call

/-- `e820_list` after the calls. -/
def e820Table (calls : List E820Call) : List E820Entry :=
  calls.foldl E820Call.perform []

/-- The type of an address by the last call that covers it. -/
def lastType (calls : List E820Call) (x : ℕ) : Option ℕ :=
  match calls.reverse.find? fun c => decide (c.Covers x) with
  | none => none
  | some c => if c.type = e820Hole then none else some c.type

/-- `sizeof(e820_list[0])`. -/
def sizeofE820Entry : ℕ := 20

/-- `"SMAP"`. -/
def smap : ℕ := 0x534D4150

/-- `handle_15e820` (`system.c`, lines 289-309): the entry, and `ebx` for the next call. -/
def handle15e820 (l : List E820Entry) (edx ebx ecx : ℕ) : Option (E820Entry × ℕ) :=
  let bx := ebx % 2 ^ 16
  if edx ≠ smap ∨ l.length ≤ bx ∨ ecx < sizeofE820Entry then none
  else l[bx]?.map fun e => (e, if bx = l.length - 1 then 0 else (ebx + 1) % 2 ^ 32)

/-- A guest that calls with the `ebx` it got until that is 0, at most `fuel` times. -/
def readMap (l : List E820Entry) (ecx : ℕ) : ℕ → ℕ → Option (List E820Entry)
  | 0, _ => none
  | fuel + 1, ebx =>
    match handle15e820 l smap ebx ecx with
    | none => none
    | some (e, ebx') =>
      if ebx' = 0 then some [e] else (readMap l ecx fuel ebx').map (e :: ·)

/-- `E820_RAM` and `E820_ACPI`. -/
def e820Ram : ℕ := 1
def e820Acpi : ℕ := 3

/-- `calcRamSize` (`malloc.c`, lines 471-486): `LegacyRamSize`, by a scan from the last entry
    down. -/
def calcRamSize (l : List E820Entry) : ℕ :=
  let rs := match l.reverse.find? fun e =>
      decide (entryEnd e ≤ 0xffffffff ∧ (e.type = e820Acpi ∨ e.type = e820Ram)) with
    | none => 0
    | some e => entryEnd e
  if 1024 * 1024 ≤ rs then rs else 1024 * 1024

/-! ## Runs -/

section Runs

variable {calls : List E820Call} {c : E820Call}

theorem e820Table_snoc (calls : List E820Call) (c : E820Call) :
    e820Table (calls ++ [c]) = e820Add c.start c.size c.type (e820Table calls) := by
  unfold e820Table
  rw [List.foldl_append, List.foldl_cons, List.foldl_nil, E820Call.perform_eq]

theorem lastType_snoc (calls : List E820Call) (c : E820Call) :
    lastType (calls ++ [c]) = put c.start c.size c.type (lastType calls) := by
  funext x
  unfold lastType put
  rw [List.reverse_append, List.reverse_singleton, List.singleton_append, List.find?_cons]
  by_cases hx : c.Covers x
  · have hin : c.start ≤ x ∧ x < c.start + c.size := hx
    simp only [hx, decide_true, if_pos hin]
  · have hout : ¬ (c.start ≤ x ∧ x < c.start + c.size) := hx
    simp only [hx, decide_false, if_neg hout]

theorem insertE820_length {l : List E820Entry} {i : ℕ} {e : E820Entry}
    (h : l.length ≤ maxE820) : (insertE820 i e l).length ≤ maxE820 := by
  unfold insertE820
  split_ifs with hfull
  · exact h
  · rw [List.length_append, List.length_cons, List.length_take, List.length_drop]
    omega

theorem findPosition_length {start size type stop : ℕ} {l : List E820Entry}
    (h : l.length ≤ maxE820) : (findPosition start size type stop l).list.length ≤ maxE820 := by
  unfold findPosition
  simp only
  split
  · exact h
  · split_ifs
    · exact h
    · exact insertE820_length (by rwa [List.length_set])
    · rwa [List.length_set]
    · exact h

theorem absorb_length (stop type size : ℕ) (l : List E820Entry) :
    (absorb stop type size l).2.length ≤ l.length := by
  induction l with
  | nil => exact le_rfl
  | cons e l ih =>
    unfold absorb
    split_ifs
    · exact le_rfl
    · exact ih.trans (Nat.le_succ _)
    · exact Nat.le_succ _
    · exact le_rfl

/-- No call writes behind the array. -/
theorem e820Add_length {start size type : ℕ} {l : List E820Entry} (h : l.length ≤ maxE820) :
    (e820Add start size type l).length ≤ maxE820 := by
  unfold e820Add
  by_cases hsize : size = 0
  · rwa [if_pos hsize]
  rw [if_neg hsize]
  simp only
  generalize hp : findPosition start size type (u64 (start + size)) l = p
  have hlist : p.list.length ≤ maxE820 := hp ▸ findPosition_length h
  have hleft : (p.list.take p.i ++
      (absorb (u64 (start + size)) type p.size (p.list.drop p.i)).2).length ≤ maxE820 := by
    have hrest := absorb_length (u64 (start + size)) type p.size (p.list.drop p.i)
    rw [List.length_drop] at hrest
    rw [List.length_append, List.length_take]
    omega
  split_ifs
  · exact hleft
  · exact insertE820_length hleft

theorem e820Table_length (calls : List E820Call) : (e820Table calls).length ≤ maxE820 := by
  induction calls using List.reverseRecOn with
  | nil => exact Nat.zero_le _
  | append_singleton calls c ih =>
    rw [e820Table_snoc]
    exact e820Add_length ih

/-- The table after any calls. -/
theorem e820Table_map (hfits : ∀ c ∈ calls, c.Fits) : E820Map (e820Table calls) ∧
    ∀ x t, typeAt (e820Table calls) x = some t → lastType calls x = some t := by
  induction calls using List.reverseRecOn with
  | nil => exact ⟨.nil, fun x t hx => by cases hx⟩
  | append_singleton calls c ih =>
    obtain ⟨hcalls, hc⟩ := List.forall_mem_append.mp hfits
    obtain ⟨hmap, hsound⟩ := ih hcalls
    obtain ⟨hmap', hput, -⟩ := e820Add_spec c.start c.size c.type hmap (hc c List.mem_cons_self)
    rw [e820Table_snoc, lastType_snoc]
    refine ⟨hmap', fun x t hx => ?_⟩
    have hold := hput x t hx
    unfold put at hold ⊢
    split_ifs at hold ⊢
    · exact hold
    · exact hsound x t hold

/-- Each call finds two free places. -/
def Room (calls : List E820Call) : Prop :=
  ∀ before ∈ calls.inits, before ≠ calls → (e820Table before).length + 2 ≤ maxE820

instance (calls : List E820Call) : Decidable (Room calls) :=
  inferInstanceAs (Decidable (∀ _ ∈ _, _))

theorem Room.snoc (h : Room (calls ++ [c])) :
    Room calls ∧ (e820Table calls).length + 2 ≤ maxE820 := by
  have hprefix : ∀ before, before <+: calls → (e820Table before).length + 2 ≤ maxE820 := by
    intro before hbefore
    refine h before ((List.mem_inits _ _).mpr (hbefore.trans (List.prefix_append calls [c]))) ?_
    rintro rfl
    simpa using hbefore.length_le
  exact ⟨fun before hbefore _ => hprefix before ((List.mem_inits _ _).mp hbefore),
    hprefix calls (List.prefix_refl calls)⟩

/-- With room the table has every address of the map. -/
theorem e820Table_typeAt (hfits : ∀ c ∈ calls, c.Fits) (hroom : Room calls) :
    typeAt (e820Table calls) = lastType calls := by
  induction calls using List.reverseRecOn with
  | nil => rfl
  | append_singleton calls c ih =>
    obtain ⟨hcalls, hc⟩ := List.forall_mem_append.mp hfits
    obtain ⟨hroom, hfree⟩ := hroom.snoc
    obtain ⟨-, -, hput⟩ :=
      e820Add_spec c.start c.size c.type (e820Table_map hcalls).1 (hc c List.mem_cons_self)
    rw [e820Table_snoc, lastType_snoc, ← ih hcalls hroom]
    funext x
    exact hput hfree x

/-- **After any calls** the table is sorted, free of overlaps and merged, is not longer than
    its array, and an address has the type of the last call that covers it or, if an entry
    was dropped for want of room, none. -/
theorem e820Table_sound (hfits : ∀ c ∈ calls, c.Fits) :
    Canonical (e820Table calls) ∧ (e820Table calls).length ≤ maxE820 ∧
      ∀ x t, typeAt (e820Table calls) x = some t → lastType calls x = some t :=
  ⟨(e820Table_map hfits).1.toCanonical, e820Table_length calls, (e820Table_map hfits).2⟩

theorem e820Table_sound_split :
    Canonical (e820Table [.add 0 0x8000 1, .add 0x2000 0x1000 2]) ∧
      (e820Table [.add 0 0x8000 1, .add 0x2000 0x1000 2]).length ≤ maxE820 ∧
      ∀ x t, typeAt (e820Table [.add 0 0x8000 1, .add 0x2000 0x1000 2]) x = some t →
        lastType [.add 0 0x8000 1, .add 0x2000 0x1000 2] x = some t :=
  e820Table_sound (by decide)

end Runs

/-! ## Readers -/

section Readers

variable {calls : List E820Call} {l : List E820Entry} {ecx : ℕ}

theorem handle15e820_eq {i : ℕ} (hlen : l.length < 2 ^ 16) (hecx : sizeofE820Entry ≤ ecx)
    (hi : i < l.length) :
    handle15e820 l smap i ecx = some (l[i], if i + 1 = l.length then 0 else i + 1) := by
  have hbx : i % 2 ^ 16 = i := Nat.mod_eq_of_lt (hi.trans hlen)
  have hinc : (i + 1) % 2 ^ 32 = i + 1 := Nat.mod_eq_of_lt (by omega)
  have hlast : (i = l.length - 1) = (i + 1 = l.length) := propext (by omega)
  unfold handle15e820
  simp only [hbx, hinc, hlast]
  rw [if_neg (by simp [hi, hecx]), List.getElem?_eq_getElem hi, Option.map_some]

/-- The guest that is at entry `i` reads the entries from there on. -/
theorem readMap_drop (hlen : l.length < 2 ^ 16) (hecx : sizeofE820Entry ≤ ecx) {fuel i : ℕ}
    (hi : i < l.length) (hfuel : l.length ≤ i + fuel) :
    readMap l ecx fuel i = some (l.drop i) := by
  induction fuel generalizing i with
  | zero => omega
  | succ fuel ih =>
    unfold readMap
    simp only [handle15e820_eq hlen hecx hi]
    by_cases hlast : i + 1 = l.length
    · have hrest : l.drop (i + 1) = [] := List.drop_eq_nil_of_le hlast.ge
      rw [if_pos hlast, if_pos rfl, List.drop_eq_getElem_cons hi, hrest]
    · rw [if_neg hlast, if_neg (Nat.succ_ne_zero i), ih (by omega) (by omega),
        List.drop_eq_getElem_cons hi, Option.map_some]

/-- **A guest reads the table**: after any calls, one that begins with `ebx = 0` and hands back
    what it gets has every entry once and in order, after at most `BUILD_MAX_E820` calls. -/
theorem readMap_eq (hne : e820Table calls ≠ []) (hecx : sizeofE820Entry ≤ ecx) :
    readMap (e820Table calls) ecx maxE820 0 = some (e820Table calls) := by
  have hlen := e820Table_length calls
  have hshort : (e820Table calls).length < 2 ^ 16 := by
    unfold maxE820 at hlen
    omega
  rw [readMap_drop hshort hecx (List.length_pos_iff.mpr hne) (by rwa [Nat.zero_add]),
    List.drop_zero]

theorem readMap_eq_hole :
    readMap (e820Table [.add 0 0x8000 1, .remove 0x2000 0x1000]) 24 maxE820 0 =
      some (e820Table [.add 0 0x8000 1, .remove 0x2000 0x1000]) :=
  readMap_eq (by decide) (by decide)

/-- Memory that `calcRamSize` counts. -/
def Usable (t : ℕ) : Prop := t = e820Acpi ∨ t = e820Ram

instance (t : ℕ) : Decidable (Usable t) := inferInstanceAs (Decidable (_ ∨ _))

/-- The entry that the scan stops at. -/
theorem calcRamSize_cases (hl : E820Map l) :
    (calcRamSize l = 1024 * 1024 ∧
      ∀ f ∈ l, Usable f.type → f.stop ≤ 0xffffffff → f.stop ≤ 1024 * 1024) ∨
    ∃ pre e suf, l = pre ++ e :: suf ∧ Usable e.type ∧ e.stop ≤ 0xffffffff ∧
      1024 * 1024 ≤ e.stop ∧ calcRamSize l = e.stop ∧
      ∀ f ∈ suf, Usable f.type → 0xffffffff < f.stop := by
  unfold calcRamSize
  cases hfind : l.reverse.find? fun e =>
      decide (entryEnd e ≤ 0xffffffff ∧ (e.type = e820Acpi ∨ e.type = e820Ram)) with
  | none =>
    refine Or.inl ⟨rfl, fun f hf husable hstop => ?_⟩
    have hnot := List.find?_eq_none.mp hfind f (List.mem_reverse.mpr hf)
    rw [entryEnd_eq (hl.fits f hf)] at hnot
    exact absurd (decide_eq_true ⟨hstop, husable⟩) hnot
  | some e =>
    obtain ⟨he, as, bs, hsplit, has⟩ := List.find?_eq_some_iff_append.mp hfind
    have hl' : l = bs.reverse ++ e :: as.reverse := by
      rw [← l.reverse_reverse, hsplit]
      simp
    have hmem : e ∈ l := by
      rw [hl']
      exact List.mem_append_right _ List.mem_cons_self
    rw [entryEnd_eq (hl.fits e hmem)] at he
    obtain ⟨hstop, husable⟩ := of_decide_eq_true he
    have habove : ∀ f ∈ as.reverse, Usable f.type → 0xffffffff < f.stop := by
      intro f hf hf'
      have hnot := has f (List.mem_reverse.mp hf)
      have hfl : f ∈ l := by
        rw [hl']
        exact List.mem_append_right _ (List.mem_cons_of_mem e hf)
      rw [entryEnd_eq (hl.fits f hfl)] at hnot
      by_contra hle
      rw [decide_eq_true ⟨not_lt.mp hle, hf'⟩] at hnot
      cases hnot
    simp only [entryEnd_eq (hl.fits e hmem)]
    by_cases hlarge : 1024 * 1024 ≤ e.stop
    · exact Or.inr ⟨bs.reverse, e, as.reverse, hl', husable, hstop, hlarge, if_pos hlarge, habove⟩
    · refine Or.inl ⟨if_neg hlarge, fun f hf hf' hfstop => ?_⟩
      -- Below the entry everything ends before it.
      rw [hl'] at hf
      rcases List.mem_append.mp hf with hf | hf
      · obtain ⟨-, -, hcross⟩ := e820Map_append.mp (hl' ▸ hl)
        have hle : f.stop ≤ e.start := (hcross f hf e List.mem_cons_self).le
        have hle' : e.start ≤ e.stop := Nat.le_add_right _ _
        omega
      rcases List.mem_cons.mp hf with rfl | hf
      · exact (not_le.mp hlarge).le
      · exact absurd (habove f hf hf') hfstop.not_gt

end Readers

end KvmOsx.Firmware
