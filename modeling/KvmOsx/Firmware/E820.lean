import KvmOsx.Lib.Extents
import KvmOsx.Lib.Runs

/-!
# The memory map of the BIOS (`bios/seabios-1.13.0/src/e820map.c`)

`e820_add` keeps a table of typed memory ranges for the guest's `int 15 e820` calls;
`e820_remove` adds a range of a type that is never kept. The table has room for
`BUILD_MAX_E820` entries, and sums of addresses are 64 bits wide.

* `absorb_spec`, `findPosition_spec`: what the two loops of `e820_add` leave around the range.
* `e820Add_spec`: a call keeps the table canonical and changes the types of the addresses of
  its range and no others.
-/

namespace KvmOsx.Firmware

open Extents

/-! ## Model -/

/-- `struct e820entry`. -/
abbrev E820Entry := Extent ℕ

/-- `BUILD_MAX_E820`. -/
def maxE820 : ℕ := 32

/-- `E820_HOLE`, which removes entries. -/
def e820Hole : ℕ := 2 ^ 32 - 1

/-- A sum in a `u64`. -/
def u64 (n : ℕ) : ℕ := n % 2 ^ 64

/-- `e_end`. -/
def entryEnd (e : E820Entry) : ℕ := u64 (e.start + e.size)

/-- `insert_e820` (lines 30-47): nothing is added to a full table. -/
def insertE820 (i : ℕ) (e : E820Entry) (l : List E820Entry) : List E820Entry :=
  if maxE820 ≤ l.length then l else l.take i ++ e :: l.drop i

/-- The variables behind the first loop of `e820_add`. -/
structure Position where
  list : List E820Entry
  i : ℕ
  start : ℕ
  size : ℕ

/-- The first loop (lines 91-112): the first entry that does not end before `start` is split
    or merged with, if it begins before `start`. -/
def findPosition (start size type stop : ℕ) (l : List E820Entry) : Position :=
  let i := l.findIdx fun e => decide (start ≤ entryEnd e)
  match l[i]? with
  | none => ⟨l, i, start, size⟩
  | some e =>
    if e.start < start then
      if type = e.type then ⟨l, i, e.start, u64 (size + (start - e.start))⟩
      else
        let l' := l.set i ⟨e.start, start - e.start, e.type⟩
        if stop < entryEnd e then
          ⟨insertE820 (i + 1) ⟨stop, entryEnd e - stop, e.type⟩ l', i + 1, start, size⟩
        else ⟨l', i + 1, start, size⟩
    else ⟨l, i, start, size⟩

/-- The second loop (lines 114-133), on the entries from `i` on: those that the new one covers
    are removed, and the next is cut or merged with. -/
def absorb (stop type : ℕ) : ℕ → List E820Entry → ℕ × List E820Entry
  | size, [] => (size, [])
  | size, e :: es =>
    if stop < e.start then (size, e :: es)
    else if entryEnd e ≤ stop then absorb stop type size es
    else if type = e.type then (u64 (size + (entryEnd e - stop)), es)
    else (size, ⟨stop, entryEnd e - stop, e.type⟩ :: es)

/-- `e820_add` (lines 79-138). -/
def e820Add (start size type : ℕ) (l : List E820Entry) : List E820Entry :=
  if size = 0 then l
  else
    let stop := u64 (start + size)
    let p := findPosition start size type stop l
    let r := absorb stop type p.size (p.list.drop p.i)
    let l := p.list.take p.i ++ r.2
    if type = e820Hole then l else insertE820 p.i ⟨p.start, r.1, type⟩ l

/-- `e820_remove` (lines 140-145). -/
def e820Remove (start size : ℕ) (l : List E820Entry) : List E820Entry :=
  e820Add start size e820Hole l

/-! ## The two loops -/

/-- The table is canonical, no entry reaches the end of the address space, and none is a
    hole. -/
structure E820Map (l : List E820Entry) : Prop extends Canonical l where
  fits : ∀ e ∈ l, e.stop < 2 ^ 64
  kept : ∀ e ∈ l, e.type ≠ e820Hole

theorem E820Map.nil : E820Map [] := ⟨.nil, by simp, by simp⟩

theorem u64_of_lt {n : ℕ} (h : n < 2 ^ 64) : u64 n = n := Nat.mod_eq_of_lt h

theorem entryEnd_eq {e : E820Entry} (h : e.stop < 2 ^ 64) : entryEnd e = e.stop := u64_of_lt h

/-- What the second loop leaves: the new range has grown by `more` numbers of its own type,
    and the rest is apart from it. -/
structure Absorbed (stop type : ℕ) (l rest : List E820Entry) (more : ℕ) : Prop where
  map : E820Map rest
  apart : ∀ f ∈ rest, stop + more < f.start ∨ stop + more = f.start ∧ type ≠ f.type
  typeAt : ∀ x, stop ≤ x → typeAt l x = if x < stop + more then some type else typeAt rest x
  fits : stop + more < 2 ^ 64
  length : rest.length ≤ l.length
  hole : type = e820Hole → more = 0

theorem E820Map.tail {e : E820Entry} {l : List E820Entry} (h : E820Map (e :: l)) : E820Map l :=
  ⟨(canonical_cons.mp h.toCanonical).2.2, fun f hf => h.fits f (List.mem_cons_of_mem e hf),
    fun f hf => h.kept f (List.mem_cons_of_mem e hf)⟩

/-- What is left of an entry from `a` on. -/
theorem E820Map.cut {e : E820Entry} {l : List E820Entry} (hl : E820Map (e :: l)) {a : ℕ}
    (hstart : e.start ≤ a) (hstop : a < e.stop) :
    E820Map (⟨a, e.stop - a, e.type⟩ :: l) ∧
      ∀ x, a ≤ x → typeAt (⟨a, e.stop - a, e.type⟩ :: l) x = typeAt (e :: l) x := by
  obtain ⟨-, hapart, hcanon⟩ := canonical_cons.mp hl.toCanonical
  have hcut : (⟨a, e.stop - a, e.type⟩ : E820Entry).stop = e.stop := by
    simp only [Extent.stop] at hstop ⊢
    omega
  refine ⟨⟨canonical_cons.mpr ⟨Nat.sub_pos_of_lt hstop, fun f hf => ?_, hcanon⟩, ?_, ?_⟩,
    fun x hx => ?_⟩
  · have hf' := hapart f hf
    unfold Extent.Apart at hf' ⊢
    rwa [hcut]
  · refine List.forall_mem_cons.mpr ⟨?_, hl.tail.fits⟩
    rw [hcut]
    exact hl.fits e List.mem_cons_self
  · exact List.forall_mem_cons.mpr ⟨hl.kept e List.mem_cons_self, hl.tail.kept⟩
  · have hhas : (⟨a, e.stop - a, e.type⟩ : E820Entry).Has x ↔ e.Has x := by
      simp only [Extent.Has, hcut]
      omega
    rw [typeAt_cons, typeAt_cons]
    simp only [hhas]

theorem absorb_spec (type : ℕ) {stop start size : ℕ} {l : List E820Entry} (hl : E820Map l)
    (hsize : start + size = stop) (hstop : stop < 2 ^ 64) :
    ∃ more, (absorb stop type size l).1 = size + more ∧
      Absorbed stop type l (absorb stop type size l).2 more := by
  induction l with
  | nil =>
    refine ⟨0, rfl, .nil, by simp [absorb], fun x hx => ?_, hstop, le_rfl, fun _ => rfl⟩
    rw [if_neg (by omega)]
    rfl
  | cons e l ih =>
    obtain ⟨hpos, hapart, hcanon⟩ := canonical_cons.mp hl.toCanonical
    have hfit : e.stop < 2 ^ 64 := hl.fits e List.mem_cons_self
    have hend : entryEnd e = e.stop := entryEnd_eq hfit
    unfold absorb
    by_cases hbefore : stop < e.start
    · -- No overlap.
      rw [if_pos hbefore]
      refine ⟨0, rfl, hl, fun f hf => Or.inl ?_, fun x hx => ?_, hstop, le_rfl, fun _ => rfl⟩
      · rcases List.mem_cons.mp hf with rfl | hf
        · exact hbefore
        · have hle : e.start ≤ e.stop := Nat.le_add_right _ _
          exact (hbefore.trans_le hle).trans_le (hapart f hf).le
      · rw [if_neg (by omega)]
    rw [if_neg hbefore, hend]
    by_cases hcover : e.stop ≤ stop
    · -- The entry is removed.
      rw [if_pos hcover]
      obtain ⟨more, hmore, habs⟩ := ih hl.tail
      refine ⟨more, hmore, habs.map, habs.apart, fun x hx => ?_, habs.fits,
        habs.length.trans (Nat.le_succ _), habs.hole⟩
      rw [typeAt_cons, if_neg fun hin => (hcover.trans hx).not_gt hin.2, habs.typeAt x hx]
    rw [if_neg hcover]
    rw [not_lt] at hbefore
    rw [not_le] at hcover
    by_cases htype : type = e.type
    · -- The entry is merged with.
      rw [if_pos htype, u64_of_lt (by omega)]
      have hgrown : stop + (e.stop - stop) = e.stop := by omega
      refine ⟨e.stop - stop, rfl, hl.tail, fun f hf => ?_, fun x hx => ?_, by omega,
        Nat.le_succ _, fun hhole => ?_⟩
      · rw [hgrown, htype]
        exact hapart f hf
      · rw [typeAt_cons, hgrown]
        by_cases hlt : x < e.stop
        · rw [if_pos ⟨hbefore.trans hx, hlt⟩, if_pos hlt, htype]
        · rw [if_neg fun hin => hlt hin.2, if_neg hlt]
      · exact absurd (htype.symm.trans hhole) (hl.kept e List.mem_cons_self)
    · -- The entry is cut.
      rw [if_neg htype]
      obtain ⟨hcut, hsame⟩ := hl.cut hbefore hcover
      refine ⟨0, rfl, hcut, fun f hf => ?_, fun x hx => ?_, hstop, le_rfl, fun _ => rfl⟩
      · rcases List.mem_cons.mp hf with rfl | hf
        · exact Or.inr ⟨rfl, htype⟩
        · exact Or.inl (hcover.trans_le (hapart f hf).le)
      · rw [if_neg (by omega), hsame x hx]

theorem e820Map_append {l l' : List E820Entry} : E820Map (l ++ l') ↔
    E820Map l ∧ E820Map l' ∧ ∀ e ∈ l, ∀ f ∈ l', e.Apart f := by
  constructor
  · intro h
    obtain ⟨hl, hl', hcross⟩ := canonical_append.mp h.toCanonical
    obtain ⟨hfits, hfits'⟩ := List.forall_mem_append.mp h.fits
    obtain ⟨hkept, hkept'⟩ := List.forall_mem_append.mp h.kept
    exact ⟨⟨hl, hfits, hkept⟩, ⟨hl', hfits', hkept'⟩, hcross⟩
  · rintro ⟨h, h', hcross⟩
    exact ⟨canonical_append.mpr ⟨h.toCanonical, h'.toCanonical, hcross⟩,
      List.forall_mem_append.mpr ⟨h.fits, h'.fits⟩, List.forall_mem_append.mpr ⟨h.kept, h'.kept⟩⟩

theorem e820Map_singleton {e : E820Entry} (hpos : 0 < e.size) (hfit : e.stop < 2 ^ 64)
    (hkept : e.type ≠ e820Hole) : E820Map [e] :=
  ⟨canonical_cons.mpr ⟨hpos, by simp, .nil⟩, by simpa using hfit, by simpa using hkept⟩

/-- What the first loop finds: the entries `L` before the new range and `S` from it on, of which
    it has taken in what touches its beginning and has its type. -/
structure Found (start type stop : ℕ) (l L S : List E820Entry) (p : Position) : Prop where
  list : p.list = L ++ S
  index : p.i = L.length
  map : E820Map L
  map' : E820Map S
  apart : ∀ e ∈ L, e.stop < p.start ∨ e.stop = p.start ∧ e.type ≠ type
  sum : p.start + p.size = stop
  start_le : p.start ≤ start
  grown : ∀ x, p.start ≤ x → x < start → typeAt l x = some type
  hole : type = e820Hole → p.start = start
  left : ∀ x < p.start, typeAt L x = typeAt l x
  right : ∀ x, stop ≤ x → typeAt S x = typeAt l x
  length : p.list.length ≤ l.length + 1

/-- The table splits where the first loop stops. -/
theorem findIdx_split (start : ℕ) {l : List E820Entry} (hfits : ∀ e ∈ l, e.stop < 2 ^ 64) :
    ∃ pre suf, l = pre ++ suf ∧
      (l.findIdx fun e => decide (start ≤ entryEnd e)) = pre.length ∧
      (∀ e ∈ pre, e.stop < start) ∧ ∀ e ∈ suf.head?, start ≤ e.stop := by
  induction l with
  | nil => exact ⟨[], [], rfl, rfl, by simp, by simp⟩
  | cons e l ih =>
    have hend : entryEnd e = e.stop := entryEnd_eq (hfits e List.mem_cons_self)
    rw [List.findIdx_cons, hend]
    by_cases he : start ≤ e.stop
    · refine ⟨[], e :: l, rfl, by simp [he], by simp, by simpa using he⟩
    · obtain ⟨pre, suf, rfl, hidx, hpre, hsuf⟩ :=
        ih fun f hf => hfits f (List.mem_cons_of_mem e hf)
      refine ⟨e :: pre, suf, rfl, ?_, ?_, hsuf⟩
      · simp only [he, decide_false, cond_false, hidx, List.length_cons]
      · exact List.forall_mem_cons.mpr ⟨not_le.mp he, hpre⟩

/-- The first entry that does not end before the range begins behind it, or where it does. -/
theorem found_plain {start size type : ℕ} {pre suf : List E820Entry} (hl : E820Map (pre ++ suf))
    (hpre : ∀ e ∈ pre, e.stop < start) (hsuf : ∀ e ∈ suf, start ≤ e.start) :
    Found start type (start + size) (pre ++ suf) pre suf
      ⟨pre ++ suf, pre.length, start, size⟩ := by
  obtain ⟨hlpre, hlsuf, -⟩ := e820Map_append.mp hl
  refine ⟨rfl, rfl, hlpre, hlsuf, fun e he => Or.inl (hpre e he), rfl, le_rfl,
    fun x hx hx' => absurd hx hx'.not_ge, fun _ => rfl, fun x hx => ?_, fun x hx => ?_,
    Nat.le_succ _⟩
  · rw [typeAt_append, typeAt_behind (l := suf) fun f hf => hx.trans_le (hsuf f hf),
      Option.or_none]
  · have hbefore : ∀ e ∈ pre, e.stop ≤ x := fun e he =>
      ((hpre e he).le.trans (Nat.le_add_right _ _)).trans hx
    rw [typeAt_append, typeAt_before hbefore, Option.none_or]

/-- The first entry that does not end before the range begins before it, with its type. -/
theorem found_merge {start size : ℕ} {e : E820Entry} {pre tail : List E820Entry}
    (hl : E820Map (pre ++ e :: tail)) (hpre : ∀ f ∈ pre, f.stop < start)
    (hbegin : e.start < start) (hnext : start ≤ e.stop) :
    Found start e.type (start + size) (pre ++ e :: tail) pre (e :: tail)
      ⟨pre ++ e :: tail, pre.length, e.start, size + (start - e.start)⟩ := by
  obtain ⟨hlpre, hlsuf, hcross⟩ := e820Map_append.mp hl
  obtain ⟨-, hapart, -⟩ := canonical_cons.mp hlsuf.toCanonical
  have hmem : e ∈ pre ++ e :: tail := List.mem_append_right pre List.mem_cons_self
  refine ⟨rfl, rfl, hlpre, hlsuf, fun f hf => hcross f hf e List.mem_cons_self, ?_, hbegin.le,
    fun x hx hx' => ?_, fun hhole => absurd hhole (hl.kept e hmem), fun x hx => ?_,
    fun x hx => ?_, Nat.le_succ _⟩
  · simp only
    omega
  · exact hl.typeAt_of_mem hmem ⟨hx, hx'.trans_le hnext⟩
  · have hbehind : ∀ f ∈ e :: tail, x < f.start := by
      have hle : e.start ≤ e.stop := Nat.le_add_right _ _
      exact List.forall_mem_cons.mpr
        ⟨hx, fun f hf => (hx.trans_le hle).trans_le (hapart f hf).le⟩
    rw [typeAt_append, typeAt_behind hbehind, Option.or_none]
  · have hbefore : ∀ f ∈ pre, f.stop ≤ x := fun f hf =>
      ((hpre f hf).le.trans (Nat.le_add_right _ _)).trans hx
    rw [typeAt_append, typeAt_before hbefore, Option.none_or]

/-- The first entry that does not end before the range begins before it, with another type;
    `rest` is what is left of it behind the range, and the entries behind it. -/
theorem found_split {start size type : ℕ} {e : E820Entry} {pre tail rest : List E820Entry}
    (hl : E820Map (pre ++ e :: tail)) (hpre : ∀ f ∈ pre, f.stop < start)
    (hbegin : e.start < start) (hnext : start ≤ e.stop) (htype : type ≠ e.type)
    (hrest : E820Map rest)
    (hright : ∀ x, start + size ≤ x → typeAt rest x = typeAt (e :: tail) x)
    (hlength : rest.length ≤ tail.length + 1) :
    Found start type (start + size) (pre ++ e :: tail)
      (pre ++ [⟨e.start, start - e.start, e.type⟩]) rest
      ⟨pre ++ ⟨e.start, start - e.start, e.type⟩ :: rest, pre.length + 1, start, size⟩ := by
  obtain ⟨hlpre, hlsuf, hcross⟩ := e820Map_append.mp hl
  obtain ⟨-, hapart, -⟩ := canonical_cons.mp hlsuf.toCanonical
  have hcut : (⟨e.start, start - e.start, e.type⟩ : E820Entry).stop = start := by
    simp only [Extent.stop]
    omega
  have hfit : start < 2 ^ 64 := hnext.trans_lt (hlsuf.fits e List.mem_cons_self)
  refine ⟨by simp, by simp, ?_, hrest, ?_, rfl, le_rfl, fun x hx hx' => absurd hx hx'.not_ge,
    fun _ => rfl, fun x hx => ?_, fun x hx => ?_, ?_⟩
  · refine e820Map_append.mpr ⟨hlpre, e820Map_singleton ?_ ?_ ?_, fun f hf g hg => ?_⟩
    · exact Nat.sub_pos_of_lt hbegin
    · rwa [hcut]
    · exact hlsuf.kept e List.mem_cons_self
    · rw [List.mem_singleton.mp hg]
      exact hcross f hf e List.mem_cons_self
  · refine List.forall_mem_append.mpr ⟨fun f hf => Or.inl (hpre f hf), fun f hf => Or.inr ?_⟩
    rw [List.mem_singleton.mp hf]
    exact ⟨hcut, htype.symm⟩
  · simp only at hx
    have hhas : (⟨e.start, start - e.start, e.type⟩ : E820Entry).Has x ↔ e.Has x := by
      simp only [Extent.Has, hcut]
      omega
    have hbehind : ∀ f ∈ tail, x < f.start := fun f hf =>
      (hx.trans_le hnext).trans_le (hapart f hf).le
    rw [typeAt_append, typeAt_append, typeAt_cons, typeAt_cons, typeAt_behind hbehind, typeAt_nil]
    simp only [hhas]
  · have hbefore : ∀ f ∈ pre, f.stop ≤ x := fun f hf =>
      ((hpre f hf).le.trans (Nat.le_add_right _ _)).trans hx
    rw [typeAt_append, typeAt_before hbefore, Option.none_or, hright x hx]
  · simp only [List.length_append, List.length_cons]
    omega

theorem insertE820_append (l l' : List E820Entry) (e : E820Entry)
    (hroom : (l ++ l').length < maxE820) : insertE820 l.length e (l ++ l') = l ++ e :: l' := by
  unfold insertE820
  rw [if_neg hroom.not_ge, List.take_left, List.drop_left]

/-- The entry up to `a`. -/
theorem E820Map.shorten {e : E820Entry} {pre tail : List E820Entry}
    (hl : E820Map (pre ++ e :: tail)) {a : ℕ} (hstart : e.start < a) (hstop : a < e.stop) :
    E820Map (pre ++ ⟨e.start, a - e.start, e.type⟩ :: tail) ∧
      ∀ x t, typeAt (pre ++ ⟨e.start, a - e.start, e.type⟩ :: tail) x = some t →
        typeAt (pre ++ e :: tail) x = some t := by
  obtain ⟨hlpre, hlsuf, hcross⟩ := e820Map_append.mp hl
  obtain ⟨-, hapart, hcanon⟩ := canonical_cons.mp hlsuf.toCanonical
  have hcut : (⟨e.start, a - e.start, e.type⟩ : E820Entry).stop = a := by
    simp only [Extent.stop]
    omega
  have hshort : E820Map (pre ++ ⟨e.start, a - e.start, e.type⟩ :: tail) := by
    refine e820Map_append.mpr ⟨hlpre, ⟨canonical_cons.mpr ⟨Nat.sub_pos_of_lt hstart,
      fun f hf => Or.inl ?_, hcanon⟩, ?_, ?_⟩, fun f hf => List.forall_mem_cons.mpr ⟨?_, ?_⟩⟩
    · rw [hcut]
      exact hstop.trans_le (hapart f hf).le
    · refine List.forall_mem_cons.mpr ⟨?_, hlsuf.tail.fits⟩
      rw [hcut]
      exact hstop.trans (hlsuf.fits e List.mem_cons_self)
    · exact List.forall_mem_cons.mpr ⟨hlsuf.kept e List.mem_cons_self, hlsuf.tail.kept⟩
    · exact hcross f hf e List.mem_cons_self
    · exact fun g hg => hcross f hf g (List.mem_cons_of_mem e hg)
  refine ⟨hshort, fun x t hx => ?_⟩
  obtain ⟨f, hf, hfx, rfl⟩ := exists_of_typeAt hx
  rcases List.mem_append.mp hf with hf | hf
  · exact hl.typeAt_of_mem (List.mem_append_left _ hf) hfx
  rcases List.mem_cons.mp hf with rfl | hf
  · have hin : e.Has x := ⟨hfx.1, (hcut ▸ hfx.2).trans hstop⟩
    have he : typeAt (pre ++ e :: tail) x = some e.type :=
      hl.typeAt_of_mem (List.mem_append_right pre List.mem_cons_self) hin
    exact he
  · exact hl.typeAt_of_mem (List.mem_append_right pre (List.mem_cons_of_mem e hf)) hfx

/-- A full table loses what is behind the range of the entry that is split: the first loop
    then does what it does to the table `l'` without these addresses. -/
theorem findPosition_spec {start size : ℕ} (type : ℕ) {l : List E820Entry} (hl : E820Map l)
    (hsize : 0 < size) (hstop : start + size < 2 ^ 64) :
    ∃ l' L S, E820Map l' ∧ (∀ x t, typeAt l' x = some t → typeAt l x = some t) ∧
      (l.length < maxE820 → l' = l) ∧ l'.length = l.length ∧
      Found start type (start + size) l' L S (findPosition start size type (start + size) l) := by
  obtain ⟨pre, suf, rfl, hidx, hpre, hsuf⟩ := findIdx_split start hl.fits
  obtain ⟨hlpre, hlsuf, -⟩ := e820Map_append.mp hl
  have hsame : ∀ L S p, Found start type (start + size) (pre ++ suf) L S p →
      ∃ l' L S, E820Map l' ∧ (∀ x t, typeAt l' x = some t → typeAt (pre ++ suf) x = some t) ∧
        ((pre ++ suf).length < maxE820 → l' = pre ++ suf) ∧ l'.length = (pre ++ suf).length ∧
        Found start type (start + size) l' L S p :=
    fun L S p hfound => ⟨_, L, S, hl, fun _ _ => id, fun _ => rfl, rfl, hfound⟩
  unfold findPosition
  simp only [hidx, List.getElem?_append_right le_rfl, Nat.sub_self]
  cases suf with
  | nil => exact hsame _ _ _ (found_plain hl hpre (by simp))
  | cons e tail =>
    have hnext : start ≤ e.stop := hsuf e rfl
    obtain ⟨-, hapart, -⟩ := canonical_cons.mp hlsuf.toCanonical
    have hfit : e.stop < 2 ^ 64 := hlsuf.fits e List.mem_cons_self
    simp only [List.getElem?_cons_zero, entryEnd_eq hfit]
    by_cases hbegin : e.start < start
    swap
    · rw [if_neg hbegin]
      have hbehind : ∀ f ∈ e :: tail, start ≤ f.start := List.forall_mem_cons.mpr
        ⟨not_lt.mp hbegin, fun f hf => hnext.trans (hapart f hf).le⟩
      exact hsame _ _ _ (found_plain hl hpre hbehind)
    rw [if_pos hbegin]
    by_cases htype : type = e.type
    · rw [if_pos htype, u64_of_lt (by omega)]
      subst htype
      exact hsame _ _ _ (found_merge hl hpre hbegin hnext)
    rw [if_neg htype, List.set_append_right _ _ le_rfl, Nat.sub_self, List.set_cons_zero]
    by_cases hlong : start + size < e.stop
    swap
    · rw [if_neg hlong]
      refine hsame _ _ _ (found_split hl hpre hbegin hnext htype hlsuf.tail (fun x hx => ?_)
        (Nat.le_succ _))
      rw [typeAt_cons, if_neg fun hin => hlong (hx.trans_lt hin.2)]
    rw [if_pos hlong]
    by_cases hroom : (pre ++ e :: tail).length < maxE820
    · -- The entry goes on behind the range.
      obtain ⟨hrest, hright⟩ := hlsuf.cut (hbegin.le.trans (Nat.le_add_right _ _)) hlong
      have hinsert := insertE820_append (pre ++ [⟨e.start, start - e.start, e.type⟩]) tail
        ⟨start + size, e.stop - (start + size), e.type⟩ (by simpa using hroom)
      simp only [List.append_assoc, List.cons_append, List.nil_append, List.length_append,
        List.length_cons, List.length_nil, Nat.zero_add] at hinsert
      rw [hinsert]
      exact hsame _ _ _ (found_split hl hpre hbegin hnext htype hrest hright le_rfl)
    · obtain ⟨hshort, hsub⟩ := hl.shorten (hbegin.trans_le (Nat.le_add_right _ _)) hlong
      have hfull : maxE820 ≤ (pre ++ ⟨e.start, start - e.start, e.type⟩ :: tail).length := by
        simpa using hroom
      rw [insertE820, if_pos hfull]
      have hend : (⟨e.start, start + size - e.start, e.type⟩ : E820Entry).stop = start + size := by
        simp only [Extent.stop]
        omega
      refine ⟨_, _, _, hshort, hsub, fun hlt => absurd hlt hroom, by simp,
        found_split hshort hpre hbegin ?_ htype hlsuf.tail (fun x hx => ?_) (Nat.le_succ _)⟩
      · rw [hend]
        exact Nat.le_add_right _ _
      · rw [typeAt_cons, if_neg fun hin => (hend ▸ hin.2).not_ge hx]

/-! ## A call -/

/-- What a call does to the map, as the comments of the source have it. -/
def put (start size type : ℕ) (m : ℕ → Option ℕ) (x : ℕ) : Option ℕ :=
  if start ≤ x ∧ x < start + size then if type = e820Hole then none else some type else m x

section Call

variable {start size type more : ℕ} {l L S R : List E820Entry} {p : Position}

/-- What the two loops leave around the new entry. -/
theorem Found.cleared (hfound : Found start type (start + size) l L S p)
    (habs : Absorbed (start + size) type S R more) :
    Cleared l L R p.start (start + size + more) := by
  refine ⟨fun e he => ?_, fun f hf => ?_, hfound.left, fun x hx => ?_⟩
  · rcases hfound.apart e he with h | h
    · exact h.le
    · exact h.1.le
  · rcases habs.apart f hf with h | h
    · exact h.le
    · exact h.1.le
  · have hstop : start + size ≤ x := (Nat.le_add_right _ _).trans hx
    rw [← hfound.right x hstop, habs.typeAt x hstop, if_neg hx.not_gt]

/-- The range has only grown by addresses that have its type. -/
theorem Found.put_eq (hfound : Found start type (start + size) l L S p)
    (habs : Absorbed (start + size) type S R more) (x : ℕ) :
    put start size type (typeAt l) x =
      if p.start ≤ x ∧ x < start + size + more then
        if type = e820Hole then none else some type
      else typeAt l x := by
  have hle := hfound.start_le
  unfold put
  by_cases hhole : type = e820Hole
  · rw [hfound.hole hhole, habs.hole hhole, Nat.add_zero]
  simp only [if_neg hhole]
  by_cases hin : start ≤ x ∧ x < start + size
  · rw [if_pos hin, if_pos ⟨hle.trans hin.1, hin.2.trans_le (Nat.le_add_right _ _)⟩]
  rw [if_neg hin]
  by_cases hout : p.start ≤ x ∧ x < start + size + more
  · rw [if_pos hout]
    rcases lt_or_ge x start with hx | hx
    · exact hfound.grown x hout.1 hx
    · have hstop : start + size ≤ x := not_lt.mp fun hlt => hin ⟨hx, hlt⟩
      rw [← hfound.right x hstop, habs.typeAt x hstop, if_pos hout.2]
  · rw [if_neg hout]

theorem Found.map_cleared (hfound : Found start type (start + size) l L S p) (hsize : 0 < size)
    (habs : Absorbed (start + size) type S R more) : E820Map (L ++ R) := by
  have hclear := hfound.cleared habs
  have hle := hfound.start_le
  refine e820Map_append.mpr ⟨hfound.map, habs.map, fun e he f hf => Or.inl ?_⟩
  have hbefore := hclear.before e he
  have hbehind := hclear.behind f hf
  omega

theorem Found.map_insert (hfound : Found start type (start + size) l L S p) (hsize : 0 < size)
    (habs : Absorbed (start + size) type S R more) (hkept : type ≠ e820Hole) :
    E820Map (L ++ ⟨p.start, p.size + more, type⟩ :: R) := by
  have hsum := hfound.sum
  have hle := hfound.start_le
  obtain ⟨-, -, hcross⟩ := e820Map_append.mp (hfound.map_cleared hsize habs)
  have hstop : (⟨p.start, p.size + more, type⟩ : E820Entry).stop = start + size + more := by
    simp only [Extent.stop]
    omega
  refine e820Map_append.mpr ⟨hfound.map, ⟨canonical_cons.mpr ⟨?_, fun f hf => ?_,
    habs.map.toCanonical⟩, ?_, ?_⟩, fun e he => List.forall_mem_cons.mpr ⟨hfound.apart e he,
    hcross e he⟩⟩
  · simp only
    omega
  · unfold Extent.Apart
    rw [hstop]
    exact habs.apart f hf
  · refine List.forall_mem_cons.mpr ⟨?_, habs.map.fits⟩
    rw [hstop]
    exact habs.fits
  · exact List.forall_mem_cons.mpr ⟨hkept, habs.map.kept⟩

end Call

/-- One call keeps the table canonical and never invents a type; with two free places the
    table stands for the new map. -/
theorem e820Add_spec (start size type : ℕ) {l : List E820Entry} (hl : E820Map l)
    (hstop : start + size < 2 ^ 64) :
    E820Map (e820Add start size type l) ∧
      (∀ x t, typeAt (e820Add start size type l) x = some t →
        put start size type (typeAt l) x = some t) ∧
      (l.length + 2 ≤ maxE820 →
        ∀ x, typeAt (e820Add start size type l) x = put start size type (typeAt l) x) := by
  rcases Nat.eq_zero_or_pos size with rfl | hsize
  · have hput : ∀ x, put start 0 type (typeAt l) x = typeAt l x := fun x =>
      if_neg fun hx => hx.1.not_gt hx.2
    unfold e820Add
    rw [if_pos rfl]
    exact ⟨hl, fun x t hx => by rwa [hput], fun _ x => (hput x).symm⟩
  obtain ⟨l', L, S, hl', hsub, hroom, hlen, hfound⟩ := findPosition_spec type hl hsize hstop
  obtain ⟨more, hmore, habs⟩ := absorb_spec type hfound.map' hfound.sum hstop
  have hmono : ∀ x t, put start size type (typeAt l') x = some t →
      put start size type (typeAt l) x = some t := by
    intro x t hx
    unfold put at hx ⊢
    split_ifs at hx ⊢
    · exact hx
    · exact hsub x t hx
  unfold e820Add
  rw [if_neg hsize.ne', u64_of_lt hstop]
  simp only
  generalize findPosition start size type (start + size) l = p at hfound hmore habs ⊢
  rw [hfound.list, hfound.index, List.take_left, List.drop_left, hmore]
  generalize (absorb (start + size) type p.size S).2 = R at habs ⊢
  have hsum := hfound.sum
  have hle := hfound.start_le
  have hclear := hfound.cleared habs
  have hbounds : p.start ≤ start + size + more := by omega
  have hput := hfound.put_eq habs
  by_cases hhole : type = e820Hole
  · -- Nothing is inserted.
    rw [if_pos hhole]
    have htypes : ∀ x, typeAt (L ++ R) x = put start size type (typeAt l') x := fun x => by
      rw [hclear.typeAt hbounds, hput, if_pos hhole]
    refine ⟨hfound.map_cleared hsize habs, fun x t hx => hmono x t (htypes x ▸ hx),
      fun hfree x => ?_⟩
    rw [htypes, hroom (by omega)]
  rw [if_neg hhole]
  by_cases hfull : maxE820 ≤ (L ++ R).length
  · -- The new entry is dropped.
    rw [insertE820, if_pos hfull]
    refine ⟨hfound.map_cleared hsize habs, fun x t hx => hmono x t ?_, fun hfree => ?_⟩
    · rw [hclear.typeAt hbounds] at hx
      rw [hput]
      split_ifs at hx ⊢
      exact hx
    · have hlist := hfound.length
      have hrest := habs.length
      rw [hfound.list] at hlist
      simp only [List.length_append] at hlist hfull
      omega
  rw [insertE820_append L R _ (not_le.mp hfull)]
  have htypes : ∀ x, typeAt (L ++ ⟨p.start, p.size + more, type⟩ :: R) x =
      put start size type (typeAt l') x := fun x => by
    have hgrown : p.size + more = start + size + more - p.start := by omega
    rw [hgrown, hclear.typeAt_insert hbounds, hput, if_neg hhole]
  refine ⟨hfound.map_insert hsize habs hhole, fun x t hx => hmono x t (htypes x ▸ hx),
    fun hfree x => ?_⟩
  rw [htypes, hroom (by omega)]

end KvmOsx.Firmware
