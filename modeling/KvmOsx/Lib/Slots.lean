import Mathlib

/-!
# Ranges that are used up from the top

A zone is a list of slots, from high to low numbers. A slot has `used` numbers in use from its
start on, and the rest up to `stop` free. A new slot is cut off the top of an old one, and is
given back to the slot below it.

* `Covered`: the numbers of a zone.
* `Zone`: slots do not overlap, and one that is in use ends where the slot above it begins.
* `Carved`: one slot cut off the top of another; `Carved.zone`, `Carved.uncarve`: it keeps
  a zone one in both directions; `Carved.covered`: it keeps the numbers.
* `Zone.insert`: a new range.
* `Zone.eq_of_marks`: the starts and the numbers determine the zone.
* `Family`: zones that share no number and no key; `Family.block_eq`: two blocks in use that
  share a number are one.
-/

namespace KvmOsx.Slots

/-- The first `used` numbers from `start` on are in use, those up to `stop` free. -/
structure Slot (K : Type*) where
  start : ℕ
  used : ℕ
  stop : ℕ
  key : K
  deriving DecidableEq, Repr

variable {K : Type*}

/-- The number is in use or free in the zone. -/
def Covered (l : List (Slot K)) (x : ℕ) : Prop := ∃ s ∈ l, s.start ≤ x ∧ x < s.stop

/-- A slot in use is right above the next one. -/
def Linked : List (Slot K) → Prop
  | [] => True
  | s :: l => (0 < s.used → ∃ t ∈ l.head?, t.stop = s.start) ∧ Linked l

structure Zone (l : List (Slot K)) : Prop where
  room : ∀ s ∈ l, s.start + s.used ≤ s.stop
  order : l.Pairwise fun s t => t.stop ≤ s.start
  linked : Linked l
  rooted : ∀ s ∈ l, Covered l s.start

/-! ## One zone -/

section Zone

variable {l l' pre post : List (Slot K)} {s t : Slot K} {x : ℕ}

theorem covered_cons : Covered (s :: l) x ↔ (s.start ≤ x ∧ x < s.stop) ∨ Covered l x := by
  simp [Covered]

theorem covered_append : Covered (l ++ l') x ↔ Covered l x ∨ Covered l' x := by
  simp [Covered, or_and_right, exists_or]

theorem Zone.nil : Zone ([] : List (Slot K)) :=
  ⟨by simp, .nil, trivial, by simp⟩

/-- Only the upper end of a slot matters to those above it. -/
theorem linked_replace {post' : List (Slot K)} {s' : Slot K} (h : Linked (pre ++ s :: post))
    (hstop : s'.stop = s.stop) (htail : Linked (s' :: post')) : Linked (pre ++ s' :: post') := by
  induction pre with
  | nil => exact htail
  | cons r pre ih =>
    obtain ⟨hnext, hrest⟩ := h
    refine ⟨fun hused => ?_, ih hrest⟩
    obtain ⟨t, ht, hlink⟩ := hnext hused
    cases pre with
    | nil =>
      obtain rfl := Option.some.inj ht
      exact ⟨s', rfl, hstop.trans hlink⟩
    | cons q pre => exact ⟨t, ht, hlink⟩

theorem linked_append_right (h : Linked (pre ++ l)) : Linked l := by
  induction pre with
  | nil => exact h
  | cons r pre ih => exact ih h.2

/-- The slots between two others lie between their ends. -/
theorem Zone.mem_bounds (h : Zone (pre ++ s :: post)) :
    (∀ t ∈ pre, s.stop ≤ t.start) ∧ ∀ t ∈ post, t.stop ≤ s.start := by
  obtain ⟨-, hpost, hcross⟩ := List.pairwise_append.mp h.order
  exact ⟨fun t ht => hcross t ht s List.mem_cons_self, (List.pairwise_cons.mp hpost).1⟩

theorem Zone.start_le (h : Zone l) (hs : s ∈ l) : s.start ≤ s.stop :=
  (Nat.le_add_right _ _).trans (h.room s hs)

/-- Two slots of a zone that share a number are one. -/
theorem Zone.eq_of_mem (h : Zone l) (hs : s ∈ l) (ht : t ∈ l) (hsx : s.start ≤ x ∧ x < s.stop)
    (htx : t.start ≤ x ∧ x < t.stop) : s = t := by
  have happart : l.Pairwise fun s t =>
      ¬ ((s.start ≤ x ∧ x < s.stop) ∧ t.start ≤ x ∧ x < t.stop) :=
    h.order.imp fun hle hboth => by omega
  have hsymm : Std.Symm fun s t : Slot K =>
      ¬ ((s.start ≤ x ∧ x < s.stop) ∧ t.start ≤ x ∧ x < t.stop) :=
    ⟨fun _ _ hapart hboth => hapart ⟨hboth.2, hboth.1⟩⟩
  by_contra hne
  exact happart.forall hs ht hne ⟨hsx, htx⟩

/-- What is above a slot. -/
theorem covered_above (h : ∀ t ∈ l, t.stop ≤ s.start) (hx : s.start ≤ x) :
    Covered (s :: l) x ↔ x < s.stop := by
  have hbelow : ¬ Covered l x := by
    rintro ⟨t, ht, htx⟩
    have hle := h t ht
    omega
  rw [covered_cons]
  constructor
  · rintro (hin | hin)
    · exact hin.2
    · exact absurd hin hbelow
  · exact fun hlt => Or.inl ⟨hx, hlt⟩

end Zone

/-! ## Cutting a slot off another -/

/-- `slot` is cut off the top of a slot of `l`, which leaves `l'`. -/
def Carved (l l' : List (Slot K)) (slot : Slot K) : Prop :=
  ∃ pre s post, l = pre ++ s :: post ∧ l' = pre ++ slot :: { s with stop := slot.start } :: post ∧
    s.start + s.used ≤ slot.start ∧ slot.start + slot.used ≤ slot.stop ∧ slot.stop = s.stop

section Carved

variable {l l' : List (Slot K)} {slot : Slot K} {x : ℕ}

theorem Carved.mem (h : Carved l l' slot) : slot ∈ l' := by
  obtain ⟨pre, s, post, -, rfl, -⟩ := h
  simp

theorem Carved.cons (h : Carved l l' slot) (s : Slot K) : Carved (s :: l) (s :: l') slot := by
  obtain ⟨pre, t, post, rfl, rfl, hcut⟩ := h
  exact ⟨s :: pre, t, post, rfl, rfl, hcut⟩

/-- The zone has the numbers it had. -/
theorem Carved.covered (h : Carved l l' slot) : Covered l' x ↔ Covered l x := by
  obtain ⟨pre, s, post, rfl, rfl, hfree, hroom, hstop⟩ := h
  simp only [covered_append, covered_cons]
  have hcut : (slot.start ≤ x ∧ x < slot.stop) ∨ (s.start ≤ x ∧ x < slot.start) ↔
      s.start ≤ x ∧ x < s.stop := by omega
  rw [← or_assoc (a := slot.start ≤ x ∧ x < slot.stop), hcut]

theorem Carved.zone (h : Carved l l' slot) (hl : Zone l) (hused : 0 < slot.used) : Zone l' := by
  have hcovered : ∀ x, Covered l' x ↔ Covered l x := fun x => h.covered
  obtain ⟨pre, s, post, rfl, rfl, hfree, hroom, hstop⟩ := h
  obtain ⟨hpre, hpost⟩ := hl.mem_bounds
  refine ⟨fun t ht => ?_, ?_, ?_, fun t ht => ?_⟩
  · rcases List.mem_append.mp ht with ht | ht
    · exact hl.room t (List.mem_append_left _ ht)
    rcases List.mem_cons.mp ht with rfl | ht
    · exact hroom
    rcases List.mem_cons.mp ht with rfl | ht
    · exact hfree
    · exact hl.room t (List.mem_append_right pre (List.mem_cons_of_mem s ht))
  · obtain ⟨hopre, hopost, hcross⟩ := List.pairwise_append.mp hl.order
    obtain ⟨-, hotail⟩ := List.pairwise_cons.mp hopost
    refine List.pairwise_append.mpr ⟨hopre, List.pairwise_cons.mpr ⟨?_, List.pairwise_cons.mpr
      ⟨hpost, hotail⟩⟩,
      fun t ht => List.forall_mem_cons.mpr ⟨?_, List.forall_mem_cons.mpr ⟨?_, ?_⟩⟩⟩
    · refine List.forall_mem_cons.mpr ⟨le_rfl, fun t ht => ?_⟩
      have hle := hpost t ht
      omega
    · exact hstop.trans_le (hpre t ht)
    · have hle := hpre t ht
      simp only
      omega
    · exact fun u hu => hcross t ht u (List.mem_cons_of_mem s hu)
  · obtain ⟨hnext, hrest⟩ := linked_append_right hl.linked
    exact linked_replace hl.linked hstop ⟨fun _ => ⟨_, rfl, rfl⟩, hnext, hrest⟩
  · rw [hcovered]
    rcases List.mem_append.mp ht with ht | ht
    · exact hl.rooted t (List.mem_append_left _ ht)
    rcases List.mem_cons.mp ht with rfl | ht
    · exact ⟨s, List.mem_append_right pre List.mem_cons_self, by omega, by omega⟩
    rcases List.mem_cons.mp ht with rfl | ht
    · exact hl.rooted s (List.mem_append_right pre List.mem_cons_self)
    · exact hl.rooted t (List.mem_append_right pre (List.mem_cons_of_mem s ht))

/-- The slot given back to the one below it. -/
theorem Carved.uncarve (h : Carved l l' slot) (hl : Zone l') : Zone l := by
  have hcovered : ∀ x, Covered l' x ↔ Covered l x := fun x => h.covered
  obtain ⟨pre, s, post, rfl, rfl, hfree, hroom, hstop⟩ := h
  obtain ⟨hpre, hpost⟩ := hl.mem_bounds
  refine ⟨fun t ht => ?_, ?_, ?_, fun t ht => ?_⟩
  · rcases List.mem_append.mp ht with ht | ht
    · exact hl.room t (List.mem_append_left _ ht)
    rcases List.mem_cons.mp ht with rfl | ht
    · omega
    · exact hl.room t (List.mem_append_right pre
        (List.mem_cons_of_mem slot (List.mem_cons_of_mem _ ht)))
  · obtain ⟨hopre, hopost, hcross⟩ := List.pairwise_append.mp hl.order
    obtain ⟨-, hotail⟩ := List.pairwise_cons.mp hopost
    refine List.pairwise_append.mpr ⟨hopre, List.pairwise_cons.mpr
      ⟨(List.pairwise_cons.mp hotail).1, (List.pairwise_cons.mp hotail).2⟩,
      fun t ht => List.forall_mem_cons.mpr ⟨?_, fun u hu => ?_⟩⟩
    · exact hstop.symm.trans_le (hpre t ht)
    · exact hcross t ht u (List.mem_cons_of_mem slot (List.mem_cons_of_mem _ hu))
  · obtain ⟨-, hnext, hrest⟩ := linked_append_right hl.linked
    exact linked_replace hl.linked hstop.symm ⟨hnext, hrest⟩
  · rw [← hcovered]
    rcases List.mem_append.mp ht with ht | ht
    · exact hl.rooted t (List.mem_append_left _ ht)
    rcases List.mem_cons.mp ht with rfl | ht
    · exact hl.rooted { t with stop := slot.start } (by simp)
    · exact hl.rooted t (List.mem_append_right pre
        (List.mem_cons_of_mem slot (List.mem_cons_of_mem _ ht)))

/-- A slot in use can be given back. -/
theorem Zone.carved_of_mem (hl : Zone l') (hslot : slot ∈ l') (hused : 0 < slot.used) :
    ∃ l, Carved l l' slot := by
  obtain ⟨pre, post, rfl⟩ := List.append_of_mem hslot
  obtain ⟨hnext, -⟩ := linked_append_right hl.linked
  obtain ⟨t, ht, hlink⟩ := hnext hused
  cases post with
  | nil => cases ht
  | cons u post =>
    obtain rfl := Option.some.inj ht
    have hroom := hl.room u (by simp)
    refine ⟨pre ++ { u with stop := slot.stop } :: post, pre, { u with stop := slot.stop }, post,
      rfl, ?_, by simp only; omega, hl.room slot hslot, rfl⟩
    rw [← hlink]

/-- What a zone is made of, without the free parts. -/
def Slot.mark (s : Slot K) : ℕ × ℕ × K := (s.start, s.used, s.key)

theorem Carved.marks (h : Carved l l' slot) : ∃ pre post, l.map Slot.mark = pre ++ post ∧
    l'.map Slot.mark = pre ++ slot.mark :: post := by
  obtain ⟨pre, s, post, rfl, rfl, -⟩ := h
  exact ⟨pre.map Slot.mark, s.mark :: post.map Slot.mark, by simp, by simp [Slot.mark]⟩

theorem Carved.mem_marks (h : Carved l l' slot) {m : ℕ × ℕ × K} :
    m ∈ l'.map Slot.mark ↔ m = slot.mark ∨ m ∈ l.map Slot.mark := by
  obtain ⟨pre, post, hl, hl'⟩ := h.marks
  rw [hl, hl']
  simp only [List.mem_append, List.mem_cons]
  tauto

/-- **The slots' starts and the numbers of the zone determine it.** -/
theorem Zone.eq_of_marks (h : Zone l) (h' : Zone l') (hmarks : l.map Slot.mark = l'.map Slot.mark)
    (hcovered : ∀ x, Covered l x ↔ Covered l' x) : l = l' := by
  have hroom := h.room
  have hroom' := h'.room
  have horder := h.order
  have horder' := h'.order
  clear h h'
  induction l generalizing l' with
  | nil => exact (List.map_eq_nil_iff.mp hmarks.symm).symm
  | cons s l ih =>
    cases l' with
    | nil => cases hmarks
    | cons s' l' =>
      obtain ⟨hmark, hrest⟩ := List.cons_eq_cons.mp hmarks
      obtain ⟨hbelow, hotail⟩ := List.pairwise_cons.mp horder
      obtain ⟨hbelow', hotail'⟩ := List.pairwise_cons.mp horder'
      have hstart : s.start = s'.start := congrArg Prod.fst hmark
      have habove : ∀ x, s.start ≤ x → (x < s.stop ↔ x < s'.stop) := fun x hx => by
        rw [← covered_above hbelow hx, ← covered_above hbelow' (hstart ▸ hx), hcovered]
      have hstop : s.stop = s'.stop := by
        have hle := hroom s List.mem_cons_self
        have hle' := hroom' s' List.mem_cons_self
        have hs := habove s.stop (by omega)
        have hs' := habove s'.stop (by omega)
        omega
      obtain rfl : s = s' := by
        cases s
        cases s'
        simp only [Slot.mark, Prod.mk.injEq] at hmark hstop
        obtain ⟨rfl, rfl, rfl⟩ := hmark
        rw [hstop]
      rw [ih hrest (fun x => ?_) (fun t ht => hroom t (List.mem_cons_of_mem s ht))
        (fun t ht => hroom' t (List.mem_cons_of_mem s ht)) hotail hotail']
      have hx := hcovered x
      rw [covered_cons, covered_cons] at hx
      by_cases hin : s.start ≤ x ∧ x < s.stop
      · have hnot : ∀ {m : List (Slot K)}, (∀ t ∈ m, t.stop ≤ s.start) → ¬ Covered m x := by
          rintro m hm ⟨t, ht, htx⟩
          have hle := hm t ht
          omega
        exact iff_of_false (hnot hbelow) (hnot hbelow')
      · simpa only [hin, false_or] using hx

end Carved

/-! ## A new range -/

section Insert

variable {pre post : List (Slot K)} {slot : Slot K} {x : ℕ}

/-- A range that has no number of the zone is put between the slots that begin above it and
    those that begin below it. -/
theorem Zone.insert (h : Zone (pre ++ post)) (hempty : slot.start < slot.stop)
    (hunused : slot.used = 0) (hpre : ∀ s ∈ pre, slot.start ≤ s.start)
    (hpost : ∀ s ∈ post, s.start < slot.start)
    (hnew : ∀ x, slot.start ≤ x → x < slot.stop → ¬ Covered (pre ++ post) x) :
    Zone (pre ++ slot :: post) := by
  have habove : ∀ s ∈ pre, slot.stop ≤ s.start := by
    intro s hs
    by_contra hlt
    exact hnew s.start (hpre s hs) (not_le.mp hlt) (h.rooted s (List.mem_append_left _ hs))
  have hbelow : ∀ t ∈ post, t.stop ≤ slot.start := by
    intro t ht
    by_contra hlt
    exact hnew slot.start le_rfl hempty
      ⟨t, List.mem_append_right _ ht, (hpost t ht).le, not_le.mp hlt⟩
  refine ⟨fun s hs => ?_, ?_, ?_, fun s hs => ?_⟩
  · rcases List.mem_append.mp hs with hs | hs
    · exact h.room s (List.mem_append_left _ hs)
    rcases List.mem_cons.mp hs with rfl | hs
    · omega
    · exact h.room s (List.mem_append_right _ hs)
  · obtain ⟨hopre, hopost, hcross⟩ := List.pairwise_append.mp h.order
    exact List.pairwise_append.mpr ⟨hopre, List.pairwise_cons.mpr ⟨hbelow, hopost⟩,
      fun s hs => List.forall_mem_cons.mpr ⟨habove s hs, hcross s hs⟩⟩
  · have hlinked := h.linked
    have hroom := h.room
    clear h
    induction pre with
    | nil => exact ⟨fun hused => absurd hunused hused.ne', hlinked⟩
    | cons r pre ih =>
      obtain ⟨hnext, hrest⟩ := hlinked
      refine ⟨fun hused => ?_, ih (fun s hs => hpre s (List.mem_cons_of_mem r hs))
        (fun x hx hx' hcov => hnew x hx hx' (covered_cons.mpr (Or.inr hcov)))
        (fun s hs => habove s (List.mem_cons_of_mem r hs)) hrest
        (fun s hs => hroom s (List.mem_cons_of_mem r hs))⟩
      obtain ⟨t, ht, hlink⟩ := hnext hused
      cases pre with
      | cons q pre => exact ⟨t, ht, hlink⟩
      | nil =>
        -- The slot that `r` is cut off from cannot be on the other side of the range.
        have htpost : t ∈ post := List.mem_of_mem_head? ht
        have hle := hbelow t htpost
        have hle' := habove r List.mem_cons_self
        omega
  · have hcov : ∀ {y}, Covered (pre ++ post) y → Covered (pre ++ slot :: post) y := by
      intro y hy
      rw [covered_append] at hy ⊢
      exact hy.imp_right fun hy => covered_cons.mpr (Or.inr hy)
    rcases List.mem_append.mp hs with hs | hs
    · exact hcov (h.rooted s (List.mem_append_left _ hs))
    rcases List.mem_cons.mp hs with rfl | hs
    · exact ⟨s, List.mem_append_right pre List.mem_cons_self, le_rfl, hempty⟩
    · exact hcov (h.rooted s (List.mem_append_right _ hs))

theorem covered_insert : Covered (pre ++ slot :: post) x ↔
    (slot.start ≤ x ∧ x < slot.stop) ∨ Covered (pre ++ post) x := by
  simp only [covered_append, covered_cons]
  tauto

end Insert

/-! ## Several zones -/

/-- Zones without a common number or key. -/
structure Family {ι : Type*} (h : ι → List (Slot K)) : Prop where
  zone : ∀ i, Zone (h i)
  apart : ∀ {i j x}, Covered (h i) x → Covered (h j) x → i = j
  keys : ∀ i, ((h i).map Slot.key).Nodup
  keysApart : ∀ {i j s t}, s ∈ h i → t ∈ h j → s.key = t.key → i = j

section Family

variable {ι : Type*} {h : ι → List (Slot K)} {i j : ι} {s t : Slot K} {x : ℕ}

/-- Two slots that share a number are one. -/
theorem Family.slot_eq (hf : Family h) (hs : s ∈ h i) (ht : t ∈ h j)
    (hsx : s.start ≤ x ∧ x < s.stop) (htx : t.start ≤ x ∧ x < t.stop) : i = j ∧ s = t := by
  obtain rfl := hf.apart ⟨s, hs, hsx⟩ ⟨t, ht, htx⟩
  exact ⟨rfl, (hf.zone i).eq_of_mem hs ht hsx htx⟩

/-- Two blocks in use that share a number are one. -/
theorem Family.block_eq (hf : Family h) (hs : s ∈ h i) (ht : t ∈ h j)
    (hsx : s.start ≤ x ∧ x < s.start + s.used) (htx : t.start ≤ x ∧ x < t.start + t.used) :
    i = j ∧ s = t :=
  hf.slot_eq hs ht ⟨hsx.1, hsx.2.trans_le ((hf.zone i).room s hs)⟩
    ⟨htx.1, htx.2.trans_le ((hf.zone j).room t ht)⟩

theorem Family.eq_of_key (hf : Family h) (hs : s ∈ h i) (ht : t ∈ h j) (hkey : s.key = t.key) :
    i = j ∧ s = t := by
  obtain rfl := hf.keysApart hs ht hkey
  exact ⟨rfl, List.inj_on_of_nodup_map (hf.keys i) hs ht hkey⟩

/-- One zone of a family replaced: what it has more of, no other zone has. -/
theorem Family.update [DecidableEq ι] (hf : Family h) {l : List (Slot K)} (hzone : Zone l)
    (hcov : ∀ x, Covered l x → Covered (h i) x ∨ ∀ j, ¬ Covered (h j) x)
    (hnodup : (l.map Slot.key).Nodup)
    (hkeys : ∀ s ∈ l, (∃ t ∈ h i, t.key = s.key) ∨ ∀ j, ∀ t ∈ h j, t.key ≠ s.key) :
    Family (Function.update h i l) := by
  have hother : ∀ {j x}, Covered l x → Covered (h j) x → j = i := by
    intro j x hx hx'
    rcases hcov x hx with hold | hnew
    · exact hf.apart hx' hold
    · exact absurd hx' (hnew j)
  have hotherKey : ∀ {j s t}, s ∈ l → t ∈ h j → s.key = t.key → j = i := by
    intro j s t hs ht heq
    rcases hkeys s hs with ⟨u, hu, huk⟩ | hnew
    · exact hf.keysApart ht hu (heq.symm.trans huk.symm)
    · exact absurd heq.symm (hnew j t ht)
  refine ⟨fun j => ?_, fun {j k x} hj hk => ?_, fun j => ?_, fun {j k s t} hs ht heq => ?_⟩
  · rcases eq_or_ne j i with rfl | hne
    · rwa [Function.update_self]
    · rw [Function.update_of_ne hne]
      exact hf.zone j
  · by_cases hji : j = i <;> by_cases hki : k = i
    · exact hji.trans hki.symm
    · rw [hji, Function.update_self] at hj
      rw [Function.update_of_ne hki] at hk
      exact hji.trans (hother hj hk).symm
    · rw [Function.update_of_ne hji] at hj
      rw [hki, Function.update_self] at hk
      exact (hother hk hj).trans hki.symm
    · rw [Function.update_of_ne hji] at hj
      rw [Function.update_of_ne hki] at hk
      exact hf.apart hj hk
  · rcases eq_or_ne j i with rfl | hne
    · rwa [Function.update_self]
    · rw [Function.update_of_ne hne]
      exact hf.keys j
  · by_cases hji : j = i <;> by_cases hki : k = i
    · exact hji.trans hki.symm
    · rw [hji, Function.update_self] at hs
      rw [Function.update_of_ne hki] at ht
      exact hji.trans (hotherKey hs ht heq).symm
    · rw [Function.update_of_ne hji] at hs
      rw [hki, Function.update_self] at ht
      exact (hotherKey ht hs heq.symm).trans hki.symm
    · rw [Function.update_of_ne hji] at hs
      rw [Function.update_of_ne hki] at ht
      exact hf.keysApart hs ht heq

theorem Carved.keys {l l' : List (Slot K)} {slot : Slot K} (h : Carved l l' slot) :
    (l'.map Slot.key).Perm (slot.key :: l.map Slot.key) := by
  obtain ⟨pre, s, post, rfl, rfl, -⟩ := h
  simp only [List.map_append, List.map_cons]
  exact List.perm_middle

theorem Family.carve [DecidableEq ι] (hf : Family h) {l : List (Slot K)} {slot : Slot K}
    (hcarved : Carved (h i) l slot) (hused : 0 < slot.used)
    (hfresh : ∀ j, ∀ t ∈ h j, t.key ≠ slot.key) : Family (Function.update h i l) := by
  refine hf.update (hcarved.zone (hf.zone i) hused) (fun x hx => Or.inl (hcarved.covered.mp hx))
    (hcarved.keys.nodup_iff.mpr (List.nodup_cons.mpr ⟨?_, hf.keys i⟩)) fun s hs => ?_
  · intro hmem
    obtain ⟨t, ht, hkey⟩ := List.mem_map.mp hmem
    exact hfresh i t ht hkey
  · have hkey := hcarved.keys.mem_iff.mp (List.mem_map_of_mem (f := Slot.key) hs)
    rcases List.mem_cons.mp hkey with heq | hmem
    · exact Or.inr fun j t ht => heq ▸ hfresh j t ht
    · exact Or.inl (List.mem_map.mp hmem)

theorem Family.uncarve [DecidableEq ι] (hf : Family h) {l : List (Slot K)} {slot : Slot K}
    (hcarved : Carved l (h i) slot) : Family (Function.update h i l) := by
  refine hf.update (hcarved.uncarve (hf.zone i)) (fun x hx => Or.inl (hcarved.covered.mpr hx))
    (List.nodup_cons.mp (hcarved.keys.nodup_iff.mp (hf.keys i))).2 fun s hs => Or.inl ?_
  exact List.mem_map.mp (hcarved.keys.mem_iff.mpr
    (List.mem_cons_of_mem _ (List.mem_map_of_mem (f := Slot.key) hs)))

theorem Family.insert [DecidableEq ι] (hf : Family h) {pre post : List (Slot K)} {slot : Slot K}
    (hsplit : h i = pre ++ post) (hempty : slot.start < slot.stop) (hunused : slot.used = 0)
    (hpre : ∀ s ∈ pre, slot.start ≤ s.start) (hpost : ∀ s ∈ post, s.start < slot.start)
    (hnew : ∀ x, slot.start ≤ x → x < slot.stop → ∀ j, ¬ Covered (h j) x)
    (hfresh : ∀ j, ∀ t ∈ h j, t.key ≠ slot.key) :
    Family (Function.update h i (pre ++ slot :: post)) := by
  have hzone := (hsplit ▸ hf.zone i).insert hempty hunused hpre hpost fun x hx hx' =>
    hsplit ▸ hnew x hx hx' i
  have hperm : ((pre ++ slot :: post).map Slot.key).Perm (slot.key :: (h i).map Slot.key) := by
    rw [hsplit, List.map_append, List.map_append, List.map_cons]
    exact List.perm_middle
  refine hf.update hzone (fun x hx => ?_)
    (hperm.nodup_iff.mpr (List.nodup_cons.mpr ⟨?_, hf.keys i⟩)) fun s hs => ?_
  · rcases covered_insert.mp hx with hin | hold
    · exact Or.inr (hnew x hin.1 hin.2)
    · exact Or.inl (hsplit ▸ hold)
  · intro hmem
    obtain ⟨t, ht, hkey⟩ := List.mem_map.mp hmem
    exact hfresh i t ht hkey
  · have hkey := hperm.mem_iff.mp (List.mem_map_of_mem (f := Slot.key) hs)
    rcases List.mem_cons.mp hkey with heq | hmem
    · exact Or.inr fun j t ht => heq ▸ hfresh j t ht
    · exact Or.inl (List.mem_map.mp hmem)

/-- The slot under another key. -/
def Slot.rekey (f : K → K) (s : Slot K) : Slot K := { s with key := f s.key }

theorem covered_rekey {f : K → K} {l : List (Slot K)} :
    Covered (l.map (Slot.rekey f)) x ↔ Covered l x := by
  simp [Covered, Slot.rekey]

theorem Zone.rekey {l : List (Slot K)} (hl : Zone l) (f : K → K) :
    Zone (l.map (Slot.rekey f)) := by
  refine ⟨List.forall_mem_map.mpr hl.room, List.pairwise_map.mpr hl.order, ?_,
    List.forall_mem_map.mpr fun s hs => covered_rekey.mpr (hl.rooted s hs)⟩
  have hlinked := hl.linked
  clear hl
  induction l with
  | nil => trivial
  | cons s l ih =>
    refine ⟨fun hused => ?_, ih hlinked.2⟩
    obtain ⟨t, ht, hlink⟩ := hlinked.1 hused
    exact ⟨t.rekey f, by rw [List.head?_map, ht]; rfl, hlink⟩

theorem Family.rekey (hf : Family h) (f : K → K)
    (hinj : ∀ {i j s t}, s ∈ h i → t ∈ h j → f s.key = f t.key → s.key = t.key) :
    Family fun i => (h i).map (Slot.rekey f) := by
  refine ⟨fun i => (hf.zone i).rekey f,
    fun hi hj => hf.apart (covered_rekey.mp hi) (covered_rekey.mp hj), fun i => ?_,
    fun {i j s t} hs ht heq => ?_⟩
  · have hkeys : ((h i).map (Slot.rekey f)).map Slot.key = ((h i).map Slot.key).map f := by
      simp [Slot.rekey]
    rw [hkeys]
    refine List.Nodup.map_on (fun k hk k' hk' heq => ?_) (hf.keys i)
    obtain ⟨s, hs, rfl⟩ := List.mem_map.mp hk
    obtain ⟨t, ht, rfl⟩ := List.mem_map.mp hk'
    exact hinj hs ht heq
  · obtain ⟨s, hs', rfl⟩ := List.mem_map.mp hs
    obtain ⟨t, ht', rfl⟩ := List.mem_map.mp ht
    exact hf.keysApart hs' ht' (hinj hs' ht' heq)

end Family

end KvmOsx.Slots
