import Mathlib

/-!
# Interleavings of programs

Each of a family of programs is a list of events. An interleaving is a list of events
tagged with their program, in which the events of each program are the beginning of it,
in order.

* `Interleaving`: the definition; it lasts for a beginning (`Interleaving.left`).
* `Interleaving.mem`: an event of an interleaving is one of its program.
* `interleaving_alone`, `interleaving_two`: one program on its own, and one after another.
-/

namespace KvmOsx.Interleave

variable {ι α : Type*} [DecidableEq ι]

/-- The events of one program. -/
def part (k : ι) (evs : List (ι × α)) : List α :=
  evs.filterMap fun x => if x.1 = k then some x.2 else none

/-- Programs that run side by side, each of them up to some point. -/
def Interleaving (prog : ι → List α) (evs : List (ι × α)) : Prop := ∀ k, part k evs <+: prog k

variable {prog : ι → List α} {evs evs' : List (ι × α)}

@[simp] theorem part_append (k : ι) : part k (evs ++ evs') = part k evs ++ part k evs' :=
  List.filterMap_append

theorem mem_part {k : ι} {a : α} : a ∈ part k evs ↔ (k, a) ∈ evs := by
  simp only [part, List.mem_filterMap]
  constructor
  · rintro ⟨⟨l, b⟩, hmem, h⟩
    split_ifs at h with hl
    obtain rfl := Option.some.inj h
    rwa [← hl]
  · intro h
    exact ⟨(k, a), h, if_pos rfl⟩

/-- The events of a program on its own. -/
theorem part_map (k l : ι) (as : List α) :
    part k (as.map (Prod.mk l)) = if l = k then as else [] := by
  induction as with
  | nil => simp [part]
  | cons a as ih =>
    unfold part at ih ⊢
    rw [List.map_cons, List.filterMap_cons, ih]
    split_ifs <;> rfl

theorem Interleaving.mem (h : Interleaving prog evs) {k : ι} {a : α} (ha : (k, a) ∈ evs) :
    a ∈ prog k := (h k).subset (mem_part.mpr ha)

theorem Interleaving.left (h : Interleaving prog (evs ++ evs')) : Interleaving prog evs := by
  intro k
  have hk := h k
  rw [part_append] at hk
  exact (List.prefix_append _ _).trans hk

theorem interleaving_alone (prog : ι → List α) (k : ι) :
    Interleaving prog ((prog k).map (Prod.mk k)) := by
  intro l
  rw [part_map]
  split_ifs with hkl
  · rw [hkl]
  · exact List.nil_prefix

theorem interleaving_two (prog : ι → List α) {k l : ι} (hkl : k ≠ l) :
    Interleaving prog ((prog k).map (Prod.mk k) ++ (prog l).map (Prod.mk l)) := by
  intro m
  rw [part_append, part_map, part_map]
  split_ifs with hk hl hl
  · exact absurd (hk.trans hl.symm) hkl
  · rw [List.append_nil, hk]
  · rw [List.nil_append, hl]
  · exact List.nil_prefix

end KvmOsx.Interleave
