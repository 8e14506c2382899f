import Mathlib

/-!
# Typed extents

A partial map from numbers to types, kept as a list of extents: ranges with a type.

* `typeAt`: the map a list stands for.
* `Canonical`: the extents are not empty, in order, do not overlap, and two that touch have
  different types.
* `Canonical.eq_of_typeAt`: a map has one canonical list.
* `Cleared`: what is left of a list around a range; `Cleared.typeAt`,
  `Cleared.typeAt_insert`: the map with the range cleared, and with one extent in it.
-/

namespace KvmOsx.Extents

/-- `size` numbers from `start` on have the type. -/
structure Extent (T : Type*) where
  start : ℕ
  size : ℕ
  type : T
  deriving DecidableEq, Repr

variable {T : Type*}

namespace Extent

/-- The first number behind the extent. -/
def stop (e : Extent T) : ℕ := e.start + e.size

/-- The number is in the extent. -/
def Has (e : Extent T) (x : ℕ) : Prop := e.start ≤ x ∧ x < e.stop

instance (e : Extent T) (x : ℕ) : Decidable (e.Has x) := inferInstanceAs (Decidable (_ ∧ _))

/-- The first extent ends before the second begins, or where it begins if the types differ. -/
def Apart (a b : Extent T) : Prop := a.stop < b.start ∨ a.stop = b.start ∧ a.type ≠ b.type

theorem Apart.le {a b : Extent T} (h : a.Apart b) : a.stop ≤ b.start := by
  rcases h with h | h
  · exact h.le
  · exact h.1.le

theorem has_start {e : Extent T} (h : 0 < e.size) : e.Has e.start :=
  ⟨le_rfl, Nat.lt_add_of_pos_right h⟩

end Extent

/-- The type of a number, by the first extent that has it. -/
def typeAt (l : List (Extent T)) (x : ℕ) : Option T :=
  (l.find? fun e => decide (e.Has x)).map Extent.type

/-- Not empty, in order, apart from each other. -/
structure Canonical (l : List (Extent T)) : Prop where
  pos : ∀ e ∈ l, 0 < e.size
  apart : l.Pairwise Extent.Apart

/-! ## Lookup -/

section Lookup

variable {l l' : List (Extent T)} {e : Extent T} {x : ℕ} {t : T}

@[simp] theorem typeAt_nil : typeAt ([] : List (Extent T)) x = none := rfl

theorem typeAt_cons : typeAt (e :: l) x = if e.Has x then some e.type else typeAt l x := by
  unfold typeAt
  by_cases h : e.Has x <;> simp [h]

theorem typeAt_append : typeAt (l ++ l') x = (typeAt l x).or (typeAt l' x) := by
  induction l with
  | nil => rfl
  | cons e l ih =>
    rw [List.cons_append, typeAt_cons, typeAt_cons, ih]
    split_ifs <;> rfl

theorem typeAt_eq_none : typeAt l x = none ↔ ∀ e ∈ l, ¬ e.Has x := by
  simp [typeAt, List.find?_eq_none]

theorem exists_of_typeAt (h : typeAt l x = some t) : ∃ e ∈ l, e.Has x ∧ e.type = t := by
  obtain ⟨e, he, rfl⟩ := Option.map_eq_some_iff.mp h
  exact ⟨e, List.mem_of_find?_eq_some he, by simpa using List.find?_some he, rfl⟩

end Lookup

/-! ## Canonical lists -/

section Canonical

variable {l l' : List (Extent T)} {e : Extent T} {x : ℕ} {t : T}

theorem Canonical.nil : Canonical ([] : List (Extent T)) := ⟨by simp, .nil⟩

theorem canonical_cons : Canonical (e :: l) ↔
    0 < e.size ∧ (∀ f ∈ l, e.Apart f) ∧ Canonical l := by
  constructor
  · intro h
    obtain ⟨hpos, hpos'⟩ := List.forall_mem_cons.mp h.pos
    obtain ⟨hapart, hapart'⟩ := List.pairwise_cons.mp h.apart
    exact ⟨hpos, hapart, hpos', hapart'⟩
  · rintro ⟨hpos, hapart, h⟩
    exact ⟨List.forall_mem_cons.mpr ⟨hpos, h.pos⟩, List.pairwise_cons.mpr ⟨hapart, h.apart⟩⟩

theorem canonical_append : Canonical (l ++ l') ↔
    Canonical l ∧ Canonical l' ∧ ∀ e ∈ l, ∀ f ∈ l', e.Apart f := by
  constructor
  · intro h
    obtain ⟨hpos, hpos'⟩ := List.forall_mem_append.mp h.pos
    obtain ⟨hapart, hapart', hcross⟩ := List.pairwise_append.mp h.apart
    exact ⟨⟨hpos, hapart⟩, ⟨hpos', hapart'⟩, hcross⟩
  · rintro ⟨h, h', hcross⟩
    exact ⟨List.forall_mem_append.mpr ⟨h.pos, h'.pos⟩,
      List.pairwise_append.mpr ⟨h.apart, h'.apart, hcross⟩⟩

/-- What is behind an extent has none of its numbers. -/
theorem typeAt_behind (h : ∀ f ∈ l, x < f.start) : typeAt l x = none :=
  typeAt_eq_none.mpr fun f hf hx => absurd hx.1 (h f hf).not_ge

/-- What is before a number does not have it. -/
theorem typeAt_before (h : ∀ f ∈ l, f.stop ≤ x) : typeAt l x = none :=
  typeAt_eq_none.mpr fun f hf hx => absurd hx.2 (h f hf).not_gt

/-- In a canonical list every extent decides the type of its numbers. -/
theorem Canonical.typeAt_of_mem (h : Canonical l) (he : e ∈ l) (hx : e.Has x) :
    typeAt l x = some e.type := by
  induction l with
  | nil => cases he
  | cons f l ih =>
    obtain ⟨-, hapart, hl⟩ := canonical_cons.mp h
    rw [typeAt_cons]
    rcases List.mem_cons.mp he with rfl | he
    · rw [if_pos hx]
    · have hbehind : ¬ f.Has x := fun hf =>
        absurd hf.2 ((hapart e he).le.trans hx.1).not_gt
      rw [if_neg hbehind]
      exact ih hl he

/-- The first number of the first extent is the first number with a type. -/
theorem Canonical.start_le (h : Canonical (e :: l)) (hx : typeAt (e :: l) x ≠ none) :
    e.start ≤ x := by
  obtain ⟨-, hapart, -⟩ := canonical_cons.mp h
  obtain ⟨t, ht⟩ := Option.ne_none_iff_exists'.mp hx
  obtain ⟨f, hf, hfx, -⟩ := exists_of_typeAt ht
  rcases List.mem_cons.mp hf with rfl | hf
  · exact hfx.1
  · have hle : e.start ≤ e.stop := Nat.le_add_right _ _
    exact (hle.trans (hapart f hf).le).trans hfx.1

/-- The first extent ends where its type does. -/
theorem Canonical.stop_le (h : Canonical (e :: l)) {f : Extent T} {l' : List (Extent T)}
    (h' : Canonical (f :: l')) (hsame : ∀ x, typeAt (e :: l) x = typeAt (f :: l') x)
    (hstart : e.start = f.start) (htype : e.type = f.type) : f.stop ≤ e.stop := by
  obtain ⟨hpos, hapart, -⟩ := canonical_cons.mp h
  by_contra hlt
  rw [not_le] at hlt
  have hle : e.start ≤ e.stop := Nat.le_add_right _ _
  -- The number behind `e` still has the type of `f`, so an extent of `l` begins there.
  have hnext : typeAt (e :: l) e.stop = some f.type := by
    rw [hsame]
    exact h'.typeAt_of_mem List.mem_cons_self ⟨hstart ▸ hle, hlt⟩
  obtain ⟨g, hg, hgx, hgt⟩ := exists_of_typeAt hnext
  rcases List.mem_cons.mp hg with rfl | hg
  · exact absurd hgx.2 (lt_irrefl _)
  · rcases hapart g hg with hfar | ⟨-, hne⟩
    · exact absurd hgx.1 hfar.not_ge
    · exact hne (htype.trans hgt.symm)

/-- **A map has one canonical list.** -/
theorem Canonical.eq_of_typeAt (h : Canonical l) (h' : Canonical l')
    (hsame : ∀ x, typeAt l x = typeAt l' x) : l = l' := by
  have hfirst : ∀ {e : Extent T} {l : List (Extent T)}, Canonical (e :: l) →
      typeAt (e :: l) e.start = some e.type := fun h =>
    h.typeAt_of_mem List.mem_cons_self (Extent.has_start (canonical_cons.mp h).1)
  induction l generalizing l' with
  | nil =>
    cases l' with
    | nil => rfl
    | cons f l' =>
      have hnone := hsame f.start
      rw [hfirst h'] at hnone
      cases hnone
  | cons e l ih =>
    cases l' with
    | nil =>
      have hnone := hsame e.start
      rw [hfirst h] at hnone
      cases hnone
    | cons f l' =>
      have hstart : e.start = f.start := by
        refine le_antisymm (h.start_le ?_) (h'.start_le ?_)
        · rw [hsame, hfirst h']
          exact Option.some_ne_none _
        · rw [← hsame, hfirst h]
          exact Option.some_ne_none _
      have htype : e.type = f.type := by
        have htypes := hsame e.start
        rw [hfirst h, hstart, hfirst h'] at htypes
        exact Option.some.inj htypes
      have hstop : e.stop = f.stop :=
        le_antisymm (h'.stop_le h (fun x => (hsame x).symm) hstart.symm htype.symm)
          (h.stop_le h' hsame hstart htype)
      have hef : e = f := by
        cases e
        cases f
        simp only [Extent.stop] at hstart htype hstop
        subst hstart htype
        rw [Nat.add_left_cancel hstop]
      subst hef
      obtain ⟨-, hapart, hl⟩ := canonical_cons.mp h
      obtain ⟨-, hapart', hl'⟩ := canonical_cons.mp h'
      rw [ih hl hl' fun x => ?_]
      have hrest := hsame x
      rw [typeAt_cons, typeAt_cons] at hrest
      by_cases hx : e.Has x
      · rw [typeAt_behind fun g hg => hx.2.trans_le (hapart g hg).le,
          typeAt_behind fun g hg => hx.2.trans_le (hapart' g hg).le]
      · rwa [if_neg hx, if_neg hx] at hrest

end Canonical

/-! ## A range of the map -/

/-- `L` is what `l` has before `a`, and `R` what it has from `b` on. -/
structure Cleared (l L R : List (Extent T)) (a b : ℕ) : Prop where
  before : ∀ e ∈ L, e.stop ≤ a
  behind : ∀ e ∈ R, b ≤ e.start
  left : ∀ x < a, typeAt L x = typeAt l x
  right : ∀ x, b ≤ x → typeAt R x = typeAt l x

section Cleared

variable {l L R : List (Extent T)} {a b x : ℕ}

theorem Cleared.typeAt (h : Cleared l L R a b) (hab : a ≤ b) :
    typeAt (L ++ R) x = if a ≤ x ∧ x < b then none else typeAt l x := by
  rw [typeAt_append]
  rcases lt_or_ge x a with hx | hx
  · rw [if_neg fun hin => hx.not_ge hin.1, ← h.left x hx,
      typeAt_behind fun f hf => (hx.trans_le hab).trans_le (h.behind f hf), Option.or_none]
  rw [typeAt_before fun e he => (h.before e he).trans hx, Option.none_or]
  rcases lt_or_ge x b with hx' | hx'
  · rw [if_pos ⟨hx, hx'⟩, typeAt_behind fun f hf => hx'.trans_le (h.behind f hf)]
  · rw [if_neg fun hin => hx'.not_gt hin.2, h.right x hx']

/-- The range filled with one extent. -/
theorem Cleared.typeAt_insert (h : Cleared l L R a b) (hab : a ≤ b) (t : T) :
    Extents.typeAt (L ++ ⟨a, b - a, t⟩ :: R) x =
      if a ≤ x ∧ x < b then some t else Extents.typeAt l x := by
  have hclear : Extents.typeAt (L ++ R) x = _ := h.typeAt hab
  rw [typeAt_append] at hclear
  have hhas : (⟨a, b - a, t⟩ : Extent T).Has x ↔ a ≤ x ∧ x < b := by
    simp only [Extent.Has, Extent.stop]
    omega
  rw [typeAt_append, typeAt_cons]
  simp only [hhas]
  split_ifs at hclear ⊢ with hx
  · rw [typeAt_before fun e he => (h.before e he).trans hx.1, Option.none_or]
  · exact hclear

end Cleared

end KvmOsx.Extents
