import Mathlib

/-!
# Images over images

An image holds some sectors, and reads the others from its backing image.

* `Image`, `Chain`: an image, and the images it reads from, itself first.
* `view`, `Shows`: what a list of images shows, and an image through its chain.
* `Shows.of_same`: an image shows the same if its chain has not changed.
* `Shows.of_kept`: and also if another image in the chain still shows the same.
* `not_shows_of_missing`: it shows nothing if one of the chain is gone.
-/

namespace KvmOsx.Overlay

variable {P β : Type*}

/-- The sectors an image holds, and its backing image. -/
structure Image (P β : Type*) where
  data : ℕ → Option β
  backing : Option P

/-- The images by their paths. -/
abbrev Images (P β : Type*) := P → Option (Image P β)

/-- The images that are read for one, itself first. -/
inductive Chain (fs : Images P β) : P → List P → Prop
  | base {p : P} {i : Image P β} (h : fs p = some i) (hb : i.backing = none) : Chain fs p [p]
  | atop {p b : P} {i : Image P β} {l : List P} (h : fs p = some i) (hb : i.backing = some b)
      (rest : Chain fs b l) : Chain fs p (p :: l)

/-- What a list of images shows in a sector; `zero` where none of them holds it. -/
def view (zero : β) (fs : Images P β) : List P → ℕ → β
  | [], _ => zero
  | p :: l, s => ((fs p).bind fun i => i.data s).getD (view zero fs l s)

/-- The content of an image, if its chain is complete. -/
def Shows (zero : β) (fs : Images P β) (p : P) (c : ℕ → β) : Prop :=
  ∃ l, Chain fs p l ∧ view zero fs l = c

section

variable {fs fs' : Images P β} {zero : β} {p q : P} {l : List P}

/-! ## Chains -/

theorem Chain.unique {l' : List P} (h : Chain fs p l) (h' : Chain fs p l') : l = l' := by
  induction h generalizing l' with
  | base h hb =>
    cases h' with
    | base _ _ => rfl
    | atop h₁ hb₁ _ =>
      obtain rfl := Option.some.inj (h.symm.trans h₁)
      rw [hb] at hb₁
      cases hb₁
  | atop h hb _ ih =>
    cases h' with
    | base h₁ hb₁ =>
      obtain rfl := Option.some.inj (h.symm.trans h₁)
      rw [hb] at hb₁
      cases hb₁
    | atop h₁ hb₁ rest₁ =>
      obtain rfl := Option.some.inj (h.symm.trans h₁)
      obtain rfl := Option.some.inj (hb.symm.trans hb₁)
      rw [ih rest₁]

theorem Chain.self_mem (h : Chain fs p l) : p ∈ l := by
  cases h <;> exact List.mem_cons_self

/-- The chain of an image further down is an end of the chain. -/
theorem Chain.of_mem (h : Chain fs p l) (hq : q ∈ l) : ∃ m, Chain fs q m ∧ m <:+ l := by
  induction h with
  | base h hb =>
    rw [List.mem_singleton.mp hq]
    exact ⟨_, .base h hb, List.suffix_rfl⟩
  | atop h hb rest ih =>
    rcases List.mem_cons.mp hq with rfl | hq
    · exact ⟨_, .atop h hb rest, List.suffix_rfl⟩
    · obtain ⟨m, hm, hsuffix⟩ := ih hq
      exact ⟨m, hm, hsuffix.trans (List.suffix_cons _ _)⟩

/-- An image does not read from itself. -/
theorem Chain.not_mem_tail (h : Chain fs p (p :: l)) : p ∉ l := by
  intro hp
  cases h with
  | base h hb => cases hp
  | atop h hb rest =>
    obtain ⟨m, hm, hsuffix⟩ := rest.of_mem hp
    have hlen := hsuffix.length_le
    rw [hm.unique (.atop h hb rest), List.length_cons] at hlen
    omega

/-- The backing image of an image whose chain is complete. -/
theorem Chain.backing {i : Image P β} {b : P} (h : Chain fs p l) (hi : fs p = some i)
    (hb : i.backing = some b) : ∃ m, l = p :: m ∧ Chain fs b m := by
  cases h with
  | base h hb' =>
    obtain rfl := Option.some.inj (h.symm.trans hi)
    rw [hb] at hb'
    cases hb'
  | atop h hb' rest =>
    obtain rfl := Option.some.inj (h.symm.trans hi)
    obtain rfl := Option.some.inj (hb.symm.trans hb')
    exact ⟨_, rfl, rest⟩

/-! ## Contents -/

/-- What happens to the other images of a chain when the content of one image `q` is kept. -/
theorem Shows.of_kept (hq : ∀ c, Shows zero fs q c → Shows zero fs' q c) (h : Chain fs p l)
    (hsame : ∀ r ∈ l, r ≠ q → fs' r = fs r) : Shows zero fs' p (view zero fs l) := by
  induction h with
  | @base p i h hb =>
    by_cases hpq : p = q
    · subst hpq
      exact hq _ ⟨_, .base h hb, rfl⟩
    · have hp := hsame p (List.mem_singleton_self p) hpq
      refine ⟨[p], .base (hp.trans h) hb, ?_⟩
      funext s
      rw [view, view, hp]
      rfl
  | @atop p b i l h hb rest ih =>
    by_cases hpq : p = q
    · subst hpq
      exact hq _ ⟨_, .atop h hb rest, rfl⟩
    · have hp := hsame p List.mem_cons_self hpq
      obtain ⟨m, hm, hview⟩ := ih fun r hr => hsame r (List.mem_cons_of_mem p hr)
      refine ⟨p :: m, .atop (hp.trans h) hb hm, ?_⟩
      funext s
      rw [view, view, hp, hview]

/-- An image shows the same as before if no image of its chain has changed. -/
theorem Shows.of_same (h : Chain fs p l) (hsame : ∀ r ∈ l, fs' r = fs r) :
    Shows zero fs' p (view zero fs l) := by
  induction h with
  | @base p i h hb =>
    have hp := hsame p (List.mem_singleton_self p)
    refine ⟨[p], .base (hp.trans h) hb, ?_⟩
    funext s
    rw [view, view, hp]
    rfl
  | @atop p b i l h hb rest ih =>
    have hp := hsame p List.mem_cons_self
    obtain ⟨m, hm, hview⟩ := ih fun r hr => hsame r (List.mem_cons_of_mem p hr)
    refine ⟨p :: m, .atop (hp.trans h) hb hm, ?_⟩
    funext s
    rw [view, view, hp, hview]

/-- An image shows nothing when an image of its chain is missing. -/
theorem not_shows_of_missing (h : Chain fs p l) (hq : q ∈ l) (hmissing : fs' q = none)
    (hsame : ∀ r, r ≠ q → fs' r = fs r) (c : ℕ → β) : ¬ Shows zero fs' p c := by
  rintro ⟨m, hm, -⟩
  clear c
  induction h generalizing m with
  | @base p i h hb =>
    rw [← List.mem_singleton.mp hq] at hm
    cases hm with
    | base h₁ _ =>
      rw [hmissing] at h₁
      cases h₁
    | atop h₁ _ _ =>
      rw [hmissing] at h₁
      cases h₁
  | @atop p b i l h hb rest ih =>
    by_cases hpq : p = q
    · subst hpq
      cases hm with
      | base h₁ _ =>
        rw [hmissing] at h₁
        cases h₁
      | atop h₁ _ _ =>
        rw [hmissing] at h₁
        cases h₁
    · have hmem : q ∈ l := by
        rcases List.mem_cons.mp hq with heq | hmem
        · exact absurd heq.symm hpq
        · exact hmem
      obtain ⟨m', -, hm'⟩ := hm.backing ((hsame p hpq).trans h) hb
      exact ih hmem m' hm'

end

end KvmOsx.Overlay
