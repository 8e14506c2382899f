import KvmOsx.Lib.Text

/-!
# Properties of an element and those before it

`EachAfter P` says that every element of a list has property `P` with respect to
the elements before it. A list of declarations is scoped when everything an
element uses is defined by an element before it (or by `seen`).

* `eachAfter_append`, `eachAfter_iff`: concatenations, and splits of the list.
* `scoped_append`: scoping of a concatenation, `Scoped.mono`: more is defined.
* `Scoped.before`: what `Scoped` says about a split of the list.
-/

namespace KvmOsx.Scope

section Each

variable {α : Type*} {P : List α → α → Prop}

/-- `P` of every element and of `pre` with the elements before it. -/
def EachAfter (P : List α → α → Prop) : List α → List α → Prop
  | _, [] => True
  | pre, x :: xs => P pre x ∧ EachAfter P (pre ++ [x]) xs

instance decidableEachAfter [∀ pre x, Decidable (P pre x)] :
    ∀ pre xs, Decidable (EachAfter P pre xs)
  | _, [] => .isTrue trivial
  | pre, x :: xs =>
    have := decidableEachAfter (pre ++ [x]) xs
    inferInstanceAs (Decidable (P pre x ∧ EachAfter P (pre ++ [x]) xs))

theorem eachAfter_append {pre xs ys : List α} :
    EachAfter P pre (xs ++ ys) ↔ EachAfter P pre xs ∧ EachAfter P (pre ++ xs) ys := by
  induction xs generalizing pre with
  | nil => simp [EachAfter]
  | cons x xs ih =>
    simp only [List.cons_append, EachAfter, ih, and_assoc, List.append_assoc, List.nil_append]

theorem eachAfter_iff {xs : List α} :
    EachAfter P [] xs ↔ ∀ pre x post, xs = pre ++ x :: post → P pre x := by
  constructor
  · rintro h pre x post rfl
    exact (eachAfter_append.mp h).2.1
  · intro h
    induction xs using List.reverseRecOn with
    | nil => trivial
    | append_singleton xs x ih =>
      refine eachAfter_append.mpr ⟨ih fun pre y post hs => ?_, h xs x [] rfl, trivial⟩
      exact h pre y (post ++ [x]) (by rw [hs]; simp)

/-- A property of images is one of the list of images. -/
theorem eachAfter_map {β : Type*} {P : List β → β → Prop} (f : α → β) {pre xs : List α} :
    EachAfter (fun pre x => P (pre.map f) (f x)) pre xs ↔
      EachAfter P (pre.map f) (xs.map f) := by
  induction xs generalizing pre with
  | nil => exact Iff.rfl
  | cons x xs ih =>
    simp only [EachAfter, List.map_cons]
    rw [ih, List.map_append, List.map_singleton]

end Each

variable {α β : Type*} (defs uses : α → List β)

/-- Every use is of something in `seen` or defined before. -/
def Scoped : List β → List α → Prop
  | _, [] => True
  | seen, x :: xs => (∀ b ∈ uses x, b ∈ seen) ∧ Scoped (seen ++ defs x) xs

instance decidableScoped [DecidableEq β] :
    ∀ (seen : List β) (xs : List α), Decidable (Scoped defs uses seen xs)
  | _, [] => .isTrue trivial
  | seen, x :: xs =>
    have := decidableScoped (seen ++ defs x) xs
    inferInstanceAs (Decidable ((∀ b ∈ uses x, b ∈ seen) ∧ Scoped defs uses (seen ++ defs x) xs))

variable {defs uses}

@[simp] theorem scoped_nil (seen : List β) : Scoped defs uses seen [] := trivial

theorem scoped_cons {seen : List β} {x : α} {xs : List α} :
    Scoped defs uses seen (x :: xs) ↔
      (∀ b ∈ uses x, b ∈ seen) ∧ Scoped defs uses (seen ++ defs x) xs := Iff.rfl

theorem scoped_append {seen : List β} {xs ys : List α} :
    Scoped defs uses seen (xs ++ ys) ↔
      Scoped defs uses seen xs ∧ Scoped defs uses (seen ++ xs.flatMap defs) ys := by
  induction xs generalizing seen with
  | nil => simp
  | cons x xs ih =>
    rw [List.cons_append, scoped_cons, scoped_cons, ih, and_assoc, List.flatMap_cons,
      List.append_assoc]

theorem Scoped.mono {seen seen' : List β} {xs : List α} (hs : seen ⊆ seen')
    (h : Scoped defs uses seen xs) : Scoped defs uses seen' xs := by
  induction xs generalizing seen seen' with
  | nil => trivial
  | cons x xs ih =>
    exact ⟨fun b hb => hs (h.1 b hb), ih (List.append_subset.mpr
      ⟨List.subset_append_of_subset_left _ hs, List.subset_append_right _ _⟩) h.2⟩

/-- Elements without uses are scoped. -/
theorem scoped_of_no_uses {seen : List β} {xs : List α} (h : ∀ x ∈ xs, uses x = []) :
    Scoped defs uses seen xs := by
  induction xs generalizing seen with
  | nil => trivial
  | cons x xs ih =>
    exact ⟨by simp [h x], ih fun y hy => h y (List.mem_cons_of_mem x hy)⟩

/-- Elements that use only what `seen` has are scoped. -/
theorem scoped_of_uses_subset {seen : List β} {xs : List α}
    (h : ∀ x ∈ xs, ∀ b ∈ uses x, b ∈ seen) : Scoped defs uses seen xs := by
  induction xs generalizing seen with
  | nil => trivial
  | cons x xs ih =>
    refine ⟨h x List.mem_cons_self, ih fun y hy b hb => ?_⟩
    exact List.mem_append_left _ (h y (List.mem_cons_of_mem x hy) b hb)

/-- In a scoped list the uses of each element are defined before it. -/
theorem Scoped.before {pre post : List α} {x : α} (h : Scoped defs uses [] (pre ++ x :: post)) :
    ∀ b ∈ uses x, b ∈ pre.flatMap defs := by
  rw [scoped_append, scoped_cons] at h
  exact h.2.1

end KvmOsx.Scope
