import Mathlib

/-!
# Loops that source files into one shell

The body of a loop over items prints lines and leaves the variables of the shell behind
for the next item. A sourced file is a list of assignments.

* `assigned`, `source`: the last value a file gives a variable, and what sourcing it does.
* `loop`, `linesFor`: the run of a loop, and the lines it prints for one item.
* `NoLeak`: these lines do not depend on the other items.
* `noLeak_iff`: if some item can leave any values in the variables the body looks at, this
  is so exactly if the body prints the same lines from every state of the variables.
-/

namespace KvmOsx.Sourcing

/-! ## Assignments -/

/-- The values of shell variables; one that is not set counts as empty. -/
abbrev Vars := String → String

/-- The assignments of a file, in order. -/
abbrev Assigns := List (String × String)

/-- `source FILE`. -/
def source (as : Assigns) (v : Vars) : Vars := as.foldl (fun v a => Function.update v a.1 a.2) v

/-- The last value that is assigned to a variable. -/
def assigned (as : Assigns) (x : String) : Option String :=
  as.foldl (fun o a => if a.1 = x then some a.2 else o) none

@[simp] theorem source_nil (v : Vars) : source [] v = v := rfl

@[simp] theorem assigned_nil (x : String) : assigned [] x = none := rfl

theorem assigned_snoc (as : Assigns) (a : String × String) (x : String) :
    assigned (as ++ [a]) x = if a.1 = x then some a.2 else assigned as x := by
  simp [assigned]

theorem source_append (as as' : Assigns) (v : Vars) :
    source (as ++ as') v = source as' (source as v) := List.foldl_append

theorem assigned_append (as as' : Assigns) (x : String) :
    assigned (as ++ as') x = (assigned as' x).or (assigned as x) := by
  induction as' using List.reverseRecOn with
  | nil => simp
  | append_singleton as' a ih =>
    rw [← List.append_assoc, assigned_snoc, assigned_snoc, ih]
    split_ifs <;> rfl

/-- After sourcing, a variable has the value assigned last, or the one it had. -/
theorem source_apply (as : Assigns) (v : Vars) (x : String) :
    source as v x = (assigned as x).getD (v x) := by
  induction as using List.reverseRecOn with
  | nil => rfl
  | append_singleton as a ih =>
    rw [source_append, assigned_snoc]
    by_cases h : a.1 = x
    · simp [source, h]
    · have hne : x ≠ a.1 := fun heq => h heq.symm
      simpa [source, h, hne] using ih

/-- A variable that is assigned has a value of the files' own. -/
theorem source_of_isSome {as : Assigns} {x : String} (h : (assigned as x).isSome) (v w : Vars) :
    source as v x = source as w x := by
  obtain ⟨s, hs⟩ := Option.isSome_iff_exists.mp h
  rw [source_apply, source_apply, hs]
  rfl

theorem isSome_assigned_left {as : Assigns} {x : String} (as' : Assigns)
    (h : (assigned as x).isSome) : (assigned (as ++ as') x).isSome := by
  rw [assigned_append]
  cases assigned as' x with
  | none => exact h
  | some s => rfl

/-- A variable that is not assigned passes through. -/
theorem source_update {as : Assigns} {x : String} (h : assigned as x = none) (v : Vars) (s : String) :
    source as (Function.update v x s) = Function.update (source as v) x s := by
  funext y
  rw [source_apply]
  by_cases hy : y = x
  · rw [hy, h, Function.update_self, Function.update_self, Option.getD_none]
  · rw [Function.update_of_ne hy, Function.update_of_ne hy, source_apply]

/-- A variable that shows in `f` is assigned by the files if its earlier value does not
    show in `f` after they are sourced. -/
theorem isSome_of_same {β : Type*} {f : Vars → β} {as : Assigns} {x s t : String} {v : Vars}
    (hshow : f (Function.update (source as v) x s) ≠ f (Function.update (source as v) x t))
    (hsame : f (source as (Function.update v x s)) = f (source as (Function.update v x t))) :
    (assigned as x).isSome = true := by
  by_contra hnone
  have hx : assigned as x = none := Option.not_isSome_iff_eq_none.mp hnone
  rw [source_update hx, source_update hx] at hsame
  exact hshow hsame

/-- Assignments that give some variables chosen values. -/
theorem assigned_map (v : Vars) (xs : List String) (x : String) :
    assigned (xs.map fun y => (y, v y)) x = if x ∈ xs then some (v x) else none := by
  induction xs using List.reverseRecOn with
  | nil => rfl
  | append_singleton xs y ih =>
    rw [List.map_append, List.map_singleton, assigned_snoc, ih]
    by_cases h : y = x
    · simp [h]
    · have hne : x ≠ y := fun heq => h heq.symm
      simp [h, hne]

/-! ## Loops -/

variable {M L : Type*}

/-- The lines of a loop, and the variables it leaves. -/
def loop (body : M → Vars → List L × Vars) : List M → Vars → List L × Vars
  | [], v => ([], v)
  | m :: ms, v => ((body m v).1 ++ (loop body ms (body m v).2).1, (loop body ms (body m v).2).2)

/-- The lines for an item, after those in front of it. -/
def linesFor (body : M → Vars → List L × Vars) (v : Vars) (before : List M) (m : M) : List L :=
  (body m (loop body before v).2).1

section Loop

variable {body : M → Vars → List L × Vars} {v : Vars}

/-- The lines for `m` are the same in all runs of the loop whose items have different names. -/
def NoLeak (name : M → String) (body : M → Vars → List L × Vars) (v : Vars) (m : M) : Prop :=
  ∀ before after before' after', ((before ++ m :: after).map name).Nodup →
    ((before' ++ m :: after').map name).Nodup → linesFor body v before m = linesFor body v before' m

/-- The body looks only at these variables. -/
def ReadsOnly (body : M → Vars → List L × Vars) (m : M) (xs : List String) : Prop :=
  ∀ v w : Vars, (∀ x ∈ xs, v x = w x) → (body m v).1 = (body m w).1

theorem noLeak_iff (name : M → String) {m : M} {xs : List String} (hreads : ReadsOnly body m xs)
    (hany : ∀ w : Vars, ∃ m', name m' ≠ name m ∧ ∀ x ∈ xs, (body m' v).2 x = w x) :
    NoLeak name body v m ↔ ∃ ls, ∀ w, (body m w).1 = ls := by
  constructor
  · intro h
    refine ⟨(body m v).1, fun w => ?_⟩
    obtain ⟨m', hname, hw⟩ := hany w
    have hlines := h [m'] [] [] [] (by simpa using hname) (by simp)
    calc (body m w).1 = (body m (body m' v).2).1 := hreads _ _ fun x hx => (hw x hx).symm
      _ = (body m v).1 := hlines
  · rintro ⟨ls, hls⟩ before after before' after' - -
    rw [linesFor, linesFor, hls, hls]

end Loop

end KvmOsx.Sourcing
