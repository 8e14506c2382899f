import Mathlib

/-!
# Names that are used and names that are supplied

Something that is put together step by step uses names and has suppliers, each of which
provides some names. A supplier may come after the use.

* `Ledger`: the names used and the suppliers so far; `Closed`: every name is provided.
* `Accounts`: what a step adds, up to names that are provided either way.
* `Accounts.trans`: steps add up.
* `Accounts.closed_iff`: whether all names are provided can be read off what the steps add.
-/

namespace KvmOsx.References

variable {N D : Type*}

/-- The names used, and the suppliers. -/
structure Ledger (N D : Type*) where
  uses : List N
  defs : List D

instance : Append (Ledger N D) where
  append l m := ⟨l.uses ++ m.uses, l.defs ++ m.defs⟩

/-- Nothing is used or supplied. -/
def Ledger.empty : Ledger N D := ⟨[], []⟩

@[simp] theorem Ledger.uses_append (l m : Ledger N D) : (l ++ m).uses = l.uses ++ m.uses := rfl

@[simp] theorem Ledger.defs_append (l m : Ledger N D) : (l ++ m).defs = l.defs ++ m.defs := rfl

@[simp] theorem Ledger.uses_empty : (Ledger.empty : Ledger N D).uses = [] := rfl

@[simp] theorem Ledger.defs_empty : (Ledger.empty : Ledger N D).defs = [] := rfl

/-! ## Provided names -/

section Provided

variable (provides : D → N → Prop)

/-- One of the suppliers provides the name. -/
def Resolved (ds : List D) (b : N) : Prop := ∃ d ∈ ds, provides d b

/-- The suppliers provide all of the names. -/
def Supplied (ds : List D) (bs : List N) : Prop := ∀ b ∈ bs, Resolved provides ds b

/-- Every name that is used is provided. -/
def Closed (l : Ledger N D) : Prop := Supplied provides l.defs l.uses

end Provided

variable {provides : D → N → Prop} {ds ds' : List D} {b : N} {bs bs' : List N}

theorem Resolved.mono (h : Resolved provides ds b) (hsub : ∀ d ∈ ds, d ∈ ds') :
    Resolved provides ds' b := by
  obtain ⟨d, hd, hb⟩ := h
  exact ⟨d, hsub d hd, hb⟩

theorem resolved_append :
    Resolved provides (ds ++ ds') b ↔ Resolved provides ds b ∨ Resolved provides ds' b := by
  simp only [Resolved, List.mem_append, or_and_right, exists_or]

@[simp] theorem supplied_nil : Supplied provides ds [] := by simp [Supplied]

@[simp] theorem supplied_cons :
    Supplied provides ds (b :: bs) ↔ Resolved provides ds b ∧ Supplied provides ds bs :=
  List.forall_mem_cons

@[simp] theorem supplied_append :
    Supplied provides ds (bs ++ bs') ↔ Supplied provides ds bs ∧ Supplied provides ds bs' :=
  List.forall_mem_append

/-- Only which names there are matters. -/
theorem supplied_congr (h : ∀ b, b ∈ bs ↔ b ∈ bs') :
    Supplied provides ds bs ↔ Supplied provides ds bs' := by
  simp only [Supplied, h]

theorem Supplied.mono (h : Supplied provides ds bs) (hsub : ∀ d ∈ ds, d ∈ ds') :
    Supplied provides ds' bs := fun b hb => (h b hb).mono hsub

/-! ## What a step adds -/

variable {fits : List D → Prop} {l l' l₁ l₂ l₃ m m' : Ledger N D}

/-- The step from `l` to `l'` adds `m`: the suppliers are those of both, and any suppliers
    that include them and fit provide for `l'` exactly if they provide for both. -/
structure Accounts (provides : D → N → Prop) (fits : List D → Prop) (l l' m : Ledger N D) :
    Prop where
  defs : ∀ d, d ∈ l'.defs ↔ d ∈ l.defs ∨ d ∈ m.defs
  uses : ∀ ds, fits ds → (∀ d ∈ l'.defs, d ∈ ds) →
    (Supplied provides ds l'.uses ↔ Supplied provides ds l.uses ∧ Supplied provides ds m.uses)

theorem Accounts.refl (l : Ledger N D) : Accounts provides fits l l Ledger.empty where
  defs := by simp
  uses := by simp

/-- A step that adds names and suppliers. -/
theorem Accounts.of_mem (hdefs : ∀ d, d ∈ l'.defs ↔ d ∈ l.defs ∨ d ∈ m.defs)
    (huses : ∀ b, b ∈ l'.uses ↔ b ∈ l.uses ∨ b ∈ m.uses) : Accounts provides fits l l' m where
  defs := hdefs
  uses := fun ds _ _ => by
    rw [← supplied_append]
    exact supplied_congr fun b => (huses b).trans List.mem_append.symm

/-- The names a step adds may be exchanged for others with the same fate. -/
theorem Accounts.congr (h : Accounts provides fits l l' m)
    (hdefs : ∀ d, d ∈ m.defs ↔ d ∈ m'.defs)
    (huses : ∀ ds, fits ds → (∀ d ∈ m.defs, d ∈ ds) →
      (Supplied provides ds m.uses ↔ Supplied provides ds m'.uses)) :
    Accounts provides fits l l' m' where
  defs := by simpa only [hdefs] using h.defs
  uses := fun ds hfit hds => by
    rw [h.uses ds hfit hds, huses ds hfit fun d hd => hds d ((h.defs d).mpr (Or.inr hd))]

/-- Two steps add up. -/
theorem Accounts.trans (h : Accounts provides fits l₁ l₂ m) (h' : Accounts provides fits l₂ l₃ m') :
    Accounts provides fits l₁ l₃ (m ++ m') where
  defs := by
    intro d
    rw [h'.defs, h.defs, Ledger.defs_append, List.mem_append, or_assoc]
  uses := by
    intro ds hfit hds
    have hds₂ : ∀ d ∈ l₂.defs, d ∈ ds := fun d hd => hds d ((h'.defs d).mpr (Or.inl hd))
    rw [h'.uses ds hfit hds, h.uses ds hfit hds₂, Ledger.uses_append, supplied_append, and_assoc]

/-- What is built from suppliers alone is closed exactly if they and what is added are. -/
theorem Accounts.closed_iff (h : Accounts provides fits l l' m) (hl : l.uses = [])
    (hfit : fits l'.defs) : Closed provides l' ↔ Closed provides (l ++ m) := by
  have hmem : ∀ d, d ∈ l'.defs ↔ d ∈ (l ++ m).defs := by
    intro d
    rw [h.defs, Ledger.defs_append, List.mem_append]
  have huses := h.uses l'.defs hfit fun _ hd => hd
  rw [Closed, huses, hl, Closed, Ledger.uses_append, hl, List.nil_append]
  constructor
  · intro hm
    exact hm.2.mono fun d => (hmem d).mp
  · intro hm
    exact ⟨supplied_nil, hm.mono fun d => (hmem d).mpr⟩

end KvmOsx.References
