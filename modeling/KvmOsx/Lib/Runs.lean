import KvmOsx.Lib.Text

/-!
# Runs of a partial step function

`run step acts s` performs the actions `acts` one after the other; a step that
is `none` ends the whole run.

* `run_append`, `run_snoc`, `run_split`: runs compose, and can be cut at any point.
* `run_induction`: a property of (actions so far, state) that holds at the start
  and is kept by every step holds at the end; `run_invariant` for a property of states.
* `Happened`, `run_flag`: a flag that some actions set and none resets tells whether
  one of them was performed.
* `Always`, `EachStep`, `always_iff_eachStep`: a property that a step keeps under exactly
  one condition holds throughout a run exactly if every step meets that condition;
  `eachStep_iff_forall` for a condition on the action alone.
-/

namespace KvmOsx.Runs

variable {σ α : Type*} {step : σ → α → Option σ}

/-- Perform a list of actions. -/
def run (step : σ → α → Option σ) : List α → σ → Option σ
  | [], s => some s
  | a :: acts, s => (step s a).bind (run step acts)

@[simp] theorem run_nil (s : σ) : run step [] s = some s := rfl

theorem run_cons (a : α) (acts : List α) (s : σ) :
    run step (a :: acts) s = (step s a).bind (run step acts) := rfl

theorem run_append (acts acts' : List α) (s : σ) :
    run step (acts ++ acts') s = (run step acts s).bind (run step acts') := by
  induction acts generalizing s with
  | nil => rfl
  | cons a acts ih =>
    rw [List.cons_append, run_cons, run_cons]
    cases step s a with
    | none => rfl
    | some s' => exact ih s'

theorem run_snoc (acts : List α) (a : α) (s : σ) :
    run step (acts ++ [a]) s = (run step acts s).bind fun t => step t a := by
  rw [run_append]
  congr 1
  funext t
  rw [run_cons]
  cases step t a <;> rfl

/-- A run can be cut between any two actions. -/
theorem run_split {acts acts' : List α} {s t : σ} (h : run step (acts ++ acts') s = some t) :
    ∃ m, run step acts s = some m ∧ run step acts' m = some t := by
  rw [run_append] at h
  exact Option.bind_eq_some_iff.mp h

/-- The induction principle of runs. -/
theorem run_induction {P : List α → σ → Prop} {s : σ} (init : P [] s)
    (keep : ∀ acts a t t', run step acts s = some t → P acts t → step t a = some t' →
      P (acts ++ [a]) t')
    {acts : List α} {t : σ} (h : run step acts s = some t) : P acts t := by
  induction acts using List.reverseRecOn generalizing t with
  | nil =>
    obtain rfl := Option.some.inj h
    exact init
  | append_singleton acts a ih =>
    rw [run_snoc] at h
    obtain ⟨m, hm, ha⟩ := Option.bind_eq_some_iff.mp h
    exact keep acts a m t hm (ih hm) ha

/-- A run whose actions can be performed in every state goes through. -/
theorem run_isSome {acts : List α} (h : ∀ a ∈ acts, ∀ s, ∃ s', step s a = some s') (s : σ) :
    ∃ t, run step acts s = some t := by
  induction acts generalizing s with
  | nil => exact ⟨s, rfl⟩
  | cons a acts ih =>
    obtain ⟨s', hs'⟩ := h a List.mem_cons_self s
    obtain ⟨t, ht⟩ := ih (fun b hb => h b (List.mem_cons_of_mem a hb)) s'
    exact ⟨t, by rw [run_cons, hs']; exact ht⟩

/-- A property of states that every step keeps. -/
theorem run_invariant {P : σ → Prop} {s t : σ} {acts : List α} (init : P s)
    (keep : ∀ s a s', P s → step s a = some s' → P s') (h : run step acts s = some t) : P t :=
  run_induction (P := fun _ t => P t) init (fun _ a t t' _ ht hstep => keep t a t' ht hstep) h

/-- In the run of `acts` from `s`, an action was performed in a state where `Q` holds of them. -/
def Happened (step : σ → α → Option σ) (Q : σ → α → Prop) (acts : List α) (s : σ) : Prop :=
  ∃ before a after t, acts = before ++ a :: after ∧ run step before s = some t ∧ Q t a

theorem happened_nil {Q : σ → α → Prop} {s : σ} : ¬ Happened step Q [] s := by
  rintro ⟨before, a, after, -, heq, -⟩
  simp at heq

theorem happened_snoc {Q : σ → α → Prop} {acts : List α} {s t : σ} (h : run step acts s = some t)
    (a : α) : Happened step Q (acts ++ [a]) s ↔ Happened step Q acts s ∨ Q t a := by
  constructor
  · rintro ⟨before, b, after, m, heq, hm, hQ⟩
    rcases List.eq_nil_or_concat after with rfl | ⟨after, c, rfl⟩
    · obtain ⟨rfl, hab⟩ := List.append_inj' heq rfl
      obtain rfl := (List.singleton_inj.mp hab)
      obtain rfl := Option.some.inj (h.symm.trans hm)
      exact Or.inr hQ
    · have heq' : acts ++ [a] = (before ++ b :: after) ++ [c] := by simpa using heq
      obtain ⟨rfl, -⟩ := List.append_inj' heq' rfl
      exact Or.inl ⟨before, b, after, m, rfl, hm, hQ⟩
  · rintro (⟨before, b, after, m, rfl, hm, hQ⟩ | hQ)
    · exact ⟨before, b, after ++ [a], m, by simp, hm, hQ⟩
    · exact ⟨acts, a, [], t, rfl, h, hQ⟩

/-- A flag that is down at the start and set by exactly the actions with `Q`. -/
theorem run_flag {F : σ → Prop} {Q : σ → α → Prop} {s t : σ} {acts : List α} (init : ¬ F s)
    (set : ∀ s a s', step s a = some s' → (F s' ↔ F s ∨ Q s a))
    (h : run step acts s = some t) : F t ↔ Happened step Q acts s := by
  refine run_induction (P := fun acts t => F t ↔ Happened step Q acts s)
    (iff_of_false init happened_nil) ?_ h
  intro acts a t t' hrun hflag hstep
  rw [set t a t' hstep, happened_snoc hrun, hflag]

/-- `P` holds in every state the run of `acts` from `s` reaches. -/
def Always (step : σ → α → Option σ) (P : σ → Prop) (acts : List α) (s : σ) : Prop :=
  ∀ before after t, acts = before ++ after → run step before s = some t → P t

/-- Every action of the run is performed in a state where `H` holds of them. -/
def EachStep (step : σ → α → Option σ) (H : σ → α → Prop) (acts : List α) (s : σ) : Prop :=
  ∀ before a after t, acts = before ++ a :: after → run step before s = some t → H t a

theorem eachStep_nil {H : σ → α → Prop} (s : σ) : EachStep step H [] s := by
  rintro before a after t h
  simp at h

theorem eachStep_cons {H : σ → α → Prop} {a : α} {acts : List α} {s s' : σ}
    (h : step s a = some s') :
    EachStep step H (a :: acts) s ↔ H s a ∧ EachStep step H acts s' := by
  constructor
  · intro hH
    refine ⟨hH [] a acts s rfl rfl, ?_⟩
    rintro before b after t rfl ht
    refine hH (a :: before) b after t rfl ?_
    rw [run_cons, h]
    exact ht
  · rintro ⟨ha, hacts⟩ before b after t heq ht
    cases before with
    | nil =>
      obtain ⟨rfl, -⟩ := List.cons.inj heq
      obtain rfl := Option.some.inj ht
      exact ha
    | cons c before =>
      obtain ⟨rfl, rfl⟩ := List.cons.inj heq
      rw [run_cons, h] at ht
      exact hacts before b after t rfl ht

/-- Two properties that agree wherever an invariant holds. -/
theorem always_congr {I P Q : σ → Prop} {s : σ} {acts : List α} (init : I s)
    (keep : ∀ s a s', I s → step s a = some s' → I s') (hPQ : ∀ t, I t → (P t ↔ Q t)) :
    Always step P acts s ↔ Always step Q acts s := by
  constructor
  · intro hP before after t hacts ht
    exact (hPQ t (run_invariant init keep ht)).mp (hP before after t hacts ht)
  · intro hQ before after t hacts ht
    exact (hPQ t (run_invariant init keep ht)).mpr (hQ before after t hacts ht)

theorem eachStep_iff_forall {H : α → Prop} {acts : List α} {s t : σ}
    (hrun : run step acts s = some t) :
    EachStep step (fun _ a => H a) acts s ↔ ∀ a ∈ acts, H a := by
  constructor
  · intro hH a ha
    obtain ⟨before, after, rfl⟩ := List.append_of_mem ha
    obtain ⟨m, hm, -⟩ := run_split hrun
    exact hH before a after m rfl hm
  · rintro hH before a after m rfl -
    exact hH a (by simp)

/-- The steps of the first part of a run. -/
theorem eachStep_left {H : σ → α → Prop} {acts acts' : List α} {s : σ}
    (h : EachStep step H (acts ++ acts') s) : EachStep step H acts s := by
  rintro before a after t rfl ht
  exact h before a (after ++ acts') t (by simp) ht

theorem eachStep_snoc {H : σ → α → Prop} {acts : List α} {s t : σ}
    (hrun : run step acts s = some t) (a : α) :
    EachStep step H (acts ++ [a]) s ↔ EachStep step H acts s ∧ H t a := by
  constructor
  · intro h
    exact ⟨eachStep_left h, h acts a [] t rfl hrun⟩
  · rintro ⟨hacts, ha⟩ before b after m heq hm
    rcases List.eq_nil_or_concat after with rfl | ⟨after, c, rfl⟩
    · obtain ⟨rfl, hab⟩ := List.append_inj' heq rfl
      obtain rfl := List.singleton_inj.mp hab
      obtain rfl := Option.some.inj (hrun.symm.trans hm)
      exact ha
    · have heq' : acts ++ [a] = (before ++ b :: after) ++ [c] := by simpa using heq
      obtain ⟨rfl, -⟩ := List.append_inj' heq' rfl
      exact hacts before b after m rfl hm

/-- A property that the steps of the run keep, each performed where `H` holds. -/
theorem run_invariant_of {P : σ → Prop} {H : σ → α → Prop} {acts : List α} {s t : σ} (init : P s)
    (keep : ∀ s a s', P s → H s a → step s a = some s' → P s')
    (hH : EachStep step H acts s) (h : run step acts s = some t) : P t := by
  refine run_induction (P := fun acts t => EachStep step H acts s → P t) (fun _ => init) ?_ h hH
  intro acts a t t' hrun ih hstep hsnoc
  obtain ⟨hacts, ha⟩ := (eachStep_snoc hrun a).mp hsnoc
  exact keep t a t' (ih hacts) ha hstep

theorem always_iff_eachStep {P : σ → Prop} {H : σ → α → Prop} {s t : σ} {acts : List α}
    (hstep : ∀ s a s', P s → step s a = some s' → (P s' ↔ H s a)) (h₀ : P s)
    (hrun : run step acts s = some t) : Always step P acts s ↔ EachStep step H acts s := by
  constructor
  · rintro hP before a after m rfl hm
    have hsplit : before ++ a :: after = (before ++ [a]) ++ after := by simp
    rw [hsplit] at hrun hP
    obtain ⟨m', hm', -⟩ := run_split hrun
    have hsnoc := hm'
    rw [run_snoc, hm] at hsnoc
    have hPm : P m := hP before ([a] ++ after) m (by simp) hm
    exact (hstep m a m' hPm hsnoc).mp (hP (before ++ [a]) after m' rfl hm')
  · rintro hH before after m rfl hm
    exact run_invariant_of h₀ (fun s a s' hs ha hstep' => (hstep s a s' hs hstep').mpr ha)
      (eachStep_left hH) hm

end KvmOsx.Runs
