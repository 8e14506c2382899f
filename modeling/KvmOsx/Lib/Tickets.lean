import Mathlib

/-!
# Numbers drawn from a shared counter

Processes draw numbers: each reads the counter, uses the number, and writes the number's
successor back, in three separate steps.

* `Tickets.read`, `Tickets.use`, `Tickets.write`: the steps of one process.
* `Tickets.Used`, `Tickets.Held`: the number it has used, and has drawn; it keeps them.
* `Exclusive`: the invariant while no process reads during the work of another; under it
  numbers are used once (`Exclusive.used_inj`).
* `held_twice`: a process that does read during the work of another gets the same number.
-/

namespace KvmOsx.Counter

/-- Where a process is, and the number it drew. -/
inductive Stage
  | idle
  | drawn (n : ℕ)
  | used (n : ℕ)
  | done (n : ℕ)
  deriving DecidableEq, Repr

/-- The counter, and the processes. -/
structure Tickets (P : Type*) where
  counter : ℕ
  stage : P → Stage

variable {P : Type*} [DecidableEq P]

/-- Read the counter. -/
def Tickets.read (t : Tickets P) (p : P) : Option (Tickets P) :=
  if t.stage p = .idle then
    some { t with stage := Function.update t.stage p (.drawn t.counter) }
  else none

/-- The number a process is about to use. -/
def Tickets.toUse (t : Tickets P) (p : P) : Option ℕ :=
  match t.stage p with
  | .drawn n => some n
  | _ => none

/-- Use the number. -/
def Tickets.use (t : Tickets P) (p : P) : Option (Tickets P) :=
  match t.stage p with
  | .drawn n => some { t with stage := Function.update t.stage p (.used n) }
  | _ => none

/-- Write the next number. -/
def Tickets.write (t : Tickets P) (p : P) : Option (Tickets P) :=
  match t.stage p with
  | .used n => some { counter := n + 1, stage := Function.update t.stage p (.done n) }
  | _ => none

/-! ## The steps -/

section Steps

variable {t t' : Tickets P} {p : P}

theorem read_eq (h : t.read p = some t') :
    t.stage p = .idle ∧ t'.counter = t.counter ∧
      t'.stage = Function.update t.stage p (.drawn t.counter) := by
  unfold Tickets.read at h
  split_ifs at h with hidle
  obtain rfl := Option.some.inj h
  exact ⟨hidle, rfl, rfl⟩

theorem use_eq (h : t.use p = some t') :
    ∃ n, t.stage p = .drawn n ∧ t'.counter = t.counter ∧
      t'.stage = Function.update t.stage p (.used n) := by
  unfold Tickets.use at h
  cases hp : t.stage p with
  | drawn n =>
    rw [hp] at h
    obtain rfl := Option.some.inj h
    exact ⟨n, rfl, rfl, rfl⟩
  | idle | used _ | done _ => simp [hp] at h

theorem write_eq (h : t.write p = some t') :
    ∃ n, t.stage p = .used n ∧ t'.counter = n + 1 ∧
      t'.stage = Function.update t.stage p (.done n) := by
  unfold Tickets.write at h
  cases hp : t.stage p with
  | used n =>
    rw [hp] at h
    obtain rfl := Option.some.inj h
    exact ⟨n, rfl, rfl, rfl⟩
  | idle | drawn _ | done _ => simp [hp] at h

omit [DecidableEq P] in
theorem toUse_eq_some {n : ℕ} : t.toUse p = some n ↔ t.stage p = .drawn n := by
  unfold Tickets.toUse
  cases t.stage p <;> simp

end Steps

/-! ## What is to be said of a process -/

/-- Between its reading and its writing. -/
def Tickets.Busy (t : Tickets P) (p : P) : Prop :=
  ∃ n, t.stage p = .drawn n ∨ t.stage p = .used n

/-- It has used the number. -/
def Tickets.Used (t : Tickets P) (p : P) (n : ℕ) : Prop :=
  t.stage p = .used n ∨ t.stage p = .done n

/-- It has drawn the number. -/
def Tickets.Held (t : Tickets P) (p : P) (n : ℕ) : Prop := t.stage p = .drawn n ∨ t.Used p n

/-- No process is between its reading and its writing. -/
def Tickets.Finished (t : Tickets P) : Prop := ∀ p, ¬ t.Busy p

omit [DecidableEq P] in
theorem Tickets.Finished.used {t : Tickets P} (ht : t.Finished) {p : P} {n : ℕ} (h : t.Held p n) :
    t.Used p n := by
  rcases h with hp | hp
  · exact absurd ⟨n, Or.inl hp⟩ (ht p)
  · exact hp

section Held

variable {t t' : Tickets P} {p q : P} {n : ℕ}

/-- A number that was used stays so. -/
theorem used_read (h : t.read p = some t') (hq : t.Used q n) : t'.Used q n := by
  obtain ⟨hidle, -, hstage⟩ := read_eq h
  have hne : q ≠ p := by
    rintro rfl
    rcases hq with hq | hq <;> cases hidle.symm.trans hq
  unfold Tickets.Used
  rwa [hstage, Function.update_of_ne hne]

theorem used_use (h : t.use p = some t') (hq : t.Used q n) : t'.Used q n := by
  obtain ⟨m, hm, -, hstage⟩ := use_eq h
  have hne : q ≠ p := by
    rintro rfl
    rcases hq with hq | hq <;> cases hm.symm.trans hq
  unfold Tickets.Used
  rwa [hstage, Function.update_of_ne hne]

theorem used_write (h : t.write p = some t') (hq : t.Used q n) : t'.Used q n := by
  obtain ⟨m, hm, -, hstage⟩ := write_eq h
  unfold Tickets.Used
  rw [hstage]
  by_cases heq : q = p
  · subst heq
    have hmn : m = n := by
      rcases hq with hq | hq
      · exact Stage.used.inj (hm.symm.trans hq)
      · cases hm.symm.trans hq
    rw [Function.update_self, hmn]
    exact Or.inr rfl
  · rwa [Function.update_of_ne heq]

theorem used_toUse (hn : t.toUse p = some n) (h : t.use p = some t') : t'.Used p n := by
  obtain ⟨m, hm, -, hstage⟩ := use_eq h
  obtain rfl : m = n := Stage.drawn.inj (hm.symm.trans (toUse_eq_some.mp hn))
  refine Or.inl ?_
  rw [hstage, Function.update_self]

/-- A process keeps its number. -/
theorem held_read (h : t.read p = some t') (hq : t.Held q n) : t'.Held q n := by
  rcases hq with hq | hq
  · obtain ⟨hidle, -, hstage⟩ := read_eq h
    have hne : q ≠ p := by
      rintro rfl
      cases hidle.symm.trans hq
    refine Or.inl ?_
    rwa [hstage, Function.update_of_ne hne]
  · exact Or.inr (used_read h hq)

theorem held_use (h : t.use p = some t') (hq : t.Held q n) : t'.Held q n := by
  rcases hq with hq | hq
  · obtain ⟨m, hm, -, hstage⟩ := use_eq h
    by_cases heq : q = p
    · subst heq
      obtain rfl : m = n := Stage.drawn.inj (hm.symm.trans hq)
      refine Or.inr (Or.inl ?_)
      rw [hstage, Function.update_self]
    · refine Or.inl ?_
      rwa [hstage, Function.update_of_ne heq]
  · exact Or.inr (used_use h hq)

theorem held_write (h : t.write p = some t') (hq : t.Held q n) : t'.Held q n := by
  rcases hq with hq | hq
  · obtain ⟨m, hm, -, hstage⟩ := write_eq h
    have hne : q ≠ p := by
      rintro rfl
      cases hm.symm.trans hq
    refine Or.inl ?_
    rwa [hstage, Function.update_of_ne hne]
  · exact Or.inr (used_write h hq)

end Held

/-! ## One at a time -/

/-- At most one process is at work, with the number of the counter, and the numbers of
    those that are done are below it and differ. -/
structure Exclusive (t : Tickets P) : Prop where
  busy_counter : ∀ p n, t.stage p = .drawn n ∨ t.stage p = .used n → n = t.counter
  busy_unique : ∀ p q, t.Busy p → t.Busy q → p = q
  done_lt : ∀ p n, t.stage p = .done n → n < t.counter
  done_inj : ∀ p q n, t.stage p = .done n → t.stage q = .done n → p = q

omit [DecidableEq P] in
/-- No process has started. -/
theorem Exclusive.start (c : ℕ) : Exclusive (⟨c, fun _ => .idle⟩ : Tickets P) := by
  refine ⟨?_, ?_, ?_, ?_⟩
  · rintro p n (h | h) <;> cases h
  · rintro p q ⟨n, h | h⟩ <;> cases h
  · rintro p n h
    cases h
  · rintro p q n h
    cases h

section Exclusive

variable {t t' : Tickets P} {p : P}

omit [DecidableEq P] in
/-- Two processes that used one number are the same. -/
theorem Exclusive.used_inj (ht : Exclusive t) {q : P} {n : ℕ} (hp : t.Used p n)
    (hq : t.Used q n) : p = q := by
  rcases hp with hp | hp <;> rcases hq with hq | hq
  · exact ht.busy_unique p q ⟨n, Or.inr hp⟩ ⟨n, Or.inr hq⟩
  · have hcounter : n = t.counter := ht.busy_counter p n (Or.inr hp)
    have hlt := ht.done_lt q n hq
    omega
  · have hcounter : n = t.counter := ht.busy_counter q n (Or.inr hq)
    have hlt := ht.done_lt p n hp
    omega
  · exact ht.done_inj p q n hp hq

omit [DecidableEq P] in
/-- A number about to be used was not used yet. -/
theorem Exclusive.not_used (ht : Exclusive t) {q : P} {n : ℕ} (hp : t.stage p = .drawn n) :
    ¬ t.Used q n := by
  have hcounter : n = t.counter := ht.busy_counter p n (Or.inl hp)
  rintro (hq | hq)
  · obtain rfl : p = q := ht.busy_unique p q ⟨n, Or.inl hp⟩ ⟨n, Or.inr hq⟩
    cases hp.symm.trans hq
  · have hlt := ht.done_lt q n hq
    omega

theorem Exclusive.read (ht : Exclusive t) (hfree : t.Finished) (h : t.read p = some t') :
    Exclusive t' := by
  obtain ⟨hidle, hcounter, hstage⟩ := read_eq h
  have hother : ∀ q, q ≠ p → t'.stage q = t.stage q := by
    intro q hq
    rw [hstage, Function.update_of_ne hq]
  have hown : t'.stage p = .drawn t.counter := by rw [hstage, Function.update_self]
  -- the process that reads is the only one at work
  have hbusy : ∀ q, t'.Busy q → q = p := by
    rintro q ⟨n, hq⟩
    by_contra hne
    rw [hother q hne] at hq
    exact hfree q ⟨n, hq⟩
  have hdone : ∀ q n, t'.stage q = .done n → t.stage q = .done n := by
    intro q n hq
    have hne : q ≠ p := by
      rintro rfl
      cases hown.symm.trans hq
    rwa [hother q hne] at hq
  refine ⟨?_, ?_, ?_, ?_⟩
  · intro q n hq
    obtain rfl := hbusy q ⟨n, hq⟩
    rw [hcounter]
    rcases hq with hq | hq <;> rw [hown] at hq <;> cases hq
    rfl
  · intro q r hq hr
    rw [hbusy q hq, hbusy r hr]
  · intro q n hq
    rw [hcounter]
    exact ht.done_lt q n (hdone q n hq)
  · intro q r n hq hr
    exact ht.done_inj q r n (hdone q n hq) (hdone r n hr)

theorem Exclusive.use (ht : Exclusive t) (h : t.use p = some t') : Exclusive t' := by
  obtain ⟨m, hm, hcounter, hstage⟩ := use_eq h
  have hother : ∀ q, q ≠ p → t'.stage q = t.stage q := by
    intro q hq
    rw [hstage, Function.update_of_ne hq]
  have hown : t'.stage p = .used m := by rw [hstage, Function.update_self]
  -- who is at work was so before, with the same number
  have hback : ∀ q n, t'.stage q = .drawn n ∨ t'.stage q = .used n →
      t.stage q = .drawn n ∨ t.stage q = .used n := by
    intro q n hq
    by_cases heq : q = p
    · subst heq
      rcases hq with hq | hq
      · cases hown.symm.trans hq
      · obtain rfl : m = n := Stage.used.inj (hown.symm.trans hq)
        exact Or.inl hm
    · rwa [hother q heq] at hq
  have hdone : ∀ q n, t'.stage q = .done n → t.stage q = .done n := by
    intro q n hq
    have hne : q ≠ p := by
      rintro rfl
      cases hown.symm.trans hq
    rwa [hother q hne] at hq
  refine ⟨?_, ?_, ?_, ?_⟩
  · intro q n hq
    rw [hcounter]
    exact ht.busy_counter q n (hback q n hq)
  · rintro q r ⟨n, hq⟩ ⟨k, hr⟩
    exact ht.busy_unique q r ⟨n, hback q n hq⟩ ⟨k, hback r k hr⟩
  · intro q n hq
    rw [hcounter]
    exact ht.done_lt q n (hdone q n hq)
  · intro q r n hq hr
    exact ht.done_inj q r n (hdone q n hq) (hdone r n hr)

theorem Exclusive.write (ht : Exclusive t) (h : t.write p = some t') : Exclusive t' := by
  obtain ⟨m, hm, hcounter, hstage⟩ := write_eq h
  have hown : t'.stage p = .done m := by rw [hstage, Function.update_self]
  have hother : ∀ q, q ≠ p → t'.stage q = t.stage q := by
    intro q hq
    rw [hstage, Function.update_of_ne hq]
  have hold : m = t.counter := ht.busy_counter p m (Or.inr hm)
  -- nobody else was at work
  have hfree : t'.Finished := by
    rintro q ⟨n, hq⟩
    by_cases heq : q = p
    · subst heq
      rcases hq with hq | hq <;> cases hown.symm.trans hq
    · rw [hother q heq] at hq
      exact heq (ht.busy_unique q p ⟨n, hq⟩ ⟨m, Or.inr hm⟩)
  refine ⟨?_, ?_, ?_, ?_⟩
  · intro q n hq
    exact absurd ⟨n, hq⟩ (hfree q)
  · intro q r hq
    exact absurd hq (hfree q)
  · intro q n hq
    rw [hcounter]
    by_cases heq : q = p
    · subst heq
      obtain rfl : m = n := Stage.done.inj (hown.symm.trans hq)
      omega
    · rw [hother q heq] at hq
      have hlt := ht.done_lt q n hq
      omega
  · intro q r n hq hr
    by_cases heq : q = p <;> by_cases her : r = p
    · rw [heq, her]
    · subst heq
      obtain rfl : m = n := Stage.done.inj (hown.symm.trans hq)
      rw [hother r her] at hr
      have hlt := ht.done_lt r m hr
      omega
    · subst her
      obtain rfl : m = n := Stage.done.inj (hown.symm.trans hr)
      rw [hother q heq] at hq
      have hlt := ht.done_lt q m hq
      omega
    · rw [hother q heq] at hq
      rw [hother r her] at hr
      exact ht.done_inj q r n hq hr

/-- A process that reads during the work of another draws the same number. -/
theorem held_twice (ht : Exclusive t) {q : P} (hq : t.Busy q) (h : t.read p = some t') :
    ∃ n, t'.Held p n ∧ t'.Held q n ∧ p ≠ q := by
  obtain ⟨n, hn⟩ := hq
  obtain ⟨hidle, -, hstage⟩ := read_eq h
  have hcounter : n = t.counter := ht.busy_counter q n hn
  have hne : p ≠ q := by
    rintro rfl
    rcases hn with hn | hn <;> cases hidle.symm.trans hn
  have hheld : t.Held q n := by
    rcases hn with hn | hn
    · exact Or.inl hn
    · exact Or.inr (Or.inl hn)
  refine ⟨n, Or.inl ?_, held_read h hheld, hne⟩
  rw [hstage, Function.update_self, hcounter]

end Exclusive

end KvmOsx.Counter
