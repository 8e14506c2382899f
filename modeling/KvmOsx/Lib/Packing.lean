import Mathlib

/-!
# Windows that are packed one behind the other

* `and_mask`: rounding down to a power of two with a mask.
* `place`: items one behind the other from a base on; `place_bounds`, `place_pairwise`: they
  are inside, and apart; `place_aligned`: sorted by alignment, they are all aligned.
* `Layout`: regions of items, where an item can be the window that another region lies in.
* `Layout.putAll`: the regions are placed one after the other, and a window that is placed sets
  the base of its region; `putAll_based`: if no window comes after its region, every region is
  placed at its window.
* `Based.induct`, `Based.apart`: what holds of the roots and goes through windows holds of every
  region; two items share a number only if one of them is a window that the other is behind.
-/

namespace KvmOsx.Packing

/-! ## Rounding -/

/-- `x & ~(a - 1)` for a power of two. -/
theorem and_mask {w k x : ℕ} (hx : x < 2 ^ w) (hk : k ≤ w) :
    x &&& (2 ^ w - 1 - (2 ^ k - 1)) = x - x % 2 ^ k := by
  have hmask : 2 ^ w - 1 - (2 ^ k - 1) = (2 ^ (w - k) - 1) <<< k := by
    have hpow : 2 ^ (w - k) * 2 ^ k = 2 ^ w := by rw [← pow_add, Nat.sub_add_cancel hk]
    have hpos : 0 < 2 ^ k := Nat.two_pow_pos k
    rw [Nat.shiftLeft_eq, Nat.sub_mul, one_mul, hpow]
    omega
  have hdiv : x - x % 2 ^ k = (x >>> k) <<< k := by
    have hsplit := Nat.div_add_mod x (2 ^ k)
    rw [Nat.shiftLeft_eq, Nat.shiftRight_eq_div_pow, mul_comm]
    omega
  rw [hmask, hdiv]
  refine Nat.eq_of_testBit_eq fun i => ?_
  rw [Nat.testBit_and, Nat.testBit_shiftLeft, Nat.testBit_shiftLeft, Nat.testBit_shiftRight,
    Nat.testBit_two_pow_sub_one]
  by_cases hik : k ≤ i
  · rw [Nat.add_sub_cancel' hik]
    by_cases hi : i < w
    · have hlt : i - k < w - k := by omega
      simp [hik, hlt]
    · have hbit : x.testBit i = false :=
        Nat.testBit_lt_two_pow (hx.trans_le (Nat.pow_le_pow_right (by decide) (not_lt.mp hi)))
      simp [hbit]
  · simp [hik]

/-! ## One region -/

section Place

variable {A : Type*} {size align : A → ℕ} {l : List A} {a : A} {base addr : ℕ}

/-- The numbers that the items take. -/
def total (size : A → ℕ) (l : List A) : ℕ := (l.map size).sum

/-- Each item with its first number. -/
def place (size : A → ℕ) : ℕ → List A → List (A × ℕ)
  | _, [] => []
  | base, a :: l => (a, base) :: place size (base + size a) l

@[simp] theorem total_nil : total size [] = 0 := rfl

@[simp] theorem total_cons : total size (a :: l) = size a + total size l := List.sum_cons

theorem map_fst_place : (place size base l).map Prod.fst = l := by
  induction l generalizing base with
  | nil => rfl
  | cons a l ih => rw [place, List.map_cons, ih]

theorem mem_of_mem_place (h : (a, addr) ∈ place size base l) : a ∈ l := by
  have hfst := List.mem_map_of_mem (f := Prod.fst) h
  rwa [map_fst_place] at hfst

theorem place_bounds (h : (a, addr) ∈ place size base l) :
    base ≤ addr ∧ addr + size a ≤ base + total size l := by
  induction l generalizing base with
  | nil => cases h
  | cons b l ih =>
    rw [total_cons]
    rcases List.mem_cons.mp h with heq | h
    · obtain ⟨rfl, rfl⟩ := Prod.mk.inj heq
      omega
    · have hin := ih h
      omega

/-- The items are apart, and in order. -/
theorem place_pairwise (size : A → ℕ) (base : ℕ) (l : List A) :
    (place size base l).Pairwise fun p q => p.2 + size p.1 ≤ q.2 := by
  induction l generalizing base with
  | nil => exact .nil
  | cons a l ih =>
    refine List.pairwise_cons.mpr ⟨fun q hq => ?_, ih _⟩
    have hin : base + size a ≤ q.2 ∧ _ := place_bounds hq
    exact hin.1

/-- Items that come in the order of their alignments are aligned. -/
theorem place_aligned (hsize : ∀ a ∈ l, align a ∣ size a)
    (horder : l.Pairwise fun a b => align b ∣ align a) (hbase : ∀ a ∈ l.head?, align a ∣ base)
    (h : (a, addr) ∈ place size base l) : align a ∣ addr := by
  induction l generalizing base with
  | nil => cases h
  | cons b l ih =>
    obtain ⟨hb, hsize⟩ := List.forall_mem_cons.mp hsize
    obtain ⟨hbelow, horder⟩ := List.pairwise_cons.mp horder
    have hfirst : align b ∣ base := hbase b rfl
    rcases List.mem_cons.mp h with heq | h
    · obtain ⟨rfl, rfl⟩ := Prod.mk.inj heq
      exact hfirst
    · refine ih hsize horder (fun c hc => ?_) h
      exact (hbelow c (List.mem_of_mem_head? hc)).trans (hfirst.add hb)

end Place

/-! ## Regions that lie in windows -/

/-- Regions of items. An item can be the window of a region (`target`), of a higher rank. -/
structure Layout (R A : Type*) where
  items : R → List A
  size : A → ℕ
  target : A → Option R
  rank : R → ℕ
  deeper {r q a} : a ∈ items r → target a = some q → rank r < rank q
  fits {r q a} : a ∈ items r → target a = some q → total size (items q) ≤ size a
  home {r r' q a a'} : a ∈ items r → a' ∈ items r' → target a = some q → target a' = some q →
    r = r'
  once r : (items r).Pairwise fun a a' => target a = none ∨ target a ≠ target a'

namespace Layout

variable {R A : Type*} {L : Layout R A} {r r' q : R} {k k' : ℕ} {a a' : A} {addr addr' : ℕ}
  {base : R → ℕ}

/-- Item `k` of region `r` begins at `addr`. -/
def At (L : Layout R A) (base : R → ℕ) (r : R) (k : ℕ) (a : A) (addr : ℕ) : Prop :=
  (place L.size (base r) (L.items r))[k]? = some (a, addr)

/-- The regions with a window are where it is. -/
def Based (L : Layout R A) (base : R → ℕ) : Prop :=
  ∀ ⦃r k a addr q⦄, L.At base r k a addr → L.target a = some q → base q = addr

theorem At.mem_place (h : L.At base r k a addr) : (a, addr) ∈ place L.size (base r) (L.items r) :=
  List.mem_of_getElem? h

theorem At.mem (h : L.At base r k a addr) : a ∈ L.items r := mem_of_mem_place h.mem_place

theorem exists_at (base : R → ℕ) (h : a ∈ L.items r) : ∃ k addr, L.At base r k a addr := by
  have hfst : a ∈ (place L.size (base r) (L.items r)).map Prod.fst := by rwa [map_fst_place]
  obtain ⟨⟨_, addr⟩, hmem, rfl⟩ := List.mem_map.mp hfst
  obtain ⟨k, hk⟩ := List.mem_iff_getElem?.mp hmem
  exact ⟨k, addr, hk⟩

/-! ### The placement -/

section Put

variable [DecidableEq R] {M : ℕ} {st : (R → ℕ) × List (A × ℕ)} {l : List A}

/-- One item at the base of its region, which moves on, in words below `M`. -/
def putItem (L : Layout R A) (M : ℕ) (r : R) (st : (R → ℕ) × List (A × ℕ)) (a : A) :
    (R → ℕ) × List (A × ℕ) :=
  let addr := st.1 r
  let base := Function.update st.1 r ((addr + L.size a) % M)
  ((L.target a).elim base fun q => Function.update base q addr, st.2 ++ [(a, addr)])

/-- The regions one after the other. -/
def putAll (L : Layout R A) (M : ℕ) (rs : List R) (st : (R → ℕ) × List (A × ℕ)) :
    (R → ℕ) × List (A × ℕ) :=
  rs.foldl (fun st r => (L.items r).foldl (L.putItem M r) st) st

/-- The base of a region without the window that `a` may be. -/
theorem putItem_other (hqr : q ≠ r) (ha : L.target a ≠ some q) :
    (L.putItem M r st a).1 q = st.1 q := by
  unfold putItem
  cases htarget : L.target a with
  | none => exact Function.update_of_ne hqr _ _
  | some p =>
    have hqp : q ≠ p := fun heq => ha (heq ▸ htarget)
    exact (Function.update_of_ne hqp _ _).trans (Function.update_of_ne hqr _ _)

theorem putItem_window (ha : L.target a = some q) : (L.putItem M r st a).1 q = st.1 r := by
  unfold putItem
  rw [ha]
  exact Function.update_self _ _ _

theorem putItem_self (ha : L.target a ≠ some r) (hfit : st.1 r + L.size a < M) :
    (L.putItem M r st a).1 r = st.1 r + L.size a := by
  unfold putItem
  cases htarget : L.target a with
  | none => exact (Function.update_self _ _ _).trans (Nat.mod_eq_of_lt hfit)
  | some p =>
    have hrp : r ≠ p := fun heq => ha (heq ▸ htarget)
    exact (Function.update_of_ne hrp _ _).trans
      ((Function.update_self _ _ _).trans (Nat.mod_eq_of_lt hfit))

theorem put_other (hqr : q ≠ r) (hl : ∀ a ∈ l, L.target a ≠ some q) :
    (l.foldl (L.putItem M r) st).1 q = st.1 q := by
  induction l generalizing st with
  | nil => rfl
  | cons a l ih =>
    obtain ⟨ha, hl⟩ := List.forall_mem_cons.mp hl
    exact (ih hl).trans (putItem_other hqr ha)

/-- The items are written one behind the other. -/
theorem put_log (hself : ∀ a ∈ l, L.target a ≠ some r) (hfit : st.1 r + total L.size l < M) :
    (l.foldl (L.putItem M r) st).2 = st.2 ++ place L.size (st.1 r) l := by
  induction l generalizing st with
  | nil => exact (List.append_nil _).symm
  | cons a l ih =>
    obtain ⟨ha, hself⟩ := List.forall_mem_cons.mp hself
    rw [total_cons] at hfit
    have hbase := putItem_self ha (by omega : st.1 r + L.size a < M)
    rw [List.foldl_cons, ih hself (by rw [hbase]; omega), hbase, place]
    exact List.append_assoc _ _ _

/-- A window sets the base of its region, if no item behind it does. -/
theorem put_window (hself : ∀ a ∈ l, L.target a ≠ some r) (hfit : st.1 r + total L.size l < M)
    (hat : (place L.size (st.1 r) l)[k]? = some (a, addr)) (ha : L.target a = some q)
    (honce : l.Pairwise fun a a' => L.target a = none ∨ L.target a ≠ L.target a') :
    (l.foldl (L.putItem M r) st).1 q = addr := by
  induction l generalizing st k with
  | nil => cases hat
  | cons b l ih =>
    obtain ⟨hb, hself⟩ := List.forall_mem_cons.mp hself
    obtain ⟨hlater, honce⟩ := List.pairwise_cons.mp honce
    rw [total_cons] at hfit
    have hbase := putItem_self hb (by omega : st.1 r + L.size b < M)
    rw [List.foldl_cons]
    cases k with
    | zero =>
      obtain ⟨rfl, rfl⟩ := Prod.mk.inj (Option.some.inj hat)
      have hqr : q ≠ r := fun heq => hb (heq ▸ ha)
      have hrest : ∀ c ∈ l, L.target c ≠ some q := by
        intro c hc hcq
        rcases hlater c hc with hnone | hne
        · rw [hnone] at ha
          cases ha
        · exact hne (ha.trans hcq.symm)
      rw [put_other hqr hrest, putItem_window ha]
    | succ k =>
      have hat' : (place L.size ((L.putItem M r st b).1 r) l)[k]? = some (a, addr) := by
        rw [hbase]
        exact hat
      exact ih hself (by rw [hbase]; omega) hat' honce

/-- **Regions that are placed in the order of their ranks** are placed where their windows are,
    and those without a window where they were. -/
theorem putAll_based {rs : List R} (st : (R → ℕ) × List (A × ℕ))
    (hrs : rs.Pairwise fun r r' => L.rank r ≤ L.rank r') (hnodup : rs.Nodup)
    (hfit : ∀ r ∈ rs, st.1 r + total L.size (L.items r) < M) :
    ∃ base, (∀ r ∈ rs, ∀ ⦃k a addr q⦄, L.At base r k a addr → L.target a = some q →
        base q = addr) ∧
      (L.putAll M rs st).2 = st.2 ++ rs.flatMap (fun r => place L.size (base r) (L.items r)) ∧
      ∀ q, (∀ r ∈ rs, ∀ a ∈ L.items r, L.target a ≠ some q) → base q = st.1 q := by
  induction rs generalizing st with
  | nil => exact ⟨st.1, by simp, (List.append_nil _).symm, fun _ _ => rfl⟩
  | cons r rs ih =>
    obtain ⟨hrank, hrs⟩ := List.pairwise_cons.mp hrs
    obtain ⟨hr, hnodup⟩ := List.nodup_cons.mp hnodup
    obtain ⟨hfitr, hfit⟩ := List.forall_mem_cons.mp hfit
    have hself : ∀ a ∈ L.items r, L.target a ≠ some r :=
      fun a ha heq => absurd (L.deeper ha heq) (lt_irrefl _)
    obtain ⟨st', hst'⟩ : ∃ st', st' = (L.items r).foldl (L.putItem M r) st := ⟨_, rfl⟩
    have hwindow : ∀ {k a addr q}, (place L.size (st.1 r) (L.items r))[k]? = some (a, addr) →
        L.target a = some q → st'.1 q = addr := fun hat ha =>
      hst' ▸ put_window hself hfitr hat ha (L.once r)
    have hother : ∀ {q}, q ≠ r → (∀ a ∈ L.items r, L.target a ≠ some q) → st'.1 q = st.1 q :=
      fun hqr hl => hst' ▸ put_other hqr hl
    have hne : ∀ {r'}, r' ∈ rs → r' ≠ r := fun h heq => hr (heq ▸ h)
    have hfit' : ∀ r' ∈ rs, st'.1 r' + total L.size (L.items r') < M := by
      intro r' hr'
      by_cases hw : ∃ a ∈ L.items r, L.target a = some r'
      · obtain ⟨a, hmem, ha⟩ := hw
        obtain ⟨k, addr, hat⟩ := exists_at st.1 hmem
        have hin := place_bounds hat.mem_place
        have hsize := L.fits hmem ha
        rw [hwindow hat ha]
        omega
      · rw [hother (hne hr') fun a hmem ha => hw ⟨a, hmem, ha⟩]
        exact hfit r' hr'
    obtain ⟨base, hbased, hlog, hroot⟩ := ih st' hrs hnodup hfit'
    -- The walk moves the base of `r` on, and nothing sets it again.
    have hkeep : ∀ {q}, q ≠ r → Function.update base r (st.1 r) q = base q :=
      fun hqr => Function.update_of_ne hqr _ _
    have hput : Function.update base r (st.1 r) r = st.1 r := Function.update_self _ _ _
    refine ⟨Function.update base r (st.1 r), ?_, ?_, ?_⟩
    · rintro r' hmemr k a addr q hat ha
      have hmem := hat.mem
      have hlt := L.deeper hmem ha
      rcases List.mem_cons.mp hmemr with rfl | hr'
      · unfold At at hat
        rw [hput] at hat
        have hqr : q ≠ r' := fun heq => hself a hmem (heq ▸ ha)
        rw [hkeep hqr, hroot q, hwindow hat ha]
        intro r'' hr'' b hb hbq
        exact hne hr'' (L.home hb hmem hbq ha)
      · have hqr : q ≠ r := fun heq => absurd (hrank r' hr') (not_le.mpr (heq ▸ hlt))
        unfold At at hat
        rw [hkeep (hne hr')] at hat
        rw [hkeep hqr]
        exact hbased r' hr' hat ha
    · have hrest : rs.flatMap (fun r' => place L.size (Function.update base r (st.1 r) r')
          (L.items r')) = rs.flatMap fun r' => place L.size (base r') (L.items r') :=
        List.flatMap_congr fun r' hr' => by rw [hkeep (hne hr')]
      show (L.putAll M rs ((L.items r).foldl (L.putItem M r) st)).2 = _
      rw [← hst', hlog, hst', put_log hself hfitr, List.flatMap_cons, hput, hrest,
        List.append_assoc]
    · intro q hq
      obtain ⟨hqr, hq⟩ := List.forall_mem_cons.mp hq
      by_cases heq : q = r
      · rw [heq, hput]
      · rw [hkeep heq, hroot q hq, hother heq hqr]

end Put

/-! ### What the windows keep -/

/-- Every region with items, but the roots, has a window. -/
def Rooted (L : Layout R A) : Prop :=
  ∀ ⦃r⦄, L.items r ≠ [] → L.rank r ≠ 0 → ∃ r', ∃ a ∈ L.items r', L.target a = some r

/-- What the roots have, and a region has when the region of its window does, every region
    has. -/
theorem Based.induct {P : R → Prop} (hbased : L.Based base) (hrooted : L.Rooted)
    (hroot : ∀ ⦃r⦄, L.rank r = 0 → P r)
    (hwindow : ∀ ⦃r k a q⦄, P r → L.At base r k a (base q) → L.target a = some q → P q)
    (hr : L.items r ≠ []) : P r := by
  induction hn : L.rank r using Nat.strong_induction_on generalizing r with
  | _ n ih =>
    by_cases hzero : L.rank r = 0
    · exact hroot hzero
    · obtain ⟨r', a, hmem, ha⟩ := hrooted hr hzero
      obtain ⟨k, addr, hat⟩ := exists_at base hmem
      have hP : P r' := ih _ (hn ▸ L.deeper hmem ha) (List.ne_nil_of_mem hmem) rfl
      exact hwindow hP (hbased hat ha ▸ hat) ha

/-- A region lies in item `p.2` of region `p.1`, or in a region that does. -/
inductive Behind (N : Layout R A) : R → R × ℕ → Prop
  | self {s s' : R} {i : ℕ} {b : A} : (N.items s')[i]? = some b → N.target b = some s →
      Behind N s (s', i)
  | up {s s' : R} {b : A} {p : R × ℕ} : b ∈ N.items s' → N.target b = some s →
      Behind N s' p → Behind N s p

/-- What lies in the window of a region is that region, or has a higher rank. -/
theorem Behind.rank {p : R × ℕ} (h : L.Behind r' p) (hget : (L.items p.1)[p.2]? = some a)
    (ha : L.target a = some r) : r' = r ∨ L.rank r < L.rank r' := by
  induction h with
  | self hget' hb =>
    rw [Option.some.inj (hget'.symm.trans hget), ha] at hb
    exact Or.inl (Option.some.inj hb).symm
  | up hmem hb _ ih =>
    have hlt := L.deeper hmem hb
    rcases ih hget with rfl | hrank
    · exact Or.inr hlt
    · exact Or.inr (hrank.trans hlt)

/-- What is no window has nothing behind it. -/
theorem not_behind {p : R × ℕ} (hget : (L.items p.1)[p.2]? = some a) (ha : L.target a = none) :
    ¬ L.Behind r p := by
  intro h
  induction h with
  | self hget' hb =>
    rw [Option.some.inj (hget'.symm.trans hget), ha] at hb
    cases hb
  | up _ _ _ ih => exact ih hget

theorem At.get (h : L.At base r k a addr) : (L.items r)[k]? = some a := by
  have hget := congrArg (Option.map Prod.fst) h
  rwa [← List.getElem?_map, map_fst_place] at hget

/-- Two items of one region are apart. -/
theorem At.apart (h : L.At base r k a addr) (h' : L.At base r k' a' addr') (hne : k ≠ k') :
    addr + L.size a ≤ addr' ∨ addr' + L.size a' ≤ addr := by
  have hpair := List.pairwise_iff_getElem.mp (place_pairwise L.size (base r) (L.items r))
  obtain ⟨hk, hget⟩ := List.getElem?_eq_some_iff.mp h
  obtain ⟨hk', hget'⟩ := List.getElem?_eq_some_iff.mp h'
  rcases Nat.lt_or_gt_of_ne hne with hlt | hlt
  · have hle := hpair k k' hk hk' hlt
    rw [hget, hget'] at hle
    exact Or.inl hle
  · have hle := hpair k' k hk' hk hlt
    rw [hget, hget'] at hle
    exact Or.inr hle

/-- **Two items of one space** are apart, or one is a window that the other is behind, if the
    roots of a space are apart. -/
theorem Based.apart {S : Type*} {space : R → S} (hbased : L.Based base) (hrooted : L.Rooted)
    (hspace : ∀ ⦃r q a⦄, a ∈ L.items r → L.target a = some q → space q = space r)
    (hroots : ∀ ⦃r r'⦄, L.rank r = 0 → L.rank r' = 0 → space r = space r' → r ≠ r' →
      base r + total L.size (L.items r) ≤ base r' ∨ base r' + total L.size (L.items r') ≤ base r)
    (heq : space r = space r') (h : L.At base r k a addr) (h' : L.At base r' k' a' addr')
    (hne : (r, k) ≠ (r', k')) :
    addr + L.size a ≤ addr' ∨ addr' + L.size a' ≤ addr ∨ L.Behind r (r', k') ∨
      L.Behind r' (r, k) := by
  induction hn : L.rank r + L.rank r' using Nat.strong_induction_on generalizing r r' k k' a a'
    addr addr' with
  | _ n ih =>
    -- One step up from the region of the higher rank.
    have hstep : ∀ {r r' k k' a a' addr addr'}, space r = space r' → L.At base r k a addr →
        L.At base r' k' a' addr' → L.rank r + L.rank r' = n → r ≠ r' → L.rank r' ≤ L.rank r →
        addr + L.size a ≤ addr' ∨ addr' + L.size a' ≤ addr ∨ L.Behind r (r', k') ∨
          L.Behind r' (r, k) := by
      intro r r' k k' a a' addr addr' heq h h' hn hne hle
      have hin := place_bounds h.mem_place
      by_cases hzero : L.rank r = 0
      · have hin' := place_bounds h'.mem_place
        have hroot := hroots hzero (by omega) heq hne
        omega
      · obtain ⟨r₁, w, hmem, hw⟩ := hrooted (List.ne_nil_of_mem h.mem) hzero
        obtain ⟨k₁, addr₁, hat⟩ := exists_at base hmem
        have hbase := hbased hat hw
        have hlt := L.deeper hmem hw
        have hsize := L.fits hmem hw
        by_cases hsame : (r₁, k₁) = (r', k')
        · obtain ⟨rfl, rfl⟩ := Prod.mk.inj hsame
          exact Or.inr (Or.inr (Or.inl (.self hat.get hw)))
        · rcases ih (L.rank r₁ + L.rank r') (by omega) ((hspace hmem hw).symm.trans heq) hat h'
            hsame rfl with hapart | hapart | hbehind | hbehind
          · exact Or.inl (by omega)
          · exact Or.inr (Or.inl (by omega))
          · exact Or.inr (Or.inr (Or.inl (.up hmem hw hbehind)))
          · rcases hbehind.rank hat.get hw with rfl | hrank
            · exact absurd rfl hne
            · omega
    by_cases hrr : r = r'
    · subst hrr
      have hkk : k ≠ k' := fun heq => hne (heq ▸ rfl)
      rcases h.apart h' hkk with hapart | hapart
      · exact Or.inl hapart
      · exact Or.inr (Or.inl hapart)
    · rcases le_total (L.rank r') (L.rank r) with hle | hle
      · exact hstep heq h h' hn hrr hle
      · rcases hstep heq.symm h' h (by omega) (Ne.symm hrr) hle with
          hapart | hapart | hbehind | hbehind
        · exact Or.inr (Or.inl hapart)
        · exact Or.inl hapart
        · exact Or.inr (Or.inr (Or.inr hbehind))
        · exact Or.inr (Or.inr (Or.inl hbehind))

end Layout

end KvmOsx.Packing
