import KvmOsx.Lib.Words

/-!
# The CPU sets of a machine

Model of lines 19 to 42 of `bin/config-machine`, which compute `USE_CPUS` and `IO_CPUS`
from what the machine's `config` assigns, and of the `-vcpu` loop of `kvm/common.sh`
(lines 29 to 37).

* `CpuConfig`, `CpuVars`: the assignments of a config, and the variables of the shell.
* `configMachine`: one sourcing of `config-machine`, block by block.
* `CpuConfig.cpus`, `CpuConfig.threads`: the CPUs that a config asks for.
* `CpuSetsRight`, `CpuConfig.Untouched`: both sets are as asked for and stay so when the
  file is sourced again; and the configs for which this is so (`cpu_sets_iff`).

The third block clears `USE_CPUS` where it means `IO_CPUS`, and the second one writes into
element 0 of an `IO_CPUS` that is given.
-/

namespace KvmOsx.Host

open KvmOsx.Text KvmOsx.Words

/-! ## Configs and variables -/

/-- A range of CPUs, `a-b` or a single number. -/
inductive CpuRange
  | single (n : ℕ)
  | span (a b : ℕ)
  deriving DecidableEq, Repr

def CpuRange.text : CpuRange → String
  | .single n => num n
  | .span a b => num a ++ "-" ++ num b

/-- `a, a + 1, …, b`. -/
def CpuRange.cpus : CpuRange → List ℕ
  | .single n => [n]
  | .span a b => List.range' a (b + 1 - a)

/-- What a config assigns; `none` for a variable it does not mention. -/
structure CpuConfig where
  useCpus : Option (List ℕ)
  ioCpus : Option (List ℕ)
  useCpusRange : Option CpuRange
  ioCpusRange : Option CpuRange
  deriving DecidableEq, Repr

/-- The shell's variables: two arrays and two texts. One that is not set is empty. -/
structure CpuVars where
  useCpus : List String
  ioCpus : List String
  useCpusRange : String
  ioCpusRange : String
  deriving DecidableEq, Repr

/-- A shell that has not sourced anything. -/
def CpuVars.unset : CpuVars := ⟨[], [], "", ""⟩

/-- `$X` of an array `X` is its element 0. -/
def first (arr : List String) : String := arr.headD ""

/-- `X=v` for an array `X` sets its element 0. -/
def setFirst (v : String) (arr : List String) : List String := v :: arr.tail

/-! ## `config-machine` -/

/-- `seq $START $END`. The variables are not quoted: with both empty, `seq` has no operand
    and prints nothing but an error. -/
def seq (start stop : String) : List String :=
  match start.toNat?, stop.toNat? with
  | some a, some b => (List.range' a (b + 1 - a)).map num
  | _, _ => []

/-- `START`, `END` and the loop over `seq` (lines 21 to 26, and 36 to 41). -/
def rangeCpus (r : String) : List String := seq (cut '-' 1 (echo r)) (cut '-' 2 (echo r))

/-- `source $MACHINE_PATH/config`. -/
def sourceConfig (c : CpuConfig) (v : CpuVars) : CpuVars where
  useCpus := (c.useCpus.map fun ns => ns.map num).getD v.useCpus
  ioCpus := (c.ioCpus.map fun ns => ns.map num).getD v.ioCpus
  useCpusRange := (c.useCpusRange.map CpuRange.text).getD v.useCpusRange
  ioCpusRange := (c.ioCpusRange.map CpuRange.text).getD v.ioCpusRange

/-- Lines 19 to 27. -/
def useBlock (v : CpuVars) : CpuVars :=
  if first v.useCpus = "" then { v with useCpus := rangeCpus v.useCpusRange } else v

/-- Lines 29 to 32. `IO_CPUS` is assigned without parentheses. -/
def defaultBlock (v : CpuVars) : CpuVars :=
  if v.ioCpusRange = "" then
    { v with
      ioCpusRange := v.useCpusRange
      ioCpus := setFirst (join v.useCpus) v.ioCpus }
  else v

/-- Lines 34 to 42. It is `USE_CPUS` that is emptied before the loop. -/
def ioBlock (v : CpuVars) : CpuVars :=
  if first v.ioCpus = "" then
    { v with
      useCpus := []
      ioCpus := v.ioCpus ++ rangeCpus v.ioCpusRange }
  else v

/-- `source config-machine`. -/
def configMachine (c : CpuConfig) (v : CpuVars) : CpuVars :=
  ioBlock (defaultBlock (useBlock (sourceConfig c v)))

/-- The loop over `${USE_CPUS[@]}` of `common.sh`, which looks the CPU up by its index. -/
def vcpuOpts (v : CpuVars) : List String :=
  (expand v.useCpus).zipIdx.map fun p =>
    "-vcpu vcpunum=" ++ num p.2 ++ ",affinity=" ++ v.useCpus.getD p.2 ""

/-! ## What a config asks for -/

/-- The list that is given, or else the range. -/
def CpuConfig.cpus (c : CpuConfig) : List ℕ :=
  match c.useCpus.getD [] with
  | [] => (c.useCpusRange.map CpuRange.cpus).getD []
  | n :: ns => n :: ns

/-- The list that is given, or else the range, or else `USE_CPUS`. -/
def CpuConfig.threads (c : CpuConfig) : List ℕ :=
  match c.ioCpus.getD [] with
  | [] => (c.ioCpusRange.map CpuRange.cpus).getD c.cpus
  | n :: ns => n :: ns

/-- After the file is sourced once, both sets are as asked for, the second has not changed
    the first, there is one option for each CPU; and sourcing it again changes nothing.
    `IO_CPUS` is compared as the list of its words, since it may hold several in one
    element. -/
structure CpuSetsRight (c : CpuConfig) (v w : CpuVars) : Prop where
  use : v.useCpus = c.cpus.map num
  io : expand v.ioCpus = c.threads.map num
  kept : v.useCpus = (useBlock (sourceConfig c .unset)).useCpus
  useAgain : w.useCpus = v.useCpus
  ioAgain : expand w.ioCpus = expand v.ioCpus
  vcpus : vcpuOpts v = c.cpus.zipIdx.map fun p =>
    "-vcpu vcpunum=" ++ num p.2 ++ ",affinity=" ++ num p.1

/-- The configs whose CPU sets come out right. With `IO_CPUS_RANGE`, `IO_CPUS` must be given
    too, or there is no `USE_CPUS` to clear. Without it, an `IO_CPUS` that is given must be
    one that writing `USE_CPUS` into its element 0 does not change, and one that is assigned
    the empty list needs the second block again the second time. -/
def CpuConfig.Untouched (c : CpuConfig) : Prop :=
  match c.ioCpusRange, c.ioCpus.getD [] with
  | some _, [] => c.cpus = []
  | some _, _ :: _ => True
  | none, [] => c.ioCpus = none ∨ c.useCpusRange = none ∨ c.cpus = []
  | none, n :: _ => c.cpus = [n]

/-! ## Ranges -/

theorem echo_of_isDigit {s : String} {x : Char} {xs : List Char} (hs : s.toList = x :: xs)
    (hx : x.isDigit = true) : echo s = s := by
  have hne : x ≠ '-' := by
    rintro rfl
    exact absurd hx (by decide)
  rw [echo, hs]
  split
  · rename_i heq
    exact absurd (List.cons.inj heq).1 hne
  · rfl

theorem num_toList_cons (n : ℕ) : ∃ x xs, (num n).toList = x :: xs ∧ x.isDigit = true := by
  cases h : (num n).toList with
  | nil => exact absurd (String.toList_eq_nil_iff.mp h) (isWord_num n).nonempty
  | cons x xs => exact ⟨x, xs, rfl, isDigit_of_mem_num (n := n) (by simp [h])⟩

theorem echo_text (r : CpuRange) : echo r.text = r.text := by
  cases r with
  | single n =>
    obtain ⟨x, xs, hxs, hx⟩ := num_toList_cons n
    exact echo_of_isDigit hxs hx
  | span a b =>
    obtain ⟨x, xs, hxs, hx⟩ := num_toList_cons a
    have hlist : (CpuRange.span a b).text.toList = x :: (xs ++ '-' :: (num b).toList) := by
      simp [CpuRange.text, hxs]
    exact echo_of_isDigit hlist hx

theorem seq_num (a b : ℕ) : seq (num a) (num b) = (List.range' a (b + 1 - a)).map num := by
  have hnum (n : ℕ) : (num n).toNat? = some n := Nat.toNat?_repr n
  rw [seq, hnum, hnum]

theorem dash_not_mem_num (n : ℕ) : '-' ∉ (num n).toList :=
  not_mem_num_of_not_isDigit (by decide) n

/-- The loop over `seq` yields the CPUs of the range. -/
theorem rangeCpus_text (r : CpuRange) : rangeCpus r.text = r.cpus.map num := by
  rw [rangeCpus, echo_text]
  cases r with
  | single n =>
    have hcut (k : ℕ) : cut '-' k (num n) = num n := if_neg (dash_not_mem_num n)
    rw [CpuRange.text, hcut, hcut, seq_num]
    simp [CpuRange.cpus]
  | span a b =>
    have hline : (CpuRange.span a b).text.toList = (num a).toList ++ '-' :: (num b).toList := by
      simp [CpuRange.text]
    rw [cut_one hline (dash_not_mem_num a), cut_last hline (dash_not_mem_num a)
      (dash_not_mem_num b), seq_num]
    rfl

@[simp] theorem rangeCpus_empty : rangeCpus "" = [] := by
  have hfields : cut '-' 1 (echo "") = "" := by decide
  have hnone : "".toNat? = none := by
    rw [String.toNat?_eq_none_iff, Bool.eq_false_iff, ne_eq, String.isNat_iff]
    simp
  rw [rangeCpus, hfields, seq, hnone]

theorem text_ne_empty (r : CpuRange) : r.text ≠ "" := by
  intro h
  have hr := congrArg String.toList h
  cases r with
  | single n => exact (isWord_num n).nonempty h
  | span a b => simp [CpuRange.text] at hr

/-- The text of a range that may be absent. -/
def rangeText (r : Option CpuRange) : String := (r.map CpuRange.text).getD ""

theorem rangeText_eq_empty {r : Option CpuRange} : rangeText r = "" ↔ r = none := by
  cases r with
  | none => simp [rangeText]
  | some r => simp [rangeText, text_ne_empty]

theorem rangeCpus_rangeText (r : Option CpuRange) :
    rangeCpus (rangeText r) = ((r.map CpuRange.cpus).getD []).map num := by
  cases r with
  | none => exact rangeCpus_empty
  | some r => exact rangeCpus_text r

/-! ## The blocks -/

theorem first_nums {ns : List ℕ} : first (ns.map num) = "" ↔ ns = [] := by
  cases ns with
  | nil => simp [first]
  | cons n ns => simp [first, (isWord_num n).nonempty]

theorem join_nums {ns : List ℕ} : join (ns.map num) = "" ↔ ns = [] := by
  rw [join_eq_empty isWord_nums, List.map_eq_nil_iff]

/-- A config without CPUs has no range of them either. -/
theorem CpuConfig.range_of_cpus_nil {c : CpuConfig} (h : c.cpus = []) :
    (c.useCpusRange.map CpuRange.cpus).getD [] = [] := by
  unfold CpuConfig.cpus at h
  split at h
  · exact h
  · cases h

theorem CpuConfig.rangeCpus_of_cpus_nil {c : CpuConfig} (h : c.cpus = []) :
    rangeCpus (rangeText c.useCpusRange) = [] := by
  rw [rangeCpus_rangeText, c.range_of_cpus_nil h, List.map_nil]

/-- The first block, whether `USE_CPUS` is unset or has been computed before. -/
theorem useBlock_sourceConfig {c : CpuConfig} {v : CpuVars}
    (huse : v.useCpus = [] ∨ v.useCpus = c.cpus.map num)
    (hrange : v.useCpusRange = "" ∨ v.useCpusRange = rangeText c.useCpusRange) :
    useBlock (sourceConfig c v) =
      { useCpus := c.cpus.map num
        ioCpus := (c.ioCpus.map fun ns => ns.map num).getD v.ioCpus
        useCpusRange := rangeText c.useCpusRange
        ioCpusRange := (c.ioCpusRange.map CpuRange.text).getD v.ioCpusRange } := by
  have htext : (c.useCpusRange.map CpuRange.text).getD v.useCpusRange =
      rangeText c.useCpusRange := by
    rcases hrange with h | h
    · rw [h, rangeText]
    · rw [h]
      cases c.useCpusRange <;> rfl
  have hexpand := rangeCpus_rangeText c.useCpusRange
  unfold useBlock sourceConfig
  simp only [htext, hexpand]
  cases hgiven : c.useCpus with
  | some ns =>
    cases ns with
    | nil => simp [first, CpuConfig.cpus, hgiven]
    | cons n ns => simp [first, CpuConfig.cpus, hgiven, (isWord_num n).nonempty]
  | none =>
    have hcpus : c.cpus = (c.useCpusRange.map CpuRange.cpus).getD [] := by
      simp [CpuConfig.cpus, hgiven]
    rcases huse with h | h
    · simp [h, first, hcpus]
    · simp only [Option.map_none, Option.getD_none, h]
      split_ifs with hfirst
      · rw [hcpus]
      · rfl

/-- The other two blocks with both variables set. -/
theorem ioBlock_of_given {v : CpuVars} (hrange : v.ioCpusRange ≠ "")
    (hio : first v.ioCpus ≠ "") : ioBlock (defaultBlock v) = v := by
  rw [defaultBlock, if_neg hrange, ioBlock, if_neg hio]

/-- With a range only, the third block clears `USE_CPUS`. -/
theorem ioBlock_of_range {v : CpuVars} (hrange : v.ioCpusRange ≠ "") (hio : first v.ioCpus = "") :
    ioBlock (defaultBlock v) =
      { v with useCpus := [], ioCpus := v.ioCpus ++ rangeCpus v.ioCpusRange } := by
  rw [defaultBlock, if_neg hrange, ioBlock, if_pos hio]

/-- Without a range, `USE_CPUS` is written into element 0. With no CPUs at all, the third
    block runs too, and finds nothing to add. -/
theorem ioBlock_of_no_range {ns : List ℕ} {range : String} (io : List String)
    (hnil : ns = [] → rangeCpus range = []) :
    ioBlock (defaultBlock ⟨ns.map num, io, range, ""⟩) =
      ⟨ns.map num, join (ns.map num) :: io.tail, range, range⟩ := by
  rw [defaultBlock, if_pos rfl, ioBlock]
  by_cases hns : ns = []
  · simp [first, setFirst, hns, hnil hns]
  · have hjoin : first (setFirst (join (ns.map num)) io) ≠ "" := fun h => hns (join_nums.mp h)
    rw [if_neg hjoin]
    rfl

/-! ## Both sourcings -/

/-- What the blocks see of the config: the first sourcing starts from unset variables, and
    so has a range for `IO_CPUS` exactly if the config assigns one. -/
theorem configMachine_unset (c : CpuConfig) :
    configMachine c .unset = ioBlock (defaultBlock
      { useCpus := c.cpus.map num
        ioCpus := (c.ioCpus.getD []).map num
        useCpusRange := rangeText c.useCpusRange
        ioCpusRange := rangeText c.ioCpusRange }) := by
  have hio : (c.ioCpus.map fun ns => ns.map num).getD [] = (c.ioCpus.getD []).map num := by
    cases c.ioCpus <;> rfl
  rw [configMachine, useBlock_sourceConfig (.inl rfl) (.inl rfl)]
  simp only [CpuVars.unset, hio]
  rfl

theorem useBlock_unset (c : CpuConfig) :
    (useBlock (sourceConfig c .unset)).useCpus = c.cpus.map num := by
  rw [useBlock_sourceConfig (.inl rfl) (.inl rfl)]

/-- The options of the loop when `USE_CPUS` holds the numerals of `ns`. -/
theorem vcpuOpts_nums {v : CpuVars} {ns : List ℕ} (h : v.useCpus = ns.map num) :
    vcpuOpts v = ns.zipIdx.map fun p => "-vcpu vcpunum=" ++ num p.2 ++ ",affinity=" ++ num p.1 := by
  rw [vcpuOpts, h, expand_of_isWord isWord_nums, List.zipIdx_map, List.map_map]
  apply List.map_congr_left
  intro p hp
  have hget : ns[p.2]? = some p.1 := List.mem_zipIdx_iff_getElem?.mp hp
  simp [List.getD_eq_getElem?_getD, hget]

/-- The conditions that are left once the first sourcing has kept `USE_CPUS`. -/
theorem CpuSetsRight.of_use {c : CpuConfig} {v w : CpuVars} (huse : v.useCpus = c.cpus.map num)
    (hio : expand v.ioCpus = c.threads.map num) (huse' : w.useCpus = v.useCpus)
    (hio' : expand w.ioCpus = expand v.ioCpus) : CpuSetsRight c v w where
  use := huse
  io := hio
  kept := by rw [huse, useBlock_unset]
  useAgain := huse'
  ioAgain := hio'
  vcpus := vcpuOpts_nums huse

/-- The second sourcing, after one that has kept `USE_CPUS`: what the config does not assign
    is as the first one left it. -/
theorem configMachine_again {c : CpuConfig} {v : CpuVars} (huse : v.useCpus = c.cpus.map num)
    (hrange : v.useCpusRange = rangeText c.useCpusRange) :
    configMachine c v = ioBlock (defaultBlock
      { useCpus := c.cpus.map num
        ioCpus := (c.ioCpus.map fun ns => ns.map num).getD v.ioCpus
        useCpusRange := rangeText c.useCpusRange
        ioCpusRange := (c.ioCpusRange.map CpuRange.text).getD v.ioCpusRange }) := by
  rw [configMachine, useBlock_sourceConfig (.inr huse) (.inr hrange)]

section Cases

variable {c : CpuConfig}

theorem ioCpus_of_getD_cons {n : ℕ} {ns : List ℕ} (h : c.ioCpus.getD [] = n :: ns) :
    c.ioCpus = some (n :: ns) := by
  cases hio : c.ioCpus with
  | none => simp [hio] at h
  | some l =>
    have hl : l = n :: ns := by simpa [hio] using h
    rw [hl]

/-- With both variables given, the blocks do nothing. -/
theorem right_of_given {r : CpuRange} {n : ℕ} {ns : List ℕ} (hrange : c.ioCpusRange = some r)
    (hio : c.ioCpus.getD [] = n :: ns) :
    CpuSetsRight c (configMachine c .unset) (configMachine c (configMachine c .unset)) := by
  have hgiven := ioCpus_of_getD_cons hio
  have hone : configMachine c .unset =
      ⟨c.cpus.map num, (n :: ns).map num, rangeText c.useCpusRange, r.text⟩ := by
    rw [configMachine_unset, hio, hrange, ioBlock_of_given (text_ne_empty r)]
    · rfl
    · exact fun h => List.cons_ne_nil n ns (first_nums.mp h)
  have htwo : configMachine c (configMachine c .unset) = configMachine c .unset := by
    rw [configMachine_again (by rw [hone]) (by rw [hone]), configMachine_unset, hgiven, hrange]
    rfl
  have hthreads : c.threads = n :: ns := by simp [CpuConfig.threads, hgiven]
  refine .of_use (by rw [hone]) ?_ (by rw [htwo]) (by rw [htwo])
  rw [hone, hthreads]
  exact expand_of_isWord isWord_nums

/-- With a range for `IO_CPUS` only, `USE_CPUS` is empty in the end. -/
theorem right_of_range_iff {r : CpuRange} (hrange : c.ioCpusRange = some r)
    (hio : c.ioCpus.getD [] = []) :
    CpuSetsRight c (configMachine c .unset) (configMachine c (configMachine c .unset)) ↔
      c.cpus = [] := by
  have hone : configMachine c .unset =
      ⟨[], r.cpus.map num, rangeText c.useCpusRange, r.text⟩ := by
    rw [configMachine_unset, hio, hrange, ioBlock_of_range (text_ne_empty r) rfl]
    simp [rangeText, rangeCpus_text]
  have hthreads : c.threads = r.cpus := by simp [CpuConfig.threads, hio, hrange]
  constructor
  · intro h
    have huse := h.use
    rw [hone] at huse
    exact List.map_eq_nil_iff.mp huse.symm
  · intro hcpus
    have huse : (configMachine c .unset).useCpus = c.cpus.map num := by rw [hone, hcpus]; rfl
    have htwo : configMachine c (configMachine c .unset) = configMachine c .unset := by
      rw [configMachine_again huse (by rw [hone]), hone, hcpus, hrange]
      -- an `IO_CPUS` that the config does not assign is kept, and may be empty again
      cases hgiven : c.ioCpus with
      | some l =>
        have hl : l = [] := by simpa [hgiven] using hio
        rw [hl, ioBlock_of_range (text_ne_empty r) rfl]
        simp [rangeCpus_text]
      | none =>
        by_cases hnil : r.cpus = []
        · rw [ioBlock_of_range (text_ne_empty r) (by simp [first, hnil])]
          simp [rangeCpus_text, hnil]
        · rw [ioBlock_of_given (text_ne_empty r) fun h => hnil (first_nums.mp h)]
          rfl
    refine .of_use huse ?_ (by rw [htwo]) (by rw [htwo])
    rw [hone, hthreads]
    exact expand_of_isWord isWord_nums

/-- Without a range for `IO_CPUS`: `USE_CPUS` takes the place of the first CPU given. -/
theorem configMachine_of_no_range (hrange : c.ioCpusRange = none) :
    configMachine c .unset =
      { useCpus := c.cpus.map num
        ioCpus := join (c.cpus.map num) :: ((c.ioCpus.getD []).map num).tail
        useCpusRange := rangeText c.useCpusRange
        ioCpusRange := rangeText c.useCpusRange } := by
  rw [configMachine_unset, hrange]
  exact ioBlock_of_no_range _ c.rangeCpus_of_cpus_nil

theorem expand_join_cons (ns : List ℕ) (arr : List String) :
    expand (join (ns.map num) :: arr) = ns.map num ++ expand arr := by
  rw [expand_cons, words_join isWord_nums]

/-- With neither a range nor a list, `IO_CPUS` is `USE_CPUS`. The second time, the range of
    the first stands in `IO_CPUS_RANGE`, and an `IO_CPUS` that is emptied again runs into the
    third block. -/
theorem right_of_nothing_iff (hrange : c.ioCpusRange = none) (hio : c.ioCpus.getD [] = []) :
    CpuSetsRight c (configMachine c .unset) (configMachine c (configMachine c .unset)) ↔
      c.ioCpus = none ∨ c.useCpusRange = none ∨ c.cpus = [] := by
  have hone := configMachine_of_no_range hrange
  rw [hio, List.map_nil, List.tail_nil] at hone
  have huse : (configMachine c .unset).useCpus = c.cpus.map num := by rw [hone]
  have hwords : expand (configMachine c .unset).ioCpus = c.threads.map num := by
    rw [hone, expand_join_cons, expand_nil, List.append_nil]
    simp [CpuConfig.threads, hio, hrange]
  have hagain := configMachine_again huse (by rw [hone])
  rw [hone, hrange] at hagain
  simp only [Option.map_none, Option.getD_none] at hagain
  rw [← hone] at hagain
  by_cases hnone : c.useCpusRange = none
  · -- the second block runs again
    rw [hnone] at hagain hone
    have htwo : configMachine c (configMachine c .unset) = configMachine c .unset := by
      have hblock := @ioBlock_of_no_range c.cpus _
        ((c.ioCpus.map fun ns => ns.map num).getD [join (c.cpus.map num)]) fun _ => rangeCpus_empty
      rw [hagain, hone]
      apply hblock.trans
      cases hgiven : c.ioCpus with
      | none => rfl
      | some l =>
        have hl : l = [] := by simpa [hgiven] using hio
        rw [hl]
        rfl
    exact iff_of_true (.of_use huse hwords (by rw [htwo]) (by rw [htwo])) (.inr (.inl hnone))
  · have hset : rangeText c.useCpusRange ≠ "" := fun h => hnone (rangeText_eq_empty.mp h)
    by_cases hcpus : c.cpus = []
    · -- the third block runs, and finds nothing to clear and nothing to add
      have hnil := c.rangeCpus_of_cpus_nil hcpus
      refine iff_of_true ?_ (.inr (.inr hcpus))
      have hfirst : first ((c.ioCpus.map fun ns => ns.map num).getD [join (c.cpus.map num)]) = "" := by
        cases hgiven : c.ioCpus with
        | none => simp [first, hcpus]
        | some l =>
          have hl : l = [] := by simpa [hgiven] using hio
          simp [first, hl]
      rw [ioBlock_of_range hset hfirst] at hagain
      refine .of_use huse hwords ?_ ?_
      · rw [hagain, huse, hcpus, List.map_nil]
      · rw [hagain, hone, hcpus]
        cases hgiven : c.ioCpus with
        | none => simp [hnil]
        | some l =>
          have hl : l = [] := by simpa [hgiven] using hio
          simp [hnil, hl]
    · cases hgiven : c.ioCpus with
      | none =>
        have hfirst : first [join (c.cpus.map num)] ≠ "" := fun h => hcpus (join_nums.mp h)
        rw [hgiven] at hagain
        have htwo : configMachine c (configMachine c .unset) = configMachine c .unset := by
          rw [hagain, ioBlock_of_given hset hfirst, hone]
          rfl
        exact iff_of_true (.of_use huse hwords (by rw [htwo]) (by rw [htwo])) (.inl rfl)
      | some l =>
        have hl : l = [] := by simpa [hgiven] using hio
        rw [hgiven, hl, ioBlock_of_range hset rfl] at hagain
        refine iff_of_false (fun h => ?_) (by simp [hnone, hcpus])
        have hempty := h.useAgain
        rw [hagain, huse] at hempty
        exact hcpus (List.map_eq_nil_iff.mp hempty.symm)

/-- A list of CPUs without a range loses its first one to `USE_CPUS`. -/
theorem right_of_list_iff {n : ℕ} {ns : List ℕ} (hrange : c.ioCpusRange = none)
    (hio : c.ioCpus.getD [] = n :: ns) :
    CpuSetsRight c (configMachine c .unset) (configMachine c (configMachine c .unset)) ↔
      c.cpus = [n] := by
  have hgiven := ioCpus_of_getD_cons hio
  have hone := configMachine_of_no_range hrange
  rw [hio, List.map_cons, List.tail_cons] at hone
  have hthreads : c.threads = n :: ns := by simp [CpuConfig.threads, hgiven]
  have hwords : expand (configMachine c .unset).ioCpus = (c.cpus ++ ns).map num := by
    rw [hone, expand_join_cons, expand_of_isWord isWord_nums, List.map_append]
  have huse : (configMachine c .unset).useCpus = c.cpus.map num := by rw [hone]
  constructor
  · intro h
    have hio' := h.io
    rw [hwords, hthreads] at hio'
    have hlist : c.cpus ++ ns = [n] ++ ns :=
      List.map_injective_iff.mpr (fun a b hab => num_inj.mp hab) hio'
    exact List.append_cancel_right hlist
  · intro hcpus
    have hagain := configMachine_again huse (by rw [hone])
    have hfirst : first ((n :: ns).map num) ≠ "" :=
      fun h => List.cons_ne_nil n ns (first_nums.mp h)
    have htwo : (configMachine c (configMachine c .unset)).useCpus = c.cpus.map num ∧
        (configMachine c (configMachine c .unset)).ioCpus = (n :: ns).map num := by
      rw [hagain, hgiven, hrange]
      by_cases hnone : c.useCpusRange = none
      · have hblock := ioBlock_of_no_range ((n :: ns).map num) c.rangeCpus_of_cpus_nil
        rw [hcpus, hnone] at hblock
        rw [hone, hcpus, hnone]
        exact ⟨congrArg CpuVars.useCpus hblock, congrArg CpuVars.ioCpus hblock⟩
      · have hset : rangeText c.useCpusRange ≠ "" := fun h => hnone (rangeText_eq_empty.mp h)
        rw [ioBlock_of_given (by rw [hone]; exact hset) hfirst]
        exact ⟨rfl, rfl⟩
    refine .of_use huse (by rw [hwords, hthreads, hcpus]; rfl) (by rw [htwo.1, huse]) ?_
    rw [htwo.2, hwords, hcpus]
    exact expand_of_isWord isWord_nums

end Cases

/-- **The CPU sets are right exactly for the configs whose lists the blocks do not touch.**
    A given or computed `USE_CPUS` survives a range for `IO_CPUS` only if `IO_CPUS` is given
    too. -/
theorem cpu_sets_iff (c : CpuConfig) :
    CpuSetsRight c (configMachine c .unset) (configMachine c (configMachine c .unset)) ↔
      c.Untouched := by
  unfold CpuConfig.Untouched
  cases hrange : c.ioCpusRange with
  | some r =>
    cases hio : c.ioCpus.getD [] with
    | nil => exact right_of_range_iff hrange hio
    | cons n ns => exact iff_of_true (right_of_given hrange hio) trivial
  | none =>
    cases hio : c.ioCpus.getD [] with
    | nil => exact right_of_nothing_iff hrange hio
    | cons n ns => exact right_of_list_iff hrange hio

/-- `USE_CPUS=(0 1)` and `IO_CPUS_RANGE=2-3` leave `USE_CPUS` empty. -/
theorem cpu_sets_cleared :
    ¬ CpuSetsRight ⟨some [0, 1], none, none, some (.span 2 3)⟩
      (configMachine ⟨some [0, 1], none, none, some (.span 2 3)⟩ .unset)
      (configMachine ⟨some [0, 1], none, none, some (.span 2 3)⟩
        (configMachine ⟨some [0, 1], none, none, some (.span 2 3)⟩ .unset)) := by
  intro h
  have hempty : (configMachine ⟨some [0, 1], none, none, some (.span 2 3)⟩ .unset).useCpus = [] := by
    decide
  have huse := h.use
  rw [hempty] at huse
  exact absurd huse (by decide)

end KvmOsx.Host
