import KvmOsx.Lib.Text

/-!
# Starting and stopping the listed machines

Model of the loops of `bin/machine-autostart` and `bin/autoshutdown`, which read the file
`autostart` line by line and test each machine through its pid file.

* `Place`, `Shelf`: what stands under a name in `$VM_PREFIX`.
* `Entry`, `Turn`: a line, and the moment at which `machine-autostart` reaches it.
* `readLoop`: `cat FILE | while read VM` under `set -e`.
* `autostart`, `autoshutdown`: the calls of `boot.real` and of `shutdown-ga`, and the lines
  that are never read.
* `ActsExactly`, `Orderly`: each script handles the machines it is for, once each, and every
  line; and the files and hosts for which this is so (`acts_exactly_iff`).

`autoshutdown` has the test of its sibling: it calls `shutdown-ga` where the process is
gone. It also lacks the `|| echo "-1"` behind `cat`, and ends at a machine without a pid
file.
-/

namespace KvmOsx.Host

open KvmOsx.Text

/-! ## Machines and lines -/

/-- What a name stands for in `$VM_PREFIX`: a file or directory that is no machine (the file
    `autostart` is one), or a machine that was never started, has left a stale pid file, or
    runs. -/
inductive Place
  | other
  | never
  | stopped (pid : ℕ)
  | running (pid : ℕ)
  deriving DecidableEq, Repr

/-- `cat $VMPATH/var/pid`. -/
def Place.pid : Place → Option ℕ
  | .other => none
  | .never => none
  | .stopped p => some p
  | .running p => some p

/-- `[ -e /proc/$pid ]` for the pid that was read, or for `-1`. -/
def Place.live : Place → Bool
  | .running _ => true
  | _ => false

/-- A machine that is not running. -/
def Place.isDown : Place → Bool
  | .never => true
  | .stopped _ => true
  | _ => false

/-- `$VM_PREFIX`; `none` for a name under which there is nothing. -/
abbrev Shelf := String → Option Place

/-- What `read`, an unquoted expansion, `cut` or a path would not leave alone. -/
def shellChars : List Char := [' ', '\t', '\n', ':', '/', '\\', '*', '?', '[']

/-- A line `name` or `name:seat`. -/
structure Entry where
  name : String
  seat : Option String
  named : name ≠ "" ∧ name ≠ "." ∧ name ≠ ".."
  notOption : name.toList.head? ≠ some '-'
  plain : ∀ c ∈ name.toList, c ∉ shellChars
  seatPlain : ∀ s ∈ seat, ∀ c ∈ s.toList, c ∉ shellChars

def Entry.text (e : Entry) : String :=
  match e.seat with
  | none => e.name
  | some s => e.name ++ ":" ++ s

/-- `VM_NAME`. -/
def machineOf (vm : String) : String := cut ':' 1 (echo vm)

theorem echo_of_head {s : String} (h : s.toList.head? ≠ some '-') : echo s = s := by
  rw [echo]
  split
  · rename_i heq
    rw [heq] at h
    exact absurd rfl h
  · rfl

theorem machineOf_text (e : Entry) : machineOf e.text = e.name := by
  have hcolon : ':' ∉ e.name.toList := fun h => e.plain ':' h (by decide)
  unfold machineOf Entry.text
  cases e.seat with
  | none =>
    have hecho : echo e.name = e.name := echo_of_head e.notOption
    simp [hecho, cut, hcolon]
  | some s =>
    have hlist : (e.name ++ ":" ++ s).toList = e.name.toList ++ ':' :: s.toList := by simp
    have hecho : echo (e.name ++ ":" ++ s) = e.name ++ ":" ++ s := by
      apply echo_of_head
      cases hname : e.name.toList with
      | nil => exact absurd (String.toList_eq_nil_iff.mp hname) e.named.1
      | cons x xs =>
        have hx := e.notOption
        rw [hname] at hx
        simpa [hname] using hx
    simp only [hecho]
    exact cut_one hlist hcolon

/-! ## The loops -/

/-- `while read VM` under `set -e`: the state after the loop, and the lines that are left.
    A body that yields `none` has run into a command that fails. -/
def readLoop {σ α : Type*} (body : σ → α → Option σ) : σ → List α → σ × List α
  | s, [] => (s, [])
  | s, a :: as =>
    match body s a with
    | none => (s, as)
    | some s' => readLoop body s' as

/-- What `shutdown-ga` does to a machine: one that runs may go down. Its status is that of
    `qga-send`, which ends with `exit 0`. -/
def shutdownGa (obeys : String → Bool) (h : Shelf) (m : String) : Shelf :=
  match h m with
  | some (.running p) => if obeys m then Function.update h m (some (.stopped p)) else h
  | _ => h

/-- The body of `autoshutdown` (lines 17 to 30): the shelf and the calls so far. -/
def autoshutdownBody (obeys : String → Bool) (s : Shelf × List String) (vm : String) :
    Option (Shelf × List String) :=
  match s.1 (machineOf vm) with
  | none => some s
  | some d =>
    match d.pid with
    -- the assignment has the status of `cat`
    | none => none
    | some _ => if d.live then some s else some (shutdownGa obeys s.1 (machineOf vm), s.2 ++ [vm])

/-- The calls of `shutdown-ga`, and the lines that are not read. -/
def autoshutdown (obeys : String → Bool) (h : Shelf) (es : List Entry) :
    List String × List String :=
  let r := readLoop (autoshutdownBody obeys) (h, []) (es.map Entry.text)
  (r.1.2, r.2)

/-- A line, and whether its machine is up when the loop gets there, in case an earlier line
    has started it. `boot.real` runs in the background, and the loop waits for 5 seconds. -/
structure Turn where
  entry : Entry
  up : Bool

/-- The body of `machine-autostart` (lines 17 to 33). -/
def autostartBody (h : Shelf) (calls : List String) (vm : String × Bool) : Option (List String) :=
  match h (machineOf vm.1) with
  | none => some calls
  | some d =>
    if d.live || (vm.2 && calls.any fun c => machineOf c = machineOf vm.1) then some calls
    else some (calls ++ [vm.1])

/-- The calls of `boot.real`, and the lines that are not read. -/
def autostart (h : Shelf) (ts : List Turn) : List String × List (String × Bool) :=
  readLoop (autostartBody h) [] (ts.map fun t => (t.entry.text, t.up))

/-! ## Acting on exactly the right machines -/

/-- The calls for a machine. -/
def callsFor (m : String) (calls : List String) : ℕ := calls.countP fun vm => machineOf vm = m

/-- One call for each listed machine in the given condition, and none for another name. -/
def OneCallEach (on : Place → Bool) (h : Shelf) (ts : List Turn) (calls : List String) : Prop :=
  ∀ m, callsFor m calls = if m ∈ ts.map (·.entry.name) ∧ (h m).any on then 1 else 0

/-- Both scripts act on the machines they are for, and come to the end of the file. -/
structure ActsExactly (obeys : String → Bool) (h : Shelf) (ts : List Turn) : Prop where
  starts : OneCallEach Place.isDown h ts (autostart h ts).1
  startsAll : (autostart h ts).2 = []
  stops : OneCallEach Place.live h ts (autoshutdown obeys h (ts.map Turn.entry)).1
  stopsAll : (autoshutdown obeys h (ts.map Turn.entry)).2 = []

/-- `autoshutdown` gets past the line: the name is unknown, or has a pid file. -/
def Shelf.passes (h : Shelf) (e : Entry) : Bool := (h e.name).all fun d => d.pid.isSome

/-- A pid file without a process. -/
def Shelf.stale (h : Shelf) (e : Entry) : Bool :=
  (h e.name).any fun d => d.pid.isSome && !d.live

/-- The files and hosts on which both scripts act as they should. -/
structure Orderly (h : Shelf) (ts : List Turn) : Prop where
  /-- What is listed is a machine, if there is anything under its name. -/
  machines : ∀ t ∈ ts, h t.entry.name ≠ some .other
  /-- A machine that is started by its first line is up by the next line that names it. -/
  up : ∀ m, (h m).any Place.isDown → ∀ t ∈ (ts.filter (·.entry.name = m)).tail, t.up
  noneRuns : ∀ t ∈ ts, (h t.entry.name).any Place.live = false
  noneStale : ∀ t ∈ ts.takeWhile (h.passes ·.entry), h.stale t.entry = false
  /-- Only the last line may name a machine that was never started. -/
  neverLast : ∀ t ∈ ts.dropLast, h.passes t.entry

/-! ## `machine-autostart` -/

theorem callsFor_append (m : String) (calls : List String) (e : Entry) :
    callsFor m (calls ++ [e.text]) = callsFor m calls + if e.name = m then 1 else 0 := by
  rw [callsFor, List.countP_append, List.countP_singleton, machineOf_text]
  simp [callsFor]

/-- Whether the loop starts the machine of a line: nothing runs there, unless an earlier line
    has started it and it is up. -/
def startsNow (h : Shelf) (calls : List String) (t : Turn) : Bool :=
  ((h t.entry.name).any fun d => !d.live) && !(t.up && decide (0 < callsFor t.entry.name calls))

theorem autostartBody_eq (h : Shelf) (calls : List String) (t : Turn) :
    autostartBody h calls (t.entry.text, t.up) =
      some (if startsNow h calls t then calls ++ [t.entry.text] else calls) := by
  have hany : (calls.any fun c => machineOf c = t.entry.name) =
      decide (0 < callsFor t.entry.name calls) := by
    rw [Bool.eq_iff_iff, decide_eq_true_eq, callsFor, List.countP_pos_iff, List.any_eq_true]
  rw [autostartBody, startsNow]
  simp only [machineOf_text, hany]
  cases h t.entry.name with
  | none => rfl
  | some d =>
    have hlive : ((some d : Option Place).any fun d => !d.live) = !d.live := rfl
    rw [hlive]
    cases hd : d.live
    · cases t.up && decide (0 < callsFor t.entry.name calls) <;> simp [hd]
    · simp [hd]

/-- The calls after one more line. -/
theorem readLoop_autostart_cons (h : Shelf) (calls : List String) (t : Turn) (ts : List Turn) :
    readLoop (autostartBody h) calls ((t :: ts).map fun t => (t.entry.text, t.up)) =
      readLoop (autostartBody h) (if startsNow h calls t then calls ++ [t.entry.text] else calls)
        (ts.map fun t => (t.entry.text, t.up)) := by
  rw [List.map_cons, readLoop, autostartBody_eq]

/-- No line ends the loop. -/
theorem autostart_unread (h : Shelf) (calls : List String) (ts : List Turn) :
    (readLoop (autostartBody h) calls (ts.map fun t => (t.entry.text, t.up))).2 = [] := by
  induction ts generalizing calls with
  | nil => rfl
  | cons t ts ih => rw [readLoop_autostart_cons, ih]

/-- The lines that name a machine. -/
def linesOf (m : String) (ts : List Turn) : List Turn := ts.filter (·.entry.name = m)

theorem linesOf_cons_self (t : Turn) (ts : List Turn) :
    linesOf t.entry.name (t :: ts) = t :: linesOf t.entry.name ts := by
  simp [linesOf]

theorem linesOf_cons_of_ne {m : String} {t : Turn} (h : t.entry.name ≠ m) (ts : List Turn) :
    linesOf m (t :: ts) = linesOf m ts := by
  simp [linesOf, h]

theorem linesOf_eq_nil_iff {m : String} {ts : List Turn} :
    linesOf m ts = [] ↔ m ∉ ts.map (·.entry.name) := by
  simp [linesOf, List.filter_eq_nil_iff]

/-- A machine that runs, or is unknown, is not started. -/
theorem callsFor_of_live {h : Shelf} {m : String} (hm : ((h m).any fun d => !d.live) = false)
    (calls : List String) (ts : List Turn) :
    callsFor m (readLoop (autostartBody h) calls (ts.map fun t => (t.entry.text, t.up))).1 =
      callsFor m calls := by
  induction ts generalizing calls with
  | nil => rfl
  | cons t ts ih =>
    rw [readLoop_autostart_cons, ih]
    by_cases hname : t.entry.name = m
    · have hnow : startsNow h calls t = false := by rw [startsNow, hname, hm, Bool.false_and]
      rw [hnow]
      rfl
    · split_ifs
      · rw [callsFor_append, if_neg hname, Nat.add_zero]
      · rfl

/-- One that has been started is started again at each line that does not find it up. -/
theorem callsFor_of_started {h : Shelf} {m : String} (hm : ((h m).any fun d => !d.live) = true)
    {calls : List String} (hcalls : 0 < callsFor m calls) (ts : List Turn) :
    callsFor m (readLoop (autostartBody h) calls (ts.map fun t => (t.entry.text, t.up))).1 =
      callsFor m calls + (linesOf m ts).countP fun t => !t.up := by
  induction ts generalizing calls with
  | nil => rfl
  | cons t ts ih =>
    rw [readLoop_autostart_cons]
    by_cases hname : t.entry.name = m
    · have hnow : startsNow h calls t = !t.up := by
        rw [startsNow, hname, hm, decide_eq_true hcalls, Bool.and_true, Bool.true_and]
      subst hname
      rw [hnow, linesOf_cons_self, List.countP_cons]
      cases t.up with
      | true => exact ih hcalls
      | false =>
        have hnext : callsFor t.entry.name (calls ++ [t.entry.text]) =
            callsFor t.entry.name calls + 1 := by rw [callsFor_append, if_pos rfl]
        simp only [Bool.not_false, if_true]
        rw [ih (by omega), hnext]
        omega
    · rw [linesOf_cons_of_ne hname]
      have hsame : callsFor m (if startsNow h calls t then calls ++ [t.entry.text] else calls) =
          callsFor m calls := by
        split_ifs
        · rw [callsFor_append, if_neg hname, Nat.add_zero]
        · rfl
      rw [ih (by rw [hsame]; exact hcalls), hsame]

/-- One that has not been started is started at its first line. -/
theorem callsFor_of_fresh {h : Shelf} {m : String} (hm : ((h m).any fun d => !d.live) = true)
    {calls : List String} (hcalls : callsFor m calls = 0) (ts : List Turn) :
    callsFor m (readLoop (autostartBody h) calls (ts.map fun t => (t.entry.text, t.up))).1 =
      if linesOf m ts = [] then 0 else 1 + (linesOf m ts).tail.countP fun t => !t.up := by
  induction ts generalizing calls with
  | nil => exact hcalls
  | cons t ts ih =>
    rw [readLoop_autostart_cons]
    by_cases hname : t.entry.name = m
    · have hnow : startsNow h calls t = true := by
        rw [startsNow, hname, hm, hcalls]
        simp
      subst hname
      have hnext : callsFor t.entry.name (calls ++ [t.entry.text]) = 1 := by
        rw [callsFor_append, if_pos rfl, hcalls]
      rw [if_pos hnow, callsFor_of_started hm (by omega), hnext, linesOf_cons_self]
      simp
    · rw [linesOf_cons_of_ne hname]
      apply ih
      split_ifs
      · rw [callsFor_append, if_neg hname, hcalls]
      · exact hcalls

/-- The number of calls of `boot.real` for a name. -/
theorem callsFor_autostart (h : Shelf) (ts : List Turn) (m : String) :
    callsFor m (autostart h ts).1 =
      if m ∈ ts.map (·.entry.name) ∧ (h m).any (fun d => !d.live) then
        1 + (linesOf m ts).tail.countP fun t => !t.up
      else 0 := by
  rw [autostart]
  cases hm : (h m).any fun d => !d.live with
  | false =>
    rw [callsFor_of_live hm, if_neg (by simp)]
    rfl
  | true =>
    rw [callsFor_of_fresh hm rfl]
    by_cases hnil : linesOf m ts = []
    · rw [if_pos hnil, if_neg fun hin => linesOf_eq_nil_iff.mp hnil hin.1]
    · have hin : m ∈ ts.map (·.entry.name) := not_not.mp fun h => hnil (linesOf_eq_nil_iff.mpr h)
      rw [if_neg hnil, if_pos ⟨hin, rfl⟩]

theorem Place.not_live_iff (d : Place) : (!d.live) = true ↔ d = .other ∨ d.isDown = true := by
  cases d <;> simp [live, isDown]

/-- `machine-autostart` acts exactly where it should if only machines are listed, and one
    that is listed again is up by then. -/
theorem starts_iff (h : Shelf) (ts : List Turn) :
    OneCallEach Place.isDown h ts (autostart h ts).1 ↔
      (∀ t ∈ ts, h t.entry.name ≠ some .other) ∧
        ∀ m, (h m).any Place.isDown → ∀ t ∈ (linesOf m ts).tail, t.up := by
  constructor
  · intro hone
    constructor
    · intro t ht hother
      have hcount := hone t.entry.name
      have hin : t.entry.name ∈ ts.map (·.entry.name) := List.mem_map_of_mem ht
      rw [callsFor_autostart, if_pos ⟨hin, by rw [hother]; rfl⟩,
        if_neg fun hdown => by rw [hother] at hdown; exact absurd hdown.2 (by decide)] at hcount
      omega
    · intro m hm t ht
      have hcount := hone m
      have hlines : linesOf m ts ≠ [] := by
        intro hnil
        rw [hnil] at ht
        cases ht
      have hin : m ∈ ts.map (·.entry.name) :=
        not_not.mp fun hnot => hlines (linesOf_eq_nil_iff.mpr hnot)
      have hlive : (h m).any (fun d => !d.live) = true := by
        obtain ⟨d, hd, hdown⟩ := (Option.any_eq_true ..).mp hm
        exact (Option.any_eq_true ..).mpr ⟨d, hd, d.not_live_iff.mpr (.inr hdown)⟩
      rw [callsFor_autostart, if_pos ⟨hin, hlive⟩, if_pos ⟨hin, hm⟩] at hcount
      have hzero : ((linesOf m ts).tail.countP fun t => !t.up) = 0 := by omega
      simpa using List.countP_eq_zero.mp hzero t ht
  · rintro ⟨hmachines, hup⟩ m
    rw [callsFor_autostart]
    by_cases hdown : m ∈ ts.map (·.entry.name) ∧ (h m).any Place.isDown
    · have hlive : (h m).any (fun d => !d.live) = true := by
        obtain ⟨d, hd, hdown⟩ := (Option.any_eq_true ..).mp hdown.2
        exact (Option.any_eq_true ..).mpr ⟨d, hd, d.not_live_iff.mpr (.inr hdown)⟩
      have hzero : ((linesOf m ts).tail.countP fun t => !t.up) = 0 := by
        apply List.countP_eq_zero.mpr
        intro t ht
        simp [hup m hdown.2 t ht]
      rw [if_pos hdown, if_pos ⟨hdown.1, hlive⟩, hzero]
    · have hnot : ¬ (m ∈ ts.map (·.entry.name) ∧ (h m).any fun d => !d.live) := by
        rintro ⟨hin, hlive⟩
        obtain ⟨d, hd, hd'⟩ := (Option.any_eq_true ..).mp hlive
        obtain ⟨t, ht, rfl⟩ := List.mem_map.mp hin
        rcases d.not_live_iff.mp hd' with rfl | hd'
        · exact hmachines t ht hd
        · exact hdown ⟨hin, (Option.any_eq_true ..).mpr ⟨d, hd, hd'⟩⟩
      rw [if_neg hdown, if_neg hnot]

/-! ## `autoshutdown` -/

theorem shutdownGa_of_not_live {obeys : String → Bool} {h : Shelf} {m : String} {d : Place}
    (hm : h m = some d) (hd : d.live = false) : shutdownGa obeys h m = h := by
  rw [shutdownGa, hm]
  cases d with
  | running p => cases hd
  | _ => rfl

/-- The calls are for the stale pid files up to the first line the loop does not get past. -/
theorem readLoop_autoshutdown (obeys : String → Bool) (h : Shelf) (calls : List String)
    (es : List Entry) :
    readLoop (autoshutdownBody obeys) (h, calls) (es.map Entry.text) =
      ((h, calls ++ ((es.takeWhile h.passes).filter h.stale).map Entry.text),
        (es.dropWhile h.passes).tail.map Entry.text) := by
  induction es generalizing calls with
  | nil => simp [readLoop]
  | cons e es ih =>
    rw [List.map_cons, readLoop, autoshutdownBody, machineOf_text]
    cases hplace : h e.name with
    | none =>
      have hpasses : h.passes e = true := by rw [Shelf.passes, hplace]; rfl
      have hstale : h.stale e = false := by rw [Shelf.stale, hplace]; rfl
      simp [hplace, hpasses, hstale, ih]
    | some d =>
      cases hpid : d.pid with
      | none =>
        have hpasses : h.passes e = false := by simp [Shelf.passes, hplace, hpid]
        simp [hplace, hpid, hpasses]
      | some p =>
        have hpasses : h.passes e = true := by simp [Shelf.passes, hplace, hpid]
        cases hlive : d.live with
        | true =>
          have hstale : h.stale e = false := by simp [Shelf.stale, hplace, hlive]
          simp [hplace, hpid, hlive, hpasses, hstale, ih]
        | false =>
          have hstale : h.stale e = true := by simp [Shelf.stale, hplace, hpid, hlive]
          simp [hplace, hpid, hlive, hpasses, hstale, ih,
            shutdownGa_of_not_live hplace hlive]

theorem autoshutdown_eq (obeys : String → Bool) (h : Shelf) (es : List Entry) :
    autoshutdown obeys h es = (((es.takeWhile h.passes).filter h.stale).map Entry.text,
      (es.dropWhile h.passes).tail.map Entry.text) := by
  rw [autoshutdown, readLoop_autoshutdown, List.nil_append]

theorem tail_dropWhile_eq_nil {α : Type*} (p : α → Bool) (l : List α) :
    (l.dropWhile p).tail = [] ↔ ∀ a ∈ l.dropLast, p a := by
  induction l with
  | nil => simp
  | cons a l ih =>
    cases l with
    | nil => cases h : p a <;> simp [h]
    | cons b l =>
      cases h : p a with
      | true => simpa [h] using ih
      | false => simp [h]

/-- The loop comes to the end of the file if a machine without a pid file is on its last
    line or nowhere. -/
theorem stopsAll_iff (obeys : String → Bool) (h : Shelf) (ts : List Turn) :
    (autoshutdown obeys h (ts.map Turn.entry)).2 = [] ↔ ∀ t ∈ ts.dropLast, h.passes t.entry := by
  rw [autoshutdown_eq, List.map_eq_nil_iff, tail_dropWhile_eq_nil, ← List.map_dropLast,
    List.forall_mem_map]

/-- `autoshutdown` acts exactly where it should if there is nothing for it to do, and no
    stale pid file in its way. -/
theorem stops_iff (obeys : String → Bool) (h : Shelf) (ts : List Turn) :
    OneCallEach Place.live h ts (autoshutdown obeys h (ts.map Turn.entry)).1 ↔
      (∀ t ∈ ts, (h t.entry.name).any Place.live = false) ∧
        ∀ t ∈ ts.takeWhile (h.passes ·.entry), h.stale t.entry = false := by
  have hcalls : (autoshutdown obeys h (ts.map Turn.entry)).1 =
      ((ts.takeWhile (h.passes ·.entry)).filter (h.stale ·.entry)).map (·.entry.text) := by
    rw [autoshutdown_eq, List.takeWhile_map, List.filter_map, List.map_map]
    rfl
  rw [hcalls]
  constructor
  · intro hone
    have hnone : ∀ t ∈ ts, (h t.entry.name).any Place.live = false := by
      intro t ht
      by_contra hlive
      rw [Bool.not_eq_false] at hlive
      have hcount := hone t.entry.name
      have hin : t.entry.name ∈ ts.map (·.entry.name) := List.mem_map_of_mem ht
      rw [if_pos ⟨hin, hlive⟩] at hcount
      have hpos : 0 < callsFor t.entry.name
          (((ts.takeWhile (h.passes ·.entry)).filter (h.stale ·.entry)).map (·.entry.text)) := by
        omega
      -- a call is for a stale pid file, and this machine runs
      obtain ⟨vm, hvm, hname⟩ := List.countP_pos_iff.mp hpos
      obtain ⟨t', ht', rfl⟩ := List.mem_map.mp hvm
      have hstale := (List.mem_filter.mp ht').2
      simp only [machineOf_text, decide_eq_true_eq] at hname
      rw [Shelf.stale, hname] at hstale
      obtain ⟨d, hd, hd'⟩ := (Option.any_eq_true ..).mp hlive
      simp [hd, hd'] at hstale
    refine ⟨hnone, fun t ht => ?_⟩
    by_contra hstale
    rw [Bool.not_eq_false] at hstale
    have hcount := hone t.entry.name
    have hts := (List.takeWhile_sublist _).subset ht
    rw [if_neg fun hlive => by rw [hnone t hts] at hlive; exact absurd hlive.2 (by decide)] at hcount
    have hmem : t.entry.text ∈
        ((ts.takeWhile (h.passes ·.entry)).filter (h.stale ·.entry)).map (·.entry.text) :=
      List.mem_map_of_mem (List.mem_filter.mpr ⟨ht, hstale⟩)
    exact List.countP_eq_zero.mp hcount _ hmem (by simp [machineOf_text])
  · rintro ⟨hnone, hstale⟩ m
    have hempty : (ts.takeWhile (h.passes ·.entry)).filter (h.stale ·.entry) = [] := by
      apply List.filter_eq_nil_iff.mpr
      intro t ht
      rw [hstale t ht]
      decide
    rw [hempty, if_neg]
    · rfl
    · rintro ⟨hin, hlive⟩
      obtain ⟨t, ht, rfl⟩ := List.mem_map.mp hin
      rw [hnone t ht] at hlive
      cases hlive

/-- **Both scripts act on exactly the right machines only for the orderly files and hosts.**
    In particular no listed machine may run. -/
theorem acts_exactly_iff (obeys : String → Bool) (h : Shelf) (ts : List Turn) :
    ActsExactly obeys h ts ↔ Orderly h ts := by
  have hstarts := starts_iff h ts
  have hstops := stops_iff obeys h ts
  have hstopsAll := stopsAll_iff obeys h ts
  constructor
  · intro hright
    obtain ⟨hmachines, hup⟩ := hstarts.mp hright.starts
    obtain ⟨hnone, hstale⟩ := hstops.mp hright.stops
    exact ⟨hmachines, hup, hnone, hstale, hstopsAll.mp hright.stopsAll⟩
  · intro horderly
    exact ⟨hstarts.mpr ⟨horderly.machines, horderly.up⟩, autostart_unread h [] ts,
      hstops.mpr ⟨horderly.noneRuns, horderly.noneStale⟩, hstopsAll.mpr horderly.neverLast⟩

/-- The line `web`. -/
def webLine : Entry where
  name := "web"
  seat := none
  named := by decide
  notOption := by decide
  plain := by simp [shellChars]
  seatPlain := by simp

/-- With `web` listed and running, `autoshutdown` calls nothing. -/
theorem running_not_shut_down :
    ¬ ActsExactly (fun _ => true) (fun m => if m = "web" then some (.running 7) else none)
      [⟨webLine, false⟩] := by
  intro hright
  have hnone := ((stops_iff _ _ _).mp hright.stops).1 ⟨webLine, false⟩ (List.mem_singleton_self _)
  exact absurd hnone (by decide)

end KvmOsx.Host
