import KvmOsx.Lib.Runs

/-!
# The marker of paused machines

`machine-pause` writes `var/frozen` and tells QEMU to stop, `machine-continue` tells
QEMU to go on and removes the marker, `machine-pause-running` and
`machine-continue-frozen` do so for all machines that run, or have the marker. The
scripts reach QEMU through `qmp-send`, which takes a machine's name.

* `VmHost`, `PauseState`, `step`: the host, what changes, and the scripts.
* `step_view`: what a script does to one running machine and its marker.
* `frozen_honest_iff`: when the markers of a run tell which machines are paused.
-/

namespace KvmOsx.Host

open Text Runs

/-! ## The host -/

/-- `MACHINE=${WANT_MACHINE:-default}`, with `WANT_MACHINE` the part of the argument in
    front of the first colon. -/
def machineArg (arg : String) : String :=
  let want := cut ':' 1 (echo arg)
  if want = "" then "default" else want

/-- `/srv/kvm/vms/MACHINE`. -/
def machinePath (m : String) : String := "/srv/kvm/vms/" ++ m

/-- `$MACHINE_PATH/var/frozen`. -/
def frozenFile (m : String) : String := machinePath m ++ "/var/frozen"

/-- What stays as it is: the machines, in the order of their directories below
    `/srv/kvm/vms`, which of them have a `config` and a `var`, which run, their pid files,
    and the entries of `/proc`. The scripts take each machine's name for that machine, and
    a QEMU that runs wrote its pid file. -/
structure VmHost where
  dirs : List String
  config : String → Bool
  var : String → Bool
  running : String → Bool
  pidFile : String → Option String
  proc : String → Bool
  slash : ∀ m ∈ dirs, '/' ∉ m.toList
  name : ∀ m ∈ dirs, machineArg m = m
  running_dir : ∀ m, running m = true → m ∈ dirs ∧ config m = true ∧ var m = true
  running_pid : ∀ m, running m = true → ∃ p, pidFile m = some p ∧ proc p = true

/-- What changes: which machines QEMU has paused, and the marker files by their paths,
    with their executable bit. -/
structure PauseState where
  paused : String → Bool
  files : String → Option Bool

/-- The directory and its `config` are there. -/
def VmHost.known (h : VmHost) (m : String) : Bool := m ∈ h.dirs && h.config m

/-- `[ -e "/proc/$p" ]`; without a text this is `/proc/` itself. -/
def VmHost.inProc (h : VmHost) (p : String) : Bool := p = "" || h.proc p

/-! ## The scripts -/

/-- The QMP commands. -/
inductive QmpCmd
  | stop
  | cont
  deriving DecidableEq, Repr

/-- `qmp-send MACHINE CMD`; QEMU obeys. Without such a machine it exits with status 1 or 2. -/
def qmpSend (h : VmHost) (arg : String) (c : QmpCmd) (s : PauseState) : PauseState :=
  let m := machineArg arg
  if h.known m && h.running m then
    { s with paused := Function.update s.paused m (c = .stop) }
  else s

/-- `machine-pause`: the shell creates the marker, then `qmp-send` is called with the path
    of a socket (bin/machine-pause:36-37). -/
def machinePause (h : VmHost) (arg : String) (s : PauseState) : PauseState :=
  let m := machineArg arg
  if h.known m && h.var m then
    qmpSend h (machinePath m ++ "/var/control") .stop
      { s with
        files := Function.update s.files (frozenFile m)
          (some ((s.files (frozenFile m)).getD false)) }
  else s

/-- `machine-continue`: the marker is removed if it is executable (bin/machine-continue:38-40). -/
def machineContinue (h : VmHost) (arg : String) (s : PauseState) : PauseState :=
  let m := machineArg arg
  if h.known m then
    let s := qmpSend h m .cont s
    if s.files (frozenFile m) = some true then
      { s with files := Function.update s.files (frozenFile m) none }
    else s
  else s

/-- `machine-list-running`. -/
def machineListRunning (h : VmHost) : List String :=
  h.dirs.filter fun m => (h.pidFile m).elim false h.inProc

/-- `machine-list-frozen`; a missing pid file reads as the empty text. -/
def machineListFrozen (h : VmHost) (s : PauseState) : List String :=
  h.dirs.filter fun m => (s.files (frozenFile m)).isSome && h.inProc ((h.pidFile m).getD "")

/-- `machine-pause-running`. -/
def machinePauseRunning (h : VmHost) (s : PauseState) : PauseState :=
  (machineListRunning h).foldl (fun s m => machinePause h m s) s

/-- `machine-continue-frozen`. -/
def machineContinueFrozen (h : VmHost) (s : PauseState) : PauseState :=
  (machineListFrozen h s).foldl (fun s m => machineContinue h m s) s

/-- `machine-state`: `$VAR_PATH` is set nowhere, so the file is `/frozen`
    (bin/machine-state:36-37). -/
def machineState (h : VmHost) (arg : String) (s : PauseState) : PauseState :=
  if h.known (machineArg arg) then { s with files := Function.update s.files "/frozen" none } else s

/-- A call of one of the scripts. -/
inductive PauseAction
  | pause (arg : String)
  | pauseRunning
  | cont (arg : String)
  | contFrozen
  | state (arg : String)
  | listFrozen
  deriving DecidableEq, Repr

/-- One call. -/
def pauseStep (h : VmHost) (s : PauseState) : PauseAction → Option PauseState
  | .pause arg => some (machinePause h arg s)
  | .pauseRunning => some (machinePauseRunning h s)
  | .cont arg => some (machineContinue h arg s)
  | .contFrozen => some (machineContinueFrozen h s)
  | .state arg => some (machineState h arg s)
  | .listFrozen => some s

/-! ## One machine -/

/-- What is to be seen of a machine: whether it is paused, and its marker. -/
def PauseState.view (s : PauseState) (m : String) : Bool × Option Bool :=
  (s.paused m, s.files (frozenFile m))

/-- What `machine-pause` does to a machine. -/
def pauseView (v : Bool × Option Bool) : Bool × Option Bool := (v.1, some (v.2.getD false))

/-- What `machine-continue` does to a machine. -/
def contView (v : Bool × Option Bool) : Bool × Option Bool :=
  (false, if v.2 = some true then none else v.2)

theorem pauseView_idem (v : Bool × Option Bool) : pauseView (pauseView v) = pauseView v := rfl

theorem contView_idem (v : Bool × Option Bool) : contView (contView v) = contView v := by
  obtain ⟨p, f⟩ := v
  by_cases hf : f = some true
  · simp [contView, hf]
  · simp [contView, hf]

theorem frozenFile_inj {m n : String} : frozenFile m = frozenFile n ↔ m = n := by
  rw [frozenFile, frozenFile, machinePath, machinePath, String.append_left_inj,
    String.append_right_inj]

theorem frozenFile_ne (m : String) : frozenFile m ≠ "/frozen" := by
  intro h
  have hlist := congrArg String.toList h
  simp [frozenFile, machinePath] at hlist

/-- An absolute path is taken for a machine name with a slash in it. -/
theorem slash_mem_machineArg {t : String} (rest : List Char) (ht : t.toList = '/' :: rest) :
    '/' ∈ (machineArg t).toList := by
  have hecho : echo t = t := by simp [echo, ht]
  have hcut : '/' ∈ (cut ':' 1 t).toList := by
    by_cases hcolon : ':' ∈ t.toList
    · obtain ⟨u, v, huv, hu⟩ := List.eq_append_cons_of_mem hcolon
      have hfield : cut ':' 1 t = String.ofList u :=
        cut_one (v := String.ofList v) (by simpa using huv) (by simpa using hu)
      rw [hfield, String.toList_ofList]
      rw [ht] at huv
      cases u with
      | nil => simp at huv
      | cons c u =>
        obtain ⟨rfl, -⟩ := List.cons.inj huv
        exact List.mem_cons_self
    · rw [cut, if_neg hcolon, ht]
      exact List.mem_cons_self
  have hne : cut ':' 1 t ≠ "" := by
    intro h
    rw [h] at hcut
    cases hcut
  rwa [machineArg, hecho, if_neg hne]

/-- No machine has the name of a socket. -/
theorem known_control (h : VmHost) (m : String) :
    h.known (machineArg (machinePath m ++ "/var/control")) = false := by
  have hslash : '/' ∈ (machineArg (machinePath m ++ "/var/control")).toList :=
    slash_mem_machineArg ("srv/kvm/vms/".toList ++ m.toList ++ "/var/control".toList)
      (by simp [machinePath])
  have hdir : machineArg (machinePath m ++ "/var/control") ∉ h.dirs := fun hd => h.slash _ hd hslash
  simp [VmHost.known, hdir]

section Views

variable {h : VmHost} {s : PauseState} {m : String}

theorem VmHost.known_of_running (hm : h.running m = true) : h.known m = true := by
  obtain ⟨hdir, hconfig, -⟩ := h.running_dir m hm
  simp [VmHost.known, hdir, hconfig]

/-- `machine-pause` leaves a marker; QEMU hears nothing. -/
theorem machinePause_view (arg : String) (hm : h.running m = true) :
    (machinePause h arg s).view m =
      if machineArg arg = m then pauseView (s.view m) else s.view m := by
  unfold machinePause
  dsimp only
  split_ifs with hthere heq heq
  · rw [qmpSend, known_control, Bool.false_and, if_neg (by decide)]
    simp [PauseState.view, pauseView, heq]
  · rw [qmpSend, known_control, Bool.false_and, if_neg (by decide)]
    have hne : frozenFile m ≠ frozenFile (machineArg arg) := fun h => heq (frozenFile_inj.mp h).symm
    simp [PauseState.view, hne]
  · -- a machine that runs is there
    have hvar : h.var m = true := (h.running_dir m hm).2.2
    rw [heq, h.known_of_running hm, hvar] at hthere
    exact absurd rfl hthere
  · rfl

theorem machineContinue_view (arg : String) (hm : h.running m = true) :
    (machineContinue h arg s).view m =
      if machineArg arg = m then contView (s.view m) else s.view m := by
  unfold machineContinue
  dsimp only
  by_cases heq : machineArg arg = m
  · have hsend : qmpSend h m .cont s = { s with paused := Function.update s.paused m false } := by
      rw [qmpSend, h.name m (h.running_dir m hm).1, h.known_of_running hm, hm]
      simp
    rw [heq, if_pos (h.known_of_running hm), hsend, if_pos rfl]
    by_cases hx : s.files (frozenFile m) = some true
    · simp [PauseState.view, contView, hx]
    · simp [PauseState.view, contView, hx]
  · rw [if_neg heq]
    by_cases hk : h.known (machineArg arg) = true
    · have hdir : machineArg arg ∈ h.dirs := by
        simp only [VmHost.known, Bool.and_eq_true, decide_eq_true_eq] at hk
        exact hk.1
      have hsend : (qmpSend h (machineArg arg) .cont s).view m = s.view m := by
        rw [qmpSend, h.name _ hdir]
        split_ifs
        · simp [PauseState.view, Ne.symm heq]
        · rfl
      have hne : frozenFile m ≠ frozenFile (machineArg arg) := fun h =>
        heq (frozenFile_inj.mp h).symm
      rw [if_pos hk, ← hsend]
      split_ifs
      · simp [PauseState.view, hne]
      · rfl
    · rw [if_neg hk]

theorem machineState_view (arg : String) : (machineState h arg s).view m = s.view m := by
  unfold machineState
  split_ifs
  · simp [PauseState.view, frozenFile_ne]
  · rfl

/-- A loop over machines, whose body does `F` to the machine it is called for, once or
    more often with the same result. -/
theorem foldl_view {act : PauseState → String → PauseState}
    {F : Bool × Option Bool → Bool × Option Bool} (hF : ∀ v, F (F v) = F v)
    (hact : ∀ s arg, (act s arg).view m = if machineArg arg = m then F (s.view m) else s.view m)
    (args : List String) (s : PauseState) :
    (args.foldl act s).view m = if m ∈ args.map machineArg then F (s.view m) else s.view m := by
  induction args generalizing s with
  | nil => rfl
  | cons arg args ih =>
    rw [List.foldl_cons, ih, hact]
    by_cases harg : machineArg arg = m
    · by_cases hrest : m ∈ args.map machineArg
      · simp only [harg, hrest, if_true, hF, List.map_cons, List.mem_cons, true_or]
      · simp only [harg, hrest, if_true, if_false, List.map_cons, List.mem_cons, true_or]
    · by_cases hrest : m ∈ args.map machineArg
      · simp only [harg, hrest, if_true, if_false, List.map_cons, List.mem_cons, or_true]
      · have hne : ¬ m = machineArg arg := fun h => harg h.symm
        simp only [harg, hrest, hne, if_false, List.map_cons, List.mem_cons, or_self]

end Views

/-! ## Steps -/

/-- The machines a call is for. -/
def targets (h : VmHost) (s : PauseState) : PauseAction → List String
  | .pause arg => [machineArg arg]
  | .pauseRunning => (machineListRunning h).map machineArg
  | .cont arg => [machineArg arg]
  | .contFrozen => (machineListFrozen h s).map machineArg
  | .state _ => []
  | .listFrozen => []

/-- What a call does to each of them. -/
def targetView : PauseAction → Bool × Option Bool → Bool × Option Bool
  | .pause _ => pauseView
  | .pauseRunning => pauseView
  | .cont _ => contView
  | .contFrozen => contView
  | .state _ => id
  | .listFrozen => id

/-- Everything a call does to a machine that runs. -/
theorem step_view {h : VmHost} {s s' : PauseState} {a : PauseAction} {m : String}
    (hm : h.running m = true) (hstep : pauseStep h s a = some s') :
    s'.view m = if m ∈ targets h s a then targetView a (s.view m) else s.view m := by
  cases a with
  | pause arg =>
    obtain rfl := Option.some.inj hstep
    simpa [targets, targetView, eq_comm] using machinePause_view (s := s) arg hm
  | pauseRunning =>
    obtain rfl := Option.some.inj hstep
    exact foldl_view pauseView_idem (fun s arg => machinePause_view arg hm) _ s
  | cont arg =>
    obtain rfl := Option.some.inj hstep
    simpa [targets, targetView, eq_comm] using machineContinue_view (s := s) arg hm
  | contFrozen =>
    obtain rfl := Option.some.inj hstep
    exact foldl_view contView_idem (fun s arg => machineContinue_view arg hm) _ s
  | state arg =>
    obtain rfl := Option.some.inj hstep
    exact machineState_view arg
  | listFrozen =>
    obtain rfl := Option.some.inj hstep
    rfl

/-- A running machine is listed. -/
theorem mem_listRunning {h : VmHost} {m : String} (hm : h.running m = true) :
    m ∈ (machineListRunning h).map machineArg := by
  obtain ⟨hdir, -⟩ := h.running_dir m hm
  obtain ⟨p, hp, hproc⟩ := h.running_pid m hm
  refine List.mem_map.mpr ⟨m, List.mem_filter.mpr ⟨hdir, ?_⟩, h.name m hdir⟩
  simp [hp, VmHost.inProc, hproc]

/-- A running machine with a marker is listed. -/
theorem mem_listFrozen {h : VmHost} {s : PauseState} {m : String} (hm : h.running m = true)
    (hf : (s.files (frozenFile m)).isSome = true) : m ∈ (machineListFrozen h s).map machineArg := by
  obtain ⟨hdir, -⟩ := h.running_dir m hm
  obtain ⟨p, hp, hproc⟩ := h.running_pid m hm
  refine List.mem_map.mpr ⟨m, List.mem_filter.mpr ⟨hdir, ?_⟩, h.name m hdir⟩
  simp [hp, VmHost.inProc, hproc, hf]

/-! ## Truth of the markers -/

/-- A running machine has a marker exactly if it is paused. -/
def Truthful (h : VmHost) (s : PauseState) : Prop :=
  ∀ m, h.running m = true → ((s.files (frozenFile m)).isSome = true ↔ s.paused m = true)

/-- The marker of a paused machine may go: `machine-continue` can remove it. -/
def Removable (s : PauseState) (m : String) : Prop :=
  s.paused m = true → s.files (frozenFile m) = some true

/-- What a call may do to a machine: pause it if it is paused already, and continue it if
    it is not paused or its marker can be removed. -/
def HarmlessFor (s : PauseState) (m : String) : PauseAction → Prop
  | .pause _ => s.paused m = true
  | .pauseRunning => s.paused m = true
  | .cont _ => Removable s m
  | .contFrozen => Removable s m
  | .state _ => True
  | .listFrozen => True

/-- The call may do what it does to the running machines it is for. -/
def Harmless (h : VmHost) (s : PauseState) (a : PauseAction) : Prop :=
  ∀ m ∈ targets h s a, h.running m = true → HarmlessFor s m a

/-- The marker of a view tells the truth. -/
def TruthfulView (v : Bool × Option Bool) : Prop := v.2.isSome = true ↔ v.1 = true

theorem pauseView_truthful (v : Bool × Option Bool) : TruthfulView (pauseView v) ↔ v.1 = true := by
  simp [TruthfulView, pauseView]

theorem contView_truthful {v : Bool × Option Bool} (hv : TruthfulView v) :
    TruthfulView (contView v) ↔ (v.1 = true → v.2 = some true) := by
  obtain ⟨p, f⟩ := v
  cases p <;> cases f with
  | none => simp [TruthfulView, contView] at hv ⊢
  | some x => cases x <;> simp [TruthfulView, contView] at hv ⊢

theorem targetView_truthful {s : PauseState} {m : String} (hv : TruthfulView (s.view m))
    (a : PauseAction) : TruthfulView (targetView a (s.view m)) ↔ HarmlessFor s m a := by
  cases a with
  | pause | pauseRunning => exact pauseView_truthful _
  | cont | contFrozen => exact contView_truthful hv
  | state | listFrozen => exact iff_of_true hv trivial

/-- From a state with true markers, one call leaves true markers exactly if it is harmless. -/
theorem truthful_step {h : VmHost} {s s' : PauseState} {a : PauseAction} (hs : Truthful h s)
    (hstep : pauseStep h s a = some s') : Truthful h s' ↔ Harmless h s a := by
  have hview : ∀ m, h.running m = true → (TruthfulView (s'.view m) ↔
      (m ∈ targets h s a → HarmlessFor s m a)) := by
    intro m hm
    have hold : TruthfulView (s.view m) := hs m hm
    rw [step_view hm hstep]
    split_ifs with hmem
    · simp [hmem, targetView_truthful hold]
    · simp [hmem, hold]
  constructor
  · intro h' m hmem hm
    exact (hview m hm).mp (h' m hm) hmem
  · intro h' m hm
    exact (hview m hm).mpr fun hmem => h' m hmem hm

/-! ## Resuming -/

/-- `machine-continue-frozen` resumes the machine. -/
def Resumed (h : VmHost) (s : PauseState) (m : String) : Prop :=
  s.paused m = true ∧ (machineContinueFrozen h s).paused m = false

/-- After `machine-pause-running`, `machine-continue-frozen` resumes exactly the running
    machines that are paused, and a second one resumes none. -/
structure Resumes (h : VmHost) (s : PauseState) : Prop where
  first : ∀ m, h.running m = true →
    (Resumed h (machinePauseRunning h s) m ↔ (machinePauseRunning h s).paused m = true)
  second : ∀ m, h.running m = true →
    ¬ Resumed h (machineContinueFrozen h (machinePauseRunning h s)) m

/-- Every running machine has a marker after `machine-pause-running`, so that none is
    paused after `machine-continue-frozen`. -/
theorem continueFrozen_paused (h : VmHost) (s : PauseState) {m : String} (hm : h.running m = true) :
    (machineContinueFrozen h (machinePauseRunning h s)).paused m = false := by
  have hpause : (machinePauseRunning h s).view m = pauseView (s.view m) := by
    have hview := step_view (s := s) (a := .pauseRunning) hm rfl
    rwa [if_pos (show m ∈ targets h s .pauseRunning from mem_listRunning hm)] at hview
  have hmarker : ((machinePauseRunning h s).files (frozenFile m)).isSome = true :=
    congrArg (fun v => v.2.isSome) hpause
  have hcont := step_view (s := machinePauseRunning h s) (a := .contFrozen) hm rfl
  rw [if_pos (show m ∈ targets h _ .contFrozen from mem_listFrozen hm hmarker)] at hcont
  exact congrArg Prod.fst hcont

theorem resumes (h : VmHost) (s : PauseState) : Resumes h s where
  first m hm := and_iff_left (continueFrozen_paused h s hm)
  second m hm hr := by
    have hnot := continueFrozen_paused h s hm
    rw [hr.1] at hnot
    cases hnot

/-! ## The main result -/

/-- The markers tell the truth, and so the machines can be resumed. -/
structure FrozenHonest (h : VmHost) (s : PauseState) : Prop where
  truthful : Truthful h s
  resumes : Resumes h s

theorem frozenHonest_iff {h : VmHost} {s : PauseState} : FrozenHonest h s ↔ Truthful h s :=
  ⟨FrozenHonest.truthful, fun ht => ⟨ht, Host.resumes h s⟩⟩

/-- **The markers tell the truth throughout a run exactly if** every call is harmless where
    it is made: no call pauses a running machine that is not paused, and none continues a
    paused one whose marker is not executable. -/
theorem frozen_honest_iff (h : VmHost) (s₀ s : PauseState) (acts : List PauseAction)
    (h₀ : Truthful h s₀) (hrun : run (pauseStep h) acts s₀ = some s) :
    Always (pauseStep h) (FrozenHonest h) acts s₀ ↔ EachStep (pauseStep h) (Harmless h) acts s₀ := by
  refine always_iff_eachStep (fun s a s' hs hstep => ?_) (frozenHonest_iff.mpr h₀) hrun
  rw [frozenHonest_iff]
  exact truthful_step hs.truthful hstep

/-- A host on which `mac` runs. -/
def macHost : VmHost where
  dirs := ["mac", "old"]
  config _ := true
  var _ := true
  running m := m = "mac"
  pidFile m := if m = "mac" then some "4711" else none
  proc p := p = "4711"
  slash := by decide
  name := by decide
  running_dir m hm := by simp_all
  running_pid m hm := ⟨"4711", by simp_all⟩

/-- Nothing is paused, and there is no marker. -/
def unpaused : PauseState := ⟨fun _ => false, fun _ => none⟩

theorem unpaused_truthful (h : VmHost) : Truthful h unpaused := by
  intro m _
  simp [unpaused]

/-- `machine-continue` on a machine that is not paused, `machine-pause` on one that does
    not run. -/
theorem frozen_honest_old : Always (pauseStep macHost) (FrozenHonest macHost)
    [.state "mac", .cont "mac", .pause "old", .contFrozen] unpaused := by
  refine (frozen_honest_iff macHost unpaused _ _ (unpaused_truthful macHost) rfl).mpr ?_
  rw [eachStep_cons rfl, eachStep_cons rfl, eachStep_cons rfl, eachStep_cons rfl]
  refine ⟨fun m hm => ?_, fun m hm _ hp => ?_, fun m hm hr => ?_, fun m hm hr => ?_,
    eachStep_nil _⟩
  · cases hm
  · -- nothing is paused
    cases hp
  · have hold : m ∈ ["old"] := hm
    rw [List.mem_singleton.mp hold] at hr
    exact absurd hr (by decide)
  · have hold : m ∈ ["old"] := hm
    rw [List.mem_singleton.mp hold] at hr
    exact absurd hr (by decide)

/-- `machine-pause mac`: the marker says that `mac` is paused, but it runs on. -/
theorem frozen_lies_after_pause :
    ∃ s, run (pauseStep macHost) [.pause "mac"] unpaused = some s ∧ s.paused "mac" = false ∧
      s.files (frozenFile "mac") = some false ∧
      ¬ Always (pauseStep macHost) (FrozenHonest macHost) [.pause "mac"] unpaused := by
  have hrun : run (pauseStep macHost) [.pause "mac"] unpaused = some _ := rfl
  refine ⟨_, hrun, rfl, by decide, fun halways => ?_⟩
  have hlast := (halways [.pause "mac"] [] _ rfl hrun).truthful "mac" rfl
  exact absurd (hlast.mp (by decide)) (by decide)

end KvmOsx.Host
