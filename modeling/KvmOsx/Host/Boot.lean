import KvmOsx.Genconfig.OnExit

/-!
# Starting and stopping machines on one host

`boot.real` is meant to refuse a machine that runs. It looks for the file
`/var/run/qemu/$MACHINE.pid`, but QEMU writes `$MACHINE_PATH/var/pid`, and
`update-pid-cpu.sh`, which `machine-boot-kickstart` runs, writes
`/var/run/qemu/$MACHINE-qemu.pid` and `/var/run/qemu/vcpu$i.pid`.

* `HostState`, `step`: the files the scripts test and write, the processes, and what
  one script or process does to them, in any order.
* `files_runPid_iff`: which steps write the file that `boot.real` tests.
* `refused_iff`: when the second start of a machine is refused.
-/

namespace KvmOsx.Host

open Text Genconfig Runs

/-! ## The host -/

/-- The files of a machine that `genconfig.sh` writes; `cfg` is one of the root port files. -/
inductive GenFile
  | run
  | onRun
  | onExit
  | bootupEnv
  | cfg (name : String)
  deriving DecidableEq, Repr

/-- `/var/run/qemu/NAME.pid`, `$MACHINE_PATH/var/pid`, a generated file of a machine,
    and the memory file `/dev/hugepages/MACHINE-ram`. -/
inductive HostFile
  | runPid (name : String)
  | pid (machine : String)
  | gen (machine : String) (f : GenFile)
  | ram (machine : String)
  deriving DecidableEq, Repr

/-- The texts of the files, less the final newline. -/
abbrev FileMap := HostFile → Option String

/-- The host. `qemu` says which machine the live QEMU process with a pid runs, `other`
    lists the other entries of `/proc`. -/
structure HostState where
  machineDir : String → Bool
  config : String → Bool
  runDir : Bool
  files : FileMap
  qemu : String → Option String
  other : String → Bool

/-- `[ -e "/proc/$p" ]`. -/
def HostState.inProc (s : HostState) (p : String) : Bool := p = "" || (s.qemu p).isSome || s.other p

/-- The machine has a directory with a config. -/
def HostState.known (s : HostState) (m : String) : Bool := m ≠ "" && s.machineDir m && s.config m

/-! ## `boot.real` -/

/-- How `boot.real` comes out of its checks. -/
inductive BootEnd
  | exit (status : ℕ) (s : HostState)
  | sourced (s : HostState)

/-- `boot.real MACHINE` up to `source kvm/genconfig.sh` (lines 15-53). `set -e` ends it
    with status 1 if there is no `var/pid` to read. -/
def bootReal (s : HostState) (m : String) : BootEnd :=
  if m = "" then .exit 3 s
  else if s.machineDir m = false then .exit 1 s
  else if s.config m = false then .exit 2 s
  else if s.runDir = false then .sourced { s with runDir := true }
  else if (s.files (.runPid m)).isSome then
    match s.files (.pid m) with
    | none => .exit 1 s
    | some p =>
      if s.inProc p then .exit 4 s
      else .sourced { s with files := Function.update s.files (.pid m) none }
  else .sourced s

/-- What a run of `genconfig.sh` comes to, which may end at any point: whether it
    sources `mem-numa.sh`, and the files it writes. -/
structure GenRun where
  memNuma : Bool
  writes : List (GenFile × String)

/-- `cat > FILE`. -/
def writeGen (m : String) (files : FileMap) (w : GenFile × String) : FileMap :=
  Function.update files (.gen m w.1) (some w.2)

/-- The effect of `genconfig.sh`; `mem-numa.sh` removes the memory file. -/
def genconfig (m : String) (g : GenRun) (files : FileMap) : FileMap :=
  g.writes.foldl (writeGen m) (if g.memNuma then Function.update files (.ram m) none else files)

/-! ## `update-pid-cpu.sh` -/

/-- The loop over the thread ids (lines 36-41), from `$i`. -/
def writeVcpus : ℕ → List String → FileMap → FileMap
  | _, [], files => files
  | i, t :: tasks, files =>
    writeVcpus (i + 1) tasks (Function.update files (.runPid ("vcpu" ++ num i)) (some t))

/-- The script gets to its first write: it finds the machine, the pid file and the directory. -/
def HostState.canPin (s : HostState) (m : String) : Bool :=
  s.known m && s.runDir && (s.files (.pid m)).isSome

/-- `update-pid-cpu.sh MACHINE`; `tasks` are the thread ids whose file it gets to write. -/
def updatePidCpu (s : HostState) (m : String) (tasks : List String) : HostState :=
  if s.canPin m then
    let files := Function.update s.files (.runPid (m ++ "-qemu")) (s.files (.pid m))
    { s with files := writeVcpus 0 tasks files }
  else s

/-! ## Steps -/

/-- What happens on the host, in any order. `boot` and `kickstart` are the scripts
    `boot.real` and `machine-boot-kickstart`; without thread ids the latter ends before
    `update-pid-cpu.sh`. QEMU removes its pid file unless it is killed; `on-exit` may end
    before its last block. -/
inductive Action
  | boot (m : String) (g : GenRun)
  | kickstart (m : String) (tasks : Option (List String))
  | qemuStart (m pid : String)
  | qemuExit (pid : String) (unlink : Bool)
  | onExit (m : String) (reached : Bool) (killable : String → Bool)

/-- The pid file is locked by a live QEMU of the machine. -/
def HostState.locked (s : HostState) (m : String) : Bool :=
  match s.files (.pid m) with
  | some p => s.qemu p = some m
  | none => false

/-- `boot.real MACHINE`, with what `genconfig.sh` then does. -/
def boot (s : HostState) (m : String) (g : GenRun) : HostState :=
  match bootReal s m with
  | .exit _ s => s
  | .sourced s => { s with files := genconfig m g s.files }

/-- QEMU is started for a machine. A second one cannot lock the pid file, and ends. -/
def qemuStart (s : HostState) (m p : String) : HostState :=
  if s.locked m then s
  else { s with
    files := Function.update (Function.update s.files (.pid m) (some p)) (.ram m) (some "")
    qemu := Function.update s.qemu p (some m) }

/-- The QEMU of a machine ends. -/
def qemuExit (s : HostState) (m p : String) (unlink : Bool) : HostState :=
  { s with
    files := if unlink then Function.update s.files (.pid m) none else s.files
    qemu := Function.update s.qemu p none }

/-- The last block of `on-exit`, if the script gets there. A QEMU it kills ends in a
    `qemuExit` of its own. -/
def runOnExit (s : HostState) (m : String) (reached : Bool) (killable : String → Bool) : HostState :=
  let r := killBlock ⟨(), s.files (.pid m), s.inProc, killable⟩ []
  if reached then { s with files := Function.update s.files (.pid m) r.pidFile } else s

/-- One step; `none` if it cannot happen. -/
def step (s : HostState) : Action → Option HostState
  | .boot m g => some (boot s m g)
  | .kickstart _ none => some s
  | .kickstart m (some tasks) => some (updatePidCpu s m tasks)
  | .qemuStart m p => if s.known m = true ∧ s.inProc p = false then some (qemuStart s m p) else none
  | .qemuExit p unlink => (s.qemu p).map fun m => qemuExit s m p unlink
  | .onExit m reached killable => some (runOnExit s m reached killable)

/-- A host after its start: nobody has written to `/var/run/qemu`, and no machine runs. -/
structure HostState.Fresh (s : HostState) : Prop where
  runPid : ∀ name, s.files (.runPid name) = none
  qemu : ∀ p, s.qemu p = none

/-! ## Who writes the file that is tested -/

/-- The action writes `/var/run/qemu/NAME.pid`: it is an `update-pid-cpu.sh` for a machine
    with `NAME = MACHINE-qemu`, or with a thread `i` and `NAME = vcpu$i`. -/
def PinsAs (name : String) (s : HostState) : Action → Prop
  | .kickstart m (some tasks) =>
    s.canPin m = true ∧ (name = m ++ "-qemu" ∨ ∃ i < tasks.length, name = "vcpu" ++ num i)
  | _ => False

/-- `genconfig.sh` writes generated files only, and removes at most the memory file. -/
theorem genconfig_other (m : String) (g : GenRun) (files : FileMap) {f : HostFile}
    (hgen : ∀ m k, f ≠ .gen m k) (hram : ∀ m, f ≠ .ram m) : genconfig m g files f = files f := by
  have hwrites : ∀ (ws : List (GenFile × String)) (files : FileMap),
      (ws.foldl (writeGen m) files) f = files f := by
    intro ws
    induction ws with
    | nil => exact fun _ => rfl
    | cons w ws ih =>
      intro files
      rw [List.foldl_cons, ih, writeGen, Function.update_of_ne (hgen m w.1)]
  rw [genconfig, hwrites]
  split_ifs
  · rw [Function.update_of_ne (hram m)]
  · rfl

theorem genconfig_runPid (m : String) (g : GenRun) (files : FileMap) (name : String) :
    genconfig m g files (.runPid name) = files (.runPid name) :=
  genconfig_other m g files (by simp) (by simp)

theorem genconfig_pid (m : String) (g : GenRun) (files : FileMap) (m' : String) :
    genconfig m g files (.pid m') = files (.pid m') :=
  genconfig_other m g files (by simp) (by simp)

theorem writeVcpus_runPid (tasks : List String) (i : ℕ) (files : FileMap) (name : String) :
    (writeVcpus i tasks files (.runPid name)).isSome ↔
      (files (.runPid name)).isSome ∨ ∃ j < tasks.length, name = "vcpu" ++ num (i + j) := by
  induction tasks generalizing i files with
  | nil => simp [writeVcpus]
  | cons t tasks ih =>
    have hshift : (∃ j < tasks.length, name = "vcpu" ++ num (i + 1 + j)) ↔
        ∃ j < tasks.length, name = "vcpu" ++ num (i + (j + 1)) := by
      simp only [Nat.add_right_comm, Nat.add_assoc]
    rw [writeVcpus, ih, hshift, List.length_cons, Nat.exists_lt_succ_left, Nat.add_zero]
    by_cases hname : name = "vcpu" ++ num i
    · simp [hname]
    · simp [hname]

/-! ## One step -/

/-- The checks of `boot.real` on a machine that is there. -/
theorem bootReal_known {s : HostState} {m : String} (hm : s.known m = true) :
    bootReal s m =
      if s.runDir = false then .sourced { s with runDir := true }
      else if (s.files (.runPid m)).isSome then
        match s.files (.pid m) with
        | none => .exit 1 s
        | some p =>
          if s.inProc p then .exit 4 s
          else .sourced { s with files := Function.update s.files (.pid m) none }
      else .sourced s := by
  simp only [HostState.known, Bool.and_eq_true, decide_eq_true_eq] at hm
  obtain ⟨⟨hne, hdir⟩, hconfig⟩ := hm
  rw [bootReal, if_neg hne, if_neg (by simp [hdir]), if_neg (by simp [hconfig])]

/-- What a step can do, as far as the guard of `boot.real` and the processes go: it writes
    the files of some names in `/var/run/qemu`, which is then there, and starts QEMU only
    for a machine that is there. -/
structure Effect (s s' : HostState) (written : String → Prop) : Prop where
  runPid : ∀ name, (s'.files (.runPid name)).isSome ↔ (s.files (.runPid name)).isSome ∨ written name
  known : s'.known = s.known
  runDir : s.runDir = true → s'.runDir = true
  dir : ∀ name, written name → s.runDir = true
  qemu : ∀ p m, s'.qemu p = some m → s.qemu p = some m ∨ s.known m = true

/-- A step that writes no file of `/var/run/qemu` and starts no process. -/
theorem Effect.quiet {s s' : HostState}
    (hfiles : ∀ name, s'.files (.runPid name) = s.files (.runPid name)) (hknown : s'.known = s.known)
    (hdir : s.runDir = true → s'.runDir = true) (hqemu : s'.qemu = s.qemu) :
    Effect s s' (fun _ => False) where
  runPid name := by simp [hfiles]
  known := hknown
  runDir := hdir
  dir _ h := h.elim
  qemu p m h := Or.inl (by rwa [← hqemu])

theorem bootReal_effect (s : HostState) (m : String) :
    match bootReal s m with
    | .exit _ s' => s' = s
    | .sourced s' => Effect s s' (fun _ => False) := by
  unfold bootReal
  split_ifs with _ _ _ hdir
  · rfl
  · rfl
  · rfl
  · exact Effect.quiet (fun _ => rfl) rfl (fun _ => rfl) rfl
  · cases s.files (.pid m) with
    | none => rfl
    | some p =>
      dsimp only
      split_ifs
      · rfl
      · exact Effect.quiet (fun name => by simp) rfl id rfl
  · exact Effect.quiet (fun _ => rfl) rfl id rfl

theorem boot_effect (s : HostState) (m : String) (g : GenRun) :
    Effect s (boot s m g) (fun _ => False) := by
  have hreal := bootReal_effect s m
  unfold boot
  cases hb : bootReal s m with
  | exit status s' =>
    simp only [hb] at hreal
    subst hreal
    exact Effect.quiet (fun _ => rfl) rfl id rfl
  | sourced s' =>
    simp only [hb] at hreal
    exact { hreal with runPid := fun name => by simpa [genconfig_runPid] using hreal.runPid name }

theorem updatePidCpu_effect (s : HostState) (m : String) (tasks : List String) :
    Effect s (updatePidCpu s m tasks) (fun name => PinsAs name s (.kickstart m (some tasks))) := by
  by_cases hpin : s.canPin m = true
  · have hparts : (s.known m = true ∧ s.runDir = true) ∧ (s.files (.pid m)).isSome = true := by
      simpa [HostState.canPin] using hpin
    rw [updatePidCpu, if_pos hpin]
    refine ⟨fun name => ?_, rfl, id, fun _ _ => hparts.1.2, fun _ _ => Or.inl⟩
    dsimp only
    rw [writeVcpus_runPid]
    -- the file of the machine itself
    by_cases hname : name = m ++ "-qemu"
    · simp [hname, PinsAs, hpin, hparts.2]
    · simp [hname, PinsAs, hpin]
  · have heq : updatePidCpu s m tasks = s := if_neg hpin
    rw [heq]
    exact ⟨fun name => by simp [PinsAs, hpin], rfl, id, fun _ h => absurd h.1 hpin,
      fun _ _ => Or.inl⟩

theorem qemuStart_effect {s : HostState} {m p : String} (hm : s.known m = true) :
    Effect s (qemuStart s m p) (fun _ => False) := by
  unfold qemuStart
  split_ifs
  · exact Effect.quiet (fun _ => rfl) rfl id rfl
  · refine ⟨fun name => by simp, rfl, id, fun _ h => h.elim, fun q m' hq => ?_⟩
    by_cases hqp : q = p
    · simp only [hqp, Function.update_self, Option.some.injEq] at hq
      exact Or.inr (hq ▸ hm)
    · simp only [Function.update_of_ne hqp] at hq
      exact Or.inl hq

theorem qemuExit_effect (s : HostState) (m p : String) (unlink : Bool) :
    Effect s (qemuExit s m p unlink) (fun _ => False) := by
  refine ⟨fun name => ?_, rfl, id, fun _ h => h.elim, fun q m' hq => Or.inl ?_⟩
  · cases unlink <;> simp [qemuExit]
  · by_cases hqp : q = p
    · simp [qemuExit, hqp] at hq
    · simpa [qemuExit, hqp] using hq

theorem runOnExit_effect (s : HostState) (m : String) (reached : Bool) (killable : String → Bool) :
    Effect s (runOnExit s m reached killable) (fun _ => False) := by
  unfold runOnExit
  split_ifs
  · exact Effect.quiet (fun name => by simp) rfl id rfl
  · exact Effect.quiet (fun _ => rfl) rfl id rfl

theorem step_effect {s s' : HostState} {a : Action} (h : step s a = some s') :
    Effect s s' (fun name => PinsAs name s a) := by
  cases a with
  | boot m g =>
    obtain rfl := Option.some.inj h
    exact boot_effect s m g
  | kickstart m tasks =>
    cases tasks with
    | none =>
      obtain rfl := Option.some.inj h
      exact Effect.quiet (fun _ => rfl) rfl id rfl
    | some tasks =>
      obtain rfl := Option.some.inj h
      exact updatePidCpu_effect s m tasks
  | qemuStart m p =>
    obtain ⟨hm, rfl⟩ : s.known m = true ∧ qemuStart s m p = s' := by
      rw [step] at h
      split_ifs at h with hc
      exact ⟨hc.1, Option.some.inj h⟩
    exact qemuStart_effect hm
  | qemuExit p unlink =>
    obtain ⟨m, -, rfl⟩ := Option.map_eq_some_iff.mp h
    exact qemuExit_effect s m p unlink
  | onExit m reached killable =>
    obtain rfl := Option.some.inj h
    exact runOnExit_effect s m reached killable

/-! ## Runs -/

/-- What holds of every host that started fresh. -/
structure HostInv (s : HostState) : Prop where
  runDir : ∀ name, (s.files (.runPid name)).isSome → s.runDir = true
  known : ∀ p m, s.qemu p = some m → s.known m = true

theorem HostInv.step {s s' : HostState} {a : Action} (h : HostInv s)
    (hstep : Host.step s a = some s') : HostInv s' := by
  have heffect := step_effect hstep
  constructor
  · intro name hname
    rcases (heffect.runPid name).mp hname with hold | hnew
    · exact heffect.runDir (h.runDir name hold)
    · exact heffect.runDir (heffect.dir name hnew)
  · intro p m hp
    rw [heffect.known]
    rcases heffect.qemu p m hp with hold | hnew
    · exact h.known p m hold
    · exact hnew

theorem HostInv.run {s₀ s : HostState} {acts : List Action} (h₀ : s₀.Fresh)
    (h : Runs.run Host.step acts s₀ = some s) : HostInv s := by
  have hinit : HostInv s₀ := ⟨fun name hn => by simp [h₀.runPid] at hn, fun p m hp => by
    simp [h₀.qemu] at hp⟩
  exact run_invariant hinit (fun _ _ _ hs hstep => hs.step hstep) h

/-- The file that `boot.real` tests is there exactly if an `update-pid-cpu.sh` wrote it. -/
theorem files_runPid_iff {s₀ s : HostState} {acts : List Action} (h₀ : s₀.Fresh)
    (h : Runs.run step acts s₀ = some s) (name : String) :
    (s.files (.runPid name)).isSome ↔ Happened step (PinsAs name) acts s₀ := by
  have hinit : ¬ (s₀.files (.runPid name)).isSome = true := by simp [h₀.runPid]
  exact run_flag (F := fun s => (s.files (.runPid name)).isSome = true) hinit
    (fun _ _ _ hstep => (step_effect hstep).runPid name) h

/-! ## The main result -/

/-- The start of a machine is refused: with status 4, before `genconfig.sh` is sourced,
    and with every file as it was. -/
structure Refused (s : HostState) (m : String) : Prop where
  status : bootReal s m = .exit 4 s
  untouched : ∀ g, boot s m g = s

theorem refused_iff_status {s : HostState} {m : String} : Refused s m ↔ bootReal s m = .exit 4 s := by
  refine ⟨Refused.status, fun h => ⟨h, fun g => ?_⟩⟩
  rw [boot, h]

/-- In a run of the host, the start of a running machine is refused exactly if the file
    with its name is in `/var/run/qemu`. -/
theorem refused_iff_file {s₀ s : HostState} {acts : List Action} (h₀ : s₀.Fresh)
    (h : Runs.run step acts s₀ = some s) {m p : String} (hpid : s.files (.pid m) = some p)
    (hlive : s.qemu p = some m) : Refused s m ↔ (s.files (.runPid m)).isSome = true := by
  have hinv := HostInv.run h₀ h
  have hproc : s.inProc p = true := by simp [HostState.inProc, hlive]
  rw [refused_iff_status, bootReal_known (hinv.known p m hlive), hpid]
  by_cases hfile : (s.files (.runPid m)).isSome = true
  · have hdir := hinv.runDir m hfile
    simp [hfile, hdir, hproc]
  · cases hdir : s.runDir <;> simp [hfile]

/-- A name that is neither `MACHINE-qemu` nor `vcpu$i` is never written, so the start of a
    running machine with such a name is never refused. -/
theorem not_refused {s₀ s : HostState} {acts : List Action} (h₀ : s₀.Fresh)
    (h : Runs.run step acts s₀ = some s) {m p : String} (hpid : s.files (.pid m) = some p)
    (hlive : s.qemu p = some m) (hqemu : ∀ x, m ≠ x ++ "-qemu") (hvcpu : ∀ i, m ≠ "vcpu" ++ num i) :
    ¬ Refused s m := by
  rw [refused_iff_file h₀ h hpid hlive, files_runPid_iff h₀ h]
  rintro ⟨_, a, _, t, -, -, hwrites⟩
  match a, hwrites with
  | .kickstart x (some tasks), ⟨_, hname⟩ =>
    rcases hname with hname | ⟨i, -, hname⟩
    · exact hqemu x hname
    · exact hvcpu i hname

/-- **The start of a running machine is refused exactly if** an `update-pid-cpu.sh` for
    some machine has written the file with its name: for every run of the host, and every
    machine whose pid file names its live QEMU. -/
theorem refused_iff {s₀ s : HostState} {acts : List Action} (h₀ : s₀.Fresh)
    (h : Runs.run step acts s₀ = some s) {m p : String} (hpid : s.files (.pid m) = some p)
    (hlive : s.qemu p = some m) : Refused s m ↔ Happened step (PinsAs m) acts s₀ := by
  rw [refused_iff_file h₀ h hpid hlive, files_runPid_iff h₀ h]

/-- A host with the two machines `mac` and `mac-qemu` after its start. -/
def twoMachines : HostState where
  machineDir m := m = "mac" || m = "mac-qemu"
  config m := m = "mac" || m = "mac-qemu"
  runDir := true
  files _ := none
  qemu _ := none
  other _ := false

theorem twoMachines_fresh : twoMachines.Fresh := ⟨fun _ => rfl, fun _ => rfl⟩

/-- `genconfig.sh` gets to its end. -/
def fullGen : GenRun := ⟨true, [(.run, "#!/bin/bash"), (.onRun, "exec"), (.onExit, "MACHINE=mac")]⟩

/-- `mac` is started and its threads are pinned, then `mac-qemu` is started. -/
def bothStarted : List Action :=
  [.boot "mac" fullGen, .qemuStart "mac" "4711", .kickstart "mac" (some ["4712", "4713"]),
    .boot "mac-qemu" fullGen, .qemuStart "mac-qemu" "4801"]

theorem refused_mac_qemu :
    ∃ s, Runs.run step bothStarted twoMachines = some s ∧ Refused s "mac-qemu" := by
  have hrun : Runs.run step bothStarted twoMachines = some _ := rfl
  refine ⟨_, hrun, (refused_iff twoMachines_fresh hrun (show _ = some "4801" from rfl) rfl).mpr ?_⟩
  exact ⟨[.boot "mac" fullGen, .qemuStart "mac" "4711"], .kickstart "mac" (some ["4712", "4713"]),
    [.boot "mac-qemu" fullGen, .qemuStart "mac-qemu" "4801"], _, rfl, rfl, rfl, Or.inl rfl⟩

/-- In the same run `boot.real mac` is not refused: the file `mac.pid` is never written. -/
theorem not_refused_mac :
    ¬ ∀ (s₀ s : HostState) (acts : List Action) (m p : String), s₀.Fresh →
      Runs.run step acts s₀ = some s → s.files (.pid m) = some p → s.qemu p = some m →
        Refused s m := by
  intro h
  have hrun : Runs.run step bothStarted twoMachines = some _ := rfl
  have hrefused := h twoMachines _ bothStarted "mac" "4711" twoMachines_fresh hrun rfl rfl
  have hfile := (refused_iff_file twoMachines_fresh hrun (show _ = some "4711" from rfl) rfl).mp
    hrefused
  exact absurd hfile (by decide)

end KvmOsx.Host
