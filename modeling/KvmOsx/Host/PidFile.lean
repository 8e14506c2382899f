import KvmOsx.Host.Boot

/-!
# What a pid file stands for

QEMU writes its process number to `$MACHINE_PATH/var/pid`. The scripts that ask whether a
machine runs, or send it a signal, read the number and test `/proc/NUMBER`; nothing tells
whose process that is, and the file outlives a crash and a reboot.

* `LifeAction`, `lifeStep`: the steps of `Host.Boot`, reboots, and the coming and going of
  unrelated processes.
* `Sound`: the number in a pid file is that of the machine's QEMU, or of no process.
* `sound_step`: which steps break this.
* `pid_files_trusted_iff`: in which histories the scripts always judge right.
-/

namespace KvmOsx.Host

open Text Genconfig Runs

/-! ## The scripts -/

/-- The machine's own QEMU is alive. -/
def HostState.Alive (s : HostState) (m : String) : Prop := ∃ p, s.qemu p = some m

/-- There is a pid file, and an entry of `/proc` for its text. -/
def HostState.pidInProc (s : HostState) (m : String) : Bool := (s.files (.pid m)).elim false s.inProc

/-- `machine-is-running M` ends with status 0. -/
def machineIsRunning (s : HostState) (m : String) : Bool := s.known m && s.pidInProc m

/-- The machines a round of `machine-shutdown-running` is for; `dirs` are the directories
    below `/srv/kvm/vms`. -/
def shutdownRunning (s : HostState) (dirs : List String) : List String := dirs.filter s.pidInProc

/-- The process `shutdown-hard M` sends its signal to. -/
def shutdownHard (s : HostState) (m : String) : Option String :=
  if s.known m then (s.files (.pid m)).filter fun p => p ≠ "" && s.inProc p else none

/-- The processes the last round of `machine-shutdown-running` sends a signal to. -/
def killRemaining (s : HostState) (dirs : List String) : List String :=
  (shutdownRunning s dirs).filterMap (shutdownHard s)

/-- The processes `on-exit` of a machine sends a signal to; `killable` tells where it may. -/
def onExitKills (s : HostState) (m : String) (killable : String → Bool) : List String :=
  if s.known m then (killBlock ⟨(), s.files (.pid m), s.inProc, killable⟩ []).killed else []

/-- `VM_NAME` for a line of the autostart file. -/
def vmName (vm : String) : String := cut ':' 1 (echo vm)

/-- `machine-autostart` takes the machine of a line for running: `/proc` has an entry for
    the text of the pid file, or for `-1` (bin/machine-autostart:24-25). -/
def autostartRunning (s : HostState) (vm : String) : Bool :=
  s.inProc ((s.files (.pid (vmName vm))).getD "-1")

/-- The lines of the autostart file `machine-autostart` calls `boot.real` with. -/
def machineAutostart (s : HostState) (lines : List String) : List String :=
  lines.filter fun vm => s.machineDir (vmName vm) && !autostartRunning s vm

/-! ## Histories -/

/-- What happens on the host: the steps of `Host.Boot`, a reboot, and an unrelated process
    that begins or ends. -/
inductive LifeAction
  | boot (m : String) (g : GenRun)
  | kickstart (m : String) (tasks : Option (List String))
  | qemuStart (m : String) (n : ℕ)
  | qemuExit (n : ℕ) (unlink : Bool)
  | onExit (m : String) (reached : Bool) (killable : String → Bool)
  | reboot
  | spawn (n : ℕ)
  | reap (n : ℕ)

/-- After a reboot there is no process; `/var/run` and the memory files are empty, what is
    below `/srv/kvm` is kept. -/
def reboot (s : HostState) : HostState :=
  { s with
    runDir := false
    files := fun
      | .runPid _ => none
      | .ram _ => none
      | f => s.files f
    qemu := fun _ => none
    other := fun _ => false }

/-- One step; `none` if it cannot happen. -/
def lifeStep (s : HostState) : LifeAction → Option HostState
  | .boot m g => step s (.boot m g)
  | .kickstart m tasks => step s (.kickstart m tasks)
  | .qemuStart m n => step s (.qemuStart m (num n))
  | .qemuExit n unlink => step s (.qemuExit (num n) unlink)
  | .onExit m reached killable => step s (.onExit m reached killable)
  | .reboot => some (reboot s)
  | .spawn n =>
    if s.inProc (num n) = false then
      some { s with other := Function.update s.other (num n) true }
    else none
  | .reap n => some { s with other := Function.update s.other (num n) false }

/-- A host on which no machine was started yet. `/proc` has no entry `-1`. -/
structure HostState.Unused (s : HostState) : Prop where
  pid : ∀ m, s.files (.pid m) = none
  qemu : ∀ p, s.qemu p = none
  minus : s.other "-1" = false

/-! ## Trust -/

/-- In this state the scripts judge right: who is taken for running is alive, signals go to
    the machine's QEMU, and the machines that are not alive are started. -/
structure Trusted (s : HostState) : Prop where
  is_running : ∀ m, machineIsRunning s m = true → s.Alive m
  shutdown : ∀ dirs, ∀ m ∈ shutdownRunning s dirs, s.Alive m
  autostart_running : ∀ vm, s.machineDir (vmName vm) = true → autostartRunning s vm = true →
    s.Alive (vmName vm)
  hard : ∀ m p, shutdownHard s m = some p → s.qemu p = some m
  remaining : ∀ dirs, ∀ p ∈ killRemaining s dirs, ∃ m ∈ dirs, s.qemu p = some m
  on_exit : ∀ m killable, ∀ p ∈ onExitKills s m killable, s.qemu p = some m
  autostart : ∀ lines, ∀ vm ∈ lines, s.machineDir (vmName vm) = true → ¬ s.Alive (vmName vm) →
    vm ∈ machineAutostart s lines

/-- The number in a pid file is that of the machine's QEMU, or of no process. -/
def Sound (s : HostState) : Prop :=
  ∀ m p, s.files (.pid m) = some p → s.inProc p = true → s.qemu p = some m

/-- What holds in every history: a pid file is that of a machine and has a number in it, no
    process has the number `-1`, and an unrelated process has a number of its own. -/
structure LifeInv (s : HostState) : Prop where
  pid : ∀ m p, s.files (.pid m) = some p → s.known m = true ∧ ∃ n, p = num n
  minus : s.inProc "-1" = false
  disjoint : ∀ p m, s.qemu p = some m → s.other p = false

theorem num_ne_empty (n : ℕ) : num n ≠ "" := by
  intro h
  have hlist := congrArg String.toList h
  rw [num_toList] at hlist
  exact Nat.toDigits_ne_nil hlist

theorem num_ne_minus (n : ℕ) : num n ≠ "-1" := by
  intro h
  have hmem : '-' ∈ (num n).toList := by
    rw [h]
    decide
  exact not_mem_num_of_not_isDigit (by decide) n hmem

/-- The scripts judge right exactly if the pid files are sound. -/
theorem trusted_iff_sound {s : HostState} (hs : LifeInv s) : Trusted s ↔ Sound s := by
  constructor
  · intro h m p hpid hproc
    obtain ⟨hknown, n, rfl⟩ := hs.pid m p hpid
    refine h.hard m (num n) ?_
    simp [shutdownHard, hknown, hpid, hproc, num_ne_empty]
  · intro h
    have halive : ∀ m, s.pidInProc m = true → s.Alive m := by
      intro m hm
      unfold HostState.pidInProc at hm
      cases hpid : s.files (.pid m) with
      | none => simp [hpid] at hm
      | some p =>
        rw [hpid] at hm
        exact ⟨p, h m p hpid hm⟩
    have hhard : ∀ m p, shutdownHard s m = some p → s.qemu p = some m := by
      intro m p hp
      unfold shutdownHard at hp
      split_ifs at hp
      obtain ⟨hpid, hproc⟩ := Option.filter_eq_some_iff.mp hp
      simp only [Bool.and_eq_true] at hproc
      exact h m p hpid hproc.2
    have hauto : ∀ vm, autostartRunning s vm = true → s.Alive (vmName vm) := by
      intro vm hvm
      unfold autostartRunning at hvm
      cases hpid : s.files (.pid (vmName vm)) with
      | none =>
        rw [hpid, Option.getD_none, hs.minus] at hvm
        cases hvm
      | some p =>
        rw [hpid] at hvm
        exact ⟨p, h _ p hpid hvm⟩
    refine ⟨?_, ?_, ?_, hhard, ?_, ?_, ?_⟩
    · intro m hm
      simp only [machineIsRunning, Bool.and_eq_true] at hm
      exact halive m hm.2
    · intro dirs m hm
      exact halive m (List.mem_filter.mp hm).2
    · intro vm _ hvm
      exact hauto vm hvm
    · intro dirs p hp
      obtain ⟨m, hm, hmp⟩ := List.mem_filterMap.mp hp
      exact ⟨m, List.mem_of_mem_filter hm, hhard m p hmp⟩
    · intro m killable p hp
      unfold onExitKills killBlock at hp
      cases hpid : s.files (.pid m) with
      | none => simp [hpid] at hp
      | some q =>
        simp only [hpid] at hp
        split_ifs at hp with _ _ hproc <;> simp at hp
        subst hp
        exact h m p hpid hproc
    · intro lines vm hvm hdir hdead
      refine List.mem_filter.mpr ⟨hvm, ?_⟩
      have hnot : autostartRunning s vm = false := by
        by_contra hrun
        exact hdead (hauto vm (by simpa using hrun))
      rw [hdir, hnot]
      rfl

/-! ## Steps -/

/-- Nothing new: no pid file, no process, and no machine. -/
structure Shrinks (s s' : HostState) : Prop where
  pid : ∀ m p, s'.files (.pid m) = some p → s.files (.pid m) = some p
  known : s'.known = s.known
  qemu : ∀ p m, s'.qemu p = some m → s.qemu p = some m
  other : ∀ p, s'.other p = true → s.other p = true

theorem inProc_iff {s : HostState} {p : String} (hp : p ≠ "") :
    s.inProc p = true ↔ (∃ m, s.qemu p = some m) ∨ s.other p = true := by
  simp [HostState.inProc, hp, Option.isSome_iff_exists]

section Shrinks

variable {s s' : HostState}

theorem Shrinks.refl (s : HostState) : Shrinks s s :=
  ⟨fun _ _ => id, rfl, fun _ _ => id, fun _ => id⟩

theorem Shrinks.inProc (h : Shrinks s s') {p : String} (hp : p ≠ "") (hproc : s'.inProc p = true) :
    s.inProc p = true := by
  rcases (inProc_iff hp).mp hproc with ⟨m, hm⟩ | hother
  · exact (inProc_iff hp).mpr (Or.inl ⟨m, h.qemu p m hm⟩)
  · exact (inProc_iff hp).mpr (Or.inr (h.other p hother))

theorem Shrinks.inv (h : Shrinks s s') (hs : LifeInv s) : LifeInv s' := by
  refine ⟨?_, ?_, ?_⟩
  · intro m p hpid
    rw [h.known]
    exact hs.pid m p (h.pid m p hpid)
  · by_contra hproc
    have hold := h.inProc (by decide) (Bool.not_eq_false _ ▸ hproc)
    rw [hs.minus] at hold
    cases hold
  · intro p m hp
    by_contra hother
    have hold := h.other p (by simpa using hother)
    rw [hs.disjoint p m (h.qemu p m hp)] at hold
    cases hold

theorem Shrinks.sound (h : Shrinks s s') (hs : LifeInv s) (hsound : Sound s) : Sound s' := by
  intro m p hpid hproc
  have hpid' := h.pid m p hpid
  obtain ⟨-, n, rfl⟩ := hs.pid m p hpid'
  have hqemu := hsound m (num n) hpid' (h.inProc (num_ne_empty n) hproc)
  rcases (inProc_iff (num_ne_empty n)).mp hproc with ⟨m', hm'⟩ | hother
  · have hm := h.qemu _ _ hm'
    rw [hqemu] at hm
    rw [hm', hm]
  · have hold := h.other _ hother
    rw [hs.disjoint _ _ hqemu] at hold
    cases hold

end Shrinks

theorem writeVcpus_pid (tasks : List String) (i : ℕ) (files : FileMap) (m : String) :
    writeVcpus i tasks files (.pid m) = files (.pid m) := by
  induction tasks generalizing i files with
  | nil => rfl
  | cons t tasks ih =>
    rw [writeVcpus, ih]
    simp

theorem bootReal_shrinks (s : HostState) (m : String) :
    match bootReal s m with
    | .exit _ s' => s' = s
    | .sourced s' => Shrinks s s' := by
  unfold bootReal
  split_ifs
  · rfl
  · rfl
  · rfl
  · exact ⟨fun _ _ => id, rfl, fun _ _ => id, fun _ => id⟩
  · cases s.files (.pid m) with
    | none => rfl
    | some p =>
      dsimp only
      split_ifs
      · rfl
      · refine ⟨?_, rfl, fun _ _ => id, fun _ => id⟩
        intro m' q hq
        by_cases hm : m' = m
        · simp [hm] at hq
        · simpa [hm] using hq
  · exact Shrinks.refl s

theorem boot_shrinks (s : HostState) (m : String) (g : GenRun) : Shrinks s (boot s m g) := by
  have hreal := bootReal_shrinks s m
  unfold boot
  cases hb : bootReal s m with
  | exit status s' =>
    simp only [hb] at hreal
    subst hreal
    exact Shrinks.refl s'
  | sourced s' =>
    simp only [hb] at hreal
    exact { hreal with
      pid := fun m' p hp => hreal.pid m' p (by simpa [genconfig_pid] using hp) }

theorem updatePidCpu_shrinks (s : HostState) (m : String) (tasks : List String) :
    Shrinks s (updatePidCpu s m tasks) := by
  unfold updatePidCpu
  split_ifs
  · exact ⟨fun m' p hp => by simpa [writeVcpus_pid] using hp, rfl, fun _ _ => id, fun _ => id⟩
  · exact Shrinks.refl s

theorem qemuExit_shrinks (s : HostState) (m p : String) (unlink : Bool) :
    Shrinks s (qemuExit s m p unlink) := by
  refine ⟨?_, rfl, ?_, fun _ => id⟩
  · intro m' q hq
    cases unlink
    · exact hq
    · by_cases hm : m' = m
      · simp [qemuExit, hm] at hq
      · simpa [qemuExit, hm] using hq
  · intro q m' hq
    by_cases hqp : q = p
    · simp [qemuExit, hqp] at hq
    · simpa [qemuExit, hqp] using hq

theorem runOnExit_shrinks (s : HostState) (m : String) (reached : Bool)
    (killable : String → Bool) : Shrinks s (runOnExit s m reached killable) := by
  unfold runOnExit
  split_ifs
  · refine ⟨?_, rfl, fun _ _ => id, fun _ => id⟩
    intro m' p hp
    by_cases hm : m' = m
    · subst hm
      simp only [Function.update_self] at hp
      unfold killBlock at hp
      cases hpid : s.files (.pid m') with
      | none => simp [hpid] at hp
      | some q =>
        simp only [hpid] at hp
        split_ifs at hp <;> simp_all
    · simpa [hm] using hp
  · exact Shrinks.refl s

theorem reboot_shrinks (s : HostState) : Shrinks s (reboot s) := by
  refine ⟨fun _ _ => id, rfl, ?_, ?_⟩
  · intro p m hp
    cases hp
  · intro p hp
    cases hp

theorem reap_shrinks (s : HostState) (p : String) :
    Shrinks s { s with other := Function.update s.other p false } := by
  refine ⟨fun _ _ => id, rfl, fun _ _ => id, ?_⟩
  intro q hq
  by_cases hqp : q = p
  · simp [hqp] at hq
  · simpa [hqp] using hq

/-- The two steps that bring a new process. -/
def LifeAction.Creates : LifeAction → Prop
  | .qemuStart _ _ => True
  | .spawn _ => True
  | _ => False

/-- Every other step brings nothing new. -/
theorem lifeStep_shrinks {s s' : HostState} {a : LifeAction} (ha : ¬ a.Creates)
    (h : lifeStep s a = some s') : Shrinks s s' := by
  cases a with
  | boot m g =>
    obtain rfl := Option.some.inj h
    exact boot_shrinks s m g
  | kickstart m tasks =>
    cases tasks with
    | none =>
      obtain rfl := Option.some.inj h
      exact Shrinks.refl s
    | some tasks =>
      obtain rfl := Option.some.inj h
      exact updatePidCpu_shrinks s m tasks
  | qemuStart m n => exact absurd trivial ha
  | qemuExit n unlink =>
    obtain ⟨m, -, rfl⟩ := Option.map_eq_some_iff.mp h
    exact qemuExit_shrinks s m (num n) unlink
  | onExit m reached killable =>
    obtain rfl := Option.some.inj h
    exact runOnExit_shrinks s m reached killable
  | reboot =>
    obtain rfl := Option.some.inj h
    exact reboot_shrinks s
  | spawn n => exact absurd trivial ha
  | reap n =>
    obtain rfl := Option.some.inj h
    exact reap_shrinks s (num n)

theorem spawn_eq {s s' : HostState} {n : ℕ} (h : lifeStep s (.spawn n) = some s') :
    s.inProc (num n) = false ∧ s' = { s with other := Function.update s.other (num n) true } := by
  simp only [lifeStep] at h
  split_ifs at h with hfree
  exact ⟨hfree, (Option.some.inj h).symm⟩

theorem qemuStart_eq {s s' : HostState} {m : String} {n : ℕ}
    (h : lifeStep s (.qemuStart m n) = some s') :
    s.known m = true ∧ s.inProc (num n) = false ∧ s' = qemuStart s m (num n) := by
  simp only [lifeStep, step] at h
  split_ifs at h with hc
  exact ⟨hc.1, hc.2, (Option.some.inj h).symm⟩

/-- A number that is not in `/proc` is that of no process. -/
theorem not_inProc {s : HostState} {n : ℕ} (h : s.inProc (num n) = false) :
    s.qemu (num n) = none ∧ s.other (num n) = false := by
  simpa [HostState.inProc, num_ne_empty] using h

/-- The number of a new process is in no pid file, other than the one of the machine a QEMU
    is started for. -/
def KeepsApart (s : HostState) : LifeAction → Prop
  | .qemuStart m n => s.locked m = false → ∀ m', m' ≠ m → s.files (.pid m') ≠ some (num n)
  | .spawn n => ∀ m, s.files (.pid m) ≠ some (num n)
  | _ => True

section Creates

variable {s s' : HostState} {m : String} {n : ℕ}

theorem spawn_inv (hs : LifeInv s) (h : lifeStep s (.spawn n) = some s') : LifeInv s' := by
  obtain ⟨hfree, rfl⟩ := spawn_eq h
  obtain ⟨hqemu, -⟩ := not_inProc hfree
  refine ⟨hs.pid, ?_, ?_⟩
  · have hne : "-1" ≠ num n := (num_ne_minus n).symm
    simpa [HostState.inProc, hne] using hs.minus
  · intro p m hp
    have hne : p ≠ num n := by
      rintro rfl
      cases hqemu.symm.trans hp
    show Function.update s.other (num n) true p = false
    rw [Function.update_of_ne hne]
    exact hs.disjoint p m hp

theorem spawn_sound (hsound : Sound s) (h : lifeStep s (.spawn n) = some s') :
    Sound s' ↔ KeepsApart s (.spawn n) := by
  obtain ⟨hfree, rfl⟩ := spawn_eq h
  obtain ⟨hqemu, -⟩ := not_inProc hfree
  constructor
  · intro hsound' m hpid
    have hproc := hsound' m (num n) hpid (by simp [HostState.inProc])
    cases hqemu.symm.trans hproc
  · intro hapart m p hpid hproc
    have hne : p ≠ num n := by
      rintro rfl
      exact hapart m hpid
    refine hsound m p hpid ?_
    simpa [HostState.inProc, hne] using hproc

theorem qemuStart_inv (hs : LifeInv s) (h : lifeStep s (.qemuStart m n) = some s') :
    LifeInv s' := by
  obtain ⟨hknown, hfree, rfl⟩ := qemuStart_eq h
  obtain ⟨-, hother⟩ := not_inProc hfree
  unfold qemuStart
  split_ifs
  · exact hs
  · refine ⟨?_, ?_, ?_⟩
    · intro m' p hpid
      by_cases hm : m' = m
      · subst hm
        have hp : p = num n := by simpa [eq_comm] using hpid
        exact ⟨hknown, n, hp⟩
      · exact hs.pid m' p (by simpa [hm] using hpid)
    · have hne : "-1" ≠ num n := (num_ne_minus n).symm
      simpa [HostState.inProc, hne] using hs.minus
    · intro p m' hp
      by_cases hpn : p = num n
      · rw [hpn]
        exact hother
      · exact hs.disjoint p m' (by simpa [hpn] using hp)

theorem qemuStart_sound (hsound : Sound s) (h : lifeStep s (.qemuStart m n) = some s') :
    Sound s' ↔ KeepsApart s (.qemuStart m n) := by
  obtain ⟨hknown, hfree, rfl⟩ := qemuStart_eq h
  unfold qemuStart
  split_ifs with hlocked
  · exact iff_of_true hsound (fun hnot => absurd hlocked (by simp [hnot]))
  · constructor
    · intro hsound' _ m' hm' hpid
      have howner := hsound' m' (num n) (by simpa [hm'] using hpid) (by simp [HostState.inProc])
      have hself : some m = some m' := by simpa using howner
      exact hm' (Option.some.inj hself).symm
    · intro hapart m' p hpid hproc
      by_cases hm : m' = m
      · subst hm
        have hp : num n = p := by simpa using hpid
        simp [hp]
      · have hpid' : s.files (.pid m') = some p := by simpa [hm] using hpid
        have hne : p ≠ num n := by
          rintro rfl
          exact hapart (by simpa using hlocked) m' hm hpid'
        have hproc' : s.inProc p = true := by simpa [HostState.inProc, hne] using hproc
        simpa [hne] using hsound m' p hpid' hproc'

end Creates

theorem LifeInv.step {s s' : HostState} {a : LifeAction} (hs : LifeInv s)
    (h : lifeStep s a = some s') : LifeInv s' := by
  by_cases ha : a.Creates
  · match a, ha with
    | .qemuStart m n, _ => exact qemuStart_inv hs h
    | .spawn n, _ => exact spawn_inv hs h
  · exact (lifeStep_shrinks ha h).inv hs

/-- Sound pid files stay sound exactly if a new process gets a number of its own. -/
theorem sound_step {s s' : HostState} {a : LifeAction} (hs : LifeInv s) (hsound : Sound s)
    (h : lifeStep s a = some s') : Sound s' ↔ KeepsApart s a := by
  by_cases ha : a.Creates
  · match a, ha with
    | .qemuStart m n, _ => exact qemuStart_sound hsound h
    | .spawn n, _ => exact spawn_sound hsound h
  · have hapart : KeepsApart s a := by
      cases a with
      | qemuStart m n => exact absurd trivial ha
      | spawn n => exact absurd trivial ha
      | boot | kickstart | qemuExit | onExit | reboot | reap => trivial
    exact iff_of_true ((lifeStep_shrinks ha h).sound hs hsound) hapart

/-! ## Histories of a host -/

section Histories

variable {s₀ s : HostState}

theorem LifeInv.start (h₀ : s₀.Unused) : LifeInv s₀ := by
  refine ⟨?_, ?_, ?_⟩
  · intro m p hpid
    rw [h₀.pid] at hpid
    cases hpid
  · simp [HostState.inProc, h₀.qemu, h₀.minus]
  · intro p m hp
    rw [h₀.qemu] at hp
    cases hp

theorem Sound.start (h₀ : s₀.Unused) : Sound s₀ := by
  intro m p hpid
  rw [h₀.pid] at hpid
  cases hpid

/-- **The scripts judge right throughout a history exactly if** no process begins under a
    number that is in a pid file, other than the one of the machine a QEMU is started for. -/
theorem pid_files_trusted_iff {acts : List LifeAction} (h₀ : s₀.Unused)
    (h : Runs.run lifeStep acts s₀ = some s) :
    Always lifeStep Trusted acts s₀ ↔ EachStep lifeStep KeepsApart acts s₀ := by
  rw [always_congr (Q := fun s => LifeInv s ∧ Sound s) (LifeInv.start h₀)
    (fun _ _ _ hs hstep => hs.step hstep)
    (fun s hs => by rw [trusted_iff_sound hs, and_iff_right hs])]
  refine always_iff_eachStep ?_ ⟨LifeInv.start h₀, Sound.start h₀⟩ h
  rintro s a s' ⟨hs, hsound⟩ hstep
  rw [← sound_step hs hsound hstep, and_iff_right (hs.step hstep)]

end Histories

theorem twoMachines_unused : twoMachines.Unused := ⟨fun _ => rfl, fun _ => rfl, rfl⟩

/-- `mac` crashes, the host is booted again, and other numbers are in use then. -/
def quietReboot : List LifeAction :=
  [.boot "mac" fullGen, .qemuStart "mac" 4711, .qemuExit 4711 false, .reboot, .spawn 812]

theorem pid_files_trusted_quiet : Always lifeStep Trusted quietReboot twoMachines := by
  refine (pid_files_trusted_iff twoMachines_unused
    (show Runs.run lifeStep quietReboot twoMachines = some _ from rfl)).mpr ?_
  unfold quietReboot
  refine (eachStep_cons rfl).mpr ⟨trivial, ?_⟩
  refine (eachStep_cons rfl).mpr ⟨fun _ _ _ => by simp [boot, bootReal, twoMachines, genconfig_pid], ?_⟩
  refine (eachStep_cons rfl).mpr ⟨trivial, ?_⟩
  refine (eachStep_cons rfl).mpr ⟨trivial, ?_⟩
  refine (eachStep_cons rfl).mpr ⟨?_, eachStep_nil _⟩
  intro m hpid
  by_cases hm : m = "mac"
  · subst hm
    have hnum : num 4711 = num 812 := Option.some.inj hpid
    exact absurd (num_inj.mp hnum) (by decide)
  · have hnone : (qemuStart (boot twoMachines "mac" fullGen) "mac" (num 4711)).files (.pid m) =
        none := by
      simp [qemuStart, HostState.locked, boot, bootReal, twoMachines, genconfig_pid, hm]
    cases hnone.symm.trans hpid

/-- After a reboot the number of `mac` is that of another process. -/
def numberReused : List LifeAction :=
  [.boot "mac" fullGen, .qemuStart "mac" 4711, .reboot, .spawn 4711]

/-- `shutdown-hard mac` kills it. -/
theorem pid_file_of_a_stranger :
    ¬ ∀ (s₀ : HostState) (s : HostState) (acts : List LifeAction), s₀.Unused →
      Runs.run lifeStep acts s₀ = some s → Always lifeStep Trusted acts s₀ := by
  intro h
  have hrun : Runs.run lifeStep numberReused twoMachines = some _ := rfl
  have htrust := h twoMachines _ numberReused twoMachines_unused hrun numberReused [] _ rfl hrun
  have howner := htrust.hard "mac" "4711" rfl
  cases howner

end KvmOsx.Host
