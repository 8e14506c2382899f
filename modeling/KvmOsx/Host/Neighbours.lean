import KvmOsx.Exec.Launchers
import KvmOsx.Host.Boot
import KvmOsx.Lib.Interleave

/-!
# Machines that boot side by side

A boot starts disk servers and QEMU as transient systemd units, and `update-pid-cpu.sh`
writes pid files to `/var/run/qemu` and hands one file for each thread to
`systemd-unit-for-pid`. The names are built in four scripts.

* `bootEvents`: the units and files of a boot, in order.
* `filesApart_iff`: two machines have no pid file in common only if one has no threads.
* `unitsApart_iff`: two machines have no unit in common exactly if their names differ after
  the replacement of the first hyphen.
* `pidsGiven_iff`: the files that are handed over are never there.
* `separate_iff`: when machines that boot side by side leave each other alone.
-/

namespace KvmOsx.Host

open Text Genconfig Exec Interleave

/-! ## The events of a boot -/

/-- The name of a transient unit; `systemd-run --scope` makes a scope, and a service
    otherwise. -/
inductive SystemdUnit
  | scope (name : String)
  | service (name : String)
  deriving DecidableEq, Repr

/-- What a boot does that another can see: the launchers' calls, the scope of QEMU, the
    pid files `/var/run/qemu/NAME.pid`, and the calls of `systemd-unit-for-pid` with the
    name of such a file and the thread it is meant for. -/
inductive RunEvent
  | server (ev : Event)
  | scope (unit : String)
  | write (name text : String)
  | handOver (name thread : String)
  deriving DecidableEq, Repr

/-- A boot of a machine: its settings, the host's name, the text of `var/pid`, and the
    thread ids that QEMU tells. -/
structure MachineBoot where
  env : Env
  hostname : String
  pid : String
  tasks : List String

/-- `$MACHINE`. -/
def MachineBoot.machine (b : MachineBoot) : String := b.env.val "MACHINE"

/-- The name of the file of QEMU itself (update-pid-cpu.sh:28). -/
def qemuPidName (machine : String) : String := machine ++ "-qemu"

/-- The name of the file of a thread, as it is written (update-pid-cpu.sh:38). -/
def vcpuName (i : ℕ) : String := "vcpu" ++ num i

/-- The name of the file of a thread, as it is handed over (update-pid-cpu.sh:39). -/
def unitPidName (machine : String) (i : ℕ) : String := machine ++ "-vcpu" ++ num i

/-- The loop of `update-pid-cpu.sh` over the thread ids, from `$i`. -/
def vcpuEvents (machine : String) : ℕ → List String → List RunEvent
  | _, [] => []
  | i, t :: tasks =>
    .write (vcpuName i) t :: .handOver (unitPidName machine i) t ::
      vcpuEvents machine (i + 1) tasks

/-- `update-pid-cpu.sh`. -/
def pinEvents (b : MachineBoot) : List RunEvent :=
  .write (qemuPidName b.machine) b.pid :: vcpuEvents b.machine 0 b.tasks

/-- A boot: the launchers, `run-clover.sh`, and the kickstart. -/
def bootEvents (b : MachineBoot) : List RunEvent :=
  (launch b.env b.hostname).map .server ++ .scope (machineUnit b.machine) :: pinEvents b

/-- The effect of an event on the files. -/
def RunEvent.apply (files : FileMap) : RunEvent → FileMap
  | .write name text => Function.update files (.runPid name) (some text)
  | _ => files

/-- The events of `update-pid-cpu.sh` write what `updatePidCpu` writes. -/
theorem pinEvents_files {s : HostState} {b : MachineBoot} (hpin : s.canPin b.machine = true)
    (hpid : s.files (.pid b.machine) = some b.pid) :
    (pinEvents b).foldl RunEvent.apply s.files = (updatePidCpu s b.machine b.tasks).files := by
  have hloop : ∀ (tasks : List String) (i : ℕ) (files : FileMap),
      (vcpuEvents b.machine i tasks).foldl RunEvent.apply files = writeVcpus i tasks files := by
    intro tasks
    induction tasks with
    | nil => exact fun _ _ => rfl
    | cons t tasks ih => exact fun i files => ih (i + 1) _
  rw [updatePidCpu, if_pos hpin, hpid]
  exact hloop b.tasks 0 _

/-! ## Names -/

/-- The name of the pid file an event writes. -/
def RunEvent.file? : RunEvent → Option String
  | .write name _ => some name
  | _ => none

/-- The unit an event stops or starts. -/
def RunEvent.unit? : RunEvent → Option SystemdUnit
  | .server ev => ev.unit?.map .service
  | .scope u => some (.scope u)
  | _ => none

/-- The pid files of a boot. -/
def pidFiles (b : MachineBoot) : List String := (bootEvents b).filterMap RunEvent.file?

/-- The units of a boot. -/
def units (b : MachineBoot) : List SystemdUnit := (bootEvents b).filterMap RunEvent.unit?

/-- Two boots write no pid file in common. -/
def FilesApart (b b' : MachineBoot) : Prop := ∀ name ∈ pidFiles b, name ∉ pidFiles b'

/-- Two boots stop and start no unit in common. -/
def UnitsApart (b b' : MachineBoot) : Prop := ∀ u ∈ units b, u ∉ units b'

theorem vcpuEvents_files (machine : String) (i : ℕ) (tasks : List String) :
    (vcpuEvents machine i tasks).filterMap RunEvent.file? =
      (List.range' i tasks.length).map vcpuName := by
  induction tasks generalizing i with
  | nil => rfl
  | cons t tasks ih =>
    rw [List.length_cons, List.range'_succ, List.map_cons, ← ih]
    rfl

/-- The pid files of a boot are that of QEMU and one for each thread. -/
theorem mem_pidFiles {b : MachineBoot} {name : String} :
    name ∈ pidFiles b ↔ name = qemuPidName b.machine ∨ ∃ i < b.tasks.length, name = vcpuName i := by
  have hserver : ∀ evs : List Event, (evs.map RunEvent.server).filterMap RunEvent.file? = [] := by
    intro evs
    rw [List.filterMap_map, List.filterMap_eq_nil_iff]
    intro ev _
    rfl
  have hfiles : pidFiles b =
      qemuPidName b.machine :: (List.range' 0 b.tasks.length).map vcpuName := by
    rw [pidFiles, bootEvents, List.filterMap_append, hserver, List.nil_append,
      ← vcpuEvents_files b.machine]
    rfl
  rw [hfiles, List.mem_cons, List.mem_map]
  simp only [List.mem_range'_1, Nat.zero_le, true_and, Nat.zero_add, eq_comm]

theorem vcpuName_inj {i j : ℕ} : vcpuName i = vcpuName j ↔ i = j := prefix_num_inj "vcpu"

theorem qemuPidName_inj {m n : String} : qemuPidName m = qemuPidName n ↔ m = n := by
  rw [qemuPidName, qemuPidName, String.append_left_inj]

/-- A text without a hyphen. -/
theorem hyphen_not_mem_vcpuName (i : ℕ) : '-' ∉ (vcpuName i).toList := by
  rw [vcpuName, String.toList_append, List.mem_append, not_or]
  exact ⟨by decide, not_mem_num_of_not_isDigit (by decide) i⟩

theorem vcpuName_ne_qemuPidName (i : ℕ) (m : String) : vcpuName i ≠ qemuPidName m := by
  intro h
  apply hyphen_not_mem_vcpuName i
  rw [h]
  simp [qemuPidName]

/-- The file that is handed over is not the one that is written. -/
theorem unitPidName_ne_vcpuName (m : String) (i j : ℕ) : unitPidName m i ≠ vcpuName j := by
  intro h
  apply hyphen_not_mem_vcpuName j
  rw [← h]
  simp [unitPidName]

theorem unitPidName_ne_qemuPidName (m n : String) (i : ℕ) : unitPidName m i ≠ qemuPidName n := by
  intro h
  have hlist : m.toList ++ '-' :: (vcpuName i).toList = n.toList ++ '-' :: "qemu".toList := by
    simpa [unitPidName, qemuPidName, vcpuName] using congrArg String.toList h
  obtain ⟨-, htail⟩ := append_cons_inj (hyphen_not_mem_vcpuName i) (by decide) hlist
  have hhead := congrArg List.head? htail
  simp [vcpuName] at hhead

/-- No boot writes a file that a boot hands over. -/
theorem unitPidName_not_mem (b : MachineBoot) (m : String) (i : ℕ) :
    unitPidName m i ∉ pidFiles b := by
  rw [mem_pidFiles, not_or]
  refine ⟨unitPidName_ne_qemuPidName m b.machine i, ?_⟩
  rintro ⟨j, -, h⟩
  exact unitPidName_ne_vcpuName m i j h

/-- Boots of two machines have no pid file in common exactly if one of them has no threads. -/
theorem filesApart_iff {b b' : MachineBoot} (hne : b.machine ≠ b'.machine) :
    FilesApart b b' ↔ b.tasks = [] ∨ b'.tasks = [] := by
  constructor
  · intro h
    by_contra hboth
    obtain ⟨hb, hb'⟩ := not_or.mp hboth
    refine h (vcpuName 0) (mem_pidFiles.mpr (Or.inr ⟨0, ?_, rfl⟩))
      (mem_pidFiles.mpr (Or.inr ⟨0, ?_, rfl⟩))
    · exact List.length_pos_of_ne_nil hb
    · exact List.length_pos_of_ne_nil hb'
  · intro h name hname hname'
    rcases mem_pidFiles.mp hname with rfl | ⟨i, hi, rfl⟩ <;>
      rcases mem_pidFiles.mp hname' with heq | ⟨j, hj, heq⟩
    · exact hne (qemuPidName_inj.mp heq)
    · exact vcpuName_ne_qemuPidName j _ heq.symm
    · exact vcpuName_ne_qemuPidName i _ heq
    · rcases h with h | h
      · simp [h] at hi
      · simp [h] at hj

/-! ## Units -/

/-- A launcher starts a server for the disk as a unit. -/
def MachineBoot.Serves (b : MachineBoot) (i : String) : Prop :=
  i ∈ launcherDisks ∧ (isNbd b.env i = true ∨ isVirtiofsd b.env i = true)

theorem mem_restart {e : Env} {i : String} {s : Server} {ev : Event} :
    ev ∈ restart e i s ↔ ev = .stop (diskUnit (e.val "MACHINE") i) ∨
      ev = .start (diskUnit (e.val "MACHINE") i) s := by
  simp [restart]

/-- The units the launchers stop and start are those of the disks they serve. -/
theorem launch_unit {b : MachineBoot} {ev : Event} {u : String}
    (hev : ev ∈ launch b.env b.hostname) (hu : ev.unit? = some u) :
    ∃ i, b.Serves i ∧ u = diskUnit b.machine i := by
  simp only [launch, runNbd, runVirtiofsd, runIscsiTgt, List.mem_append, mem_launcher] at hev
  rcases hev with (⟨i, hi, htest, hev⟩ | ⟨i, hi, htest, hev⟩) | ⟨i, -, -, hev⟩
  · exact ⟨i, ⟨hi, Or.inl htest⟩, restart_onUnit b.env i _ ev hev u hu⟩
  · exact ⟨i, ⟨hi, Or.inr htest⟩, restart_onUnit b.env i _ ev hev u hu⟩
  · rw [List.mem_singleton.mp hev] at hu
    cases hu

/-- For each of them the unit is stopped and a server is started as that unit. -/
theorem launch_serves {b : MachineBoot} {i : String} (h : b.Serves i) :
    .stop (diskUnit b.machine i) ∈ launch b.env b.hostname ∧
      ∃ s, .start (diskUnit b.machine i) s ∈ launch b.env b.hostname := by
  obtain ⟨hi, htest⟩ := h
  simp only [launch, runNbd, runVirtiofsd, List.mem_append, mem_launcher]
  rcases htest with htest | htest
  · exact ⟨Or.inl (Or.inl ⟨i, hi, htest, mem_restart.mpr (Or.inl rfl)⟩),
      _, Or.inl (Or.inl ⟨i, hi, htest, mem_restart.mpr (Or.inr rfl)⟩)⟩
  · exact ⟨Or.inl (Or.inr ⟨i, hi, htest, mem_restart.mpr (Or.inl rfl)⟩),
      _, Or.inl (Or.inr ⟨i, hi, htest, mem_restart.mpr (Or.inr rfl)⟩)⟩

/-- The events of `update-pid-cpu.sh` have no unit. -/
theorem pinEvents_unit {b : MachineBoot} {ev : RunEvent} (h : ev ∈ pinEvents b) :
    ev.unit? = none := by
  have hloop : ∀ (tasks : List String) (i : ℕ), ∀ ev ∈ vcpuEvents b.machine i tasks,
      ev.unit? = none := by
    intro tasks
    induction tasks with
    | nil => simp [vcpuEvents]
    | cons t tasks ih =>
      intro i ev hev
      rcases List.mem_cons.mp hev with rfl | hev
      · rfl
      · rcases List.mem_cons.mp hev with rfl | hev
        · rfl
        · exact ih (i + 1) ev hev
  rcases List.mem_cons.mp h with rfl | h
  · rfl
  · exact hloop b.tasks 0 ev h

/-- The unit of a launcher's event is that of a disk it serves. -/
theorem server_unit {b : MachineBoot} {ev : Event} {u : String} (h : .server ev ∈ bootEvents b)
    (hu : ev.unit? = some u) : ∃ i, b.Serves i ∧ u = diskUnit b.machine i := by
  rcases List.mem_append.mp h with h | h
  · obtain ⟨ev', hlaunch, heq⟩ := List.mem_map.mp h
    obtain rfl := RunEvent.server.inj heq
    exact launch_unit hlaunch hu
  · rcases List.mem_cons.mp h with h | h
    · cases h
    · have hnone := pinEvents_unit h
      rw [RunEvent.unit?, hu] at hnone
      cases hnone

theorem mem_units {b : MachineBoot} {u : SystemdUnit} :
    u ∈ units b ↔ u = .scope (machineUnit b.machine) ∨
      ∃ i, b.Serves i ∧ u = .service (diskUnit b.machine i) := by
  rw [units, List.mem_filterMap]
  constructor
  · rintro ⟨ev, hev, hu⟩
    rcases List.mem_append.mp hev with hev | hev
    · obtain ⟨ev, hlaunch, rfl⟩ := List.mem_map.mp hev
      obtain ⟨name, hname, rfl⟩ := Option.map_eq_some_iff.mp hu
      obtain ⟨i, hi, rfl⟩ := launch_unit hlaunch hname
      exact Or.inr ⟨i, hi, rfl⟩
    · rcases List.mem_cons.mp hev with rfl | hev
      · exact Or.inl (Option.some.inj hu).symm
      · rw [pinEvents_unit hev] at hu
        cases hu
  · rintro (rfl | ⟨i, hi, rfl⟩)
    · exact ⟨.scope (machineUnit b.machine), List.mem_append_right _ List.mem_cons_self, rfl⟩
    · obtain ⟨hstop, -⟩ := launch_serves hi
      exact ⟨_, List.mem_append_left _ (List.mem_map_of_mem hstop), rfl⟩

theorem machineUnit_inj {m n : String} :
    machineUnit m = machineUnit n ↔ unitMachine m = unitMachine n :=
  String.append_right_inj _

theorem hyphen_not_mem_disk {i : String} (hi : i ∈ launcherDisks) : '-' ∉ i.toList := by
  simp only [launcherDisks, List.mem_cons, List.not_mem_nil, or_false] at hi
  rcases hi with rfl | rfl | rfl | rfl | rfl | rfl <;> decide

/-- A disk's unit names the disk, and the machine as far as unit names do. -/
theorem diskUnit_eq {m n i j : String} (hi : i ∈ launcherDisks) (hj : j ∈ launcherDisks)
    (h : diskUnit m i = diskUnit n j) : unitMachine m = unitMachine n ∧ i = j := by
  have hlist : (machineUnit m ++ "-disk").toList ++ '-' :: i.toList =
      (machineUnit n ++ "-disk").toList ++ '-' :: j.toList := by
    simpa [diskUnit] using congrArg String.toList h
  obtain ⟨hmachine, hdisk⟩ :=
    append_cons_inj (hyphen_not_mem_disk hi) (hyphen_not_mem_disk hj) hlist
  have hunit := (String.append_left_inj _).mp (String.toList_inj.mp hmachine)
  exact ⟨machineUnit_inj.mp hunit, String.toList_inj.mp hdisk⟩

/-- Boots have no unit in common exactly if unit names tell the machines apart. -/
theorem unitsApart_iff {b b' : MachineBoot} :
    UnitsApart b b' ↔ unitMachine b.machine ≠ unitMachine b'.machine := by
  constructor
  · intro h heq
    apply h (.scope (machineUnit b.machine)) (mem_units.mpr (Or.inl rfl))
    rw [mem_units, machineUnit_inj.mpr heq]
    exact Or.inl rfl
  · intro hne u hu hu'
    rcases mem_units.mp hu with rfl | ⟨i, hi, rfl⟩ <;>
      rcases mem_units.mp hu' with heq | ⟨j, hj, heq⟩
    · exact hne (machineUnit_inj.mp (SystemdUnit.scope.inj heq))
    · cases heq
    · cases heq
    · exact hne (diskUnit_eq hi.1 hj.1 (SystemdUnit.service.inj heq)).1

/-- Without underscores in the names, unit names do tell machines apart. -/
theorem unitMachine_inj {m n : String} (hm : '_' ∉ m.toList) (hn : '_' ∉ n.toList) :
    unitMachine m = unitMachine n ↔ m = n := by
  have hlist : ∀ cs ds : List Char, '_' ∉ cs → '_' ∉ ds → substHyphen cs = substHyphen ds →
      cs = ds := by
    intro cs
    induction cs with
    | nil =>
      intro ds _ _ h
      cases ds with
      | nil => rfl
      | cons d ds =>
        unfold substHyphen at h
        split_ifs at h
    | cons c cs ih =>
      intro ds hcs hds h
      cases ds with
      | nil =>
        unfold substHyphen at h
        split_ifs at h
      | cons d ds =>
        simp only [List.mem_cons, not_or] at hcs hds
        unfold substHyphen at h
        split_ifs at h with hc hd hd
        · rw [hc, hd, (List.cons.inj (List.cons.inj h).2).2]
        · exact absurd (List.cons.inj h).1 hds.1
        · exact absurd (List.cons.inj h).1.symm hcs.1
        · obtain ⟨rfl, htail⟩ := List.cons.inj h
          rw [ih ds hcs.2 hds.2 htail]
  constructor
  · intro h
    exact String.toList_inj.mp (hlist _ _ hm hn (String.ofList_inj.mp h))
  · rintro rfl
    rfl

example : unitMachine "a-b" = unitMachine "a__b" := by decide

/-! ## Interleavings of boots -/

/-- The pid files after some events, from an empty `/var/run/qemu`. -/
def filesAfter {ι : Type*} (evs : List (ι × RunEvent)) : FileMap :=
  evs.foldl (fun files x => x.2.apply files) fun _ => none

/-- Each file that is handed over is there, and holds the id of the thread. -/
def PidsGiven {ι : Type*} (evs : List (ι × RunEvent)) : Prop :=
  ∀ before x after name t, evs = before ++ x :: after → x.2 = .handOver name t →
    filesAfter before (.runPid name) = some t

/-- No boot stops a unit after another boot has started a disk server as that unit. -/
def ServersKept {ι : Type*} (evs : List (ι × RunEvent)) : Prop :=
  ∀ before x after u, evs = before ++ x :: after → x.2 = .server (.stop u) →
    ∀ y ∈ before, y.1 ≠ x.1 → ∀ s, y.2 ≠ .server (.start u s)

/-- Boots of different machines leave each other alone. -/
structure Separate {ι : Type*} [DecidableEq ι] (boots : ι → MachineBoot) : Prop where
  files : ∀ k l, k ≠ l → FilesApart (boots k) (boots l)
  units : ∀ k l, k ≠ l → UnitsApart (boots k) (boots l)
  given : ∀ evs, Interleaving (fun k => bootEvents (boots k)) evs → PidsGiven evs
  kept : ∀ evs, Interleaving (fun k => bootEvents (boots k)) evs → ServersKept evs

section Interleavings

variable {ι : Type*} [DecidableEq ι] {boots : ι → MachineBoot}

omit [DecidableEq ι] in
/-- A file that no event writes is not there. -/
theorem filesAfter_eq_none {evs : List (ι × RunEvent)} {name : String}
    (h : ∀ x ∈ evs, x.2.file? ≠ some name) : filesAfter evs (.runPid name) = none := by
  induction evs using List.reverseRecOn with
  | nil => rfl
  | append_singleton evs x ih =>
    have hrest := ih fun y hy => h y (List.mem_append_left _ hy)
    have hlast := h x (List.mem_append_right _ List.mem_cons_self)
    unfold filesAfter at hrest ⊢
    rw [List.foldl_append, List.foldl_cons, List.foldl_nil]
    obtain ⟨k, ev⟩ := x
    cases ev with
    | write name' text =>
      have hne : name ≠ name' := fun heq => hlast (congrArg some heq.symm)
      simpa [RunEvent.apply, hne] using hrest
    | server ev => exact hrest
    | scope u => exact hrest
    | handOver name' t => exact hrest

/-- What is handed over is the file of a thread. -/
theorem handOver_mem {b : MachineBoot} {name t : String} (h : .handOver name t ∈ bootEvents b) :
    ∃ i < b.tasks.length, name = unitPidName b.machine i := by
  have hloop : ∀ (tasks : List String) (i : ℕ),
      RunEvent.handOver name t ∈ vcpuEvents b.machine i tasks →
        ∃ j < tasks.length, name = unitPidName b.machine (i + j) := by
    intro tasks
    induction tasks with
    | nil => simp [vcpuEvents]
    | cons t' tasks ih =>
      intro i hmem
      simp only [vcpuEvents, List.mem_cons, reduceCtorEq, false_or, RunEvent.handOver.injEq] at hmem
      rcases hmem with ⟨hname, -⟩ | hmem
      · exact ⟨0, by simp, hname⟩
      · obtain ⟨j, hj, hname⟩ := ih (i + 1) hmem
        refine ⟨j + 1, by simpa using hj, ?_⟩
        rw [hname, Nat.add_right_comm, Nat.add_assoc]
  simp only [bootEvents, pinEvents, List.mem_append, List.mem_map, List.mem_cons, reduceCtorEq,
    and_false, exists_false, false_or] at h
  simpa using hloop b.tasks 0 h

/-- In no interleaving is a file there that is handed over. -/
theorem handOver_missing {evs : List (ι × RunEvent)} {name t : String} {k : ι}
    (hevs : Interleaving (fun k => bootEvents (boots k)) evs)
    (hmem : .handOver name t ∈ bootEvents (boots k)) : filesAfter evs (.runPid name) = none := by
  obtain ⟨i, -, rfl⟩ := handOver_mem hmem
  apply filesAfter_eq_none
  rintro ⟨l, ev⟩ hev hfile
  exact unitPidName_not_mem (boots l) _ i (List.mem_filterMap.mpr ⟨ev, hevs.mem hev, hfile⟩)

/-- Every file that is handed over is there only if there is none: no machine has threads. -/
theorem pidsGiven_iff : (∀ evs, Interleaving (fun k => bootEvents (boots k)) evs → PidsGiven evs) ↔
    ∀ k, (boots k).tasks = [] := by
  constructor
  · intro h k
    cases htasks : (boots k).tasks with
    | nil => rfl
    | cons t tasks =>
      have hmem : .handOver (unitPidName (boots k).machine 0) t ∈ bootEvents (boots k) := by
        simp [bootEvents, pinEvents, vcpuEvents, htasks]
      obtain ⟨before, after, hsplit⟩ := List.append_of_mem hmem
      have halone := interleaving_alone (fun k => bootEvents (boots k)) k
      have hevs : (bootEvents (boots k)).map (Prod.mk k) = before.map (Prod.mk k) ++
          (k, .handOver (unitPidName (boots k).machine 0) t) :: after.map (Prod.mk k) := by
        rw [hsplit]
        simp
      have hgiven := h _ halone _ _ _ _ _ hevs rfl
      rw [hevs] at halone
      rw [handOver_missing halone.left hmem] at hgiven
      cases hgiven
  · rintro h evs hevs before ⟨k, ev⟩ after name t rfl rfl
    obtain ⟨i, hi, -⟩ := handOver_mem (hevs.mem (k := k) (a := .handOver name t) (by simp))
    simp [h k] at hi

/-- Disk servers are kept in every interleaving exactly if no two machines whose names are
    the same in unit names serve a disk of the same name. -/
theorem serversKept_iff :
    (∀ evs, Interleaving (fun k => bootEvents (boots k)) evs → ServersKept evs) ↔
      ∀ k l, k ≠ l → unitMachine (boots k).machine = unitMachine (boots l).machine →
        ∀ i, ¬ ((boots k).Serves i ∧ (boots l).Serves i) := by
  constructor
  · rintro h k l hkl hunit i ⟨hk, hl⟩
    have hname : diskUnit (boots k).machine i = diskUnit (boots l).machine i := by
      rw [diskUnit, diskUnit, machineUnit_inj.mpr hunit]
    obtain ⟨-, s, hstart⟩ := launch_serves hk
    obtain ⟨hstop, -⟩ := launch_serves hl
    have hstart' : .server (.start (diskUnit (boots k).machine i) s) ∈ bootEvents (boots k) :=
      List.mem_append_left _ (List.mem_map_of_mem hstart)
    have hstop' : .server (.stop (diskUnit (boots l).machine i)) ∈ bootEvents (boots l) :=
      List.mem_append_left _ (List.mem_map_of_mem hstop)
    -- the boot of `k` to its end, then that of `l`
    obtain ⟨before, after, hsplit⟩ := List.append_of_mem hstop'
    have hevs := interleaving_two (fun k => bootEvents (boots k)) hkl
    have hkept := h _ hevs ((bootEvents (boots k)).map (Prod.mk k) ++ before.map (Prod.mk l))
      (l, .server (.stop (diskUnit (boots l).machine i))) (after.map (Prod.mk l))
      (diskUnit (boots l).machine i) (by simp [hsplit]) rfl
    refine hkept (k, _) (List.mem_append_left _ (List.mem_map_of_mem hstart')) hkl s ?_
    rw [hname]
  · rintro h evs hevs before ⟨k, ev⟩ after u rfl rfl ⟨l, ev'⟩ hy hne s rfl
    have hk := hevs.mem (k := k) (a := .server (.stop u)) (by simp)
    have hl := hevs.mem (k := l) (a := .server (.start u s)) (List.mem_append_left _ hy)
    obtain ⟨i, hi, hui⟩ := server_unit hk rfl
    obtain ⟨j, hj, huj⟩ := server_unit hl rfl
    obtain ⟨hunit, rfl⟩ := diskUnit_eq hj.1 hi.1 (huj.symm.trans hui)
    exact h l k hne hunit j ⟨hj, hi⟩

/-- **Boots of different machines leave each other alone exactly if** none of the machines
    has a thread whose id QEMU tells, and unit names tell the machines apart. -/
theorem separate_iff (hnames : Function.Injective fun k => (boots k).machine) :
    Separate boots ↔ (∀ k, (boots k).tasks = []) ∧
      ∀ k l, k ≠ l → unitMachine (boots k).machine ≠ unitMachine (boots l).machine := by
  constructor
  · intro h
    exact ⟨pidsGiven_iff.mp h.given, fun k l hkl => unitsApart_iff.mp (h.units k l hkl)⟩
  · rintro ⟨htasks, hunits⟩
    refine ⟨?_, ?_, pidsGiven_iff.mpr htasks, serversKept_iff.mpr ?_⟩
    · intro k l hkl
      have hne : (boots k).machine ≠ (boots l).machine := fun heq => hkl (hnames heq)
      exact (filesApart_iff hne).mpr (Or.inl (htasks k))
    · intro k l hkl
      exact unitsApart_iff.mpr (hunits k l hkl)
    · intro k l hkl hunit
      exact absurd hunit (hunits k l hkl)

end Interleavings

/-- A machine with no settings but its name, and some threads. -/
def plainBoot (machine : String) (tasks : List String) : MachineBoot where
  env := fun v => [("MACHINE", machine)].lookup v
  hostname := "host"
  pid := "4711"
  tasks := tasks

theorem plainBoot_machine (machine : String) (tasks : List String) :
    (plainBoot machine tasks).machine = machine := rfl

/-- Two machines whose threads QEMU does not tell. -/
theorem separate_no_threads :
    Separate fun k : Bool => plainBoot (if k then "mac" else "win") [] := by
  have hnames : Function.Injective fun k : Bool =>
      (plainBoot (if k then "mac" else "win") []).machine := by
    intro k l
    cases k <;> cases l <;> simp [plainBoot_machine]
  refine (separate_iff hnames).mpr ⟨fun _ => rfl, ?_⟩
  intro k l hkl
  cases k <;> cases l <;> simp_all [plainBoot_machine] <;> decide

/-- Both machines write `/var/run/qemu/vcpu0.pid`. -/
theorem not_separate_one_thread :
    ¬ ∀ boots : Bool → MachineBoot, Function.Injective (fun k => (boots k).machine) →
      Separate boots := by
  intro h
  have hnames : Function.Injective fun k : Bool =>
      (plainBoot (if k then "mac" else "win") ["4712"]).machine := by
    intro k l
    cases k <;> cases l <;> simp [plainBoot_machine]
  have hfiles := (h _ hnames).files true false (by decide)
  exact absurd ((filesApart_iff (by decide)).mp hfiles) (by decide)

end KvmOsx.Host
