import KvmOsx.Genconfig.Diskarg

/-!
# The disk servers (`exec/systemd/run-nbd.sh`, `run-virtiofsd.sh`, `run-iscsi-tgt.sh`)

The generated `on-run` calls three launchers before it starts QEMU. Each goes through
the same list of disks and starts a server for those of its kind: `qemu-nbd` and
`virtiofsd` as transient systemd units, iSCSI targets in the running target daemon.

* `Server`, `Event`: the servers, and what the launchers ask systemd and `tgt-admin` for.
* `launch`: the events of the three launchers in the order of `on-run`.
* `mem_started`: which servers they start.
-/

namespace KvmOsx.Exec

open Text Genconfig

/-! ## Unit names -/

/-- The first hyphen becomes two underscores. -/
def substHyphen : List Char → List Char
  | [] => []
  | c :: cs => if c = '-' then '_' :: '_' :: cs else c :: substHyphen cs

/-- The machine name in unit names: the expansion of `$MACHINE` replaces the first hyphen. -/
def unitMachine (machine : String) : String := String.ofList (substHyphen machine.toList)

/-- The unit of `run-clover.sh` (line 15). -/
def machineUnit (machine : String) : String := "qemu-" ++ unitMachine machine

/-- The unit of `run-nbd.sh` (line 43) and `run-virtiofsd.sh` (line 45) for a disk. -/
def diskUnit (machine disk : String) : String := machineUnit machine ++ "-disk-" ++ disk

theorem diskUnit_inj {machine i j : String} : diskUnit machine i = diskUnit machine j ↔ i = j := by
  rw [diskUnit, diskUnit, String.append_right_inj]

/-! ## Servers -/

/-- A server for a disk: `qemu-nbd --socket=SOCK --format=FORMAT IMAGE`, `virtiofsd
    --socket-path=SOCK -o source=DIR`, or a target with a backing store, whose bytes are
    served as they are. -/
inductive Server
  | nbd (disk sock : String) (format : Format) (image : String)
  | virtiofs (disk sock dir : String)
  | iscsi (disk target image blockSize : String)
  deriving DecidableEq, Repr

/-- The kinds of servers. -/
inductive ServerKind
  | nbd
  | virtiofs
  | iscsi
  deriving DecidableEq, Repr

/-- The kind of a server. -/
def Server.kind : Server → ServerKind
  | .nbd .. => .nbd
  | .virtiofs .. => .virtiofs
  | .iscsi .. => .iscsi

/-- The disk a server was started for. -/
def Server.disk : Server → String
  | .nbd disk .. => disk
  | .virtiofs disk .. => disk
  | .iscsi disk .. => disk

/-- `systemctl stop UNIT`, `systemd-run --unit=UNIT SERVER`, and `tgt-admin --update
    TARGET` after the target's file was written. -/
inductive Event
  | stop (unit : String)
  | start (unit : String) (s : Server)
  | target (s : Server)
  deriving DecidableEq, Repr

/-! ## The launchers -/

/-- `for i in clover system data data1 data2 data3`. -/
def launcherDisks : List String := ["clover", "system", "data", "data1", "data2", "data3"]

/-- The loop of a launcher: what `body` does for each disk that `test` lets pass. -/
def launcher (test : String → Bool) (body : String → List Event) : List Event :=
  launcherDisks.flatMap fun i => if test i then body i else []

/-- `$MACHINE_VAR/$i.nbd.sock` (run-nbd.sh:39). -/
def nbdSock (e : Env) (i : String) : String := e.val "MACHINE_VAR" ++ "/" ++ i ++ ".nbd.sock"

/-- `$MACHINE_VAR/$i.virtiofsd.sock` (run-virtiofsd.sh:40). -/
def virtiofsdSock (e : Env) (i : String) : String :=
  e.val "MACHINE_VAR" ++ "/" ++ i ++ ".virtiofsd.sock"

/-- `$IQN:$i` with `IQN="iqn.2001-04.com.$(hostname).$MACHINE"` (run-iscsi-tgt.sh:41-46). -/
def iqn (e : Env) (hostname i : String) : String :=
  "iqn.2001-04.com." ++ hostname ++ "." ++ e.val "MACHINE" ++ ":" ++ i

/-- The server of `run-nbd.sh` for a disk. -/
def nbdServer (e : Env) (i : String) : Server := .nbd i (nbdSock e i) .raw (diskVar e i)

/-- The server of `run-virtiofsd.sh` for a disk. -/
def virtiofsServer (e : Env) (i : String) : Server :=
  .virtiofs i (virtiofsdSock e i) (e.val ("DISK_" ++ i ++ "_PATH"))

/-- The target of `run-iscsi-tgt.sh` for a disk. -/
def iscsiServer (e : Env) (hostname i : String) : Server :=
  .iscsi i (iqn e hostname i) (diskVar e i) (e.valOr ("DISK_" ++ i ++ "_BLOCKSIZE") "512")

/-- A unit is stopped before it is started (run-nbd.sh:43-53, run-virtiofsd.sh:45-57). -/
def restart (e : Env) (i : String) (s : Server) : List Event :=
  [.stop (diskUnit (e.val "MACHINE") i), .start (diskUnit (e.val "MACHINE") i) s]

/-- `[[ "$DISK_TYPE" = "nbd" ]]`. -/
def isNbd (e : Env) (i : String) : Bool := e.val ("DISK_" ++ i ++ "_TYPE") = "nbd"

/-- `[[ "$DISK_MODE" = "virtiofsd" ]]`; `HDD_MODE` is not looked at. -/
def isVirtiofsd (e : Env) (i : String) : Bool := e.val ("DISK_" ++ i ++ "_MODE") = "virtiofsd"

/-- `[[ "$DISK_TYPE" = "iscsi-tgt" ]]`. -/
def isIscsiTgt (e : Env) (i : String) : Bool := e.val ("DISK_" ++ i ++ "_TYPE") = "iscsi-tgt"

/-- `run-nbd.sh`. -/
def runNbd (e : Env) : List Event := launcher (isNbd e) fun i => restart e i (nbdServer e i)

/-- `run-virtiofsd.sh`. -/
def runVirtiofsd (e : Env) : List Event :=
  launcher (isVirtiofsd e) fun i => restart e i (virtiofsServer e i)

/-- `run-iscsi-tgt.sh`. -/
def runIscsiTgt (e : Env) (hostname : String) : List Event :=
  launcher (isIscsiTgt e) fun i => [.target (iscsiServer e hostname i)]

/-- The launchers in the order of `on-run` (genconfig.sh:81-83). -/
def launch (e : Env) (hostname : String) : List Event :=
  runNbd e ++ runVirtiofsd e ++ runIscsiTgt e hostname

/-! ## The servers that are started -/

/-- The server an event starts. -/
def Event.server? : Event → Option Server
  | .stop _ => none
  | .start _ s => some s
  | .target s => some s

/-- The servers that a list of events starts. -/
def started (evs : List Event) : List Server := evs.filterMap Event.server?

@[simp] theorem started_append (evs evs' : List Event) :
    started (evs ++ evs') = started evs ++ started evs' := List.filterMap_append

theorem mem_launcher {test : String → Bool} {body : String → List Event} {a : Event} :
    a ∈ launcher test body ↔ ∃ i ∈ launcherDisks, test i = true ∧ a ∈ body i := by
  rw [launcher, List.mem_flatMap]
  refine exists_congr fun i => and_congr_right fun _ => ?_
  cases test i <;> simp

theorem mem_started_launcher {test : String → Bool} {body : String → List Event} {s : Server} :
    s ∈ started (launcher test body) ↔
      ∃ i ∈ launcherDisks, test i = true ∧ s ∈ started (body i) := by
  simp only [started, List.mem_filterMap, mem_launcher]
  constructor
  · rintro ⟨a, ⟨i, hi, ht, ha⟩, hs⟩
    exact ⟨i, hi, ht, a, ha, hs⟩
  · rintro ⟨i, hi, ht, a, ha, hs⟩
    exact ⟨a, ⟨i, hi, ht, ha⟩, hs⟩

@[simp] theorem started_restart (e : Env) (i : String) (s : Server) :
    started (restart e i s) = [s] := rfl

theorem started_target (s : Server) : started [.target s] = [s] := rfl

/-- What the launchers start: one server for each disk of a kind. -/
theorem mem_started {e : Env} {hostname : String} {s : Server} :
    s ∈ started (launch e hostname) ↔ ∃ i ∈ launcherDisks,
      (isNbd e i = true ∧ s = nbdServer e i) ∨ (isVirtiofsd e i = true ∧ s = virtiofsServer e i) ∨
        (isIscsiTgt e i = true ∧ s = iscsiServer e hostname i) := by
  simp only [launch, runNbd, runVirtiofsd, runIscsiTgt, started_append, List.mem_append,
    mem_started_launcher, started_restart, started_target, List.mem_singleton]
  constructor
  · rintro ((⟨i, hi, h⟩ | ⟨i, hi, h⟩) | ⟨i, hi, h⟩)
    · exact ⟨i, hi, Or.inl h⟩
    · exact ⟨i, hi, Or.inr (Or.inl h)⟩
    · exact ⟨i, hi, Or.inr (Or.inr h)⟩
  · rintro ⟨i, hi, h | h | h⟩
    · exact Or.inl (Or.inl ⟨i, hi, h⟩)
    · exact Or.inl (Or.inr ⟨i, hi, h⟩)
    · exact Or.inr ⟨i, hi, h⟩

/-! ## Order -/

/-- The later event stops the unit that the earlier one started. -/
def Clobbers : Event → Event → Prop
  | .start u _, .stop v => u = v
  | _, _ => False

/-- No event stops a server that an earlier one has started. -/
def Kept (evs : List Event) : Prop := evs.Pairwise fun a b => ¬ Clobbers a b

/-- The units of a list of events. -/
def Event.unit? : Event → Option String
  | .stop u => some u
  | .start u _ => some u
  | .target _ => none

theorem Clobbers.unit {a b : Event} (h : Clobbers a b) : ∃ u, a.unit? = some u ∧ b.unit? = some u := by
  match a, b, h with
  | .start u _, .stop _, rfl => exact ⟨u, rfl, rfl⟩

/-- The events of a disk concern its own unit only. -/
def OnUnit (machine i : String) (evs : List Event) : Prop :=
  ∀ a ∈ evs, ∀ u, a.unit? = some u → u = diskUnit machine i

theorem restart_onUnit (e : Env) (i : String) (s : Server) :
    OnUnit (e.val "MACHINE") i (restart e i s) := by
  intro a ha u hu
  simp only [restart, List.mem_cons, List.not_mem_nil, or_false] at ha
  rcases ha with rfl | rfl <;> exact (Option.some.inj hu).symm

theorem restart_kept (e : Env) (i : String) (s : Server) : Kept (restart e i s) := by
  simp [Kept, restart, Clobbers]

/-- Events of different disks do not clobber each other. -/
theorem not_clobbers_of_ne {machine i j : String} {evs evs' : List Event}
    (h : OnUnit machine i evs) (h' : OnUnit machine j evs') (hne : i ≠ j) :
    ∀ a ∈ evs, ∀ b ∈ evs', ¬ Clobbers a b := by
  intro a ha b hb hc
  obtain ⟨u, hu, hu'⟩ := hc.unit
  exact hne (diskUnit_inj.mp ((h a ha u hu).symm.trans (h' b hb u hu')))

/-- One launcher keeps the servers it starts. -/
theorem launcher_kept {machine : String} {test : String → Bool} {body : String → List Event}
    (hkept : ∀ i, Kept (body i)) (hunit : ∀ i, OnUnit machine i (body i)) :
    Kept (launcher test body) := by
  have hnodup : launcherDisks.Nodup := by decide
  rw [Kept, launcher, List.pairwise_flatMap]
  refine ⟨fun i _ => ?_, hnodup.imp fun {i j} hne a ha b hb => ?_⟩
  · split_ifs
    · exact hkept i
    · exact List.Pairwise.nil
  · split_ifs at ha hb
    · exact not_clobbers_of_ne (hunit i) (hunit j) hne a ha b hb
    all_goals simp at ha hb

/-- The launchers keep each other's servers unless a disk has both an NBD type and the
    mode `virtiofsd`. -/
theorem launch_kept {e : Env} {hostname : String}
    (h : ∀ i ∈ launcherDisks, isNbd e i = true → isVirtiofsd e i = false) :
    Kept (launch e hostname) := by
  have hnbd : Kept (runNbd e) :=
    launcher_kept (fun i => restart_kept e i _) fun i => restart_onUnit e i _
  have hvfs : Kept (runVirtiofsd e) :=
    launcher_kept (fun i => restart_kept e i _) fun i => restart_onUnit e i _
  have htarget : ∀ b ∈ runIscsiTgt e hostname, b.unit? = none := by
    intro b hb
    obtain ⟨i, -, -, hb⟩ := mem_launcher.mp hb
    rw [List.mem_singleton.mp hb]
    rfl
  have hquiet : ∀ a, ∀ b ∈ runIscsiTgt e hostname, ¬ Clobbers a b := by
    intro a b hb hc
    obtain ⟨u, -, hu⟩ := hc.unit
    rw [htarget b hb] at hu
    cases hu
  have hcross : ∀ a ∈ runNbd e, ∀ b ∈ runVirtiofsd e, ¬ Clobbers a b := by
    intro a ha b hb
    obtain ⟨i, hi, hnbdi, ha⟩ := mem_launcher.mp ha
    obtain ⟨j, -, hvfsj, hb⟩ := mem_launcher.mp hb
    have hne : i ≠ j := by
      rintro rfl
      rw [h i hi hnbdi] at hvfsj
      cases hvfsj
    exact not_clobbers_of_ne (restart_onUnit e i _) (restart_onUnit e j _) hne a ha b hb
  have htgt : Kept (runIscsiTgt e hostname) :=
    List.pairwise_of_forall_mem_list fun a _ b hb => hquiet a b hb
  rw [Kept, launch, List.pairwise_append, List.pairwise_append]
  exact ⟨⟨hnbd, hvfs, hcross⟩, htgt, fun a _ b hb => hquiet a b hb⟩

end KvmOsx.Exec
