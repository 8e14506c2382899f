import KvmOsx.Backup.ListDisks
import KvmOsx.Host.Frozen
import KvmOsx.Lib.Sourcing

/-!
# Scripts that list the machines

`machine-generate-guacamole`, `machine-list-vnc`, `machine-list-disks` and
`machine-list-running` source the files of one machine after another into one shell, and
print the variables. What a machine's files leave out is what an earlier one's set.

* `ListedVm`, `ListScript.body`: the machines, and the body of each loop.
* `ListScript.Own`: a machine's own files assign what its lines show.
* `listings_leak_iff`: when the lines for a machine do not depend on the others.
-/

namespace KvmOsx.Host

open Text Backup Sourcing

/-! ## The machines -/

/-- What the scripts see of a machine: its `config`, the seat files by their paths, the text
    of its pid file and whether `/proc` has an entry for it, the addresses the guest agents
    tell, and the files of its disks. A `config` leaves the array `disks` alone. -/
structure ListedVm where
  name : String
  config : Option Assigns
  seat : String → Assigns
  pidFile : Option String
  proc : Bool
  ip : String → String
  files : Files
  scalar : ∀ as, config = some as → ∀ a ∈ as, a.1 ≠ "disks"

/-- `source $MACHINE_PATH/config`, which may be missing. -/
def ListedVm.settings (m : ListedVm) : Assigns := m.config.getD []

/-- `[ -e "/proc/$p" ]`; without a text this is `/proc/` itself. -/
def ListedVm.inProc (m : ListedVm) (p : String) : Bool := p = "" || m.proc

/-! ## `machine-list-running` -/

/-- `_sum+$( echo $MEM | sed -e s/G// )`, for a number of gigabytes. -/
def addMem (sum mem : String) : String :=
  num (sum.toNat?.getD 0 + (String.ofList (mem.toList.erase 'G')).toNat?.getD 0)

/-- The lines for a machine, printed from these variables (lines 16-17). -/
def runningLines (v : Vars) : List String :=
  (if v "VERBOSE" = "0" then [v "vm"] else []) ++
    if v "VERBOSE" = "1" then [v "vm" ++ " \t " ++ v "MEM" ++ " \t " ++ v "GFX_VNCPORT"] else []

/-- What is assigned before the lines are printed. -/
def runningFiles (m : ListedVm) (p : String) : Assigns :=
  [("MACHINE_PATH", machinePath m.name), ("p", p), ("vm", m.name)] ++ m.settings

/-- The loop of `machine-list-running` (lines 10-23). -/
def runningBody (m : ListedVm) (v : Vars) : List String × Vars :=
  match m.pidFile with
  | none => ([], source [("MACHINE_PATH", machinePath m.name)] v)
  | some p =>
    if m.inProc p then
      let v := source (runningFiles m p) v
      (runningLines v, source [("_sum", addMem (v "_sum") (v "MEM"))] v)
    else ([], source [("MACHINE_PATH", machinePath m.name), ("p", p)] v)

/-- The variables that the lines show; only the verbose line shows more than the name. -/
def runningNeeds (as : Assigns) : List String :=
  "VERBOSE" :: if assigned as "VERBOSE" = some "1" then ["MEM", "GFX_VNCPORT"] else []

/-- The machine's own files assign what its lines show. -/
def RunningOwn (m : ListedVm) : Prop :=
  ∀ p, m.pidFile = some p → m.inProc p = true →
    ∀ x ∈ runningNeeds (runningFiles m p), (assigned (runningFiles m p) x).isSome = true

/-! ## `machine-list-vnc` -/

/-- The line for a machine (line 24). -/
def vncLines (v : Vars) : List String :=
  [v "RUNNING" ++ "\t " ++ v "HOST" ++ "\t " ++ v "vm" ++ " \t VNC_PORT: " ++ v "GFX_VNCPORT" ++ " "]

/-- What the script assigns itself (lines 12-20). -/
def vncPre (m : ListedVm) : Assigns :=
  let p := m.pidFile.getD ""
  [("MACHINE_PATH", machinePath m.name), ("HOST", "-unknown-"), ("p", p),
    ("RUNNING", if p ≠ "" && m.proc then "[*] " else "[ ] "), ("vm", m.name)]

/-- What is assigned before the line is printed. The seat file is found by variables the
    script has assigned, and the `config` may have. -/
def vncFiles (m : ListedVm) (config : Assigns) : Assigns :=
  let v := source (vncPre m ++ config) fun _ => ""
  vncPre m ++ config ++ m.seat (v "MACHINE_PATH" ++ "/../../seats/seat-" ++ v "vm")

/-- The loop of `machine-list-vnc` (lines 10-27). -/
def vncBody (m : ListedVm) (v : Vars) : List String × Vars :=
  match m.config with
  | none => ([], source (vncPre m) v)
  | some config => (vncLines (source (vncFiles m config) v), source (vncFiles m config) v)

/-- The machine's own files assign the port its line shows. -/
def VncOwn (m : ListedVm) : Prop :=
  ∀ config, m.config = some config → (assigned (vncFiles m config) "GFX_VNCPORT").isSome = true

/-! ## `machine-generate-guacamole` -/

/-- A `<connection>` element. -/
def connection (name protocol host port : String) (params : List String) : List String :=
  ["<connection name=\"" ++ name ++ "\">", "<protocol>" ++ protocol ++ "</protocol>",
    "<param name=\"hostname\">" ++ host ++ "</param>",
    "<param name=\"port\">" ++ port ++ "</param>"] ++ params ++ ["</connection>"]

/-- `$( echo $GFX_VNCPORT | sed -e s/://g )`. -/
def dropColons (t : String) : List Char := t.toList.filter (· ≠ ':')

/-- `$(( P + 5900 ))`, for digits. -/
def vncPort (t : String) : ℕ :=
  (dropColons t).foldl (fun n c => 10 * n + (c.toNat - '0'.toNat)) 0 + 5900

/-- The elements for a machine (lines 19-39). -/
def guacamoleLines (ip : String → String) (v : Vars) : List String :=
  connection (v "MACHINE_NAME" ++ " (QEMU)") "vnc" "192.168.254.31"
      (num (vncPort (v "GFX_VNCPORT"))) ["<param name=\"password\">secret</param>"] ++
    if v "REMOTE_DESKTOP_NATIVE" ≠ "" then
      connection (v "MACHINE_NAME") (v "REMOTE_DESKTOP_NATIVE_PROTOCOL") (ip (v "MACHINE_NAME"))
        (v "REMOTE_DESKTOP_NATIVE_PORT")
        ["<param name=\"username\">$\x7bGUAC_PROMPT\x7d</param>",
          "<param name=\"password\">$\x7bGUAC_PROMPT\x7d</param>"]
    else []

/-- What is assigned before the seat file is sourced. -/
def guacamolePre (m : ListedVm) (p : String) : Assigns :=
  [("MACHINE_PATH", machinePath m.name), ("p", p), ("vm", m.name), ("MACHINE_NAME", m.name)] ++
    m.settings

/-- What is assigned before the elements are printed; `dir` is the value of `SEAT_PREFIX`
    when the machine's turn comes. -/
def guacamoleFiles (m : ListedVm) (p dir : String) : Assigns :=
  let v := source (guacamolePre m p) fun _ => dir
  guacamolePre m p ++ m.seat (v "SEAT_PREFIX" ++ "/seat-" ++ v "MACHINE_NAME")

/-- The loop of `machine-generate-guacamole` (lines 7-46). -/
def guacamoleBody (m : ListedVm) (v : Vars) : List String × Vars :=
  match m.pidFile with
  | none => ([], source [("MACHINE_PATH", machinePath m.name)] v)
  | some p =>
    if m.inProc p then
      let v := source (guacamoleFiles m p (v "SEAT_PREFIX")) v
      (guacamoleLines m.ip v,
        source [("P", String.ofList (dropColons (v "GFX_VNCPORT"))),
          ("PORT", num (vncPort (v "GFX_VNCPORT"))),
          ("MACHINE_IP", if v "REMOTE_DESKTOP_NATIVE" ≠ "" then m.ip (v "MACHINE_NAME")
            else v "MACHINE_IP")] v)
    else ([], source [("MACHINE_PATH", machinePath m.name), ("p", p)] v)

/-- The variables that the elements show; the second one is there for a native protocol. -/
def guacamoleNeeds (as : Assigns) : List String :=
  "GFX_VNCPORT" :: "REMOTE_DESKTOP_NATIVE" ::
    if assigned as "REMOTE_DESKTOP_NATIVE" = some "" then []
    else ["REMOTE_DESKTOP_NATIVE_PROTOCOL", "REMOTE_DESKTOP_NATIVE_PORT"]

/-- The same name and port, and the same protocol and port of a native connection. -/
def SameShown (v w : Vars) : Prop :=
  v "MACHINE_NAME" = w "MACHINE_NAME" ∧ vncPort (v "GFX_VNCPORT") = vncPort (w "GFX_VNCPORT") ∧
    (v "REMOTE_DESKTOP_NATIVE" = "" ↔ w "REMOTE_DESKTOP_NATIVE" = "") ∧
    (w "REMOTE_DESKTOP_NATIVE" ≠ "" →
      v "REMOTE_DESKTOP_NATIVE_PROTOCOL" = w "REMOTE_DESKTOP_NATIVE_PROTOCOL" ∧
        v "REMOTE_DESKTOP_NATIVE_PORT" = w "REMOTE_DESKTOP_NATIVE_PORT")

/-- The machine's own files assign what its elements show, and assign the same wherever
    the seat file is looked for. -/
def GuacamoleOwn (m : ListedVm) : Prop :=
  ∀ p, m.pidFile = some p → m.inProc p = true →
    (∀ dir, ∀ x ∈ guacamoleNeeds (guacamoleFiles m p dir),
      (assigned (guacamoleFiles m p dir) x).isSome = true) ∧
    ∀ dir dir', SameShown (source (guacamoleFiles m p dir) fun _ => "")
      (source (guacamoleFiles m p dir') fun _ => "")

/-! ## `machine-list-disks` -/

/-- `backup_disks "$HOST" "$MACHINE_PATH" "$vm" "$d"`, with the value of `DISK_$d`. -/
def listedDisk (hostname : String) (fs : Files) (host path vm d iscsi : String) : Option DiskLine :=
  if host ≠ "" ∧ host ≠ hostname then none
  else
    let rawFile := path ++ "/disks/" ++ d ++ ".raw"
    let qcow2File := path ++ "/disks/" ++ d ++ ".qcow2"
    let (t, disk) := classify (fs rawFile) (fs qcow2File) ((fs rawFile).realpath rawFile)
      ((fs qcow2File).realpath qcow2File) iscsi
    if disk ≠ "" then some ⟨vm, d, t, disk⟩ else none

/-- For a machine in its own directory this is `backupDisks`. -/
theorem listedDisk_eq (e : Genconfig.Env) (hostname : String) (fs : Files) (vm d : String) :
    listedDisk hostname fs (e.val "HOST") (machinePath vm) vm d (Genconfig.diskVar e d) =
      backupDisks e hostname fs vm d := by
  have hfile : ∀ ext, machinePath vm ++ "/disks/" ++ d ++ "." ++ ext = Genconfig.diskFile vm d ext := by
    intro ext
    apply String.toList_inj.mp
    simp [machinePath, Genconfig.diskFile, Genconfig.disksPath]
  have hraw : machinePath vm ++ "/disks/" ++ d ++ ".raw" = Genconfig.diskFile vm d "raw" := by
    rw [← hfile "raw"]
    apply String.toList_inj.mp
    simp
  have hqcow2 : machinePath vm ++ "/disks/" ++ d ++ ".qcow2" = Genconfig.diskFile vm d "qcow2" := by
    rw [← hfile "qcow2"]
    apply String.toList_inj.mp
    simp
  unfold listedDisk backupDisks
  rw [hraw, hqcow2]

/-- The line `echo $vm $d $t $disk`. -/
def diskText (l : DiskLine) : String := l.vm ++ " " ++ l.disk ++ " " ++ l.type ++ " " ++ l.spec

/-- The lines for a machine (lines 63-65). -/
def diskLines (hostname : String) (fs : Files) (v : Vars) : List String :=
  (disks.filterMap fun d =>
    listedDisk hostname fs (v "HOST") (v "MACHINE_PATH") (v "vm") d (v ("DISK_" ++ d))).map diskText

/-- What is assigned before the lines are printed. -/
def disksFiles (m : ListedVm) (config : Assigns) : Assigns :=
  [("m", machinePath m.name ++ "/config"), ("MACHINE_PATH", machinePath m.name), ("vm", m.name)] ++
    disks.map (fun d => ("DISK_" ++ d, "")) ++ config

/-- The loop of `machine-list-disks` over the `config` files (lines 54-66). -/
def disksBody (hostname : String) (m : ListedVm) (v : Vars) : List String × Vars :=
  match m.config with
  | none => ([], v)
  | some config =>
    let v := source (disksFiles m config) v
    (diskLines hostname m.files v, source [("iscsi_disk", v "DISK_clover"), ("d", "clover")] v)

/-- A disk has an image file, a device or a value of `DISK_$d`. -/
def diskThere (fs : Files) (path d iscsi : String) : Bool :=
  (fs (path ++ "/disks/" ++ d ++ ".raw")).b || (fs (path ++ "/disks/" ++ d ++ ".raw")).f ||
    (fs (path ++ "/disks/" ++ d ++ ".qcow2")).f || iscsi ≠ ""

/-- There is none of the disks. -/
def NoDisk (fs : Files) (v : Vars) : Prop :=
  ∀ d ∈ disks, diskThere fs (v "MACHINE_PATH") d (v ("DISK_" ++ d)) = false

/-- The machine's own `config` assigns `HOST`, or it has no disks. -/
def DisksOwn (m : ListedVm) : Prop :=
  ∀ config, m.config = some config → (assigned (disksFiles m config) "HOST").isSome = true ∨
    NoDisk m.files (source (disksFiles m config) fun _ => "")

/-- Without a `config` the loop passes the machine over, and its own listing must not find
    a disk on this host. -/
def ConfigIfDisks (hostname : String) (v : Vars) (m : ListedVm) : Prop :=
  m.config = none → (v "HOST" ≠ "" ∧ v "HOST" ≠ hostname) ∨
    NoDisk m.files (source (disksFiles m []) fun _ => "")

/-! ## The scripts -/

/-- The scripts that go through all machines. -/
inductive ListScript
  | guacamole
  | vnc
  | disks
  | running
  deriving DecidableEq, Repr

/-- The body of the loop; `machine-list-disks` asks for the host's name. -/
def ListScript.body (hostname : String) : ListScript → ListedVm → Vars → List String × Vars
  | .guacamole => guacamoleBody
  | .vnc => vncBody
  | .disks => disksBody hostname
  | .running => runningBody

/-- The variables when the loop begins; `machine-list-running` is called with `-v`, and
    `config-common` has set the directory of the seats. -/
def ListScript.start : ListScript → Vars → Vars
  | .guacamole => source [("SEAT_PREFIX", "/srv/kvm/seats")]
  | .vnc => source [("VERBOSE", "0"), ("_sum", "0")]
  | .disks => source [("MACHINE", "")]
  | .running => source [("VERBOSE", "1"), ("_sum", "0")]

/-- `machine-list-disks MACHINE` (lines 68-78). -/
def listOne (hostname : String) (m : ListedVm) (v : Vars) : List String :=
  diskLines hostname m.files (source (disksFiles m m.settings) (source [("MACHINE", m.name)] v))

/-- The lines for a machine are the same in all lists that have it, and for
    `machine-list-disks` the same as if it is called for the machine. -/
def OwnLines (hostname : String) (sc : ListScript) (v : Vars) (m : ListedVm) : Prop :=
  NoLeak ListedVm.name (sc.body hostname) (sc.start v) m ∧
    (sc = .disks → ∀ before : List ListedVm, ((before ++ [m]).map ListedVm.name).Nodup →
      linesFor (sc.body hostname) (sc.start v) before m = listOne hostname m v)

/-- The machine's own files determine its lines. -/
def ListScript.Own (hostname : String) (v : Vars) (m : ListedVm) : ListScript → Prop
  | .guacamole => GuacamoleOwn m
  | .vnc => VncOwn m
  | .disks => DisksOwn m ∧ ConfigIfDisks hostname v m
  | .running => RunningOwn m

/-! ## What the lines depend on -/

section Lines

variable {v w : Vars}

theorem runningLines_congr (hvm : v "vm" = w "vm") (hverbose : v "VERBOSE" = w "VERBOSE")
    (hrest : w "VERBOSE" = "1" → v "MEM" = w "MEM" ∧ v "GFX_VNCPORT" = w "GFX_VNCPORT") :
    runningLines v = runningLines w := by
  unfold runningLines
  rw [hvm, hverbose]
  by_cases h : w "VERBOSE" = "1"
  · rw [if_pos h, if_pos h, (hrest h).1, (hrest h).2]
  · rw [if_neg h, if_neg h]

theorem guacamoleLines_eq_iff (ip : String → String) :
    guacamoleLines ip v = guacamoleLines ip w ↔ SameShown v w := by
  unfold guacamoleLines SameShown
  by_cases hv : v "REMOTE_DESKTOP_NATIVE" = "" <;> by_cases hw : w "REMOTE_DESKTOP_NATIVE" = ""
  · simp [connection, hv, hw, num_inj]
  · simp [connection, hv, hw]
  · simp [connection, hv, hw]
  · simp +contextual [connection, hv, hw, num_inj]

end Lines

/-! ## `machine-list-running` -/

section Running

variable {m : ListedVm}

theorem running_lines {p : String} (hpid : m.pidFile = some p) (hproc : m.inProc p = true)
    (w : Vars) : (runningBody m w).1 = runningLines (source (runningFiles m p) w) := by
  simp [runningBody, hpid, hproc]

theorem running_vm (m : ListedVm) (p : String) : (assigned (runningFiles m p) "vm").isSome = true :=
  isSome_assigned_left _ (by simp [assigned])

/-- The lines are the same from all states of the variables exactly if the machine's own
    files assign what they show. -/
theorem running_const_iff : (∃ ls, ∀ w, (runningBody m w).1 = ls) ↔ RunningOwn m := by
  constructor
  · rintro ⟨ls, hls⟩ p hpid hproc
    have hsame : ∀ v w, runningLines (source (runningFiles m p) v) =
        runningLines (source (runningFiles m p) w) := by
      intro v w
      rw [← running_lines hpid hproc, ← running_lines hpid hproc, hls, hls]
    intro x hx
    rcases List.mem_cons.mp hx with rfl | hx
    · refine isSome_of_same (v := fun _ => "") (s := "0") (t := "2") ?_ (hsame _ _)
      simp [runningLines]
    · split_ifs at hx with hone
      · have hverbose : ∀ v, source (runningFiles m p) v "VERBOSE" = "1" := by
          intro v
          rw [source_apply, hone, Option.getD_some]
        simp only [List.mem_cons, List.not_mem_nil, or_false] at hx
        rcases hx with rfl | rfl
        · refine isSome_of_same (v := fun _ => "") (s := "1") (t := "2") ?_ (hsame _ _)
          simp [runningLines, hverbose]
        · refine isSome_of_same (v := fun _ => "") (s := "1") (t := "2") ?_ (hsame _ _)
          simp [runningLines, hverbose]
      · cases hx
  · intro h
    refine ⟨(runningBody m fun _ => "").1, fun w => ?_⟩
    cases hpid : m.pidFile with
    | none => simp [runningBody, hpid]
    | some p =>
      by_cases hproc : m.inProc p = true
      · have hown := h p hpid hproc
        rw [running_lines hpid hproc, running_lines hpid hproc]
        refine runningLines_congr (source_of_isSome (running_vm m p) _ _)
          (source_of_isSome (hown _ List.mem_cons_self) _ _) ?_
        intro hone
        have hassigned : assigned (runningFiles m p) "VERBOSE" = some "1" := by
          obtain ⟨s, hs⟩ := Option.isSome_iff_exists.mp (hown _ List.mem_cons_self)
          rw [source_apply, hs, Option.getD_some] at hone
          rw [hs, hone]
        rw [runningNeeds, if_pos hassigned] at hown
        exact ⟨source_of_isSome (hown _ (by simp)) _ _, source_of_isSome (hown _ (by simp)) _ _⟩
      · simp [runningBody, hpid, hproc]

end Running

/-! ## `machine-list-vnc` -/

section Vnc

variable {m : ListedVm}

theorem vnc_pre (m : ListedVm) (config : Assigns) {x : String}
    (hx : x ∈ ["MACHINE_PATH", "HOST", "p", "RUNNING", "vm"]) :
    (assigned (vncFiles m config) x).isSome = true := by
  unfold vncFiles
  rw [List.append_assoc]
  apply isSome_assigned_left
  simp only [List.mem_cons, List.not_mem_nil, or_false] at hx
  rcases hx with rfl | rfl | rfl | rfl | rfl <;> simp [vncPre, assigned]

theorem vnc_const_iff : (∃ ls, ∀ w, (vncBody m w).1 = ls) ↔ VncOwn m := by
  constructor
  · rintro ⟨ls, hls⟩ config hconfig
    have hlines : ∀ w, (vncBody m w).1 = vncLines (source (vncFiles m config) w) := by
      intro w
      simp [vncBody, hconfig]
    have hsame : ∀ v w, vncLines (source (vncFiles m config) v) =
        vncLines (source (vncFiles m config) w) := by
      intro v w
      rw [← hlines, ← hlines, hls, hls]
    refine isSome_of_same (v := fun _ => "") (s := ":1") (t := ":2") ?_ (hsame _ _)
    simp [vncLines]
  · intro h
    refine ⟨(vncBody m fun _ => "").1, fun w => ?_⟩
    cases hconfig : m.config with
    | none => simp [vncBody, hconfig]
    | some config =>
      have hpre := fun x hx => source_of_isSome (vnc_pre m config (x := x) hx) w fun _ => ""
      have hport := source_of_isSome (h config hconfig) w fun _ => ""
      simp only [vncBody, hconfig, vncLines]
      rw [hpre "RUNNING" (by simp), hpre "HOST" (by simp), hpre "vm" (by simp), hport]

end Vnc

/-! ## `machine-list-disks` -/

section Disks

variable {hostname : String} {m : ListedVm}

theorem disks_pre (m : ListedVm) (config : Assigns) {x : String}
    (hx : x = "MACHINE_PATH" ∨ x = "vm" ∨ ∃ d ∈ disks, x = "DISK_" ++ d) :
    (assigned (disksFiles m config) x).isSome = true := by
  unfold disksFiles
  rw [List.append_assoc]
  rcases hx with rfl | rfl | ⟨d, hd, rfl⟩
  · exact isSome_assigned_left _ (by simp [assigned])
  · exact isSome_assigned_left _ (by simp [assigned])
  · rw [← List.append_assoc]
    apply isSome_assigned_left
    simp only [disks, List.mem_cons, List.not_mem_nil, or_false] at hd
    rcases hd with rfl | rfl | rfl | rfl | rfl | rfl <;> simp [assigned, disks]

/-- What the lines show apart from `HOST` is assigned. -/
theorem disks_source (config : Assigns) {x : String}
    (hx : x = "MACHINE_PATH" ∨ x = "vm" ∨ ∃ d ∈ disks, x = "DISK_" ++ d) (v w : Vars) :
    source (disksFiles m config) v x = source (disksFiles m config) w x :=
  source_of_isSome (disks_pre m config hx) v w

theorem diskLines_congr (config : Assigns) {v w : Vars}
    (hhost : source (disksFiles m config) v "HOST" = source (disksFiles m config) w "HOST") :
    diskLines hostname m.files (source (disksFiles m config) v) =
      diskLines hostname m.files (source (disksFiles m config) w) := by
  unfold diskLines
  congr 1
  refine List.filterMap_congr fun d hd => ?_
  rw [hhost, disks_source config (Or.inl rfl) v w, disks_source config (Or.inr (Or.inl rfl)) v w,
    disks_source config (Or.inr (Or.inr ⟨d, hd, rfl⟩)) v w]

theorem noDisk_congr (config : Assigns) (v w : Vars) :
    NoDisk m.files (source (disksFiles m config) v) ↔
      NoDisk m.files (source (disksFiles m config) w) := by
  unfold NoDisk
  refine forall₂_congr fun d hd => ?_
  rw [disks_source config (Or.inl rfl) v w, disks_source config (Or.inr (Or.inr ⟨d, hd, rfl⟩)) v w]

/-- A disk that is there has a designation. -/
theorem classify_ne_iff (raw qcow2 : Node) (path path' iscsi : String) :
    (classify raw qcow2 (raw.realpath path) (qcow2.realpath path') iscsi).2 ≠ "" ↔
      raw.b = true ∨ raw.f = true ∨ qcow2.f = true ∨ iscsi ≠ "" := by
  cases raw with
  | absent | directory =>
    rw [classify_no_raw rfl]
    cases qcow2 with
    | regular r => simp [Node.b, Node.f, Node.realpath, r.ne_empty]
    | absent | directory | lvm | blockdev => by_cases h : iscsi = "" <;> simp [Node.b, Node.f, h]
  | regular r => simp [Node.realpath, classify_regular, Node.b, Node.f, r.ne_empty]
  | lvm lv => simp [Node.realpath, classify_lvm, Node.b, Node.f, lvSpec_ne]
  | blockdev r =>
    by_cases h : isDm r.text = true
    · simp [Node.realpath, classify_blockdev, Node.b, Node.f, h]
    · simp [Node.realpath, classify_blockdev, Node.b, Node.f, h, r.ne_empty]

theorem listedDisk_none_iff {fs : Files} {host path vm d iscsi : String} :
    listedDisk hostname fs host path vm d iscsi = none ↔
      (host ≠ "" ∧ host ≠ hostname) ∨ diskThere fs path d iscsi = false := by
  by_cases hhost : host ≠ "" ∧ host ≠ hostname
  · simp [listedDisk, hhost]
  · have hthere : diskThere fs path d iscsi = true ↔ _ := Iff.trans
      (by simp [diskThere, or_assoc]) (classify_ne_iff (fs (path ++ "/disks/" ++ d ++ ".raw"))
        (fs (path ++ "/disks/" ++ d ++ ".qcow2")) (path ++ "/disks/" ++ d ++ ".raw")
        (path ++ "/disks/" ++ d ++ ".qcow2") iscsi).symm
    rw [listedDisk, if_neg hhost, ← Bool.not_eq_true, hthere]
    simp only [hhost, false_or]
    split_ifs with hne
    · simp [hne]
    · simp [hne]

theorem diskLines_nil_iff {fs : Files} {v : Vars} : diskLines hostname fs v = [] ↔
    (v "HOST" ≠ "" ∧ v "HOST" ≠ hostname) ∨ NoDisk fs v := by
  unfold diskLines NoDisk
  rw [List.map_eq_nil_iff, List.filterMap_eq_nil_iff]
  by_cases hhost : v "HOST" ≠ "" ∧ v "HOST" ≠ hostname
  · exact iff_of_true (fun d _ => listedDisk_none_iff.mpr (Or.inl hhost)) (Or.inl hhost)
  · simp only [listedDisk_none_iff, hhost, false_or]

theorem disks_const_iff : (∃ ls, ∀ w, (disksBody hostname m w).1 = ls) ↔ DisksOwn m := by
  constructor
  · rintro ⟨ls, hls⟩ config hconfig
    have hlines : ∀ w, (disksBody hostname m w).1 =
        diskLines hostname m.files (source (disksFiles m config) w) := by
      intro w
      simp [disksBody, hconfig]
    by_cases hhost : (assigned (disksFiles m config) "HOST").isSome = true
    · exact Or.inl hhost
    · have hnone := Option.not_isSome_iff_eq_none.mp hhost
      have hforeign : diskLines hostname m.files (source (disksFiles m config)
          (Function.update (fun _ => "") "HOST" (hostname ++ "x"))) = [] := by
        rw [source_update hnone]
        exact diskLines_nil_iff.mpr (Or.inl (by simp))
      have hempty : source (disksFiles m config) (fun _ => "") "HOST" = "" := by
        rw [source_apply, hnone, Option.getD_none]
      rw [← hlines, hls, ← hls fun _ => "", hlines, diskLines_nil_iff, hempty] at hforeign
      exact Or.inr (hforeign.resolve_left fun h => h.1 rfl)
  · intro h
    cases hconfig : m.config with
    | none => exact ⟨[], fun w => by simp [disksBody, hconfig]⟩
    | some config =>
      refine ⟨diskLines hostname m.files (source (disksFiles m config) fun _ => ""), fun w => ?_⟩
      simp only [disksBody, hconfig]
      rcases h config hconfig with hhost | hdisk
      · exact diskLines_congr config (source_of_isSome hhost _ _)
      · have hnil : ∀ v, diskLines hostname m.files (source (disksFiles m config) v) = [] :=
          fun v => diskLines_nil_iff.mpr (Or.inr ((noDisk_congr config _ v).mp hdisk))
        rw [hnil, hnil]

end Disks

/-! ## `machine-generate-guacamole` -/

section Guacamole

variable {m : ListedVm}

theorem guacamole_lines {p : String} (hpid : m.pidFile = some p) (hproc : m.inProc p = true)
    (w : Vars) : (guacamoleBody m w).1 =
      guacamoleLines m.ip (source (guacamoleFiles m p (w "SEAT_PREFIX")) w) := by
  simp [guacamoleBody, hpid, hproc]

theorem guacamole_name (m : ListedVm) (p dir : String) :
    (assigned (guacamoleFiles m p dir) "MACHINE_NAME").isSome = true := by
  unfold guacamoleFiles guacamolePre
  rw [List.append_assoc]
  exact isSome_assigned_left _ (by simp [assigned])

/-- The variables with a directory of the seats. -/
def seatDir (dir : String) : Vars := Function.update (fun _ => "") "SEAT_PREFIX" dir

/-- If the files assign what the elements show, the elements are the same from all states. -/
theorem guacamoleLines_own {p dir : String} (h : ∀ x ∈ guacamoleNeeds (guacamoleFiles m p dir),
    (assigned (guacamoleFiles m p dir) x).isSome = true) (v w : Vars) :
    guacamoleLines m.ip (source (guacamoleFiles m p dir) v) =
      guacamoleLines m.ip (source (guacamoleFiles m p dir) w) := by
  have hport := source_of_isSome (h "GFX_VNCPORT" (by simp [guacamoleNeeds])) v w
  have hempty := source_of_isSome (h "REMOTE_DESKTOP_NATIVE" (by simp [guacamoleNeeds])) v w
  refine (guacamoleLines_eq_iff m.ip).mpr
    ⟨source_of_isSome (guacamole_name m p dir) v w, by rw [hport], by rw [hempty], ?_⟩
  intro hnative
  have hneeds : assigned (guacamoleFiles m p dir) "REMOTE_DESKTOP_NATIVE" ≠ some "" := by
    intro hempty
    rw [source_apply, hempty, Option.getD_some] at hnative
    exact hnative rfl
  rw [guacamoleNeeds, if_neg hneeds] at h
  exact ⟨source_of_isSome (h _ (by simp)) v w, source_of_isSome (h _ (by simp)) v w⟩

theorem guacamole_const_iff : (∃ ls, ∀ w, (guacamoleBody m w).1 = ls) ↔ GuacamoleOwn m := by
  constructor
  · rintro ⟨ls, hls⟩ p hpid hproc
    have hlines : ∀ dir w, w "SEAT_PREFIX" = dir →
        guacamoleLines m.ip (source (guacamoleFiles m p dir) w) = ls := by
      rintro dir w rfl
      rw [← guacamole_lines hpid hproc, hls]
    -- A variable that shows cannot come from the state of the variables.
    have hshow : ∀ dir x s t, x ≠ "SEAT_PREFIX" →
        guacamoleLines m.ip (Function.update (source (guacamoleFiles m p dir) (seatDir dir)) x s) ≠
          guacamoleLines m.ip
            (Function.update (source (guacamoleFiles m p dir) (seatDir dir)) x t) →
        (assigned (guacamoleFiles m p dir) x).isSome = true := by
      intro dir x s t hx hne
      have hdir : ∀ u, Function.update (seatDir dir) x u "SEAT_PREFIX" = dir := by
        intro u
        rw [Function.update_of_ne hx.symm, seatDir, Function.update_self]
      refine isSome_of_same hne ?_
      rw [hlines dir _ (hdir s), hlines dir _ (hdir t)]
    have hvnc : ∀ dir, (assigned (guacamoleFiles m p dir) "GFX_VNCPORT").isSome = true := by
      intro dir
      have hport : num (vncPort ":1") ≠ num (vncPort ":2") := by
        rw [Ne, num_inj]
        decide
      exact hshow dir _ ":1" ":2" (by decide) (by simp [guacamoleLines, connection, hport])
    have hnative : ∀ dir, (assigned (guacamoleFiles m p dir) "REMOTE_DESKTOP_NATIVE").isSome = true :=
      fun dir => hshow dir _ "" "1" (by decide) (by simp [guacamoleLines, connection])
    have hown : ∀ dir, ∀ x ∈ guacamoleNeeds (guacamoleFiles m p dir),
        (assigned (guacamoleFiles m p dir) x).isSome = true := by
      intro dir x hx
      rcases List.mem_cons.mp hx with rfl | hx
      · exact hvnc dir
      rcases List.mem_cons.mp hx with rfl | hx
      · exact hnative dir
      split_ifs at hx with hempty
      · cases hx
      · obtain ⟨s, hs⟩ := Option.isSome_iff_exists.mp (hnative dir)
        have hne : source (guacamoleFiles m p dir) (seatDir dir) "REMOTE_DESKTOP_NATIVE" ≠ "" := by
          rw [source_apply, hs, Option.getD_some]
          rintro rfl
          exact hempty hs
        simp only [List.mem_cons, List.not_mem_nil, or_false] at hx
        rcases hx with rfl | rfl
        · exact hshow dir _ "rdp" "ssh" (by decide) (by simp [guacamoleLines, connection, hne])
        · exact hshow dir _ "22" "3389" (by decide) (by simp [guacamoleLines, connection, hne])
    have hempty : ∀ dir,
        guacamoleLines m.ip (source (guacamoleFiles m p dir) fun _ => "") = ls := by
      intro dir
      rw [guacamoleLines_own (hown dir) _ (seatDir dir)]
      exact hlines dir _ (by rw [seatDir, Function.update_self])
    refine ⟨hown, fun dir dir' => ?_⟩
    rw [← guacamoleLines_eq_iff m.ip, hempty, hempty]
  · intro h
    cases hpid : m.pidFile with
    | none => exact ⟨[], fun w => by simp [guacamoleBody, hpid]⟩
    | some p =>
      by_cases hproc : m.inProc p = true
      · obtain ⟨hown, hshown⟩ := h p hpid hproc
        refine ⟨guacamoleLines m.ip (source (guacamoleFiles m p "") fun _ => ""), fun w => ?_⟩
        rw [guacamole_lines hpid hproc, guacamoleLines_own (hown _) w fun _ => "",
          guacamoleLines_eq_iff]
        exact hshown _ _
      · exact ⟨[], fun w => by simp [guacamoleBody, hpid, hproc]⟩

end Guacamole

/-! ## Leaks -/

section Leaks

variable {hostname : String} {m : ListedVm}

theorem source_congr (as : Assigns) {v w : Vars} {x : String} (h : v x = w x) :
    source as v x = source as w x := by
  rw [source_apply, source_apply, h]

theorem running_reads : ReadsOnly runningBody m ["VERBOSE", "MEM", "GFX_VNCPORT"] := by
  intro v w h
  have hsource := fun as x hx => source_congr as (h x hx)
  cases hpid : m.pidFile with
  | none => simp [runningBody, hpid]
  | some p =>
    by_cases hproc : m.inProc p = true
    · rw [running_lines hpid hproc, running_lines hpid hproc]
      refine runningLines_congr (source_of_isSome (running_vm m p) _ _)
        (hsource _ _ (by simp)) fun _ => ?_
      exact ⟨hsource _ _ (by simp), hsource _ _ (by simp)⟩
    · simp [runningBody, hpid, hproc]

theorem vnc_reads : ReadsOnly vncBody m ["GFX_VNCPORT"] := by
  intro v w h
  cases hconfig : m.config with
  | none => simp [vncBody, hconfig]
  | some config =>
    have hpre := fun x hx => source_of_isSome (vnc_pre m config (x := x) hx) v w
    have hport := source_congr (vncFiles m config) (h "GFX_VNCPORT" (by simp))
    simp only [vncBody, hconfig, vncLines]
    rw [hpre "RUNNING" (by simp), hpre "HOST" (by simp), hpre "vm" (by simp), hport]

theorem disks_reads : ReadsOnly (disksBody hostname) m ["HOST"] := by
  intro v w h
  cases hconfig : m.config with
  | none => simp [disksBody, hconfig]
  | some config =>
    simp only [disksBody, hconfig]
    exact diskLines_congr config (source_congr _ (h "HOST" (by simp)))

/-- The variables of the elements, and the one that leads to the seat file. -/
def guacamoleVars : List String :=
  ["SEAT_PREFIX", "GFX_VNCPORT", "REMOTE_DESKTOP_NATIVE", "REMOTE_DESKTOP_NATIVE_PROTOCOL",
    "REMOTE_DESKTOP_NATIVE_PORT"]

theorem guacamole_reads : ReadsOnly guacamoleBody m guacamoleVars := by
  intro v w h
  have hsource := fun as x hx => source_congr as (h x hx)
  cases hpid : m.pidFile with
  | none => simp [guacamoleBody, hpid]
  | some p =>
    by_cases hproc : m.inProc p = true
    · rw [guacamole_lines hpid hproc, guacamole_lines hpid hproc,
        h "SEAT_PREFIX" (by simp [guacamoleVars]), guacamoleLines_eq_iff]
      have hport := hsource (guacamoleFiles m p (w "SEAT_PREFIX")) "GFX_VNCPORT"
        (by simp [guacamoleVars])
      have hnative := hsource (guacamoleFiles m p (w "SEAT_PREFIX")) "REMOTE_DESKTOP_NATIVE"
        (by simp [guacamoleVars])
      refine ⟨source_of_isSome (guacamole_name m p _) _ _, by rw [hport], by rw [hnative],
        fun _ => ⟨?_, ?_⟩⟩
      · exact hsource _ _ (by simp [guacamoleVars])
      · exact hsource _ _ (by simp [guacamoleVars])
    · simp [guacamoleBody, hpid, hproc]

/-- A machine that sets some variables, and is taken for a running one. -/
def setter (name : String) (xs : List String) (hxs : "disks" ∉ xs) (w : Vars) : ListedVm where
  name := name
  config := some (xs.map fun x => (x, w x))
  seat := fun _ => []
  pidFile := some ""
  proc := false
  ip := fun _ => ""
  files := fun _ => .absent
  scalar := by
    intro as has a ha hdisks
    cases Option.some.inj has
    obtain ⟨x, hx, rfl⟩ := List.mem_map.mp ha
    exact hxs (hdisks ▸ hx)

/-- After its `config` the variables have the values it sets. -/
theorem source_setter (as : Assigns) (xs : List String) (v w : Vars) {x : String} (hx : x ∈ xs) :
    source (as ++ xs.map fun x => (x, w x)) v x = w x := by
  rw [source_append, source_apply, assigned_map, if_pos hx, Option.getD_some]

/-- Variables that are not assigned afterwards keep their values. -/
theorem source_of_none {as : Assigns} {x : String} (h : assigned as x = none) (v : Vars) :
    source as v x = v x := by
  rw [source_apply, h, Option.getD_none]

theorem running_sets (name : String) (v w : Vars) :
    ∀ x ∈ ["VERBOSE", "MEM", "GFX_VNCPORT"],
      (runningBody (setter name ["VERBOSE", "MEM", "GFX_VNCPORT"] (by decide) w) v).2 x = w x := by
  intro x hx
  have hset := source_setter [("MACHINE_PATH", machinePath name), ("p", ""), ("vm", name)]
    ["VERBOSE", "MEM", "GFX_VNCPORT"] v w hx
  have hsum : x ≠ "_sum" := by
    rintro rfl
    exact absurd hx (by decide)
  show source [("_sum", _)] _ x = w x
  rw [source_of_none (by simp [assigned, hsum.symm])]
  exact hset

theorem vnc_sets (name : String) (v w : Vars) : ∀ x ∈ ["GFX_VNCPORT"],
    (vncBody (setter name ["GFX_VNCPORT"] (by decide) w) v).2 x = w x := by
  intro x hx
  have hset := source_setter (vncPre (setter name ["GFX_VNCPORT"] (by decide) w))
    ["GFX_VNCPORT"] v w hx
  show source (vncPre _ ++ _ ++ []) v x = w x
  rw [List.append_nil]
  exact hset

theorem disks_sets (name : String) (v w : Vars) : ∀ x ∈ ["HOST"],
    (disksBody hostname (setter name ["HOST"] (by decide) w) v).2 x = w x := by
  intro x hx
  have hx' : x = "HOST" := by simpa using hx
  show source [("iscsi_disk", _), ("d", "clover")] _ x = w x
  rw [source_of_none (by simp [assigned, hx'])]
  exact source_setter _ ["HOST"] v w hx

theorem guacamole_sets (name : String) (v w : Vars) : ∀ x ∈ guacamoleVars,
    (guacamoleBody (setter name guacamoleVars (by decide) w) v).2 x = w x := by
  intro x hx
  have hset := source_setter
    [("MACHINE_PATH", machinePath name), ("p", ""), ("vm", name), ("MACHINE_NAME", name)]
    guacamoleVars v w hx
  have hpost : x ≠ "P" ∧ x ≠ "PORT" ∧ x ≠ "MACHINE_IP" := by
    refine ⟨?_, ?_, ?_⟩ <;> (rintro rfl; exact absurd hx (by decide))
  show source [("P", _), ("PORT", _), ("MACHINE_IP", _)] (source (_ ++ []) v) x = w x
  rw [source_of_none (by simp [assigned, hpost.1.symm, hpost.2.1.symm, hpost.2.2.symm]),
    List.append_nil]
  exact hset

/-- There is always another name. -/
theorem append_x_ne (name : String) : name ++ "x" ≠ name := by
  intro h
  have hlength := congrArg (fun t => t.toList.length) h
  simp at hlength

/-- In the loop and on its own, a machine with a `config` has the same lines. -/
theorem listOne_eq {config : Assigns} (hconfig : m.config = some config) (v : Vars) :
    (disksBody hostname m (ListScript.disks.start v)).1 = listOne hostname m v := by
  have hsettings : m.settings = config := by rw [ListedVm.settings, hconfig, Option.getD_some]
  rw [listOne, hsettings]
  simp only [disksBody, hconfig]
  refine diskLines_congr config (source_congr _ ?_)
  rw [ListScript.start, source_of_none (by simp [assigned]), source_of_none (by simp [assigned])]

theorem listOne_nil_iff (hconfig : m.config = none) (v : Vars) :
    listOne hostname m v = [] ↔ (v "HOST" ≠ "" ∧ v "HOST" ≠ hostname) ∨
      NoDisk m.files (source (disksFiles m []) fun _ => "") := by
  have hsettings : m.settings = [] := by rw [ListedVm.settings, hconfig, Option.getD_none]
  have hhost : source (disksFiles m []) (source [("MACHINE", m.name)] v) "HOST" = v "HOST" := by
    rw [source_of_none (by simp [disksFiles, assigned, disks]), source_of_none (by simp [assigned])]
  rw [listOne, hsettings, diskLines_nil_iff, hhost, noDisk_congr]

/-- The two ways of listing the disks agree exactly if there is a `config`, or no disk. -/
theorem listOne_iff (hown : DisksOwn m) (v : Vars) :
    (∀ before : List ListedVm, ((before ++ [m]).map ListedVm.name).Nodup →
      linesFor (disksBody hostname) (ListScript.disks.start v) before m = listOne hostname m v) ↔
      ConfigIfDisks hostname v m := by
  obtain ⟨ls, hls⟩ : ∃ ls, ∀ w, (disksBody hostname m w).1 = ls := disks_const_iff.mpr hown
  cases hconfig : m.config with
  | none =>
    have hnil : ls = [] := by
      rw [← hls fun _ => ""]
      simp [disksBody, hconfig]
    rw [ConfigIfDisks, ← listOne_nil_iff hconfig]
    constructor
    · intro h _
      rw [← h [] (by simp), linesFor, hls, hnil]
    · intro h before _
      rw [linesFor, hls, hnil, h hconfig]
  | some config =>
    refine iff_of_true (fun before _ => ?_) fun h => ?_
    · rw [linesFor, hls, ← listOne_eq hconfig, hls]
    · rw [hconfig] at h
      cases h

end Leaks

/-- A machine with this `config`, no seat file and no image files. -/
def listedVm (name : String) (config : Assigns) (h : ∀ a ∈ config, a.1 ≠ "disks") : ListedVm where
  name := name
  config := some config
  seat := fun _ => []
  pidFile := none
  proc := false
  ip := fun _ => ""
  files := fun _ => .absent
  scalar := by
    intro as has
    cases Option.some.inj has
    exact h

end KvmOsx.Host
