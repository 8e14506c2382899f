import KvmOsx.Exec.Launchers
import KvmOsx.Genconfig.Passthrough

/-!
# Disk clients and disk servers

`genconfig.sh` gives QEMU the address of a disk server, the launchers start it. Both
read the same variables, over lists of disks and with defaults of their own.

* `service`: the `-drive` or `-chardev` one `add_disk` emits, `hddUni_services` for the
  whole fragment.
* `Opt.IsClient`, `Server.Reaches`: which disk and which kind of server an option is a
  client of, and whether it names a given server.
* `disks_agree_iff`: when clients and servers match.
-/

namespace KvmOsx.Exec

open Script Text Genconfig Host

/-! ## The emitted options -/

/-- The options through which QEMU gets at a disk. -/
def isService (o : Opt) : Bool := o.flag = .drive ∨ o.flag = .chardev

/-- `-chardev socket,id=vfs-$name,path=$SOCK`. -/
def vfsChardev (e : Env) (name : String) : Opt :=
  ⟨.chardev, [.raw "socket", .kv "id" ("vfs-" ++ name), .kv "path" (virtiofsdSock e name)]⟩

/-- What a mode emits for a disk. -/
def modeService (e : Env) (arg : String → String → String) (name : String) (m : DiskMode) :
    List Opt :=
  match m.controller with
  | none => [vfsChardev e name]
  | some ctl => if arg name ctl = "err" then [] else [driveOpt name (arg name ctl)]

/-- What `add_disk NAME` emits. -/
def service (e : Env) (arg : String → String → String) (name : String) : List Opt :=
  (DiskMode.ofText (hddMode e name)).elim [] (modeService e arg name)

/-- The step from `g` to `g'` emits exactly the services `ss`. -/
def Serves (g g' : Gen) (ss : List Opt) : Prop :=
  ∃ os, g'.qemuOpts = g.qemuOpts ++ os ∧ os.filter isService = ss

theorem Serves.refl (g : Gen) : Serves g g [] := ⟨[], by simp, rfl⟩

theorem Serves.trans {g₁ g₂ g₃ : Gen} {ss ss' : List Opt} (h : Serves g₁ g₂ ss)
    (h' : Serves g₂ g₃ ss') : Serves g₁ g₃ (ss ++ ss') := by
  obtain ⟨os, ho, hs⟩ := h
  obtain ⟨os', ho', hs'⟩ := h'
  refine ⟨os ++ os', ?_, ?_⟩
  · rw [ho', ho, List.append_assoc]
  · rw [List.filter_append, hs, hs']

theorem scsiDisk_serves (e : Env) (name arg : String) (g : Gen) :
    Serves g (scsiDisk e name arg g) [driveOpt name arg] := by
  refine ⟨_, rfl, ?_⟩
  simp [isService, driveOpt]

theorem singleController_serves (e : Env) (name : String) (g : Gen) :
    Serves g (singleController e name g) [] := by
  refine ⟨_, rfl, ?_⟩
  simp [isService]

theorem multiController_serves {e : Env} {name : String} {g g' : Gen}
    (h : multiController e name g = some g') : Serves g g' [] := by
  obtain ⟨gv, hv, rfl⟩ := Option.map_eq_some_iff.mp h
  obtain ⟨-, rfl⟩ := addVpci_spec hv
  refine ⟨_, rfl, ?_⟩
  simp [isService]

theorem addVirtioScsiDisk_serves {e : Env} {arg : String → String → String} {name : String}
    {g g' : Gen} (h : addVirtioScsiDisk e arg name g = some g') :
    Serves g g' (modeService e arg name .virtioScsi) := by
  by_cases herr : arg name "virtio_scsi_pci" = "err"
  · simp only [addVirtioScsiDisk, if_pos herr, Option.some.injEq] at h
    subst h
    simpa [modeService, DiskMode.controller, herr] using Serves.refl g
  · have hmode : modeService e arg name .virtioScsi =
        [driveOpt name (arg name "virtio_scsi_pci")] := by
      simp [modeService, DiskMode.controller, herr]
    rw [hmode]
    simp only [addVirtioScsiDisk, if_neg herr] at h
    split_ifs at h with hsingle hmulti
    · obtain rfl := Option.some.inj h
      exact (singleController_serves e name g).trans (scsiDisk_serves e name _ _)
    · obtain ⟨gc, hc, rfl⟩ := Option.map_eq_some_iff.mp h
      exact (multiController_serves hc).trans (scsiDisk_serves e name _ _)
    · obtain rfl := Option.some.inj h
      exact scsiDisk_serves e name _ g

theorem addModeDisk_serves {e : Env} {arg : String → String → String} {name : String} {g g' : Gen}
    {m : DiskMode} (h : addModeDisk e arg name g m = some g') :
    Serves g g' (modeService e arg name m) := by
  cases m with
  | virtioPci =>
    obtain rfl := Option.some.inj h
    by_cases herr : arg name "virtio_blk_pci" = "err"
    · rw [addVirtioPciDisk, if_pos herr]
      simpa [modeService, DiskMode.controller, herr] using Serves.refl g
    · rw [addVirtioPciDisk, if_neg herr]
      refine ⟨_, rfl, ?_⟩
      simp [modeService, DiskMode.controller, herr, isService, driveOpt]
  | virtioScsi => exact addVirtioScsiDisk_serves h
  | ahci =>
    obtain rfl := Option.some.inj h
    by_cases herr : arg name "ahci" = "err"
    · rw [addAhciDisk, if_pos herr]
      exact ⟨[], by simp, by simp [modeService, DiskMode.controller, herr]⟩
    · rw [addAhciDisk, if_neg herr]
      refine ⟨_, rfl, ?_⟩
      simp [modeService, DiskMode.controller, herr, isService, driveOpt]
  | virtiofsd =>
    obtain rfl := Option.some.inj h
    exact ⟨_, rfl, rfl⟩

theorem addDisk_serves {e : Env} {arg : String → String → String} {name : String} {g g' : Gen}
    (h : addDisk e arg g name = some g') : Serves g g' (service e arg name) := by
  obtain ⟨m, hm, hg⟩ := Option.bind_eq_some_iff.mp h
  rw [service, hm]
  exact addModeDisk_serves hg

theorem sourceLibPci_qemuOpts (g : Gen) : (sourceLibPci g).qemuOpts = g.qemuOpts := by
  unfold sourceLibPci
  split_ifs <;> rfl

/-- The whole fragment: the services of its disks, each with a mode there is a function for. -/
theorem hddUni_services {e : Env} {h : Genconfig.Host} {g₀ g : Gen} (hg : hddUni e h g₀ = some g) :
    Serves g₀ g (diskNames.flatMap (service e h.diskarg)) ∧
      ∀ n ∈ diskNames, DiskMode.ofText (hddMode e n) ≠ none := by
  have hrun : Serves (sourceLibPci g₀) g (diskNames.flatMap (service e h.diskarg)) ∧
      ∀ n ∈ diskNames, DiskMode.ofText (hddMode e n) ≠ none := by
    refine Runs.run_induction (P := fun done g =>
      Serves (sourceLibPci g₀) g (done.flatMap (service e h.diskarg)) ∧
        ∀ n ∈ done, DiskMode.ofText (hddMode e n) ≠ none) ⟨.refl _, by simp⟩ ?_ hg
    rintro done name g g' - ⟨hserves, hmodes⟩ hstep
    refine ⟨?_, fun n hn => ?_⟩
    · rw [List.flatMap_append, List.flatMap_singleton]
      exact hserves.trans (addDisk_serves hstep)
    · rcases List.mem_append.mp hn with hn | hn
      · exact hmodes n hn
      · obtain rfl := List.mem_singleton.mp hn
        obtain ⟨m, hm, -⟩ := Option.bind_eq_some_iff.mp hstep
        rw [hm]
        exact Option.some_ne_none m
  obtain ⟨os, ho, hs⟩ := hrun.1
  rw [sourceLibPci_qemuOpts] at ho
  exact ⟨⟨os, ho, hs⟩, hrun.2⟩

/-! ## Clients -/

/-- The texts spliced into an option. -/
def rawText? : Item → Option String
  | .raw t => some t
  | .kv _ _ => none

/-- The beginning of the address of a network server on this host. -/
def protocol : ServerKind → String
  | .nbd => "nbd:unix:"
  | .iscsi => "iscsi://127.0.0.1/"
  | .virtiofs => ""

/-- The option is the client of a server of the kind for the disk: a drive with the
    address of an NBD socket or of a target on this host, or a vhost-user-fs socket. -/
def IsClient (name : String) (k : ServerKind) (o : Opt) : Prop :=
  match k with
  | .virtiofs => o.flag = .chardev ∧ o.values "id" = ["vfs-" ++ name]
  | k => o.flag = .drive ∧ o.values "id" = [hdd name] ∧
      ∃ t ∈ o.items.filterMap rawText?, ("file=" ++ protocol k).toList <+: t.toList

/-- The text by which an option names the server: the begin of `$diskarg` up to the end
    or a comma, or the socket. -/
def Server.operand : Server → String
  | .nbd _ sock format _ => "file=" ++ protocol .nbd ++ sock ++ ",format=" ++ format.text
  | .iscsi _ target _ _ =>
    "file=" ++ protocol .iscsi ++ target ++ "/1,format=" ++ Format.raw.text
  | .virtiofs _ sock _ => sock

/-- The option has the address of the server, and its image format. -/
def Server.Reaches (s : Server) (o : Opt) : Prop :=
  match s.kind with
  | .virtiofs => o.values "path" = [s.operand]
  | _ => ∃ t ∈ o.items.filterMap rawText?,
      t = s.operand ∨ (s.operand ++ ",").toList <+: t.toList

theorem IsClient.isService {name : String} {k : ServerKind} {o : Opt} (h : IsClient name k o) :
    isService o = true := by
  cases k with
  | virtiofs => simp [Exec.isService, h.1]
  | nbd | iscsi => simp [Exec.isService, h.1]

theorem hdd_inj {n n' : String} : hdd n = hdd n' ↔ n = n' := by
  rw [hdd, hdd, String.append_left_inj]

theorem isClient_vfsChardev {e : Env} {n name : String} {k : ServerKind} :
    IsClient name k (vfsChardev e n) ↔ k = .virtiofs ∧ n = name := by
  cases k <;> simp [IsClient, vfsChardev]

theorem isClient_driveOpt {n name t : String} {k : ServerKind} :
    IsClient name k (driveOpt n t) ↔
      k ≠ .virtiofs ∧ n = name ∧ ("file=" ++ protocol k).toList <+: t.toList := by
  cases k <;> simp [IsClient, driveOpt, hdd_inj, rawText?]

/-- `add_disk NAME` emits a client of the kind. -/
def Wants (e : Env) (arg : String → String → String) (name : String) : ServerKind → Prop
  | .virtiofs => hddMode e name = "virtiofsd"
  | k => ∃ m ctl, DiskMode.ofText (hddMode e name) = some m ∧ m.controller = some ctl ∧
      ("file=" ++ protocol k).toList <+: (arg name ctl).toList

theorem ofText_virtiofsd {s : String} :
    DiskMode.ofText s = some .virtiofsd ↔ s = "virtiofsd" := by
  constructor
  · intro h
    obtain ⟨l, l', hl, -⟩ := List.lookup_eq_some_iff.mp h
    have hmem : (s, DiskMode.virtiofsd) ∈ l ++ (s, DiskMode.virtiofsd) :: l' := by simp
    rw [← hl] at hmem
    simpa using hmem
  · rintro rfl
    rfl

theorem controller_none {m : DiskMode} : m.controller = none ↔ m = .virtiofsd := by
  cases m <;> simp [DiskMode.controller]

theorem wants_virtiofs {e : Env} {arg : String → String → String} {n : String} {m : DiskMode}
    (hm : DiskMode.ofText (hddMode e n) = some m) :
    Wants e arg n .virtiofs ↔ m.controller = none := by
  rw [Wants, ← ofText_virtiofsd, hm, controller_none, Option.some.injEq]

theorem wants_net {e : Env} {arg : String → String → String} {n : String} {m : DiskMode}
    {k : ServerKind} (hk : k ≠ .virtiofs) (hm : DiskMode.ofText (hddMode e n) = some m) :
    Wants e arg n k ↔ ∃ ctl, m.controller = some ctl ∧
      ("file=" ++ protocol k).toList <+: (arg n ctl).toList := by
  cases k with
  | virtiofs => exact absurd rfl hk
  | nbd | iscsi => simp [Wants, hm]

/-- Of a disk with a mode, `add_disk` emits the clients it wants, and no others. -/
theorem service_client {e : Env} {arg : String → String → String} {n name : String}
    {k : ServerKind} (hn : DiskMode.ofText (hddMode e n) ≠ none) :
    (∃ o ∈ service e arg n, IsClient name k o) ↔ n = name ∧ Wants e arg n k := by
  obtain ⟨m, hm⟩ := Option.ne_none_iff_exists'.mp hn
  rw [service, hm, Option.elim_some]
  by_cases hk : k = .virtiofs
  · subst hk
    rw [wants_virtiofs hm]
    cases hc : m.controller with
    | none => simp [modeService, hc, isClient_vfsChardev]
    | some ctl =>
      simp only [modeService, hc]
      split_ifs <;> simp [isClient_driveOpt]
  · rw [wants_net hk hm]
    cases hc : m.controller with
    | none => simp [modeService, hc, isClient_vfsChardev, hk]
    | some ctl =>
      simp only [modeService, hc]
      split_ifs with herr
      · simp [herr]
      · simp [isClient_driveOpt, hk]

/-! ## What `diskarg` reaches -/

/-- `diskarg` falls through to the image that `DISK_<name>` names. -/
def Direct (e : Env) (fs : Files) (name : String) : Prop :=
  let file := diskFile (e.val "MACHINE") name
  (diskKind e name = .directRaw ∨ diskKind e name = .directQcow2) ∧
    (fs (file "raw")).e = false ∧ (fs (file "qcow2")).e = false ∧ (fs (file "qed")).e = false ∧
      (fs (file "vfat")).d = false

theorem isNbd_iff {e : Env} {n : String} : isNbd e n = true ↔ diskKind e n = .nbd := by
  rw [isNbd, diskKind, DiskKind.ofType]
  split_ifs <;> simp_all

theorem isIscsiTgt_iff {e : Env} {n : String} :
    isIscsiTgt e n = true ↔ diskKind e n = .iscsi := by
  rw [isIscsiTgt, diskKind, DiskKind.ofType]
  split_ifs <;> simp_all

/-- A text without the separator that begins a list begins its first part. -/
theorem isPrefix_of_not_mem {α : Type*} {x : α} {p a b : List α} (hx : x ∉ p)
    (h : p <+: a ++ x :: b) : p <+: a := by
  rcases List.prefix_or_prefix_of_prefix h (List.prefix_append a (x :: b)) with hp | ha
  · exact hp
  · obtain ⟨t, rfl⟩ := ha
    cases t with
    | nil => simp
    | cons y t =>
      -- `p` is longer than `a`, so the separator is in it
      rw [List.prefix_append_right_inj] at h
      obtain ⟨rfl, -⟩ := List.cons_prefix_cons.mp h
      simp at hx

/-- The operand begins with a protocol exactly if its file does. -/
theorem protocol_text {k : ServerKind} (a : DriveArg) :
    ("file=" ++ protocol k).toList <+: a.text.toList ↔ (protocol k).toList <+: a.file.toList := by
  have hcomma : ',' ∉ (protocol k).toList := by cases k <;> decide
  have htext : a.text.toList = "file=".toList ++ (a.file.toList ++ ',' ::
      ("format=" ++ a.format.text ++ a.opts.elim "" ("," ++ ·)).toList) := by
    obtain ⟨file, format, opts⟩ := a
    cases opts <;> simp [DriveArg.text]
  rw [htext, String.toList_append, List.prefix_append_right_inj]
  exact ⟨isPrefix_of_not_mem hcomma, fun h => h.trans (List.prefix_append _ _)⟩

section Diskarg

variable {e : Env} {hostname : String} {fs : Files} {name : String}

theorem protocol_diskFile {k : ServerKind} (hk : k ≠ .virtiofs) (machine ext : String) :
    ¬ (protocol k).toList <+: (diskFile machine name ext).toList := by
  cases k with
  | virtiofs => exact absurd rfl hk
  | nbd | iscsi => simp [protocol, diskFile, disksPath]

theorem protocol_fat {k : ServerKind} (hk : k ≠ .virtiofs) (t : String) :
    ¬ (protocol k).toList <+: ("fat:rw:" ++ t).toList := by
  cases k with
  | virtiofs => exact absurd rfl hk
  | nbd | iscsi => simp [protocol]

/-- The kind of a disk on a server. -/
def ServerKind.type : ServerKind → DiskKind
  | .nbd => .nbd
  | _ => .iscsi

theorem protocol_diskargText {k : ServerKind} {ctl : String} {a : DriveArg}
    (ha : Genconfig.diskarg e hostname fs name ctl = some a) :
    ("file=" ++ protocol k).toList <+: (diskargText e hostname fs name ctl).toList ↔
      (protocol k).toList <+: a.file.toList := by
  rw [diskargText, ha]
  exact protocol_text a

/-- A disk without network type: a file of the disks directory, `DISK_<name>`, or nothing. -/
theorem diskarg_local (hostname : String) (fs : Files) (ctl : String)
    (hkind : (diskKind e name).usesFiles) :
    (∃ a, Genconfig.diskarg e hostname fs name ctl = some a ∧ ¬ Direct e fs name ∧
      ((∃ ext, a.file = diskFile (e.val "MACHINE") name ext) ∨ ∃ t, a.file = "fat:rw:" ++ t)) ∨
    (∃ a, Genconfig.diskarg e hostname fs name ctl = some a ∧ Direct e fs name ∧
      a.file = diskVar e name) ∨
    (Genconfig.diskarg e hostname fs name ctl = none ∧ ¬ Direct e fs name) := by
  unfold Genconfig.diskarg Direct
  dsimp only
  rw [if_neg hkind.1, if_neg hkind.2]
  split_ifs with hraw hqcow2 hqed hvfat hdr hdq
  · exact Or.inl ⟨_, rfl, by simp [hraw], Or.inl ⟨"raw", rfl⟩⟩
  · exact Or.inl ⟨_, rfl, by simp [hqcow2], Or.inl ⟨"qcow2", rfl⟩⟩
  · exact Or.inl ⟨_, rfl, by simp [hqed], Or.inl ⟨"qed", rfl⟩⟩
  · exact Or.inl ⟨_, rfl, by simp [hvfat], Or.inr ⟨_, rfl⟩⟩
  · exact Or.inr (Or.inl ⟨_, rfl, by simp [hraw, hqcow2, hqed, hvfat, hdr], rfl⟩)
  · exact Or.inr (Or.inl ⟨_, rfl, by simp [hraw, hqcow2, hqed, hvfat, hdq], rfl⟩)
  · exact Or.inr (Or.inr ⟨rfl, by simp [hdr, hdq]⟩)

/-- A disk without network type names a server exactly if it falls through to a
    `DISK_<name>` that does. -/
theorem protocol_local {k : ServerKind} (hk : k ≠ .virtiofs) (ctl : String)
    (hkind : (diskKind e name).usesFiles) :
    ("file=" ++ protocol k).toList <+: (diskargText e hostname fs name ctl).toList ↔
      Direct e fs name ∧ (protocol k).toList <+: (diskVar e name).toList := by
  rcases diskarg_local hostname fs ctl hkind with
    ⟨a, ha, hd, hfile⟩ | ⟨a, ha, hd, hfile⟩ | ⟨ha, hd⟩
  · rw [protocol_diskargText ha]
    refine iff_of_false ?_ fun h => hd h.1
    rcases hfile with ⟨ext, hfile⟩ | ⟨t, hfile⟩ <;> rw [hfile]
    · exact protocol_diskFile hk _ ext
    · exact protocol_fat hk t
  · rw [protocol_diskargText ha, hfile]
    simp [hd]
  · rw [diskargText, ha]
    refine iff_of_false ?_ fun h => hd h.1
    simp

/-- `diskarg` names a network server for a disk of that type, or if `DISK_<name>` does. -/
theorem protocol_diskarg {k : ServerKind} (hk : k ≠ .virtiofs) (ctl : String)
    (hno : e.val ("HDD_" ++ name ++ "_ISCSI_TARGET") = "") :
    ("file=" ++ protocol k).toList <+: (diskargText e hostname fs name ctl).toList ↔
      diskKind e name = k.type ∨
        (Direct e fs name ∧ (protocol k).toList <+: (diskVar e name).toList) := by
  by_cases hkind : (diskKind e name).usesFiles
  · rw [protocol_local hk ctl hkind, or_iff_right]
    intro heq
    rw [heq] at hkind
    cases k <;> simp [DiskKind.usesFiles, ServerKind.type] at hkind
  · have hnet : diskKind e name = .nbd ∨ diskKind e name = .iscsi := by
      simpa [DiskKind.usesFiles, or_iff_not_imp_left] using hkind
    have hdirect : ¬ Direct e fs name := by
      rintro ⟨hd, -⟩
      rcases hnet with h | h <;> simp [h] at hd
    rcases hnet with hnbd | hiscsi
    · rw [protocol_diskargText (a := ⟨"nbd:unix:" ++ e.val "MACHINE_VAR" ++ "/" ++ name ++
        ".nbd.sock", .raw, none⟩) (by simp [Genconfig.diskarg, hnbd])]
      cases k <;> simp_all [protocol, ServerKind.type]
    · rw [protocol_diskargText (a := ⟨iscsiTarget e hostname name, .raw,
        some (rawOpts e (diskKind e name) ctl)⟩) (by simp [Genconfig.diskarg, hiscsi])]
      cases k <;> simp_all [protocol, ServerKind.type, iscsiTarget, Env.valOr]

end Diskarg

/-! ## Agreement -/

/-- The options `os` and the launchers agree: there is a client of a kind for a disk
    exactly if there is a server of that kind for it, a client has the address and the
    format of its server, and no launcher stops what another has started. -/
structure DisksAgree (os : List Opt) (evs : List Event) : Prop where
  clients : ∀ name k, (∃ o ∈ os, IsClient name k o) ↔
    ∃ s ∈ started evs, s.kind = k ∧ s.disk = name
  reaches : ∀ o ∈ os, ∀ s ∈ started evs, IsClient s.disk s.kind o → s.Reaches o
  kept : Kept evs

/-- The settings of a disk that `add_disk` knows: the mode `virtiofsd` is its own one and
    not a default, and comes without a type of a network disk; an image named directly is
    no address of a network server. -/
structure DiskCompatible (e : Env) (fs : Files) (n : String) : Prop where
  mode : hddMode e n = "virtiofsd" →
    isVirtiofsd e n = true ∧ isNbd e n = false ∧ isIscsiTgt e n = false
  direct : hddMode e n ≠ "virtiofsd" → Direct e fs n → ∀ k, k ≠ .virtiofs →
    ¬ (protocol k).toList <+: (diskVar e n).toList

/-- Every disk of `add_disk` is compatible, and `data3`, which only the launchers know, is
    on no server. -/
structure DisksCompatible (e : Env) (fs : Files) : Prop where
  each : ∀ n ∈ diskNames, DiskCompatible e fs n
  data3 : isNbd e "data3" = false ∧ isVirtiofsd e "data3" = false ∧
    isIscsiTgt e "data3" = false

/-- A launcher starts a server of the kind for the disk. -/
def Launched (e : Env) (n : String) : ServerKind → Prop
  | .nbd => isNbd e n = true
  | .virtiofs => isVirtiofsd e n = true
  | .iscsi => isIscsiTgt e n = true

theorem started_kind {e : Env} {hostname n : String} {k : ServerKind} :
    (∃ s ∈ started (launch e hostname), s.kind = k ∧ s.disk = n) ↔
      n ∈ launcherDisks ∧ Launched e n k := by
  constructor
  · rintro ⟨s, hs, rfl, rfl⟩
    obtain ⟨i, hi, ⟨h, rfl⟩ | ⟨h, rfl⟩ | ⟨h, rfl⟩⟩ := mem_started.mp hs
    · exact ⟨hi, h⟩
    · exact ⟨hi, h⟩
    · exact ⟨hi, h⟩
  · rintro ⟨hn, h⟩
    cases k with
    | nbd => exact ⟨_, mem_started.mpr ⟨n, hn, Or.inl ⟨h, rfl⟩⟩, rfl, rfl⟩
    | virtiofs => exact ⟨_, mem_started.mpr ⟨n, hn, Or.inr (Or.inl ⟨h, rfl⟩)⟩, rfl, rfl⟩
    | iscsi => exact ⟨_, mem_started.mpr ⟨n, hn, Or.inr (Or.inr ⟨h, rfl⟩)⟩, rfl, rfl⟩

/-- The clients among emitted options. -/
theorem emitted_client {e : Env} {arg : String → String → String} {os : List Opt} {name : String}
    {k : ServerKind} (hos : os.filter isService = diskNames.flatMap (service e arg))
    (hmodes : ∀ n ∈ diskNames, DiskMode.ofText (hddMode e n) ≠ none) :
    (∃ o ∈ os, IsClient name k o) ↔ name ∈ diskNames ∧ Wants e arg name k := by
  have hfilter : (∃ o ∈ os, IsClient name k o) ↔ ∃ o ∈ os.filter isService, IsClient name k o := by
    refine exists_congr fun o => ?_
    rw [List.mem_filter]
    exact ⟨fun h => ⟨⟨h.1, h.2.isService⟩, h.2⟩, fun h => ⟨h.1.1, h.2⟩⟩
  rw [hfilter, hos]
  constructor
  · rintro ⟨o, ho, hc⟩
    obtain ⟨n, hn, ho⟩ := List.mem_flatMap.mp ho
    obtain ⟨rfl, hw⟩ := (service_client (hmodes n hn)).mp ⟨o, ho, hc⟩
    exact ⟨hn, hw⟩
  · rintro ⟨hn, hw⟩
    obtain ⟨o, ho, hc⟩ := (service_client (hmodes name hn)).mpr ⟨rfl, hw⟩
    exact ⟨o, List.mem_flatMap.mpr ⟨name, hn, ho⟩, hc⟩

theorem hddMode_of_isVirtiofsd {e : Env} {n : String} (h : isVirtiofsd e n = true) :
    hddMode e n = "virtiofsd" := by
  have hmode : e.val ("DISK_" ++ n ++ "_MODE") = "virtiofsd" := by simpa [isVirtiofsd] using h
  rw [hddMode, Env.valOr, hmode, if_neg (by decide)]

section Agree

variable {e : Env} {hostname : String} {fs : Files} {n : String}

theorem launched_net {k : ServerKind} (hk : k ≠ .virtiofs) :
    Launched e n k ↔ diskKind e n = k.type := by
  cases k with
  | virtiofs => exact absurd rfl hk
  | nbd => exact isNbd_iff
  | iscsi => exact isIscsiTgt_iff

/-- A disk is served by the launchers as it is used by QEMU exactly if it is compatible. -/
theorem wants_iff_launched (hmode : DiskMode.ofText (hddMode e n) ≠ none)
    (hno : e.val ("HDD_" ++ n ++ "_ISCSI_TARGET") = "") :
    (∀ k, Wants e (diskargText e hostname fs) n k ↔ Launched e n k) ↔ DiskCompatible e fs n := by
  obtain ⟨m, hm⟩ := Option.ne_none_iff_exists'.mp hmode
  by_cases hv : hddMode e n = "virtiofsd"
  · have hc : m.controller = none := by
      have hwants : Wants e (diskargText e hostname fs) n .virtiofs ↔ m.controller = none :=
        wants_virtiofs hm
      exact hwants.mp hv
    have hnet : ∀ k, k ≠ .virtiofs → ¬ Wants e (diskargText e hostname fs) n k := by
      intro k hk
      rw [wants_net hk hm, hc]
      simp
    constructor
    · intro h
      have hnbd := (h .nbd).not.mp (hnet .nbd (by decide))
      have hiscsi := (h .iscsi).not.mp (hnet .iscsi (by decide))
      refine ⟨fun _ => ⟨(h .virtiofs).mp hv, ?_, ?_⟩, fun hne => absurd hv hne⟩
      · simpa [Launched] using hnbd
      · simpa [Launched] using hiscsi
    · intro h k
      obtain ⟨hvfs, hnbd, hiscsi⟩ := h.mode hv
      cases k with
      | virtiofs => exact iff_of_true hv hvfs
      | nbd => exact iff_of_false (hnet .nbd (by decide)) (by simp [Launched, hnbd])
      | iscsi => exact iff_of_false (hnet .iscsi (by decide)) (by simp [Launched, hiscsi])
  · obtain ⟨ctl, hctl⟩ : ∃ ctl, m.controller = some ctl := by
      refine Option.ne_none_iff_exists'.mp fun hc => hv ?_
      rwa [← ofText_virtiofsd, hm, Option.some.injEq, ← controller_none]
    have hvfs : ¬ isVirtiofsd e n = true := fun h => hv (hddMode_of_isVirtiofsd h)
    have hnet : ∀ k, k ≠ .virtiofs → (Wants e (diskargText e hostname fs) n k ↔
        diskKind e n = k.type ∨ (Direct e fs n ∧ (protocol k).toList <+: (diskVar e n).toList)) := by
      intro k hk
      have hprotocol : ("file=" ++ protocol k).toList <+: (diskargText e hostname fs n ctl).toList ↔
        _ := protocol_diskarg hk ctl hno
      rw [wants_net hk hm, ← hprotocol, hctl]
      simp only [Option.some.injEq, exists_eq_left']
    constructor
    · intro h
      refine ⟨fun heq => absurd heq hv, fun _ hd k hk hp => ?_⟩
      have hl := (launched_net hk).mp ((h k).mp ((hnet k hk).mpr (Or.inr ⟨hd, hp⟩)))
      rcases hd.1 with hd | hd <;> rw [hd] at hl <;> cases k <;> cases hl
    · intro h k
      by_cases hk : k = .virtiofs
      · subst hk
        exact iff_of_false hv hvfs
      · rw [hnet k hk, launched_net hk, or_iff_left]
        rintro ⟨hd, hp⟩
        exact h.direct hv hd k hk hp

theorem nbdServer_reaches {ctl : String} (h : isNbd e n = true) :
    (nbdServer e n).Reaches (driveOpt n (diskargText e hostname fs n ctl)) := by
  have harg : Genconfig.diskarg e hostname fs n ctl =
      some ⟨"nbd:unix:" ++ nbdSock e n, .raw, none⟩ := by
    simp [Genconfig.diskarg, isNbd_iff.mp h, nbdSock, String.append_assoc]
  have htext : diskargText e hostname fs n ctl = (nbdServer e n).operand := by
    rw [diskargText, harg]
    apply String.toList_inj.mp
    simp [DriveArg.text, nbdServer, Server.operand, protocol]
  exact ⟨_, List.mem_singleton_self _, Or.inl htext⟩

theorem iscsiServer_reaches {ctl : String} (h : isIscsiTgt e n = true)
    (hno : e.val ("HDD_" ++ n ++ "_ISCSI_TARGET") = "") :
    (iscsiServer e hostname n).Reaches (driveOpt n (diskargText e hostname fs n ctl)) := by
  have hkind := isIscsiTgt_iff.mp h
  have htarget : iscsiTarget e hostname n = "iscsi://127.0.0.1/" ++ iqn e hostname n ++ "/1" := by
    refine (if_pos hno).trans ?_
    unfold iqn
    apply String.toList_inj.mp
    simp
  have harg : Genconfig.diskarg e hostname fs n ctl =
      some ⟨"iscsi://127.0.0.1/" ++ iqn e hostname n ++ "/1", .raw, some (rawOpts e .iscsi ctl)⟩ := by
    unfold Genconfig.diskarg
    dsimp only
    rw [hkind, if_neg (by decide), if_pos rfl, htarget]
  have htext : diskargText e hostname fs n ctl =
      (iscsiServer e hostname n).operand ++ "," ++ rawOpts e .iscsi ctl := by
    rw [diskargText, harg]
    generalize rawOpts e .iscsi ctl = opts
    apply String.toList_inj.mp
    simp [DriveArg.text, iscsiServer, Server.operand, protocol]
  refine ⟨_, List.mem_singleton_self _, Or.inr ?_⟩
  rw [htext, String.toList_append (s := _ ++ ",")]
  exact List.prefix_append _ _

end Agree

/-- The two shapes of an emitted client. -/
theorem service_shape {e : Env} {arg : String → String → String} {n : String} {o : Opt}
    (h : o ∈ service e arg n) : o = vfsChardev e n ∨ ∃ ctl, o = driveOpt n (arg n ctl) := by
  rw [service] at h
  cases hm : DiskMode.ofText (hddMode e n) with
  | none => simp [hm] at h
  | some m =>
    simp only [hm, Option.elim_some, modeService] at h
    cases hc : m.controller with
    | none => exact Or.inl (by simpa [hc] using h)
    | some ctl =>
      simp only [hc] at h
      split_ifs at h
      · simp at h
      · exact Or.inr ⟨ctl, List.mem_singleton.mp h⟩

/-- A client of a server that runs has its address. -/
theorem client_reaches {e : Env} {hostname : String} {fs : Files} {n : String} {o : Opt} {s : Server}
    (hno : ∀ i ∈ launcherDisks, e.val ("HDD_" ++ i ++ "_ISCSI_TARGET") = "")
    (ho : o ∈ service e (diskargText e hostname fs) n) (hs : s ∈ started (launch e hostname))
    (hc : IsClient s.disk s.kind o) : s.Reaches o := by
  obtain ⟨i, hi, hserver⟩ := mem_started.mp hs
  rcases service_shape ho with rfl | ⟨ctl, rfl⟩
  · obtain ⟨hk, rfl⟩ := isClient_vfsChardev.mp hc
    rcases hserver with ⟨-, rfl⟩ | ⟨-, rfl⟩ | ⟨-, rfl⟩
    · cases hk
    · simp [Server.Reaches, Server.kind, virtiofsServer, vfsChardev, Server.operand, Server.disk]
    · cases hk
  · obtain ⟨hk, rfl, -⟩ := isClient_driveOpt.mp hc
    rcases hserver with ⟨h, rfl⟩ | ⟨-, rfl⟩ | ⟨h, rfl⟩
    · exact nbdServer_reaches h
    · exact absurd rfl hk
    · exact iscsiServer_reaches h (hno i hi)

theorem mem_launcherDisks {n : String} : n ∈ launcherDisks ↔ n ∈ diskNames ∨ n = "data3" := by
  simp [launcherDisks, diskNames, or_assoc]

/-- **Disk clients and disk servers agree exactly if** every disk of `add_disk` has
    compatible settings and `data3` is on no server: for every configuration without
    target overrides, and every state in which the disk fragment runs through. -/
theorem disks_agree_iff (e : Env) (hostname : String) (fs : Files)
    (virtfn : String → Option String) (lspci : String → Bool) (rom : String → String) (g₀ g : Gen)
    (os : List Opt) (hno : ∀ i ∈ launcherDisks, e.val ("HDD_" ++ i ++ "_ISCSI_TARGET") = "")
    (hg : hddUni e ⟨virtfn, diskargText e hostname fs, lspci, rom⟩ g₀ = some g)
    (hos : g.qemuOpts = g₀.qemuOpts ++ os) :
    DisksAgree os (launch e hostname) ↔ DisksCompatible e fs := by
  obtain ⟨⟨os', hos', hservices⟩, hmodes⟩ := hddUni_services hg
  obtain rfl : os' = os := List.append_cancel_left (hos'.symm.trans hos)
  have heach : ∀ n ∈ diskNames,
      ((∀ k, Wants e (diskargText e hostname fs) n k ↔ Launched e n k) ↔
        DiskCompatible e fs n) := fun n hn =>
    wants_iff_launched (hmodes n hn) (hno n (mem_launcherDisks.mpr (Or.inl hn)))
  have hdata3 : "data3" ∉ diskNames := by decide
  constructor
  · intro h
    have hclients : ∀ n k, n ∈ diskNames ∧ Wants e (diskargText e hostname fs) n k ↔
        n ∈ launcherDisks ∧ Launched e n k := fun n k => by
      rw [← emitted_client hservices hmodes, h.clients n k, started_kind]
    constructor
    · intro n hn
      refine (heach n hn).mp fun k => ?_
      have hk := hclients n k
      simpa [hn, mem_launcherDisks] using hk
    · have hnot : ∀ k, ¬ Launched e "data3" k := fun k hk =>
        hdata3 ((hclients "data3" k).mpr ⟨by decide, hk⟩).1
      exact ⟨by simpa [Launched] using hnot .nbd, by simpa [Launched] using hnot .virtiofs,
        by simpa [Launched] using hnot .iscsi⟩
  · intro h
    refine ⟨fun n k => ?_, fun o ho s hs hc => ?_, launch_kept fun i hi hnbd => ?_⟩
    · rw [emitted_client hservices hmodes, started_kind, mem_launcherDisks]
      by_cases hn : n ∈ diskNames
      · have hiff := (heach n hn).mpr (h.each n hn) k
        simp [hn, hiff]
      · have hnot : ¬ Launched e "data3" k := by
          obtain ⟨hnbd, hvfs, hiscsi⟩ := h.data3
          cases k <;> simp [Launched, hnbd, hvfs, hiscsi]
        refine iff_of_false (fun hw => hn hw.1) ?_
        rintro ⟨hn' | rfl, hl⟩
        · exact hn hn'
        · exact hnot hl
    · have hmem : o ∈ os'.filter isService := List.mem_filter.mpr ⟨ho, hc.isService⟩
      rw [hservices] at hmem
      obtain ⟨n, -, ho⟩ := List.mem_flatMap.mp hmem
      exact client_reaches hno ho hs hc
    · rcases mem_launcherDisks.mp hi with hn | rfl
      · by_contra hvfs
        have hvfs' : isVirtiofsd e i = true := by simpa using hvfs
        have hmode := (h.each i hn).mode (hddMode_of_isVirtiofsd hvfs')
        rw [hmode.2.1] at hnbd
        cases hnbd
      · exact h.data3.2.1

/-- An NBD disk, a shared directory with a mode of its own and an iSCSI disk. -/
theorem disks_agree_mixed :
    let e : Env := fun v => [("MACHINE", "mac"), ("MACHINE_VAR", "/srv/kvm/vms/mac/var"),
      ("HDD_MODE", "ahci"), ("DISK_system", "/dev/vg0/system"), ("DISK_system_TYPE", "nbd"),
      ("DISK_data", "share"), ("DISK_data_MODE", "virtiofsd"),
      ("DISK_data1_TYPE", "iscsi-tgt")].lookup v
    let h : Genconfig.Host :=
      ⟨fun _ => none, diskargText e "host" fun _ => .absent, fun _ => true, fun _ => ""⟩
    ∃ g, hddUni e h (Gen.init []) = some g ∧ DisksAgree g.qemuOpts (launch e "host") := by
  intro e h
  have hrun : hddUni e h (Gen.init []) = some _ := rfl
  refine ⟨_, hrun, (disks_agree_iff e "host" (fun _ => .absent) (fun _ => none) (fun _ => true)
    (fun _ => "") (Gen.init []) _ _ (by decide) hrun rfl).mpr ⟨?_, by decide⟩⟩
  have hdirect : ∀ n ∈ diskNames, diskKind e n ≠ .directRaw ∧ diskKind e n ≠ .directQcow2 := by
    decide
  intro n hn
  refine ⟨?_, fun _ hd => ?_⟩
  · revert n
    decide
  · obtain ⟨hraw, hqcow2⟩ := hdirect n hn
    rcases hd.1 with hd | hd
    · exact absurd hd hraw
    · exact absurd hd hqcow2

/-- `HDD_MODE=virtiofsd` as the only setting: QEMU gets a socket for every disk, and no
    `virtiofsd` is started. -/
theorem disks_disagree_default :
    let e : Env := fun v => [("MACHINE", "mac"), ("MACHINE_VAR", "/srv/kvm/vms/mac/var"),
      ("HDD_MODE", "virtiofsd")].lookup v
    let h : Genconfig.Host :=
      ⟨fun _ => none, diskargText e "host" fun _ => .absent, fun _ => true, fun _ => ""⟩
    ∃ g, hddUni e h (Gen.init []) = some g ∧
      (∃ o ∈ g.qemuOpts, IsClient "system" .virtiofs o) ∧ started (launch e "host") = [] ∧
      ¬ DisksAgree g.qemuOpts (launch e "host") := by
  intro e h
  have hclient : ∀ g, hddUni e h (Gen.init []) = some g →
      ∃ o ∈ g.qemuOpts, IsClient "system" .virtiofs o := by
    intro g hg
    obtain ⟨⟨os, hos, hservices⟩, hmodes⟩ := hddUni_services hg
    have hwants : Wants e h.diskarg "system" .virtiofs :=
      show hddMode e "system" = "virtiofsd" by decide
    obtain ⟨o, ho, hc⟩ := (emitted_client hservices hmodes).mpr ⟨by decide, hwants⟩
    exact ⟨o, by rw [hos]; exact List.mem_append_right _ ho, hc⟩
  have hnone : started (launch e "host") = [] := by decide
  refine ⟨_, rfl, hclient _ rfl, hnone, fun hagree => ?_⟩
  obtain ⟨s, hs, -⟩ := (hagree.clients "system" .virtiofs).mp (hclient _ rfl)
  rw [hnone] at hs
  cases hs

end KvmOsx.Exec
