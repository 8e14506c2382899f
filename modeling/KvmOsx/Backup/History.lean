import KvmOsx.Backup.Restore

/-!
# Histories of backups

A history is a sequence of `machine-backup` runs in which any step may fail.

* `history`: the repository after it; `origins_history`: it holds a snapshot of every
  pipeline that was started, also of a failed one.
* `never_shadowed_iff`: in which histories no failed backup is restored.
-/

namespace KvmOsx.Backup

open Host Genconfig

/-- The repository after the runs, which started with an empty one. -/
def history (h : List BackupRun) : Repo Origin := h.foldl machineBackup Repo.empty

/-- The pipelines that were started for a disk of a machine. -/
def attempts (machine d : String) (h : List BackupRun) : List Attempt :=
  h.flatMap fun b => if machine = b.machine then b.attempts d else []

/-- Every pipeline left a snapshot. -/
theorem origins_history (machine d : String) (h : List BackupRun) :
    (history h).origins machine d = (attempts machine d h).map .pipe := by
  have hlog := Keyed.foldl_log (Repo.origins · machine d)
    (fun r b => origins_machineBackup r b machine d) h Repo.empty
  rw [history, hlog, attempts, List.map_flatMap]
  simp only [Repo.origins, Repo.disk, Repo.empty, List.filter_nil, List.map_nil, List.nil_append]
  congr 1
  funext b
  split_ifs <;> rfl

theorem attempts_append (machine d : String) (h h' : List BackupRun) :
    attempts machine d (h ++ h') = attempts machine d h ++ attempts machine d h' := by
  rw [attempts, List.flatMap_append]
  rfl

theorem mem_attempts {machine d : String} {h : List BackupRun} {a : Attempt} :
    a ∈ attempts machine d h ↔ ∃ b ∈ h, b.machine = machine ∧ a ∈ b.attempts d := by
  rw [attempts, List.mem_flatMap]
  refine exists_congr fun b => and_congr_right fun _ => ?_
  split_ifs with hm
  · simp [hm]
  · simp [Ne.symm hm]

section Shadow

variable (xz unxz : Bytes → Bytes)

/-- What is restored for the disk comes from a pipeline in which nothing failed, and is
    the content the disk had in the last such one. -/
structure NotShadowed (machine d : String) (h : List BackupRun) : Prop where
  selected : ∀ s ∈ (history h).select machine d, ∃ a, s.origin = .pipe a ∧ a.Good
  restored : restoreBlockdev xz unxz (history h) machine d =
    ((attempts machine d h).filter fun a => a.Good).getLast?.map (·.source)

/-- The selected snapshot is that of the last pipeline. -/
theorem select_history (machine d : String) (h : List BackupRun) :
    ((history h).select machine d).map (·.origin) =
      ((attempts machine d h).getLast?.map Origin.pipe).toList := by
  rw [Repo.select_eq, ← List.getLast?_map, ← origins_history, Repo.origins, List.getLast?_map]
  cases ((history h).disk machine d).getLast? <;> rfl

/-- Nothing is shadowed as long as the last pipeline was a good one. -/
theorem notShadowed_iff (hxz : ∀ b, unxz (xz b) = b) (machine d : String) (h : List BackupRun) :
    NotShadowed xz unxz machine d h ↔ ∀ a ∈ (attempts machine d h).getLast?, a.Good := by
  have hselect := select_history machine d h
  constructor
  · rintro ⟨hsel, -⟩ a ha
    rw [Option.mem_def.mp ha] at hselect
    obtain ⟨s, hs, hsa⟩ : ∃ s ∈ (history h).select machine d, s.origin = .pipe a := by
      have hmem : Origin.pipe a ∈ ((history h).select machine d).map (·.origin) := by simp [hselect]
      exact List.mem_map.mp hmem
    obtain ⟨a', ha', hgood⟩ := hsel s hs
    obtain rfl := Origin.pipe.inj (hsa.symm.trans ha')
    exact hgood
  · intro hlast
    constructor
    · intro s hs
      have hmem : s.origin ∈ ((history h).select machine d).map (·.origin) :=
        List.mem_map_of_mem hs
      rw [hselect, Option.mem_toList] at hmem
      obtain ⟨a, ha, hsa⟩ := Option.map_eq_some_iff.mp hmem
      exact ⟨a, hsa.symm, hlast a ha⟩
    · have hfilter := Keyed.getLast?_filter (p := fun a : Attempt => decide a.Good)
        (l := attempts machine d h) (by simpa using hlast)
      rw [restoreBlockdev_eq, origins_history, hfilter, List.getLast?_map, Option.map_map]
      cases hl : (attempts machine d h).getLast? with
      | none => rfl
      | some a =>
        have hgood : a.Good := hlast a hl
        simp only [Option.map_some, Function.comp_apply, Origin.data, hgood.delivered_eq, hxz]

/-- **A failed backup never shadows a good one exactly if** none fails: after every
    part of the history and for every disk, what is restored comes from a pipeline in
    which nothing failed, just when this is so for every pipeline of the history. -/
theorem never_shadowed_iff (hxz : ∀ b, unxz (xz b) = b) (machine : String) (h : List BackupRun) :
    (∀ p, p <+: h → ∀ d, NotShadowed xz unxz machine d p) ↔
      ∀ b ∈ h, b.machine = machine → ∀ d, ∀ a ∈ b.attempts d, a.Good := by
  simp only [notShadowed_iff xz unxz hxz]
  constructor
  · intro hall b hb hm d a ha
    obtain ⟨p, q, rfl⟩ := List.append_of_mem hb
    -- the history up to and with the run: its last pipeline for the disk is that of the run
    have hlast : (attempts machine d (p ++ [b])).getLast? = some a := by
      have hone : attempts machine d [b] = [a] := by
        simp [attempts, hm, b.attempts_unique ha]
      rw [attempts_append, hone, List.getLast?_concat]
    exact hall (p ++ [b]) ⟨q, by simp⟩ d a hlast
  · intro hgood p hp d a ha
    obtain ⟨b, hb, hm, hab⟩ := mem_attempts.mp (List.mem_of_getLast? ha)
    exact hgood b (hp.subset hb) hm d a hab

end Shadow

/-- A run for the machine `mac`, whose disk `system` is a logical volume. -/
def lvmRun (o : Outcome) : BackupRun where
  env v := [("MACHINE", "mac")].lookup v
  hostname := "kvm1"
  files p := if p = diskFile "mac" "system" "raw" then .lvm macSystem else .absent
  content _ := [0x33, 0xc0, 0x8e, 0xd0]
  tree := []
  outcome _ := o

theorem never_shadowed_two_runs :
    NotShadowed xzMagic (List.drop 6) "mac" "system"
      [lvmRun (.ok "1582000000"), lvmRun (.ok "1582086400")] := by
  refine (never_shadowed_iff xzMagic (List.drop 6) (fun _ => rfl) "mac" _).mpr ?_ _
    List.prefix_rfl "system"
  intro b hb _ d a ha
  have hgood : ∀ b ∈ [lvmRun (.ok "1582000000"), lvmRun (.ok "1582086400")],
      ∀ d ∈ disks, ∀ a ∈ b.attempts d, a.Good := by decide
  exact hgood b hb d (BackupRun.mem_disks ha) a ha

/-- The second run has no space for the snapshot of the volume: `lvcreate` fails, the
    pipeline compresses nothing, and `restic` commits that. -/
theorem shadowed_by_failed_lvcreate :
    ¬ ∀ (xz unxz : Bytes → Bytes), (∀ data, unxz (xz data) = data) →
      ∀ (machine d : String) (h : List BackupRun), NotShadowed xz unxz machine d h := by
  intro hall
  let h := [lvmRun (.ok "1582000000"), lvmRun ⟨false, false, false, none, none, "1582086400"⟩]
  have hlast := (notShadowed_iff xzMagic (List.drop 6) (fun _ => rfl) "mac" "system" h).mp
    (hall xzMagic (List.drop 6) (fun _ => rfl) "mac" "system" h)
  revert hlast
  decide

end KvmOsx.Backup
