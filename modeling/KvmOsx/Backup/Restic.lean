import KvmOsx.Genconfig.Diskarg
import KvmOsx.Lib.Keyed

/-!
# The snapshot repository

`restic` keeps an ordered list of snapshots, each of one path and with a set of tags.
`backup-query-snapshots` asks for the newest snapshot of every path among those with
all the given tags, `restore-blockdev` dumps what it gets by id and path.

* `Repo`: the snapshots; ids are unique, and a disk snapshot has the path of its disk.
* `Repo.commit`: `restic backup`.
* `Repo.select`: the snapshots `restore-blockdev` restores; `Repo.select_eq`: it is the
  newest one with the tags of the disk.
* `Repo.dump_self`: what is dumped for a snapshot.
-/

namespace KvmOsx.Backup

open Genconfig

/-! ## Snapshots -/

/-- A tag `key:value`. -/
structure Tag where
  key : String
  value : String
  deriving DecidableEq, Repr

/-- A snapshot of one path. `origin` is what delivered its data. -/
structure Snapshot (ω : Type*) where
  id : ℕ
  path : String
  tags : List Tag
  origin : ω

/-- `--tag T₁,T₂,…`: the snapshot has all of them. -/
def hasTags (query tags : List Tag) : Bool := query.all (· ∈ tags)

/-- The query of `restore-blockdev MACHINE DISK` (restore-blockdev:17, 24 and
    backup-query-snapshots:15). -/
def diskQuery (machine disk : String) : List Tag :=
  [⟨"bversion", "1"⟩, ⟨"machine", machine⟩, ⟨"bversion", "1"⟩, ⟨"backup_type", "disk"⟩, ⟨"disk", disk⟩]

/-- The tags of a snapshot allow a path: a disk snapshot is one of the disk's `.xz` path. -/
def PathOk (tags : List Tag) (path : String) : Prop :=
  ∀ machine disk, hasTags (diskQuery machine disk) tags → path = diskFile machine disk "xz"

/-- A repository: its snapshots in the order in which they were committed. -/
structure Repo (ω : Type*) where
  snaps : List (Snapshot ω)
  ids : (snaps.map (·.id)).Nodup
  paths : ∀ s ∈ snaps, PathOk s.tags s.path

variable {ω : Type*}

/-- A repository without snapshots. -/
def Repo.empty : Repo ω := ⟨[], by simp, by simp⟩

/-- An id that no snapshot has. -/
def Repo.freshId (r : Repo ω) : ℕ := (r.snaps.map (·.id)).sum + 1

theorem Repo.freshId_not_mem (r : Repo ω) : r.freshId ∉ r.snaps.map (·.id) := by
  intro h
  have hle := List.le_sum_of_mem h
  unfold Repo.freshId at hle
  omega

/-- `restic backup` of one path. -/
def Repo.commit (r : Repo ω) (path : String) (tags : List Tag) (origin : ω) (h : PathOk tags path) :
    Repo ω where
  snaps := r.snaps ++ [⟨r.freshId, path, tags, origin⟩]
  ids := by
    rw [List.map_append, List.map_singleton, ← List.concat_eq_append]
    exact r.ids.concat r.freshId_not_mem
  paths := by
    intro s hs
    rcases List.mem_append.mp hs with hs | hs
    · exact r.paths s hs
    · obtain rfl := List.mem_singleton.mp hs
      exact h

/-! ## Queries -/

/-- The snapshots of a disk, oldest first. -/
def Repo.disk (r : Repo ω) (machine d : String) : List (Snapshot ω) :=
  r.snaps.filter fun s => hasTags (diskQuery machine d) s.tags

/-- What delivered the snapshots of a disk, oldest first. -/
def Repo.origins (r : Repo ω) (machine d : String) : List ω := (r.disk machine d).map (·.origin)

/-- `restic snapshots --last --tag …`: the newest snapshot of every path. -/
def Repo.select (r : Repo ω) (machine d : String) : List (Snapshot ω) :=
  Keyed.lastPer (·.path) (r.disk machine d)

/-- `restic dump ID PATH`. -/
def Repo.dump {β : Type*} (r : Repo ω) (data : ω → β) (id : ℕ) (path : String) : Option β :=
  (r.snaps.find? fun s => s.id = id ∧ s.path = path).map fun s => data s.origin

/-- All snapshots of a disk have one path, so the query yields the newest of them. -/
theorem Repo.select_eq (r : Repo ω) (machine d : String) :
    r.select machine d = (r.disk machine d).getLast?.toList := by
  refine Keyed.lastPer_of_const (k := diskFile machine d "xz") ?_
  intro s hs
  obtain ⟨hmem, htags⟩ := List.mem_filter.mp hs
  exact r.paths s hmem machine d htags

/-- A commit adds to the disk that its tags name. -/
theorem Repo.origins_commit (r : Repo ω) (path : String) (tags : List Tag) (origin : ω)
    (h : PathOk tags path) (machine d : String) :
    (r.commit path tags origin h).origins machine d =
      r.origins machine d ++ if hasTags (diskQuery machine d) tags then [origin] else [] := by
  by_cases htags : hasTags (diskQuery machine d) tags = true <;>
    simp [Repo.origins, Repo.disk, Repo.commit, htags]

/-- Ids are unique: dumping a snapshot yields its own data. -/
theorem Repo.dump_self {β : Type*} (r : Repo ω) (data : ω → β) {s : Snapshot ω}
    (hs : s ∈ r.snaps) : r.dump data s.id s.path = some (data s.origin) := by
  have hfind : r.snaps.find? (fun t => t.id = s.id ∧ t.path = s.path) = some s := by
    cases hf : r.snaps.find? (fun t => t.id = s.id ∧ t.path = s.path) with
    | none =>
      have hnot := List.find?_eq_none.mp hf s hs
      simp at hnot
    | some t =>
      have hkey : t.id = s.id ∧ t.path = s.path := by simpa using List.find?_some hf
      have hts : t = s := List.inj_on_of_nodup_map r.ids (List.mem_of_find?_eq_some hf) hs hkey.1
      rw [hts]
  rw [Repo.dump, hfind]
  rfl

end KvmOsx.Backup
