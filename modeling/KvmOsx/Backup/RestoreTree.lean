import KvmOsx.Backup.MachineBackup

/-!
# What a restore leaves of the machine's directory

`machine-restore MACHINE` first runs `restore-fs`, which unpacks every selected archive of the
machine's directory over that directory, `disks` and the earlier `disks.STAMP` included:
`backup-fs` saved all of it. Then it moves `disks` to `disks.STAMP`, and at last
`restore-blockdev` writes the images. Its `unxz … > $target` creates the file before anything
has arrived, and `|| true` lets the script go on. The stamp is `date +"%Y-%M-%d-%H%M"`, with
the minute in the place of the month.

`Call` holds the directory and everything a run meets: what is in the archives and how much of
it arrives, the time, whether `mv` succeeds, and for each disk the lines of its query with what
comes through the pipeline.

* `Call.after`: the directory after the call.
* `Call.Harmless`: nothing is lost and no image is there but a whole one.
* `harmless_iff`: under which condition that is so.
-/

namespace KvmOsx.Restore

open Text Backup

/-! ## The directory -/

/-- The files below a directory by their paths; of several entries the first counts. -/
abbrev Dir := List (String × Bytes)

/-- The directories in the machine's directory. -/
abbrev Tree := String → Option Dir

/-- The file `top/path`. -/
def Tree.read (t : Tree) (top path : String) : Option Bytes := (t top).bind (List.lookup path)

/-- Create or overwrite `top/path`. -/
def Tree.write (t : Tree) (top path : String) (data : Bytes) : Tree :=
  Function.update t top (some ((path, data) :: (t top).getD []))

/-! ## `restore-fs` -/

/-- A file of an archive. -/
structure Member where
  top : String
  path : String
  data : Bytes

/-- An archive as `tar` gets it: so many members arrive whole, and of the next one at most a
    beginning. -/
structure Archive where
  members : List Member
  whole : ℕ
  torn : Option ℕ

/-- What `tar` writes. -/
def Archive.written (a : Archive) : List Member :=
  a.members.take a.whole ++
    match a.torn, a.members[a.whole]? with
    | some k, some m => [{ m with data := m.data.take k }]
    | _, _ => []

/-- Write some members, one after the other. -/
def unpack (ms : List Member) (t : Tree) : Tree :=
  ms.foldl (fun t m => t.write m.top m.path m.data) t

/-- `restore-fs MACHINE DIR DIR`: one `tar` for each line of the query. -/
def restoreFs (archives : List Archive) (t : Tree) : Tree :=
  unpack (archives.flatMap Archive.written) t

/-- The last content that is written for a file. -/
def lastWritten (ms : List Member) (top path : String) : Option Bytes :=
  ((ms.filter fun m => m.top = top ∧ m.path = path).getLast?).map Member.data

/-! ## `mv` -/

/-- A time, as `date` knows it. -/
structure Time where
  year : ℕ
  month : ℕ
  day : ℕ
  hour : ℕ
  minute : ℕ

/-- A number with at least `k` digits. -/
def pad (k n : ℕ) : String := String.ofList ((num n).toList.leftpad k '0')

/-- `date +"%Y-%M-%d-%H%M"` (machine-restore:19). -/
def stamp (t : Time) : String :=
  pad 4 t.year ++ "-" ++ pad 2 t.minute ++ "-" ++ pad 2 t.day ++ "-" ++ pad 2 t.hour ++
    pad 2 t.minute

/-- Two times that differ in the month have one stamp. -/
theorem stamp_month (t : Time) (m : ℕ) : stamp { t with month := m } = stamp t := rfl

/-- The directory the disks are moved to. -/
def movedTo (t : Time) : String := "disks." ++ stamp t

/-- An entry below `disks/`. -/
def isNested (f : String × Bytes) : Bool := "disks/".toList.isPrefixOf f.1.toList

/-- `[[ -e disks ]]` and `mv disks d`. If `d` is there, the directory is moved into it, where
    a directory `disks` that is not empty makes `mv` fail. -/
def moveAway (ok : Bool) (d : String) (t : Tree) : Tree :=
  match t "disks" with
  | none => t
  | some files =>
    if ok = false then t
    else
      match t d with
      | none => Function.update (Function.update t "disks" none) d (some files)
      | some old =>
        if old.any isNested then t
        else Function.update (Function.update t "disks" none) d
          (some (old ++ files.map fun f => ("disks/" ++ f.1, f.2)))

/-! ## `restore-blockdev` -/

/-- A line of the query: the dump of its snapshot, whether the target could be opened, what of
    the dump arrives at `unxz`, what that writes, and whether it ends well. -/
structure Pipe where
  dump : Bytes
  opened : Bool
  arrived : Bytes
  part : arrived <+: dump
  output : Bytes
  ok : Bool

/-- The dump was decompressed completely. -/
def Pipe.complete (p : Pipe) : Bool := p.arrived = p.dump ∧ p.ok

/-- `$DISK.raw`. -/
def rawName (d : String) : String := d ++ ".raw"

/-- `restore-blockdev MACHINE DISK`. -/
def restoreBlockdev (pipes : List Pipe) (d : String) (t : Tree) : Tree :=
  pipes.foldl (fun t p =>
    if p.opened then t.write "disks" (rawName d) p.output else t) t

/-- The last line that opened the target. -/
def lastOpened (pipes : List Pipe) : Option Pipe := (pipes.filter Pipe.opened).getLast?

/-! ## `machine-restore` -/

/-- A call of `machine-restore`. -/
structure Call where
  before : Tree
  archives : List Archive
  time : Time
  mvOk : Bool
  pipes : String → List Pipe

/-- The directory behind `restore-fs`. -/
def Call.afterFs (k : Call) : Tree := restoreFs k.archives k.before

/-- The directory behind `mv`. -/
def Call.afterMove (k : Call) : Tree := moveAway k.mvOk (movedTo k.time) k.afterFs

/-- The directory at the end. -/
def Call.after (k : Call) : Tree :=
  disks.foldl (fun t d => restoreBlockdev (k.pipes d) d t) k.afterMove

/-- Every file of `disks` is in the directory that `mv` made, the earlier ones are as they
    were, and an image is there only if its dump was decompressed completely. -/
structure Call.Harmless (k : Call) : Prop where
  kept : ∀ path data, k.before.read "disks" path = some data →
    k.afterFs (movedTo k.time) = none ∧ k.after.read (movedTo k.time) path = some data
  earlier : ∀ s, k.before ("disks." ++ s) ≠ none → ∀ path,
    k.after.read ("disks." ++ s) path = k.before.read ("disks." ++ s) path
  complete : ∀ d ∈ disks, k.after.read "disks" (rawName d) ≠ none →
    ∃ p, lastOpened (k.pipes d) = some p ∧ p.complete

/-- What the archives write. -/
def Call.written (k : Call) : List Member := k.archives.flatMap Archive.written

/-- `mv` goes through: it does not fail, and neither the directory nor an archive has a file
    below `disks/` where it moves to. -/
def Call.Moves (k : Call) : Prop :=
  k.mvOk = true ∧ (∀ f ∈ (k.before (movedTo k.time)).getD [], isNested f = false) ∧
    ∀ m ∈ k.written, m.top = movedTo k.time → isNested (m.path, m.data) = false

/-- The archives bring nothing new for the files that are there, the stamp is not taken, and
    every image that is opened gets its whole dump. -/
structure Call.Safe (k : Call) : Prop where
  archived : ∀ path data, k.before.read "disks" path = some data →
    ∀ data', lastWritten k.written "disks" path = some data' → data' = data
  fresh : (∃ path, k.before.read "disks" path ≠ none) →
    k.mvOk = true ∧ k.before (movedTo k.time) = none ∧ ∀ m ∈ k.written, m.top ≠ movedTo k.time
  stamps : ∀ s, k.before ("disks." ++ s) ≠ none → ∀ path data,
    lastWritten k.written ("disks." ++ s) path = some data →
      k.before.read ("disks." ++ s) path = some data
  nested : k.before (movedTo k.time) ≠ none → k.Moves → ∀ path,
    lastWritten k.written "disks" path = none ∧ k.before.read "disks" path = none
  opened : ∀ d ∈ disks, ∀ p, lastOpened (k.pipes d) = some p → p.complete
  unopened : ∀ d ∈ disks, lastOpened (k.pipes d) = none →
    ¬ (lastWritten k.written "disks" (rawName d) = none ∧
      k.before.read "disks" (rawName d) = none) → k.Moves

/-! ## Reading -/

theorem read_write (t : Tree) (top path : String) (data : Bytes) (top' path' : String) :
    (t.write top path data).read top' path' =
      if top = top' ∧ path = path' then some data else t.read top' path' := by
  by_cases ht : top = top'
  · subst ht
    by_cases hp : path = path'
    · subst hp
      simp [Tree.read, Tree.write]
    · have hb : (path' == path) = false := by simpa using Ne.symm hp
      have hsome : (t.write top path data) top = some ((path, data) :: (t top).getD []) := by
        simp [Tree.write]
      rw [if_neg (fun h => hp h.2), Tree.read, hsome]
      simp only [Option.bind_some, List.lookup_cons, hb]
      cases h : t top with
      | none => simp [Tree.read, h]
      | some files => simp [Tree.read, h]
  · rw [if_neg (fun h => ht h.1)]
    simp [Tree.read, Tree.write, Function.update_of_ne (Ne.symm ht)]

/-- A file behind `restore-fs`: as it was last written, or as it was. -/
theorem read_unpack (ms : List Member) (t : Tree) (top path : String) :
    (unpack ms t).read top path = (lastWritten ms top path).or (t.read top path) := by
  induction ms using List.reverseRecOn with
  | nil => rfl
  | append_singleton ms m ih =>
    have hlast : (unpack (ms ++ [m]) t) = (unpack ms t).write m.top m.path m.data := by
      simp [unpack]
    rw [hlast, read_write, lastWritten, List.filter_append]
    by_cases hm : m.top = top ∧ m.path = path
    · simp [hm]
    · rw [if_neg hm, ih]
      simp [hm, lastWritten]

/-- The entries of a directory behind `restore-fs`. -/
theorem mem_unpack {ms : List Member} {t : Tree} {top : String} {f : String × Bytes} :
    f ∈ ((unpack ms t) top).getD [] ↔
      f ∈ (t top).getD [] ∨ ∃ m ∈ ms, m.top = top ∧ f = (m.path, m.data) := by
  induction ms generalizing t with
  | nil => simp [unpack]
  | cons m ms ih =>
    have hcons : unpack (m :: ms) t = unpack ms (t.write m.top m.path m.data) := rfl
    rw [hcons, ih]
    by_cases ht : top = m.top
    · subst ht
      simp only [Tree.write, Function.update_self, Option.getD_some, List.mem_cons,
        exists_eq_or_imp, true_and]
      tauto
    · rw [Tree.write, Function.update_of_ne ht]
      simp [Ne.symm ht]

/-- A directory is made by a member only. -/
theorem unpack_eq_none {ms : List Member} {t : Tree} {top : String} :
    (unpack ms t) top = none ↔ t top = none ∧ ∀ m ∈ ms, m.top ≠ top := by
  induction ms generalizing t with
  | nil => simp [unpack]
  | cons m ms ih =>
    have hcons : unpack (m :: ms) t = unpack ms (t.write m.top m.path m.data) := rfl
    rw [hcons, ih]
    by_cases ht : top = m.top
    · simp [Tree.write, ht]
    · rw [Tree.write, Function.update_of_ne ht]
      simp [Ne.symm ht]

/-- A file behind `restore-blockdev`. -/
theorem read_restoreBlockdev (pipes : List Pipe) (d : String) (t : Tree) (top path : String) :
    (restoreBlockdev pipes d t).read top path =
      if "disks" = top ∧ rawName d = path then
        ((lastOpened pipes).map fun p => p.output).or (t.read top path)
      else t.read top path := by
  induction pipes using List.reverseRecOn with
  | nil => simp [restoreBlockdev, lastOpened]
  | append_singleton pipes p ih =>
    have hlast : restoreBlockdev (pipes ++ [p]) d t =
        if p.opened then
          (restoreBlockdev pipes d t).write "disks" (rawName d) p.output
        else restoreBlockdev pipes d t := by
      simp [restoreBlockdev]
    rw [hlast]
    by_cases hp : p.opened = true
    · rw [if_pos hp, read_write, ih]
      by_cases hd : "disks" = top ∧ rawName d = path
      · simp [hd, lastOpened, hp]
      · rw [if_neg hd, if_neg hd, if_neg hd]
    · rw [if_neg hp, ih]
      simp [lastOpened, hp]

theorem rawName_inj {d d' : String} : rawName d = rawName d' ↔ d = d' := by
  simp [rawName]

/-- A file behind several of them. -/
theorem read_restoreBlockdevs (pipes : String → List Pipe) (ds : List String) (t : Tree)
    (top d : String) :
    (ds.foldl (fun t d => restoreBlockdev (pipes d) d t) t).read top (rawName d) =
      if "disks" = top ∧ d ∈ ds then
        ((lastOpened (pipes d)).map fun p => p.output).or (t.read top (rawName d))
      else t.read top (rawName d) := by
  induction ds generalizing t with
  | nil => simp
  | cons d' ds ih =>
    rw [List.foldl_cons, ih, read_restoreBlockdev]
    simp only [rawName_inj]
    by_cases ht : "disks" = top
    · by_cases hd : d' = d
      · subst hd
        by_cases hmem : d' ∈ ds
        · simp only [ht, hmem, List.mem_cons, true_and, true_or, if_true]
          cases lastOpened (pipes d') <;> rfl
        · simp [ht, hmem]
      · simp [ht, hd, Ne.symm hd]
    · simp [ht]

theorem read_restoreBlockdevs_other (pipes : String → List Pipe) (ds : List String) (t : Tree)
    {top : String} (h : top ≠ "disks") (path : String) :
    (ds.foldl (fun t d => restoreBlockdev (pipes d) d t) t).read top path =
      t.read top path := by
  induction ds generalizing t with
  | nil => rfl
  | cons d ds ih => rw [List.foldl_cons, ih, read_restoreBlockdev, if_neg (fun hd => h hd.1.symm)]

/-! ## Moving -/

theorem stampDir_ne (s : String) : "disks." ++ s ≠ "disks" := by
  intro h
  have hlen := congrArg (fun t => t.toList.length) h
  simp at hlen

theorem lookup_nested (files : Dir) (path : String) :
    (files.map fun f => ("disks/" ++ f.1, f.2)).lookup ("disks/" ++ path) = files.lookup path := by
  induction files with
  | nil => rfl
  | cons f files ih =>
    rw [List.map_cons, List.lookup_cons, List.lookup_cons, ih]
    by_cases h : path = f.1
    · simp [h]
    · have h1 : (path == f.1) = false := by simpa using h
      have h2 : ("disks/" ++ path == "disks/" ++ f.1) = false := by simpa using h
      rw [h1, h2]

theorem lookup_of_not_nested {old : Dir} (h : old.any isNested = false) (path : String) :
    old.lookup ("disks/" ++ path) = none := by
  rw [List.lookup_eq_none_iff]
  intro f hf
  have hno := List.any_eq_false.mp h f hf
  by_contra heq
  have hpath : "disks/" ++ path = f.1 := by simpa using heq
  apply hno
  rw [isNested, ← hpath, String.toList_append]
  exact List.isPrefixOf_iff_prefix.mpr (List.prefix_append _ _)

theorem eq_nil_of_lookup {files : Dir} (h : ∀ path, files.lookup path = none) : files = [] := by
  cases files with
  | nil => rfl
  | cons f files =>
    have hf := h f.1
    simp at hf

section Move

variable {ok : Bool} {d : String} {t : Tree}

/-- `mv` has something to move and goes through. -/
def Goes (ok : Bool) (d : String) (t : Tree) (files : Dir) : Prop :=
  t "disks" = some files ∧ ok = true ∧ ∀ old, t d = some old → old.any isNested = false

theorem moveAway_stays (h : ¬ ∃ files, Goes ok d t files) : moveAway ok d t = t := by
  unfold moveAway
  cases hf : t "disks" with
  | none => rfl
  | some files =>
    cases ok with
    | false => rfl
    | true =>
      cases hd : t d with
      | none => exact absurd ⟨files, hf, rfl, by simp [hd]⟩ h
      | some old =>
        by_cases hany : old.any isNested = true
        · simp [hany]
        · refine absurd ⟨files, hf, rfl, ?_⟩ h
          intro old' hold
          obtain rfl := Option.some.inj (hd.symm.trans hold)
          simpa using hany

theorem read_moveAway_disks {files : Dir} (hd : d ≠ "disks") (h : Goes ok d t files)
    (path : String) : (moveAway ok d t).read "disks" path = none := by
  obtain ⟨hf, rfl, hold⟩ := h
  unfold moveAway Tree.read
  rw [hf]
  cases htd : t d with
  | none => simp [Function.update_of_ne (Ne.symm hd)]
  | some old => simp [hold old htd, Function.update_of_ne (Ne.symm hd)]

theorem read_moveAway_fresh {files : Dir} (h : Goes ok d t files) (hfresh : t d = none)
    (path : String) : (moveAway ok d t).read d path = t.read "disks" path := by
  obtain ⟨hf, rfl, -⟩ := h
  unfold moveAway Tree.read
  rw [hf, hfresh]
  simp

theorem read_moveAway_nested {files old : Dir} (h : Goes ok d t files) (hd : t d = some old)
    (path : String) : (moveAway ok d t).read d path =
      (old ++ files.map fun f => ("disks/" ++ f.1, f.2)).lookup path := by
  obtain ⟨hf, rfl, hold⟩ := h
  unfold moveAway Tree.read
  rw [hf, hd]
  simp [hold old hd]

theorem read_moveAway_other {top : String} (h1 : top ≠ "disks") (h2 : top ≠ d) (path : String) :
    (moveAway ok d t).read top path = t.read top path := by
  by_cases h : ∃ files, Goes ok d t files
  · obtain ⟨files, hf, rfl, hold⟩ := h
    unfold moveAway Tree.read
    rw [hf]
    cases htd : t d with
    | none => simp [Function.update_of_ne h1, Function.update_of_ne h2]
    | some old => simp [hold old htd, Function.update_of_ne h1, Function.update_of_ne h2]
  · rw [moveAway_stays h]

end Move

/-! ## The whole call -/

section Call

variable {k : Call}

theorem Call.read_after_stamp (s path : String) :
    k.after.read ("disks." ++ s) path = k.afterMove.read ("disks." ++ s) path :=
  read_restoreBlockdevs_other k.pipes disks k.afterMove (stampDir_ne s) path

theorem Call.read_after_raw {d : String} (hd : d ∈ disks) :
    k.after.read "disks" (rawName d) =
      ((lastOpened (k.pipes d)).map fun p => p.output).or
        (k.afterMove.read "disks" (rawName d)) := by
  rw [Call.after, read_restoreBlockdevs, if_pos ⟨rfl, hd⟩]

theorem Call.read_afterFs (top path : String) : k.afterFs.read top path =
    (lastWritten k.written top path).or (k.before.read top path) := read_unpack _ _ _ _

theorem Call.afterFs_eq_none {top : String} :
    k.afterFs top = none ↔ k.before top = none ∧ ∀ m ∈ k.written, m.top ≠ top := unpack_eq_none

theorem Call.afterFs_ne_none {top : String} (h : k.before top ≠ none) : k.afterFs top ≠ none :=
  fun hnone => h (Call.afterFs_eq_none.mp hnone).1

theorem Call.read_afterFs_eq_none {top path : String} : k.afterFs.read top path = none ↔
    lastWritten k.written top path = none ∧ k.before.read top path = none := by
  rw [k.read_afterFs, Option.or_eq_none_iff]

theorem Call.read_afterFs_ne_none {top path : String} (h : k.before.read top path ≠ none) :
    k.afterFs.read top path ≠ none := fun hnone => h (Call.read_afterFs_eq_none.mp hnone).2

/-- `mv` sees the directory behind `restore-fs`. -/
theorem Call.moves_iff : k.Moves ↔
    k.mvOk = true ∧ ∀ old, k.afterFs (movedTo k.time) = some old → old.any isNested = false := by
  have hmem : ∀ f, f ∈ (k.afterFs (movedTo k.time)).getD [] ↔
      f ∈ (k.before (movedTo k.time)).getD [] ∨
        ∃ m ∈ k.written, m.top = movedTo k.time ∧ f = (m.path, m.data) := fun f => mem_unpack
  have hall : (∀ old, k.afterFs (movedTo k.time) = some old → old.any isNested = false) ↔
      ∀ f ∈ (k.afterFs (movedTo k.time)).getD [], isNested f = false := by
    cases k.afterFs (movedTo k.time) <;> simp
  rw [hall, Call.Moves]
  apply and_congr_right
  intro _
  constructor
  · rintro ⟨hbefore, hwritten⟩ f hf
    rcases (hmem f).mp hf with hf | ⟨m, hm, htop, rfl⟩
    · exact hbefore f hf
    · exact hwritten m hm htop
  · intro h
    exact ⟨fun f hf => h f ((hmem f).mpr (Or.inl hf)),
      fun m hm htop => h _ ((hmem _).mpr (Or.inr ⟨m, hm, htop, rfl⟩))⟩

theorem exists_dir {t : Tree} {top path : String} (h : t.read top path ≠ none) :
    ∃ files, t top = some files := by
  cases ht : t top with
  | none => exact absurd (by simp [Tree.read, ht]) h
  | some files => exact ⟨files, rfl⟩

/-- What becomes of an earlier directory that nothing is unpacked into. -/
theorem Call.read_afterMove_stamp {s : String} (hs : k.before ("disks." ++ s) ≠ none)
    (hnested : k.before (movedTo k.time) ≠ none → k.Moves → ∀ path,
      lastWritten k.written "disks" path = none ∧ k.before.read "disks" path = none)
    (path : String) :
    k.afterMove.read ("disks." ++ s) path = k.afterFs.read ("disks." ++ s) path := by
  by_cases hd : "disks." ++ s = movedTo k.time
  · by_cases hgo : ∃ files, Goes k.mvOk (movedTo k.time) k.afterFs files
    · obtain ⟨files, hgo⟩ := hgo
      obtain ⟨old, hold⟩ := Option.ne_none_iff_exists'.mp (k.afterFs_ne_none hs)
      rw [hd] at hold hs ⊢
      have hempty : files = [] := by
        apply eq_nil_of_lookup
        intro path
        have hnone := Call.read_afterFs_eq_none.mpr (hnested hs (Call.moves_iff.mpr hgo.2) path)
        rwa [Tree.read, hgo.1] at hnone
      rw [Call.afterMove, read_moveAway_nested hgo hold, hempty, Tree.read, hold]
      simp
    · rw [Call.afterMove, moveAway_stays hgo]
  · exact read_moveAway_other (stampDir_ne s) hd path

/-- The condition suffices. -/
theorem Call.Safe.harmless (h : k.Safe) : k.Harmless := by
  constructor
  · intro path data hdata
    have hne : k.before.read "disks" path ≠ none := by
      rw [hdata]
      exact Option.some_ne_none data
    obtain ⟨hmv, hnew⟩ := h.fresh ⟨path, hne⟩
    have hfresh : k.afterFs (movedTo k.time) = none := Call.afterFs_eq_none.mpr hnew
    obtain ⟨files, hfiles⟩ := exists_dir (k.read_afterFs_ne_none hne)
    have hgo : Goes k.mvOk (movedTo k.time) k.afterFs files := by
      refine ⟨hfiles, hmv, ?_⟩
      intro old hold
      rw [hfresh] at hold
      cases hold
    have hsame : k.afterFs.read "disks" path = some data := by
      rw [k.read_afterFs]
      cases hw : lastWritten k.written "disks" path with
      | none => exact hdata
      | some data' => rw [h.archived path data hdata data' hw, Option.some_or]
    refine ⟨hfresh, ?_⟩
    have hstamp := k.read_after_stamp (stamp k.time) path
    have hmove : k.afterMove.read (movedTo k.time) path = k.afterFs.read "disks" path :=
      read_moveAway_fresh hgo hfresh path
    exact hstamp.trans (hmove.trans hsame)
  · intro s hs path
    rw [k.read_after_stamp, k.read_afterMove_stamp hs h.nested, k.read_afterFs]
    cases hw : lastWritten k.written ("disks." ++ s) path with
    | none => rfl
    | some data => rw [h.stamps s hs path data hw, Option.some_or]
  · intro d hd hne
    cases hlast : lastOpened (k.pipes d) with
    | some p => exact ⟨p, rfl, h.opened d hd p hlast⟩
    | none =>
      exfalso
      rw [k.read_after_raw hd, hlast] at hne
      have hne : k.afterMove.read "disks" (rawName d) ≠ none := hne
      by_cases hgo : ∃ files, Goes k.mvOk (movedTo k.time) k.afterFs files
      · obtain ⟨files, hgo⟩ := hgo
        exact hne (read_moveAway_disks (stampDir_ne _) hgo _)
      · rw [Call.afterMove, moveAway_stays hgo] at hne
        obtain ⟨files, hfiles⟩ := exists_dir hne
        have hmoves : k.Moves :=
          h.unopened d hd hlast fun hnone => hne (Call.read_afterFs_eq_none.mpr hnone)
        exact hgo ⟨files, hfiles, Call.moves_iff.mp hmoves⟩

/-- The condition is necessary. -/
theorem Call.Harmless.safe (h : k.Harmless) : k.Safe := by
  -- A file of `disks` arrives in the new directory only if `mv` goes through.
  have moved : ∀ path data, k.before.read "disks" path = some data →
      k.Moves ∧ k.afterFs (movedTo k.time) = none ∧ k.afterFs.read "disks" path = some data := by
    intro path data hdata
    obtain ⟨hfresh, hafter⟩ := h.kept path data hdata
    have hstamp : k.afterMove.read (movedTo k.time) path = some data :=
      (k.read_after_stamp (stamp k.time) path).symm.trans hafter
    by_cases hgo : ∃ files, Goes k.mvOk (movedTo k.time) k.afterFs files
    · obtain ⟨files, hgo⟩ := hgo
      rw [Call.afterMove, read_moveAway_fresh hgo hfresh] at hstamp
      exact ⟨Call.moves_iff.mpr hgo.2, hfresh, hstamp⟩
    · rw [Call.afterMove, moveAway_stays hgo, Tree.read, hfresh] at hstamp
      cases hstamp
  constructor
  · intro path data hdata data' hw
    have hread := (moved path data hdata).2.2
    rw [k.read_afterFs, hw, Option.some_or] at hread
    exact Option.some.inj hread
  · rintro ⟨path, hne⟩
    obtain ⟨data, hdata⟩ := Option.ne_none_iff_exists'.mp hne
    obtain ⟨hmoves, hfresh, -⟩ := moved path data hdata
    exact ⟨hmoves.1, Call.afterFs_eq_none.mp hfresh⟩
  · intro s hs path data hw
    have hread : k.afterFs.read ("disks." ++ s) path = some data := by
      rw [k.read_afterFs, hw, Option.some_or]
    rw [← h.earlier s hs path, k.read_after_stamp]
    by_cases hd : "disks." ++ s = movedTo k.time
    · by_cases hgo : ∃ files, Goes k.mvOk (movedTo k.time) k.afterFs files
      · obtain ⟨files, hgo⟩ := hgo
        obtain ⟨old, hold⟩ := Option.ne_none_iff_exists'.mp (k.afterFs_ne_none hs)
        rw [hd] at hold hread ⊢
        rw [Tree.read, hold] at hread
        have hlookup : old.lookup path = some data := hread
        rw [Call.afterMove, read_moveAway_nested hgo hold, List.lookup_append, hlookup,
          Option.some_or]
      · rw [Call.afterMove, moveAway_stays hgo]
        exact hread
    · rw [Call.afterMove, read_moveAway_other (stampDir_ne s) hd]
      exact hread
  · intro hbefore hmoves path
    rw [← Call.read_afterFs_eq_none]
    by_contra hne
    obtain ⟨files, hfiles⟩ := exists_dir hne
    obtain ⟨old, hold⟩ := Option.ne_none_iff_exists'.mp (k.afterFs_ne_none hbefore)
    have hgo : Goes k.mvOk (movedTo k.time) k.afterFs files :=
      ⟨hfiles, Call.moves_iff.mp hmoves⟩
    have hno : old.lookup ("disks/" ++ path) = none :=
      lookup_of_not_nested (hgo.2.2 old hold) path
    -- The file turns up inside the earlier directory.
    have hafter : k.after.read (movedTo k.time) ("disks/" ++ path) ≠ none := by
      have hstamp := k.read_after_stamp (stamp k.time) ("disks/" ++ path)
      have hnew : k.afterMove.read (movedTo k.time) ("disks/" ++ path) =
          k.afterFs.read "disks" path := by
        rw [Call.afterMove, read_moveAway_nested hgo hold, List.lookup_append, hno, lookup_nested,
          Tree.read, hfiles]
        rfl
      have hall := hstamp.trans hnew
      exact fun hnone => hne (hall.symm.trans hnone)
    have hearlier := h.earlier (stamp k.time) hbefore ("disks/" ++ path)
    have hread : k.before.read (movedTo k.time) ("disks/" ++ path) ≠ none :=
      fun hnone => hafter (hearlier.trans hnone)
    apply k.read_afterFs_ne_none hread
    rw [Tree.read, hold]
    exact hno
  · intro d hd p hlast
    have hne : k.after.read "disks" (rawName d) ≠ none := by
      rw [k.read_after_raw hd, hlast]
      exact Option.some_ne_none _
    obtain ⟨p', hp', hcomplete⟩ := h.complete d hd hne
    obtain rfl := Option.some.inj (hlast.symm.trans hp')
    exact hcomplete
  · intro d hd hlast hne
    by_contra hmoves
    have hgo : ¬ ∃ files, Goes k.mvOk (movedTo k.time) k.afterFs files := by
      rintro ⟨files, hgo⟩
      exact hmoves (Call.moves_iff.mpr hgo.2)
    have hafter : k.after.read "disks" (rawName d) ≠ none := by
      rw [k.read_after_raw hd, hlast, Call.afterMove, moveAway_stays hgo]
      exact fun hnone => hne (Call.read_afterFs_eq_none.mp hnone)
    obtain ⟨p, hp, -⟩ := h.complete d hd hafter
    rw [hlast] at hp
    cases hp

/-- **A restore is harmless exactly if** the archives bring nothing new for the files of
    `disks` and of the earlier directories, the stamp is not taken and `mv` succeeds, and every
    image that is opened gets its whole dump. -/
theorem harmless_iff (k : Call) : k.Harmless ↔ k.Safe :=
  ⟨Call.Harmless.safe, Call.Safe.harmless⟩

end Call

/-- A machine with one image; the archive has an older state of it. -/
def oneDisk : Call where
  before top := if top = "disks" then some [("system.raw", [2])] else none
  archives := [⟨[⟨"disks", "system.raw", [1]⟩], 1, none⟩]
  time := ⟨2020, 5, 19, 4, 30⟩
  mvOk := true
  pipes _ := []

/-- The image is overwritten before it is moved away. -/
theorem restore_overwrites_disk : ¬ oneDisk.Harmless := by
  intro h
  have hw : lastWritten oneDisk.written "disks" "system.raw" = some [1] := rfl
  have hsame := h.safe.archived "system.raw" [2] rfl [1] hw
  exact absurd hsame (by decide)

end KvmOsx.Restore
