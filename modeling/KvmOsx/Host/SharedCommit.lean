import KvmOsx.Lib.Overlay

/-!
# `disk-shared-commit`

`disk-shared-commit MACHINE DISK NAME` copies the base image of a disk to a new shared base,
rebases the disk onto the copy, and commits the disk into it.

* `Machines`, `CommitCall`: the images with the disks of all machines, and a call.
* `Ends`: the states in which the script can end, at its last line or at a step that fails.
* `Unaffected`: every disk shows what it showed, and the old base is as it was.
* `commit_safe_iff`: no end of the script affects anybody exactly if the target is in no
  disk's chain, or the script stops before it writes.

The script does not look whether the target exists.
-/

namespace KvmOsx.Host

open Overlay

variable {β : Type*}

/-- The images of a host, and the disks of its machines, whose chains are complete. -/
structure Machines (β : Type*) where
  files : Images String β
  disks : Set String
  complete : ∀ p ∈ disks, ∃ l, Chain files p l

/-- A call: `OLD_DISK` and `NEW_BASE`. -/
structure CommitCall (β : Type*) extends Machines β where
  oldDisk : String
  newBase : String
  mem : oldDisk ∈ disks

/-- `baseimage $OLD_DISK`; nothing is printed for an image without a base. -/
def CommitCall.oldBase (k : CommitCall β) : Option String := (k.files k.oldDisk).bind Image.backing

/-- `qemu-img` has changed nothing but the given images, and the disk shows what it showed. -/
structure Kept (zero : β) (fs fs' : Images String β) (disk : String) (written : List String) :
    Prop where
  same : ∀ p, p ∉ written → fs' p = fs p
  shows : ∀ c, Shows zero fs disk c → Shows zero fs' disk c

/-- `cp "$OLD_BASE" "$NEW_BASE"`. -/
def CommitCall.copied (k : CommitCall β) (b : String) : Images String β :=
  Function.update k.files k.newBase (k.files b)

/-- The ends of the script; the first argument says whether it was completed. -/
inductive Ends (zero : β) (k : CommitCall β) : Bool → Images String β → Prop
  /-- `cp ""`. -/
  | noBase (h : k.oldBase = none) : Ends zero k false k.files
  /-- `cp` of a file that is not there. -/
  | noImage {b : String} (h : k.oldBase = some b) (hb : k.files b = none) :
    Ends zero k false k.files
  /-- `cp` of a file to itself. -/
  | sameFile (h : k.oldBase = some k.newBase) : Ends zero k false k.files
  /-- `cp` fails and leaves anything at its target, or nothing. -/
  | cpFails {b : String} (h : k.oldBase = some b) (hne : b ≠ k.newBase)
      (x : Option (Image String β)) : Ends zero k false (Function.update k.files k.newBase x)
  | rebaseFails {b : String} {fs : Images String β} (h : k.oldBase = some b) (hne : b ≠ k.newBase)
      (hkept : Kept zero (k.copied b) fs k.oldDisk [k.oldDisk]) : Ends zero k false fs
  | commitFails {b : String} {fs fs' : Images String β} (h : k.oldBase = some b)
      (hne : b ≠ k.newBase) (hrebase : Kept zero (k.copied b) fs k.oldDisk [k.oldDisk])
      (hbacking : (fs k.oldDisk).bind Image.backing = some k.newBase)
      (hkept : Kept zero fs fs' k.oldDisk [k.oldDisk, k.newBase]) : Ends zero k false fs'
  | done {b : String} {fs fs' : Images String β} (h : k.oldBase = some b)
      (hne : b ≠ k.newBase) (hrebase : Kept zero (k.copied b) fs k.oldDisk [k.oldDisk])
      (hbacking : (fs k.oldDisk).bind Image.backing = some k.newBase)
      (hkept : Kept zero fs fs' k.oldDisk [k.oldDisk, k.newBase])
      (hcommit : ∀ c, Shows zero fs k.oldDisk c → Shows zero fs' k.newBase c) :
      Ends zero k true fs'

/-- Every disk shows what it showed; and if the script is completed, the old base image is as
    it was. -/
structure Unaffected (zero : β) (k : CommitCall β) (completed : Bool) (fs : Images String β) : Prop where
  disks : ∀ p ∈ k.disks, ∀ c, Shows zero k.files p c → Shows zero fs p c
  oldBase : completed = true → ∀ b, k.oldBase = some b → fs b = k.files b

/-- The target is not read for any disk, or is the old base itself, which `cp` refuses. -/
def CommitCall.Spared (k : CommitCall β) : Prop :=
  ∀ b, k.oldBase = some b → b = k.newBase ∨
    ∀ p ∈ k.disks, ∀ l, Chain k.files p l → k.newBase ∉ l

/-! ## What the steps leave -/

variable {zero : β} {k : CommitCall β}

/-- The old base is another image than the disk. -/
theorem CommitCall.oldBase_ne {b : String} (h : k.oldBase = some b) : b ≠ k.oldDisk := by
  rintro rfl
  obtain ⟨l, hl⟩ := k.complete _ k.mem
  obtain ⟨i, hi, hb⟩ := Option.bind_eq_some_iff.mp h
  obtain ⟨m, rfl, hm⟩ := hl.backing hi hb
  exact hl.not_mem_tail hm.self_mem

/-- A disk whose chain the target is not in shows the same when the target is written. -/
theorem CommitCall.shows_update (hspared : ∀ p ∈ k.disks, ∀ l, Chain k.files p l → k.newBase ∉ l)
    (x : Option (Image String β)) {p : String} (hp : p ∈ k.disks) {c : ℕ → β}
    (hc : Shows zero k.files p c) : Shows zero (Function.update k.files k.newBase x) p c := by
  obtain ⟨l, hl, rfl⟩ := hc
  apply Shows.of_same hl
  intro r hr
  apply Function.update_of_ne
  rintro rfl
  exact hspared p hp l hl hr

/-- Images that differ from those before in the disk and the target only, with the content of
    the disk kept. -/
structure CommitCall.Near (zero : β) (k : CommitCall β) (fs : Images String β) : Prop where
  same : ∀ p, p ≠ k.oldDisk → p ≠ k.newBase → fs p = k.files p
  shows : ∀ c, Shows zero k.files k.oldDisk c → Shows zero fs k.oldDisk c

theorem CommitCall.near_copied (hspared : ∀ p ∈ k.disks, ∀ l, Chain k.files p l → k.newBase ∉ l)
    (x : Option (Image String β)) : k.Near zero (Function.update k.files k.newBase x) where
  same _ _ hp := Function.update_of_ne hp _ _
  shows _ hc := k.shows_update hspared x k.mem hc

theorem CommitCall.Near.kept {fs fs' : Images String β} {written : List String} (h : k.Near zero fs)
    (hkept : Kept zero fs fs' k.oldDisk written)
    (hwritten : ∀ p ∈ written, p = k.oldDisk ∨ p = k.newBase) : k.Near zero fs' where
  same p hdisk hbase := by
    have hp : p ∉ written := fun hmem => (hwritten p hmem).elim hdisk hbase
    rw [hkept.same p hp, h.same p hdisk hbase]
  shows c hc := hkept.shows c (h.shows c hc)

/-- Such images affect nobody. -/
theorem CommitCall.Near.unaffected {fs : Images String β} {b : String} (h : k.Near zero fs)
    (hspared : ∀ p ∈ k.disks, ∀ l, Chain k.files p l → k.newBase ∉ l)
    (hbase : k.oldBase = some b) (hne : b ≠ k.newBase) (completed : Bool) :
    Unaffected zero k completed fs where
  disks p hp c hc := by
    obtain ⟨l, hl, rfl⟩ := hc
    apply Shows.of_kept h.shows hl
    intro r hr hdisk
    apply h.same r hdisk
    rintro rfl
    exact hspared p hp l hl hr
  oldBase _ b' hb' := by
    obtain rfl := Option.some.inj (hbase.symm.trans hb')
    exact h.same b (k.oldBase_ne hbase) hne

/-- **A commit affects nobody, however it ends, exactly if** its target is in no disk's chain,
    or the disk has no base, or the target is that base. -/
theorem commit_safe_iff (zero : β) (k : CommitCall β) :
    (∀ completed fs, Ends zero k completed fs → Unaffected zero k completed fs) ↔ k.Spared := by
  constructor
  · intro h b hb
    by_contra hnot
    push Not at hnot
    obtain ⟨hne, p, hp, l, hl, hmem⟩ := hnot
    -- `cp` has emptied the target and runs out of space
    have hends : Ends zero k false (Function.update k.files k.newBase none) := .cpFails hb hne none
    have hshows := (h _ _ hends).disks p hp (view zero k.files l) ⟨l, hl, rfl⟩
    exact not_shows_of_missing hl hmem (Function.update_self _ _ _)
      (fun r hr => Function.update_of_ne hr _ _) _ hshows
  · intro h completed fs hends
    have hsame : Unaffected zero k false k.files := ⟨fun _ _ _ hc => hc, fun hf => by cases hf⟩
    have hspared {b : String} (hb : k.oldBase = some b) (hne : b ≠ k.newBase) :=
      (h b hb).resolve_left hne
    have hwritten : ∀ p ∈ [k.oldDisk, k.newBase], p = k.oldDisk ∨ p = k.newBase := by simp
    have hdisk : ∀ p ∈ [k.oldDisk], p = k.oldDisk ∨ p = k.newBase := by simp
    have hcopied : ∀ {b}, k.oldBase = some b → b ≠ k.newBase → k.Near zero (k.copied b) :=
      fun hb hne => k.near_copied (hspared hb hne) _
    cases hends with
    | noBase hb => exact hsame
    | noImage hb hnone => exact hsame
    | sameFile hb => exact hsame
    | cpFails hb hne x =>
      exact (k.near_copied (hspared hb hne) x).unaffected (hspared hb hne) hb hne false
    | rebaseFails hb hne hkept =>
      have hnear := (hcopied hb hne).kept hkept hdisk
      exact hnear.unaffected (hspared hb hne) hb hne false
    | commitFails hb hne hrebase _ hkept =>
      have hnear := (hcopied hb hne).kept hrebase hdisk
      exact (hnear.kept hkept hwritten).unaffected (hspared hb hne) hb hne false
    | done hb hne hrebase _ hkept _ =>
      have hnear := (hcopied hb hne).kept hrebase hdisk
      exact (hnear.kept hkept hwritten).unaffected (hspared hb hne) hb hne true

/-! ## A target that is somebody's base -/

/-- The disk `a` over `base`, with all its sectors written, and the disk `b` over `new`. -/
def sharedImages : Images String ℕ := fun p =>
  if p = "base" ∨ p = "new" then some ⟨fun _ => none, none⟩
  else if p = "a" then some ⟨fun _ => some 1, some "base"⟩
  else if p = "b" then some ⟨fun _ => none, some "new"⟩
  else none

theorem chain_a : Chain sharedImages "a" ["a", "base"] := .atop rfl rfl (.base rfl rfl)

theorem chain_b : Chain sharedImages "b" ["b", "new"] := .atop rfl rfl (.base rfl rfl)

/-- `disk-shared-commit` of `a` to `new`. -/
def commitToNew : CommitCall ℕ where
  files := sharedImages
  disks := {"a", "b"}
  complete := by
    rintro p (rfl | rfl)
    · exact ⟨_, chain_a⟩
    · exact ⟨_, chain_b⟩
  oldDisk := "a"
  newBase := "new"
  mem := .inl rfl

/-- Whatever `a` is based on, it shows its own sectors. -/
theorem shows_a {fs : Images String ℕ} {base : String} {c : ℕ → ℕ}
    (ha : fs "a" = some ⟨fun _ => some 1, some base⟩) (hc : Shows 0 fs "a" c) : c = fun _ => 1 := by
  obtain ⟨l, hl, rfl⟩ := hc
  obtain ⟨m, rfl, -⟩ := hl.backing ha rfl
  funext s
  rw [view, ha]
  rfl

/-- The script is completed, and `b` shows the sectors of `a`. -/
theorem commit_changes_neighbour :
    ¬ ∀ completed fs, Ends 0 commitToNew completed fs →
      Unaffected 0 commitToNew completed fs := by
  intro h
  let rebased := Function.update (commitToNew.copied "base") "a"
    (some ⟨fun _ => some 1, some "new"⟩)
  let committed := Function.update rebased "new" (some ⟨fun _ => some 1, none⟩)
  have hchain (fs : Images String ℕ) (i : Image String ℕ)
      (ha : fs "a" = some ⟨fun _ => some 1, some "new"⟩) (hnew : fs "new" = some i)
      (hb : i.backing = none) : Shows 0 fs "a" fun _ => 1 := by
    refine ⟨["a", "new"], .atop ha rfl (.base hnew hb), ?_⟩
    funext s
    rw [view, ha]
    rfl
  have hrebased : Shows 0 rebased "a" fun _ => 1 := hchain rebased ⟨fun _ => none, none⟩ rfl rfl rfl
  have hcommitted : Shows 0 committed "a" fun _ => 1 :=
    hchain committed ⟨fun _ => some 1, none⟩ rfl rfl rfl
  have hnew : Shows 0 committed "new" fun _ => 1 := ⟨["new"], .base rfl rfl, rfl⟩
  have hends : Ends 0 commitToNew true committed := by
    have hrebase : Kept 0 (commitToNew.copied "base") rebased commitToNew.oldDisk
        [commitToNew.oldDisk] := by
      refine ⟨fun p hp => ?_, fun c hc => ?_⟩
      · exact Function.update_of_ne (fun heq => hp (by simp [heq, commitToNew])) _ _
      · rw [shows_a rfl hc]
        exact hrebased
    have hcommit : Kept 0 rebased committed commitToNew.oldDisk
        [commitToNew.oldDisk, commitToNew.newBase] := by
      refine ⟨fun p hp => ?_, fun c hc => ?_⟩
      · exact Function.update_of_ne (fun heq => hp (by simp [heq, commitToNew])) _ _
      · rw [shows_a rfl hc]
        exact hcommitted
    refine .done rfl (by decide) hrebase rfl hcommit fun c hc => ?_
    rw [shows_a rfl hc]
    exact hnew
  obtain ⟨l, hl, hview⟩ := (h true committed hends).disks "b" (.inr rfl) _ ⟨_, chain_b, rfl⟩
  have hb : Chain committed "b" ["b", "new"] := .atop rfl rfl (.base rfl rfl)
  rw [hl.unique hb] at hview
  exact absurd (congrFun hview 0) (by decide)

end KvmOsx.Host
