import KvmOsx.Lib.Fields
import KvmOsx.Lib.Words

/-!
# Tags from the writer to the reader

`backup-blockdev`, `backup-fs` and `backup-container` pass what they know about a backup as
tags to `restic`; `backup-query-snapshots` selects a snapshot by its tags and prints them as
a record, which `restore-blockdev` and `restore-fs` split again. On the way the tags pass
through words, options, commas, colons and exclamation marks.

* `Writer`, `Job`: the three scripts, and what they are called with.
* `storedTags`, `queryTags`: the tags `restic` gets with the snapshot, and those of the query.
* `readBack`: the record that is printed, as `read` splits it.
* `Survives`: the snapshot is selected, and its record gives back what was written.
* `tags_survive_iff`: the writers and values for which this is so.

The options of `backup-container` contain literal quotes, so that it never is.
-/

namespace KvmOsx.Backup

open KvmOsx.Words KvmOsx.Fields

/-! ## Writers -/

/-- The scripts that write snapshots, with the operands they put into tags. -/
inductive Writer
  | blockdev (disk dev : String)
  | fs (dev : String)
  | container
  deriving DecidableEq, Repr

/-- The keys the scripts use themselves. -/
def builtinKeys : List String :=
  ["bversion", "machine", "disk", "path", "backup_type", "container"]

/-- A call: the machine, and the tags `key:value` behind the other operands. -/
structure Job where
  machine : String
  args : List (String × String)
  machineWord : IsWord machine
  argWords : ∀ a ∈ args, IsWord a.1 ∧ IsWord a.2
  argKeys : ∀ a ∈ args, a.1 ∉ builtinKeys ∧ ':' ∉ a.1.toList
  nodup : (args.map Prod.fst).Nodup

/-- `key:value`. -/
def tagText (p : String × String) : String := p.1 ++ ":" ++ p.2

/-- The tags a script makes up (backup-blockdev:20, backup-fs:17, backup-container:18). -/
def Writer.builtin (w : Writer) (machine : String) : List (String × String) :=
  match w with
  | .blockdev disk dev =>
    [("bversion", "1"), ("machine", machine), ("disk", disk), ("path", dev), ("backup_type", "disk")]
  | .fs dev => [("bversion", "1"), ("machine", machine), ("path", dev), ("backup_type", "fs")]
  | .container => [("container", machine), ("backup_type", "container")]

/-- `$@` behind the operands; `backup-container` looks at one argument only. -/
def Writer.extra (w : Writer) (args : List (String × String)) : List (String × String) :=
  match w with
  | .container => args.take 1
  | _ => args

/-- The tags a script means to write. -/
def Writer.pairs (w : Writer) (j : Job) : List (String × String) :=
  w.builtin j.machine ++ w.extra j.args

/-- The directory or device that is saved. -/
def Writer.path (w : Writer) (machine : String) : String :=
  match w with
  | .blockdev _ dev => dev
  | .fs dev => dev
  | .container => "/var/lib/machines/" ++ machine

def Writer.backupType : Writer → String
  | .blockdev _ _ => "disk"
  | .fs _ => "fs"
  | .container => "container"

/-- The path `restic` records first: that of the stream, or what it makes of the operand. -/
def Writer.diskpath (abs : String → String) (w : Writer) (machine : String) : String :=
  match w with
  | .blockdev disk _ => "/srv/kvm/vms/" ++ machine ++ "/disks/" ++ disk ++ ".xz"
  | w => abs (w.path machine)

/-- `$TAGS`. -/
def Writer.tags (w : Writer) (j : Job) : String :=
  join ((w.builtin j.machine).map tagText) ++ " " ++ join ((w.extra j.args).map tagText)

/-- `$i` in an option: `--tag $i`, or `--tag \"$i\"` in `backup-container`. -/
def Writer.quote (w : Writer) (i : String) : String :=
  match w with
  | .container => "\"" ++ i ++ "\""
  | _ => i

/-- `for i in …; do _TAGS="$_TAGS --tag $i"; done`. -/
def tagOpts (quote : String → String) (is : List String) : String :=
  is.foldl (fun acc i => acc ++ " --tag " ++ quote i) ""

/-! ## `restic` -/

/-- The arguments of the options `--tag`. -/
def tagArgs : List String → List String
  | "--tag" :: x :: rest => x :: tagArgs rest
  | _ :: rest => tagArgs rest
  | [] => []

/-- One argument is a list of tags. -/
def splitTags (arg : String) : List String := (arg.toList.splitOn ',').map String.ofList

/-- `backup-cmd … $_TAGS`, which runs `restic ${@}`: the tags the options denote. -/
def resticTags (dir : Directory) (opts : String) : List String :=
  (tagArgs ((dir.unquoted opts).flatMap dir.unquoted)).flatMap splitTags

/-- The tags of the snapshot. -/
def storedTags (dir : Directory) (w : Writer) (j : Job) : List String :=
  resticTags dir (tagOpts w.quote (dir.unquoted (w.tags j)))

/-! ## `backup-query-snapshots` -/

/-- `$TAGS` of the query (line 15). -/
def queryText (j : Job) : String :=
  join (["bversion:1", "machine:" ++ j.machine]) ++ " " ++ join (j.args.map tagText)

/-- The loop that fills `_TAGS`, and the option made of it with `IFS=,` (lines 16 to 20). -/
def queryTags (dir : Directory) (j : Job) : List String :=
  resticTags dir
    ("--tag " ++ ",".intercalate ((dir.unquoted (queryText j)).flatMap dir.unquoted))

/-- `split(":") | { (.[0]): (.[1]) }` of a tag. The empty tag has no parts, and `null` is no
    key. -/
def tagEntry (t : String) : Option (String × Option String) :=
  if t = "" then none
  else match t.toList.splitOn ':' with
    | k :: v :: _ => some (String.ofList k, some (String.ofList v))
    | [k] => some (String.ofList k, none)
    | [] => none

/-- `\(.key)` of the entries added up: the last one with the key counts. -/
def member (es : List (String × Option String)) (k : String) : String :=
  ((es.reverse.find? fun e => e.1 = k).bind Prod.snd).getD "null"

/-- The line of a snapshot (line 23). -/
def recordLine (es : List (String × Option String)) (diskpath id : String) : String :=
  member es "machine" ++ "!" ++ diskpath ++ "!" ++ member es "path" ++ "!" ++ id ++ "!" ++
    member es "backup_type" ++ "!" ++ member es "type"

/-- `IFS="!" read m d p id btype type` of the line, if `jq` prints one. -/
def readBack (tags : List String) (diskpath id : String) : Option (List String) :=
  (tags.mapM tagEntry).map fun es =>
    (readFields '!' 5 (recordLine es diskpath id).toList).map String.ofList

/-- The snapshot is selected by the machine and the tags of the call, and its record gives
    back what was written. A newer snapshot of the path would be selected in its place. -/
structure Survives (dir : Directory) (w : Writer) (j : Job) (diskpath id : String) : Prop where
  selected : ∀ t ∈ queryTags dir j, t ∈ storedTags dir w j
  record : ∃ d i ty, readBack (storedTags dir w j) diskpath id =
      some [j.machine, d, w.path j.machine, i, w.backupType, ty] ∧
    ∀ t, ("type", t) ∈ j.args → ty = t

/-- The writer's tags are read by the query, and the values that are compared have no
    separator of the reader. The type is the last field, and so may contain `!`, but not
    just at its end. -/
structure Writer.Plain (w : Writer) (j : Job) : Prop where
  reads : w ≠ .container
  machine : ∀ c ∈ j.machine.toList, c ∉ [':', '!', '\\']
  path : ∀ c ∈ (w.path j.machine).toList, c ∉ [':', '!', '\\']
  type : ∀ t, ("type", t) ∈ j.args →
    ':' ∉ t.toList ∧ '\\' ∉ t.toList ∧ ∀ u, t.toList = u ++ ['!'] → '!' ∈ u

/-! ## The circumstances -/

/-- The values are words without commas, which `restic` would split into further tags. -/
structure Writer.Words (w : Writer) (j : Job) : Prop where
  word : ∀ p ∈ w.builtin j.machine, IsWord p.2
  comma : ∀ p ∈ w.builtin j.machine ++ j.args, ',' ∉ (tagText p).toList

/-- No file in the directory matches a word that is expanded. -/
structure QuietFor (dir : Directory) (w : Writer) (j : Job) : Prop where
  written : ∀ p ∈ w.builtin j.machine ++ j.args, dir.glob (tagText p) = [tagText p]
  quoted : ∀ p ∈ w.builtin j.machine ++ j.args,
    dir.glob (w.quote (tagText p)) = [w.quote (tagText p)]
  machine : dir.glob ("machine:" ++ j.machine) = ["machine:" ++ j.machine]
  query : dir.glob (",".intercalate (["bversion:1", "machine:" ++ j.machine] ++ j.args.map tagText)) =
    [",".intercalate (["bversion:1", "machine:" ++ j.machine] ++ j.args.map tagText)]

/-! ## Words and options -/

section Unquoted

variable {dir : Directory}

theorem isWord_option : IsWord "--tag" := ⟨by decide, by simp [isBlank]⟩

theorem glob_option (dir : Directory) : dir.glob "--tag" = ["--tag"] :=
  dir.plain _ (by simp)

/-- The words of the options are the options. -/
theorem words_tagOpts {quote : String → String} {is : List String}
    (hword : ∀ i ∈ is, IsWord (quote i)) (acc : String) :
    words (is.foldl (fun acc i => acc ++ " --tag " ++ quote i) acc) =
      words acc ++ (is.map quote).flatMap fun i => ["--tag", i] := by
  induction is generalizing acc with
  | nil => simp
  | cons i is ih =>
    rw [List.forall_mem_cons] at hword
    have hopt : acc ++ " --tag " ++ quote i = acc ++ " " ++ ("--tag" ++ " " ++ quote i) := by
      have htag : " --tag " = " " ++ "--tag" ++ " " := rfl
      simp only [htag, String.append_assoc]
    rw [List.foldl_cons, ih hword.2, hopt, words_append, words_append,
      words_of_isWord isWord_option, words_of_isWord hword.1]
    simp

theorem tagArgs_opts (is : List String) :
    tagArgs (is.flatMap fun i => ["--tag", i]) = is := by
  induction is with
  | nil => rfl
  | cons i is ih =>
    have hrest : tagArgs ((i :: is).flatMap fun i => ["--tag", i]) =
        i :: tagArgs (is.flatMap fun i => ["--tag", i]) := rfl
    rw [hrest, ih]

theorem splitTags_eq {s : String} (h : ',' ∉ s.toList) : splitTags s = [s] := by
  rw [splitTags, List.splitOn_eq_singleton h]
  simp

/-- Options made of words that no file matches: `restic` gets the words. -/
theorem resticTags_eq {opts : String} {is : List String}
    (hopts : words opts = is.flatMap fun i => ["--tag", i]) (hword : ∀ i ∈ is, IsWord i)
    (hglob : ∀ i ∈ is, dir.glob i = [i]) : resticTags dir opts = is.flatMap splitTags := by
  have hall : ∀ w ∈ is.flatMap (fun i => ["--tag", i]), IsWord w ∧ dir.glob w = [w] := by
    intro w hw
    obtain ⟨i, hi, hw⟩ := List.mem_flatMap.mp hw
    rcases List.mem_pair.mp hw with rfl | rfl
    · exact ⟨isWord_option, glob_option dir⟩
    · exact ⟨hword w hi, hglob w hi⟩
  rw [resticTags, Directory.unquoted_eq hopts fun w hw => (hall w hw).2,
    flatMap_eq_self fun w hw => Directory.unquoted_isWord (hall w hw).1 (hall w hw).2,
    tagArgs_opts]

end Unquoted

/-! ## What is stored and what is asked for -/

theorem isWord_builtinKeys : ∀ k ∈ builtinKeys, IsWord k ∧ ':' ∉ k.toList := by
  intro k hk
  simp only [builtinKeys, List.mem_cons, List.not_mem_nil, or_false] at hk
  rcases hk with rfl | rfl | rfl | rfl | rfl | rfl <;>
    exact ⟨⟨by decide, by simp [isBlank]⟩, by decide⟩

theorem Writer.builtin_keys (w : Writer) (machine : String) :
    ∀ p ∈ w.builtin machine, p.1 ∈ builtinKeys := by
  cases w <;> simp [Writer.builtin, builtinKeys]

theorem Writer.extra_subset (w : Writer) {args : List (String × String)} :
    ∀ p ∈ w.extra args, p ∈ args := by
  intro p hp
  cases w with
  | container => exact List.mem_of_mem_take hp
  | blockdev disk dev => exact hp
  | fs dev => exact hp

theorem isWord_tagText {p : String × String} (hkey : IsWord p.1) (hvalue : IsWord p.2) :
    IsWord (tagText p) :=
  (hkey.append ⟨by decide, by simp [isBlank]⟩).append hvalue

section Call

variable {dir : Directory} {w : Writer} {j : Job}

theorem Job.isWord_args (j : Job) : ∀ p ∈ j.args, IsWord (tagText p) :=
  fun p hp => isWord_tagText (j.argWords p hp).1 (j.argWords p hp).2

theorem Writer.Words.isWord_builtin (hwords : w.Words j) :
    ∀ p ∈ w.builtin j.machine, IsWord (tagText p) :=
  fun p hp => isWord_tagText (isWord_builtinKeys _ (w.builtin_keys j.machine p hp)).1
    (hwords.word p hp)

theorem Writer.Words.isWord_pairs (hwords : w.Words j) : ∀ p ∈ w.pairs j, IsWord (tagText p) := by
  intro p hp
  rcases List.mem_append.mp hp with hp | hp
  · exact hwords.isWord_builtin p hp
  · exact j.isWord_args p (w.extra_subset p hp)

theorem Writer.mem_of_mem_pairs {p : String × String} (hp : p ∈ w.pairs j) :
    p ∈ w.builtin j.machine ++ j.args := by
  rcases List.mem_append.mp hp with hp | hp
  · exact List.mem_append_left _ hp
  · exact List.mem_append_right _ (w.extra_subset p hp)

theorem Writer.isWord_quote {s : String} (hs : IsWord s) : IsWord (w.quote s) := by
  cases w with
  | container =>
    have hquote : IsWord "\"" := ⟨by decide, by simp [isBlank]⟩
    exact (hquote.append hs).append hquote
  | blockdev disk dev => exact hs
  | fs dev => exact hs

theorem Writer.comma_quote {s : String} (hs : ',' ∉ s.toList) : ',' ∉ (w.quote s).toList := by
  cases w with
  | container => simpa [Writer.quote] using hs
  | blockdev disk dev => exact hs
  | fs dev => exact hs

/-- `restic` stores the tags of the script as they come out of its quoting. -/
theorem storedTags_eq (hwords : w.Words j) (hquiet : QuietFor dir w j) :
    storedTags dir w j = (w.pairs j).map fun p => w.quote (tagText p) := by
  have htags : dir.unquoted (w.tags j) = (w.pairs j).map tagText := by
    apply Directory.unquoted_eq
    · rw [Writer.tags, words_append, words_join, words_join, Writer.pairs, List.map_append]
      · intro s hs
        obtain ⟨p, hp, rfl⟩ := List.mem_map.mp hs
        exact j.isWord_args p (w.extra_subset p hp)
      · intro s hs
        obtain ⟨p, hp, rfl⟩ := List.mem_map.mp hs
        exact hwords.isWord_builtin p hp
    · intro s hs
      obtain ⟨p, hp, rfl⟩ := List.mem_map.mp hs
      exact hquiet.written p (Writer.mem_of_mem_pairs hp)
  have hquoted : ∀ s ∈ ((w.pairs j).map tagText).map w.quote,
      IsWord s ∧ dir.glob s = [s] ∧ ',' ∉ s.toList := by
    intro s hs
    rw [List.map_map] at hs
    obtain ⟨p, hp, rfl⟩ := List.mem_map.mp hs
    exact ⟨Writer.isWord_quote (hwords.isWord_pairs p hp),
      hquiet.quoted p (Writer.mem_of_mem_pairs hp),
      Writer.comma_quote (hwords.comma p (Writer.mem_of_mem_pairs hp))⟩
  have hopts : words (tagOpts w.quote ((w.pairs j).map tagText)) =
      (((w.pairs j).map tagText).map w.quote).flatMap fun i => ["--tag", i] := by
    rw [tagOpts, words_tagOpts, words_empty, List.nil_append]
    exact fun i hi => (hquoted _ (List.mem_map_of_mem hi)).1
  rw [storedTags, htags, resticTags_eq hopts (fun s hs => (hquoted s hs).1)
    fun s hs => (hquoted s hs).2.1, flatMap_eq_self fun s hs => splitTags_eq (hquoted s hs).2.2,
    List.map_map]
  rfl

theorem Writer.Words.comma_machine (hwords : w.Words j) :
    ',' ∉ ("machine:" ++ j.machine).toList := by
  have hname : ∃ k, (k, j.machine) ∈ w.builtin j.machine := by
    cases w with
    | container => exact ⟨_, .head _⟩
    | blockdev disk dev => exact ⟨_, .tail _ (.head _)⟩
    | fs dev => exact ⟨_, .tail _ (.head _)⟩
  obtain ⟨k, hk⟩ := hname
  have hcomma := hwords.comma _ (List.mem_append_left _ hk)
  simp only [tagText, String.toList_append, List.mem_append, not_or] at hcomma
  simpa using hcomma.2

/-- The tags a query asks for: the first two, and those of the call. -/
def Job.query (j : Job) : List String :=
  ["bversion:1", "machine:" ++ j.machine] ++ j.args.map tagText

theorem Job.isWord_query (j : Job) : ∀ s ∈ j.query, IsWord s := by
  have hkey (k : String) (hk : k ∈ builtinKeys) := (isWord_builtinKeys k hk).1
  intro s hs
  rcases List.mem_append.mp hs with hs | hs
  · rcases List.mem_pair.mp hs with rfl | rfl
    · exact ⟨by decide, by simp [isBlank]⟩
    · have hprefix : IsWord "machine:" := ⟨by decide, by simp [isBlank]⟩
      exact hprefix.append j.machineWord
  · obtain ⟨p, hp, rfl⟩ := List.mem_map.mp hs
    exact j.isWord_args p hp

theorem isWord_commas {ws : List String} (h : ∀ s ∈ ws, IsWord s) (hne : ws ≠ []) :
    IsWord (",".intercalate ws) := by
  induction ws with
  | nil => exact absurd rfl hne
  | cons s ws ih =>
    rw [List.forall_mem_cons] at h
    by_cases hnil : ws = []
    · rw [hnil, String.intercalate_singleton]
      exact h.1
    · rw [String.intercalate_cons_of_ne_nil hnil]
      exact (h.1.append ⟨by decide, by simp [isBlank]⟩).append (ih h.2 hnil)

theorem splitTags_commas {ws : List String} (h : ∀ s ∈ ws, ',' ∉ s.toList) (hne : ws ≠ []) :
    splitTags (",".intercalate ws) = ws := by
  rw [splitTags, String.toList_intercalate]
  have hsplit := List.splitOn_intercalate ',' (show ∀ l ∈ ws.map String.toList, ',' ∉ l by simpa using h)
    (by simpa using hne)
  rw [show ",".toList = [','] from rfl, hsplit, List.map_map]
  simp [Function.comp_def]

/-- The query asks for the machine and the tags of the call. -/
theorem queryTags_eq (hwords : w.Words j) (hquiet : QuietFor dir w j)
    (hmachine : ',' ∉ ("machine:" ++ j.machine).toList) : queryTags dir j = j.query := by
  have hglob : ∀ s ∈ j.query, dir.glob s = [s] := by
    intro s hs
    rcases List.mem_append.mp hs with hs | hs
    · rcases List.mem_pair.mp hs with rfl | rfl
      · exact dir.plain _ (by simp)
      · exact hquiet.machine
    · obtain ⟨p, hp, rfl⟩ := List.mem_map.mp hs
      exact hquiet.written p (List.mem_append_right _ hp)
  have hcomma : ∀ s ∈ j.query, ',' ∉ s.toList := by
    intro s hs
    rcases List.mem_append.mp hs with hs | hs
    · rcases List.mem_pair.mp hs with rfl | rfl
      · decide
      · exact hmachine
    · obtain ⟨p, hp, rfl⟩ := List.mem_map.mp hs
      exact hwords.comma p (List.mem_append_right _ hp)
  have htext : dir.unquoted (queryText j) = j.query := by
    apply Directory.unquoted_eq _ hglob
    rw [queryText, words_append, words_join, words_join, Job.query]
    · intro s hs
      exact j.isWord_query s (List.mem_append_right _ hs)
    · intro s hs
      exact j.isWord_query s (List.mem_append_left _ hs)
  have hne : j.query ≠ [] := by simp [Job.query]
  have hjoined := isWord_commas j.isWord_query hne
  have hopts : words ("--tag " ++ ",".intercalate j.query) =
      [",".intercalate j.query].flatMap fun i => ["--tag", i] := by
    have htag : "--tag " = "--tag" ++ " " := rfl
    rw [htag, words_append, words_of_isWord isWord_option, words_of_isWord hjoined]
    rfl
  rw [queryTags, htext, flatMap_eq_self fun s hs =>
      Directory.unquoted_isWord (j.isWord_query s hs) (hglob s hs),
    resticTags_eq hopts (by simpa using hjoined) (List.forall_mem_singleton.mpr hquiet.query),
    List.flatMap_singleton, splitTags_commas hcomma hne]

end Call

/-! ## The record -/

/-- The part of a value in front of a colon. -/
def beforeColon (v : List Char) : List Char := (v.splitOn ':').headD []

theorem beforeColon_of_not_mem {v : List Char} (h : ':' ∉ v) : beforeColon v = v := by
  rw [beforeColon, List.splitOn_eq_singleton h]
  rfl

theorem beforeColon_append (v : List Char) :
    ∃ w, v = beforeColon v ++ w ∧ (w = [] → ':' ∉ v) := by
  by_cases h : ':' ∈ v
  · obtain ⟨a, b, rfl, ha⟩ := List.eq_append_cons_of_mem h
    refine ⟨':' :: b, ?_, by simp⟩
    rw [beforeColon, List.splitOn_append_cons_self_of_not_mem ha]
    rfl
  · exact ⟨[], by rw [beforeColon_of_not_mem h, List.append_nil], fun _ => h⟩

/-- A tag is cut at its first two colons. -/
theorem tagEntry_tagText {p : String × String} (hkey : ':' ∉ p.1.toList) :
    tagEntry (tagText p) = some (p.1, some (String.ofList (beforeColon p.2.toList))) := by
  have hlist : (tagText p).toList = p.1.toList ++ ':' :: p.2.toList := by simp [tagText]
  have hne : tagText p ≠ "" := by
    intro h
    have hnil := congrArg String.toList h
    simp [hlist] at hnil
  rw [tagEntry, if_neg hne, hlist, List.splitOn_append_cons_self_of_not_mem hkey]
  cases hsplit : p.2.toList.splitOn ':' with
  | nil => exact absurd hsplit (List.splitOn_ne_nil _ _)
  | cons v vs => simp [beforeColon, hsplit]

theorem mapM_tagEntry {ps : List (String × String)} (h : ∀ p ∈ ps, ':' ∉ p.1.toList) :
    (ps.map tagText).mapM tagEntry =
      some (ps.map fun p => (p.1, some (String.ofList (beforeColon p.2.toList)))) := by
  induction ps with
  | nil => rfl
  | cons p ps ih =>
    rw [List.forall_mem_cons] at h
    simp [tagEntry_tagText h.1, ih h.2]

/-- The value of a key that occurs once. -/
theorem member_of_mem {ps : List (String × String)} (hnodup : (ps.map Prod.fst).Nodup)
    {p : String × String} (hp : p ∈ ps) :
    member (ps.map fun p => (p.1, some (String.ofList (beforeColon p.2.toList)))) p.1 =
      String.ofList (beforeColon p.2.toList) := by
  let f : String × String → String × Option String :=
    fun p => (p.1, some (String.ofList (beforeColon p.2.toList)))
  have hfind : (ps.map f).reverse.find? (fun e => e.1 = p.1) = some (f p) := by
    have hmem : f p ∈ (ps.map f).reverse := List.mem_reverse.mpr (List.mem_map_of_mem hp)
    cases h : (ps.map f).reverse.find? fun e => e.1 = p.1 with
    | none =>
      have hnot := List.find?_eq_none.mp h (f p) hmem
      simp [f] at hnot
    | some e =>
      have hkey : e.1 = p.1 := by simpa using List.find?_some h
      obtain ⟨q, hq, rfl⟩ := List.mem_map.mp (List.mem_reverse.mp (List.mem_of_find?_eq_some h))
      have hqp : q = p := List.inj_on_of_nodup_map hnodup hq hp hkey
      rw [hqp]
  rw [member, hfind]
  rfl

theorem Writer.pairs_keys (w : Writer) (j : Job) : ∀ p ∈ w.pairs j, ':' ∉ p.1.toList := by
  intro p hp
  rcases List.mem_append.mp hp with hp | hp
  · exact (isWord_builtinKeys _ (w.builtin_keys j.machine p hp)).2
  · exact (j.argKeys p (w.extra_subset p hp)).2

theorem Writer.pairs_nodup (w : Writer) (j : Job) : ((w.pairs j).map Prod.fst).Nodup := by
  rw [Writer.pairs, List.map_append, List.nodup_append]
  refine ⟨by cases w <;> simp [Writer.builtin], ?_, ?_⟩
  · cases w with
    | container => exact (List.Sublist.map _ (List.take_sublist 1 j.args)).nodup j.nodup
    | blockdev disk dev => exact j.nodup
    | fs dev => exact j.nodup
  · intro k hk k' hk' heq
    obtain ⟨p, hp, rfl⟩ := List.mem_map.mp hk
    obtain ⟨q, hq, rfl⟩ := List.mem_map.mp hk'
    apply (j.argKeys q (w.extra_subset q hq)).1
    rw [← heq]
    exact w.builtin_keys j.machine p hp

section Record

variable {dir : Directory} {w : Writer} {j : Job}

/-- What `backup-blockdev` and `backup-fs` have in common. -/
theorem Writer.mem_pairs (hw : w ≠ .container) (j : Job) :
    ("bversion", "1") ∈ w.pairs j ∧ ("machine", j.machine) ∈ w.pairs j ∧
      ("path", w.path j.machine) ∈ w.pairs j ∧ ("backup_type", w.backupType) ∈ w.pairs j ∧
      ∀ p ∈ j.args, p ∈ w.pairs j := by
  cases w with
  | container => exact absurd rfl hw
  | blockdev disk dev =>
    have hargs : ∀ p ∈ j.args, p ∈ (Writer.blockdev disk dev).pairs j :=
      fun p hp => List.mem_append_right _ hp
    exact ⟨.head _, .tail _ (.head _), .tail _ (.tail _ (.tail _ (.head _))),
      .tail _ (.tail _ (.tail _ (.tail _ (.head _)))), hargs⟩
  | fs dev =>
    have hargs : ∀ p ∈ j.args, p ∈ (Writer.fs dev).pairs j :=
      fun p hp => List.mem_append_right _ hp
    exact ⟨.head _, .tail _ (.head _), .tail _ (.tail _ (.head _)),
      .tail _ (.tail _ (.tail _ (.head _))), hargs⟩

/-- The container's tags start with a quote. -/
theorem not_selected_container (hwords : Writer.container.Words j)
    (hquiet : QuietFor dir .container j) (hmachine : ',' ∉ ("machine:" ++ j.machine).toList) :
    ¬ ∀ t ∈ queryTags dir j, t ∈ storedTags dir .container j := by
  intro hsel
  rw [queryTags_eq hwords hquiet hmachine, storedTags_eq hwords hquiet] at hsel
  obtain ⟨p, -, hp⟩ := List.mem_map.mp (hsel "bversion:1" (by simp [Job.query]))
  have hlist := congrArg String.toList hp
  simp [Writer.quote] at hlist

/-- The other writers write what is asked for. -/
theorem selected_of_ne (hw : w ≠ .container) (hwords : w.Words j) (hquiet : QuietFor dir w j)
    (hmachine : ',' ∉ ("machine:" ++ j.machine).toList) :
    ∀ t ∈ queryTags dir j, t ∈ storedTags dir w j := by
  intro t ht
  rw [queryTags_eq hwords hquiet hmachine] at ht
  rw [storedTags_eq hwords hquiet]
  have hmem (p : String × String) (hp : p ∈ w.pairs j) :
      tagText p ∈ (w.pairs j).map fun p => w.quote (tagText p) := by
    refine List.mem_map.mpr ⟨p, hp, ?_⟩
    cases w with
    | container => exact absurd rfl hw
    | blockdev disk dev => rfl
    | fs dev => rfl
  obtain ⟨hversion, hname, -, -, hargs⟩ := w.mem_pairs hw j
  rcases List.mem_append.mp ht with ht | ht
  · rcases List.mem_pair.mp ht with rfl | rfl
    · exact hmem _ hversion
    · exact hmem _ hname
  · obtain ⟨p, hp, rfl⟩ := List.mem_map.mp ht
    exact hmem p (hargs p hp)

/-- The characters of a value up to its first colon. -/
def shown (v : String) : List Char := beforeColon v.toList

/-- The record of a snapshot that is not the container's. -/
theorem readBack_eq (hw : w ≠ .container) (hwords : w.Words j) (hquiet : QuietFor dir w j)
    (diskpath id : String) :
    ∃ ty, (∀ t, ("type", t) ∈ j.args → ty = shown t) ∧
      readBack (storedTags dir w j) diskpath id = some ((readFields '!' 5
        (shown j.machine ++ '!' :: (diskpath.toList ++ '!' :: (shown (w.path j.machine) ++
          '!' :: (id.toList ++ '!' :: (w.backupType.toList ++ '!' :: ty)))))).map String.ofList) := by
  have hstored : storedTags dir w j = (w.pairs j).map tagText := by
    rw [storedTags_eq hwords hquiet]
    cases w with
    | container => exact absurd rfl hw
    | blockdev disk dev => rfl
    | fs dev => rfl
  obtain ⟨es, hes⟩ : ∃ es, es =
      (w.pairs j).map fun p => (p.1, some (String.ofList (beforeColon p.2.toList))) := ⟨_, rfl⟩
  have hmember (k v : String) (hp : (k, v) ∈ w.pairs j) :
      member es k = String.ofList (shown v) := by
    rw [hes]
    exact member_of_mem (w.pairs_nodup j) hp
  obtain ⟨-, hname, hdev, htype, hargs⟩ := w.mem_pairs hw j
  have hmachine := hmember _ _ hname
  have hpath := hmember _ _ hdev
  have hkind := hmember _ _ htype
  have hshown : shown w.backupType = w.backupType.toList := by
    apply beforeColon_of_not_mem
    cases w <;> simp [Writer.backupType]
  refine ⟨(member es "type").toList, ?_, ?_⟩
  · intro t ht
    rw [hmember _ _ (hargs _ ht), String.toList_ofList]
  · rw [readBack, hstored, mapM_tagEntry (w.pairs_keys j), ← hes]
    have hline : (recordLine es diskpath id).toList = shown j.machine ++ '!' :: (diskpath.toList ++
        '!' :: (shown (w.path j.machine) ++ '!' :: (id.toList ++ '!' :: (w.backupType.toList ++
          '!' :: (member es "type").toList)))) := by
      rw [recordLine, hmachine, hpath, hkind]
      simp [hshown]
    exact congrArg (fun l => some ((readFields '!' 5 l).map String.ofList)) hline

end Record

/-! ## The round trip -/

/-- A value that is shown up to its first colon, and comes back whole from in front of a
    separator, has neither a colon nor a character that `read` looks at. -/
theorem plain_of_read {v : String} {r : List Char}
    (h : (takeField '!' false (shown v ++ '!' :: r)).1 = v.toList) :
    shown v = v.toList ∧ ∀ c ∈ v.toList, c ∉ [':', '!', '\\'] := by
  obtain ⟨w, hw, hcolon⟩ := beforeColon_append v.toList
  have hprefix : (takeField '!' false (shown v ++ '!' :: r)).1 = shown v ++ w := h.trans hw
  obtain ⟨hbang, hesc, rfl⟩ := takeField_eq_append (by decide) hprefix
  have hshown : shown v = v.toList := by
    rw [hw, List.append_nil]
    rfl
  refine ⟨hshown, fun c hc => ?_⟩
  rw [hshown] at hbang hesc
  simp only [List.mem_cons, List.not_mem_nil, or_false, not_or]
  refine ⟨?_, ?_, ?_⟩
  · rintro rfl
    exact hcolon rfl hc
  · rintro rfl
    exact hbang hc
  · rintro rfl
    exact hesc hc

theorem shown_of_plain {v : String} (h : ∀ c ∈ v.toList, c ∉ [':', '!', '\\']) :
    shown v = v.toList ∧ '!' ∉ v.toList ∧ '\\' ∉ v.toList :=
  ⟨beforeColon_of_not_mem fun hc => h _ hc (by decide), fun hc => h _ hc (by decide),
    fun hc => h _ hc (by decide)⟩

/-- The last field gives back a type exactly if it has no colon and no backslash, and does not
    just end with the separator. -/
theorem type_read_iff (t : String) :
    lastField '!' (shown t) = t.toList ↔
      ':' ∉ t.toList ∧ '\\' ∉ t.toList ∧ ∀ u, t.toList = u ++ ['!'] → '!' ∈ u := by
  obtain ⟨w, hw, hcolon⟩ := beforeColon_append t.toList
  constructor
  · intro h
    -- the last field is not longer than what is shown
    have hlen := length_lastField_le '!' (shown t)
    rw [h, hw, List.length_append] at hlen
    have hnil : w = [] := by
      apply List.eq_nil_of_length_eq_zero
      have hsame : (beforeColon t.toList).length = (shown t).length := rfl
      omega
    have hshown : shown t = t.toList := beforeColon_of_not_mem (hcolon hnil)
    rw [hshown] at h
    exact ⟨hcolon hnil, lastField_eq_iff.mp h⟩
  · rintro ⟨hno, hrest⟩
    have hshown : shown t = t.toList := beforeColon_of_not_mem hno
    rw [hshown]
    exact lastField_eq_iff.mpr hrest

/-- **The tags survive exactly for the plain writers and values**, among words without commas
    that no file matches: the snapshot is selected, and its record gives back the machine,
    the path and both types. -/
theorem tags_survive_iff (dir : Directory) (abs : String → String) (w : Writer) (j : Job)
    (id : String) (hwords : w.Words j) (hquiet : QuietFor dir w j)
    (hdiskpath : ∀ c ∈ (w.diskpath abs j.machine).toList, c ∉ ['!', '\\'])
    (hid : ∀ c ∈ id.toList, c ∉ ['!', '\\']) :
    Survives dir w j (w.diskpath abs j.machine) id ↔ w.Plain j := by
  have hquery := hwords.comma_machine
  have hdisk : '!' ∉ (w.diskpath abs j.machine).toList ∧
      '\\' ∉ (w.diskpath abs j.machine).toList :=
    ⟨fun hc => hdiskpath _ hc (by decide), fun hc => hdiskpath _ hc (by decide)⟩
  have hident : '!' ∉ id.toList ∧ '\\' ∉ id.toList :=
    ⟨fun hc => hid _ hc (by decide), fun hc => hid _ hc (by decide)⟩
  have hkind : '!' ∉ w.backupType.toList ∧ '\\' ∉ w.backupType.toList := by
    cases w <;> simp [Writer.backupType]
  constructor
  · intro h
    have hw : w ≠ .container := by
      rintro rfl
      exact not_selected_container hwords hquiet hquery h.selected
    obtain ⟨ty, hty, hread⟩ := readBack_eq hw hwords hquiet (w.diskpath abs j.machine) id
    obtain ⟨d, i, t', hback, htype⟩ := h.record
    have hfields := congrArg (List.map String.toList) (Option.some.inj (hread.symm.trans hback))
    simp only [List.map_map, Function.comp_def, String.toList_ofList, List.map_id', List.map_cons,
      List.map_nil] at hfields
    -- the fields one after the other
    obtain ⟨hm, hmplain⟩ := plain_of_read (List.cons.inj hfields).1
    have hmchars := shown_of_plain hmplain
    rw [hm, readFields_cons hmchars.2.1 hmchars.2.2, readFields_cons hdisk.1 hdisk.2] at hfields
    have hrest := (List.cons.inj (List.cons.inj hfields).2).2
    obtain ⟨hp, hpplain⟩ := plain_of_read (List.cons.inj hrest).1
    have hpchars := shown_of_plain hpplain
    rw [hp, readFields_cons hpchars.2.1 hpchars.2.2, readFields_cons hident.1 hident.2,
      readFields_cons hkind.1 hkind.2] at hrest
    have hlast : lastField '!' ty = t'.toList :=
      (List.cons.inj (List.cons.inj (List.cons.inj (List.cons.inj hrest).2).2).2).1
    refine ⟨hw, hmplain, hpplain, fun t ht => (type_read_iff t).mp ?_⟩
    rw [← hty t ht, hlast, htype t ht]
  · intro h
    obtain ⟨ty, hty, hread⟩ := readBack_eq h.reads hwords hquiet (w.diskpath abs j.machine) id
    refine ⟨selected_of_ne h.reads hwords hquiet hquery,
      w.diskpath abs j.machine, id, String.ofList (lastField '!' ty), ?_, ?_⟩
    · have hm := shown_of_plain h.machine
      have hp := shown_of_plain h.path
      rw [hread, hm.1, hp.1, readFields_cons hm.2.1 hm.2.2, readFields_cons hdisk.1 hdisk.2,
        readFields_cons hp.2.1 hp.2.2, readFields_cons hident.1 hident.2,
        readFields_cons hkind.1 hkind.2]
      simp [readFields]
    · intro t ht
      rw [hty t ht, (type_read_iff t).mpr (h.type t ht), String.ofList_toList]

/-- The machine `web` with the tag `type:config`. -/
def webJob : Job where
  machine := "web"
  args := [("type", "config")]
  machineWord := ⟨by decide, by simp [isBlank]⟩
  argWords := by
    intro a ha
    rw [List.mem_singleton.mp ha]
    exact ⟨⟨by decide, by simp [isBlank]⟩, ⟨by decide, by simp [isBlank]⟩⟩
  argKeys := by
    intro a ha
    rw [List.mem_singleton.mp ha]
    exact ⟨by simp [builtinKeys], by simp⟩
  nodup := List.nodup_singleton _

theorem emptyDirectory_quiet (w : Writer) (j : Job) : QuietFor emptyDirectory w j where
  written _ _ := rfl
  quoted _ _ := rfl
  machine := rfl
  query := rfl

/-- What `machine-backup` stores of the machine's directory. -/
theorem tags_survive_config :
    Survives emptyDirectory (.fs "/srv/kvm/vms/web") webJob "/srv/kvm/vms/web" "5f0c" := by
  have hpath : ∀ c ∈ "/srv/kvm/vms/web".toList, c ∉ ['!', '\\'] := by simp
  have hplain : ∀ c ∈ "/srv/kvm/vms/web".toList, c ∉ [':', '!', '\\'] := by simp
  refine (tags_survive_iff emptyDirectory (fun p => p) (.fs "/srv/kvm/vms/web") webJob "5f0c" ?_
    (emptyDirectory_quiet _ _) hpath ?_).mpr ?_
  · refine ⟨?_, ?_⟩
    · intro p hp
      simp only [Writer.builtin, List.mem_cons, List.not_mem_nil, or_false] at hp
      rcases hp with rfl | rfl | rfl | rfl <;> exact ⟨by simp [webJob], by simp [webJob, isBlank]⟩
    · simp [Writer.builtin, webJob, tagText]
  · simp
  · refine ⟨by simp, by simp [webJob], hplain, ?_⟩
    intro t ht
    have htype : t = "config" := by simpa [webJob] using ht
    subst htype
    refine ⟨by simp, by simp, fun u hu => ?_⟩
    have hlast := congrArg List.getLast? hu
    simp at hlast

/-- A snapshot of the container `web` is not selected by its name. -/
theorem container_not_selected :
    ¬ Survives emptyDirectory .container webJob "/var/lib/machines/web" "5f0c" := by
  intro h
  refine not_selected_container (j := webJob) ?_ (emptyDirectory_quiet _ _) (by simp [webJob])
    h.selected
  refine ⟨?_, ?_⟩
  · intro p hp
    simp only [Writer.builtin, List.mem_cons, List.not_mem_nil, or_false] at hp
    rcases hp with rfl | rfl <;> exact ⟨by simp [webJob], by simp [webJob, isBlank]⟩
  · simp [Writer.builtin, webJob, tagText]

end KvmOsx.Backup
