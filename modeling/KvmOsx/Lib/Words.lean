import KvmOsx.Lib.Text

/-!
# Words of an unquoted expansion

The shell cuts the value of an unquoted expansion at blanks and drops empty pieces.

* `words`, `expand`: the words of a value, and those of all elements of an array.
* `IsWord`: a text that is one word and so comes through unchanged.
* `words_append`: a blank separates words.
* `Directory.unquoted`: the words with each pattern replaced by the files that match it.
* `join`: the elements of an array with a space between them, as a text keeps them;
  `words_join` reads them back.
-/

namespace KvmOsx.Words

open KvmOsx.Text

/-- Space, tab and newline, the separators of an `IFS` that is not set. -/
def isBlank (c : Char) : Bool := c = ' ' || c = '\t' || c = '\n'

/-- The non-empty pieces between blanks. -/
def pieces (cs : List Char) : List (List Char) := (cs.splitOnP isBlank).filter (· ≠ [])

/-- The words of `$X`. -/
def words (s : String) : List String := (pieces s.toList).map String.ofList

/-- The words of `${X[@]}`. -/
def expand (arr : List String) : List String := arr.flatMap words

/-- A value that is one word. -/
structure IsWord (s : String) : Prop where
  nonempty : s ≠ ""
  unbroken : ∀ c ∈ s.toList, isBlank c = false

theorem IsWord.append {s t : String} (hs : IsWord s) (ht : IsWord t) : IsWord (s ++ t) where
  nonempty := by
    intro h
    exact hs.nonempty (String.append_eq_empty_iff.mp h).1
  unbroken := by
    intro c hc
    rw [String.toList_append, List.mem_append] at hc
    exact hc.elim (hs.unbroken c) (ht.unbroken c)

@[simp] theorem words_empty : words "" = [] := by
  simp [words, pieces]

theorem words_of_isWord {s : String} (h : IsWord s) : words s = [s] := by
  have hne : s.toList ≠ [] := fun heq => h.nonempty (String.toList_eq_nil_iff.mp heq)
  rw [words, pieces, List.splitOnP_eq_singleton h.unbroken]
  simp [hne]

@[simp] theorem expand_nil : expand [] = [] := rfl

@[simp] theorem expand_cons (s : String) (arr : List String) :
    expand (s :: arr) = words s ++ expand arr := rfl

@[simp] theorem expand_append (a b : List String) : expand (a ++ b) = expand a ++ expand b :=
  List.flatMap_append

/-- An array of words comes through an unquoted expansion. -/
theorem expand_of_isWord {arr : List String} (h : ∀ s ∈ arr, IsWord s) : expand arr = arr := by
  induction arr with
  | nil => rfl
  | cons s arr ih =>
    rw [List.forall_mem_cons] at h
    rw [expand_cons, words_of_isWord h.1, ih h.2, List.singleton_append]

/-! ## Joining -/

/-- `"${X[*]}"`, and `${X[@]}` where the shell does not split. -/
def join (arr : List String) : String := " ".intercalate arr

@[simp] theorem join_nil : join [] = "" := rfl

theorem join_cons {s : String} {arr : List String} (h : arr ≠ []) :
    join (s :: arr) = s ++ " " ++ join arr := String.intercalate_cons_of_ne_nil h

/-- A blank separates words. -/
theorem words_append (s t : String) : words (s ++ " " ++ t) = words s ++ words t := by
  have hsplit : (s ++ " " ++ t).toList = s.toList ++ ' ' :: t.toList := by simp
  rw [words, pieces, hsplit, List.splitOnP_append_cons _ _ (by rfl), List.filter_append,
    List.map_append]
  rfl

/-- Words that are joined are read back. -/
theorem words_join {arr : List String} (h : ∀ s ∈ arr, IsWord s) : words (join arr) = arr := by
  induction arr with
  | nil => exact words_empty
  | cons s arr ih =>
    rw [List.forall_mem_cons] at h
    by_cases hnil : arr = []
    · rw [hnil]
      exact words_of_isWord h.1
    · rw [join_cons hnil, words_append, words_of_isWord h.1, ih h.2, List.singleton_append]

/-- Only the empty array of words is joined to the empty text. -/
theorem join_eq_empty {arr : List String} (h : ∀ s ∈ arr, IsWord s) : join arr = "" ↔ arr = [] := by
  constructor
  · intro hjoin
    have hwords := words_join h
    rw [hjoin, words_empty] at hwords
    exact hwords.symm
  · rintro rfl
    rfl

theorem isWord_num (n : ℕ) : IsWord (num n) where
  nonempty := by
    intro h
    have htoList := congrArg String.toList h
    rw [num_toList] at htoList
    exact Nat.toDigits_ne_nil htoList
  unbroken := by
    intro c hc
    have hdigit := isDigit_of_mem_num hc
    by_contra hblank
    simp only [isBlank, Bool.not_eq_false, Bool.or_eq_true, decide_eq_true_eq] at hblank
    rcases hblank with (rfl | rfl) | rfl <;> exact absurd hdigit (by decide)

theorem isWord_nums {ns : List ℕ} : ∀ s ∈ ns.map num, IsWord s := by
  intro s hs
  obtain ⟨n, -, rfl⟩ := List.mem_map.mp hs
  exact isWord_num n

/-! ## Files that match a word -/

/-- The current directory: what an unquoted word expands to. -/
structure Directory where
  glob : String → List String
  plain : ∀ w, (∀ c ∈ w.toList, c ∉ ['*', '?', '[']) → glob w = [w]

/-- A directory without files. -/
def emptyDirectory : Directory where
  glob w := [w]
  plain _ _ := rfl

/-- The words of an unquoted expansion. -/
def Directory.unquoted (dir : Directory) (s : String) : List String :=
  (words s).flatMap dir.glob

theorem flatMap_eq_self {α : Type*} {f : α → List α} {l : List α} (h : ∀ x ∈ l, f x = [x]) :
    l.flatMap f = l := by
  rw [List.flatMap_congr h, List.flatMap_singleton']

section Unquoted

variable {dir : Directory}

theorem Directory.unquoted_eq {s : String} {ws : List String} (hws : words s = ws)
    (hglob : ∀ w ∈ ws, dir.glob w = [w]) : dir.unquoted s = ws := by
  rw [Directory.unquoted, hws]
  exact flatMap_eq_self hglob

theorem Directory.unquoted_isWord {s : String} (hs : IsWord s) (hglob : dir.glob s = [s]) :
    dir.unquoted s = [s] := by
  apply Directory.unquoted_eq (words_of_isWord hs)
  simpa using hglob

end Unquoted

end KvmOsx.Words
