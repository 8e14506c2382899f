import Mathlib

/-!
# Text produced by string concatenation

Names, paths and option values are built by gluing literals, variables and
decimal numerals together. This module collects the injectivity facts such
texts need, and the field selection of `cut -d SEP -f K`.

* `num_inj`, `prefix_num_inj`: decimal numerals are injective, also behind a
  fixed prefix.
* `dotted_inj`: a text and a numeral joined by a dot determine both.
* `echo`, `cut`: a word that is printed, and the `K`-th field of a line, or the
  whole line when the separator does not occur in it; `cut_one`, `cut_two` read
  back the first two fields, `cut_last` the second of two.
* `basename`: the last component of a path.
-/

namespace KvmOsx.Text

/-! ## Decimal numerals -/

/-- The decimal numeral of `n`, as the shell expands an arithmetic variable. -/
def num (n : ℕ) : String := Nat.repr n

theorem num_inj {a b : ℕ} : num a = num b ↔ a = b := Nat.repr_inj

theorem prefix_num_inj (p : String) {a b : ℕ} : p ++ num a = p ++ num b ↔ a = b := by
  rw [String.append_right_inj, num_inj]

theorem num_toList (n : ℕ) : (num n).toList = Nat.toDigits 10 n := Nat.toList_repr

theorem isDigit_of_mem_num {n : ℕ} {x : Char} (h : x ∈ (num n).toList) : x.isDigit := by
  rw [num_toList] at h
  exact Nat.isDigit_of_mem_toDigits (by norm_num) (by norm_num) h

/-- Appending a digit to the numeral of a positive number multiplies by ten. -/
theorem num_append_digit {n d : ℕ} (hn : 0 < n) (hd : d < 10) :
    num n ++ num d = num (10 * n + d) := by
  apply String.toList_inj.mp
  rw [String.toList_append, num_toList, num_toList, num_toList]
  rw [show 10 * n + d = n * 10 + d by ring]
  have := Nat.toDigits_append_toDigits (b := 10) (by norm_num) hn hd
  rw [this]
  congr 1
  ring

/-! ## Splitting at the last separator -/

/-- Two splits of one list at an element that occurs in neither tail agree. -/
theorem append_cons_inj {α : Type*} {x : α} {p q s t : List α} (hs : x ∉ s) (ht : x ∉ t)
    (h : p ++ x :: s = q ++ x :: t) : p = q ∧ s = t := by
  induction p generalizing q with
  | nil =>
    cases q with
    | nil => exact ⟨rfl, by simpa using h⟩
    | cons y q =>
      have hs' : s = q ++ x :: t := by simpa using (List.cons.inj h).2
      exact absurd (by rw [hs']; simp) hs
  | cons y p ih =>
    cases q with
    | nil =>
      have ht' : p ++ x :: s = t := by simpa using (List.cons.inj h).2
      exact absurd (by rw [← ht']; simp) ht
    | cons z q =>
      obtain ⟨hyz, htl⟩ := List.cons.inj h
      obtain ⟨rfl, rfl⟩ := ih htl
      exact ⟨by rw [hyz], rfl⟩

theorem not_mem_num_of_not_isDigit {x : Char} (hx : x.isDigit = false) (n : ℕ) :
    x ∉ (num n).toList := by
  intro h
  rw [isDigit_of_mem_num h] at hx
  exact absurd hx (by decide)

/-- A text, a dot and a numeral: both parts can be read back. -/
theorem dotted_inj {u v : String} {a b : ℕ} (h : u ++ "." ++ num a = v ++ "." ++ num b) :
    u = v ∧ a = b := by
  have h' := congrArg String.toList h
  simp only [String.toList_append, List.append_assoc, show ".".toList = ['.'] from rfl,
    List.singleton_append] at h'
  obtain ⟨h1, h2⟩ := append_cons_inj (not_mem_num_of_not_isDigit (by decide) a)
    (not_mem_num_of_not_isDigit (by decide) b) h'
  exact ⟨String.toList_inj.mp h1, num_inj.mp (String.toList_inj.mp h2)⟩

/-! ## `echo` and `cut` -/

/-- `echo $w` for one word: a word made of `-` and letters of `neE` is an option
    and prints nothing. -/
def echo (w : String) : String :=
  match w.toList with
  | '-' :: x :: xs => if (x :: xs).all (· ∈ ['n', 'e', 'E']) then "" else w
  | _ => w

/-- `cut -d sep -f k` on one line: field `k` (from 1) of the line split at
    `sep`, or the whole line when it has no `sep`. -/
def cut (sep : Char) (k : ℕ) (line : String) : String :=
  if sep ∈ line.toList then
    String.ofList ((line.toList.splitOn sep).getD (k - 1) [])
  else line

/-- The first field of a line. -/
theorem cut_one {sep : Char} {line u v : String} (hline : line.toList = u.toList ++ sep :: v.toList)
    (hu : sep ∉ u.toList) : cut sep 1 line = u := by
  have hmem : sep ∈ line.toList := by simp [hline]
  rw [cut, if_pos hmem, hline, List.splitOn_append_cons_self_of_not_mem hu]
  simp

/-- The second field of a line. -/
theorem cut_two {sep : Char} {line u v w : String}
    (hline : line.toList = u.toList ++ sep :: (v.toList ++ sep :: w.toList))
    (hu : sep ∉ u.toList) (hv : sep ∉ v.toList) : cut sep 2 line = v := by
  have hmem : sep ∈ line.toList := by simp [hline]
  rw [cut, if_pos hmem, hline, List.splitOn_append_cons_self_of_not_mem hu,
    List.splitOn_append_cons_self_of_not_mem hv]
  simp

/-- The second field of a line with two. -/
theorem cut_last {sep : Char} {line u v : String} (hline : line.toList = u.toList ++ sep :: v.toList)
    (hu : sep ∉ u.toList) (hv : sep ∉ v.toList) : cut sep 2 line = v := by
  have hmem : sep ∈ line.toList := by simp [hline]
  rw [cut, if_pos hmem, hline, List.splitOn_append_cons_self_of_not_mem hu,
    List.splitOn_eq_singleton hv]
  simp

example : cut ':' 2 "0x1a.0:on" = "on" := by decide
example : cut ':' 2 "pci0.0x14" = "pci0.0x14" := by decide

/-- `basename PATH`. -/
def basename (p : String) : String := String.ofList ((p.toList.splitOn '/').getLast?.getD [])

theorem basename_append {u v : String} (h : '/' ∉ v.toList) : basename (u ++ "/" ++ v) = v := by
  have hsplit : (u ++ "/" ++ v).toList = u.toList ++ '/' :: v.toList := by simp
  rw [basename, hsplit, List.splitOn_append_cons_self, List.splitOn_eq_singleton h]
  simp

end KvmOsx.Text
