import Mathlib

/-!
# Reading the fields of a line

`IFS=SEP read A B … Z`, without `-r`: the line is cut at the separator, a backslash is
dropped and takes the character behind it out of the game, and the last variable gets what
is left.

* `takeField`, `lastField`, `readFields`: one field, the last one, and all of them.
* `readFields_cons`: a field without separator and backslash is read back.
* `takeField_eq_append`: a field that is read back, or more than it, has neither.
* `lastField_eq_iff`: the same for the last field, in which separators may occur.
-/

namespace KvmOsx.Fields

/-- The characters up to a separator, and what is behind it; `esc` after a backslash. -/
def takeField (sep : Char) : Bool → List Char → List Char × Option (List Char)
  | _, [] => ([], none)
  | true, c :: cs => (c :: (takeField sep false cs).1, (takeField sep false cs).2)
  | false, c :: cs =>
    if c = sep then ([], some cs)
    else if c = '\\' then takeField sep true cs
    else (c :: (takeField sep false cs).1, (takeField sep false cs).2)

/-- A text without the backslashes that are not behind one. -/
def unescape : Bool → List Char → List Char
  | _, [] => []
  | true, c :: cs => c :: unescape false cs
  | false, c :: cs => if c = '\\' then unescape true cs else c :: unescape false cs

/-- The last variable gets the rest of the line, except for a separator that only ends it. -/
def lastField (sep : Char) (cs : List Char) : List Char :=
  match takeField sep false cs with
  | (w, some []) => w
  | _ => unescape false cs

/-- The values of `n + 1` variables. -/
def readFields (sep : Char) : ℕ → List Char → List (List Char)
  | 0, cs => [lastField sep cs]
  | n + 1, cs =>
    (takeField sep false cs).1 :: readFields sep n ((takeField sep false cs).2.getD [])

section

variable {sep : Char} {v : List Char}

/-! ## Fields in front of a separator -/

theorem takeField_append (hsep : sep ∉ v) (hesc : '\\' ∉ v) (r : List Char) :
    takeField sep false (v ++ sep :: r) = (v, some r) := by
  induction v with
  | nil => simp [takeField]
  | cons c v ih =>
    rw [List.mem_cons, not_or] at hsep hesc
    rw [List.cons_append, takeField, if_neg (Ne.symm hsep.1), if_neg (Ne.symm hesc.1),
      ih hsep.2 hesc.2]

theorem readFields_cons (hsep : sep ∉ v) (hesc : '\\' ∉ v) (n : ℕ) (r : List Char) :
    readFields sep (n + 1) (v ++ sep :: r) = v :: readFields sep n r := by
  rw [readFields, takeField_append hsep hesc, Option.getD_some]

/-- A field does not gain backslashes: one that would have to start with more of them than
    the text is not read, neither behind a backslash nor elsewhere. -/
theorem takeField_ne_backslashes (hne : sep ≠ '\\') (v r : List Char) (esc : Bool) (k : ℕ)
    (w : List Char) :
    (takeField sep esc (v ++ sep :: r)).1 ≠ List.replicate (k + 1) '\\' ++ (v ++ w) := by
  induction v generalizing esc k with
  | nil =>
    cases esc with
    | true =>
      intro h
      exact hne (List.cons.inj h).1
    | false => simp [takeField, List.replicate_succ]
  | cons c v ih =>
    -- moving a backslash of the text over to the others
    have hmove (k : ℕ) : List.replicate k '\\' ++ ('\\' :: v ++ w) =
        List.replicate (k + 1) '\\' ++ (v ++ w) := by
      rw [List.replicate_succ', List.append_assoc]
      rfl
    intro h
    cases esc with
    | true =>
      rw [List.cons_append, takeField, List.replicate_succ, List.cons_append] at h
      obtain ⟨rfl, htail⟩ := List.cons.inj h
      rw [hmove] at htail
      exact ih false k htail
    | false =>
      rw [List.cons_append, takeField] at h
      split_ifs at h with hc hc'
      · simp [List.replicate_succ] at h
      · rw [hc', hmove] at h
        exact ih true (k + 1) h
      · rw [List.replicate_succ, List.cons_append] at h
        exact hc' (List.cons.inj h).1

/-- A field that is the text in front of the separator, or starts with it, is that text, and
    has neither a separator nor a backslash. -/
theorem takeField_eq_append (hne : sep ≠ '\\') {w r : List Char}
    (h : (takeField sep false (v ++ sep :: r)).1 = v ++ w) : sep ∉ v ∧ '\\' ∉ v ∧ w = [] := by
  induction v with
  | nil =>
    have hw : w = [] := by simpa [takeField] using h.symm
    simp [hw]
  | cons c v ih =>
    rw [List.cons_append, takeField] at h
    split_ifs at h with hc hc'
    · exact absurd h (by simp)
    · rw [hc'] at h
      exact absurd h (takeField_ne_backslashes hne v r true 0 w)
    · obtain ⟨hsep, hesc, hw⟩ := ih (List.cons.inj h).2
      simp [hsep, hesc, hw, Ne.symm hc, Ne.symm hc']

/-! ## The last field -/

theorem length_unescape_le (esc : Bool) (v : List Char) : (unescape esc v).length ≤ v.length := by
  induction v generalizing esc with
  | nil => simp [unescape]
  | cons c v ih =>
    have hfalse := ih false
    have htrue := ih true
    cases esc with
    | true =>
      rw [unescape, List.length_cons, List.length_cons]
      omega
    | false =>
      rw [unescape]
      split_ifs
      · rw [List.length_cons]
        omega
      · rw [List.length_cons, List.length_cons]
        omega

theorem length_unescape_lt (h : '\\' ∈ v) : (unescape false v).length < v.length := by
  induction v with
  | nil => cases h
  | cons c v ih =>
    rw [unescape]
    split_ifs with hc
    · have hle := length_unescape_le true v
      rw [List.length_cons]
      omega
    · have hv : '\\' ∈ v := by
        rcases List.mem_cons.mp h with heq | hv
        · exact absurd heq.symm hc
        · exact hv
      have hlt := ih hv
      rw [List.length_cons, List.length_cons]
      omega

theorem unescape_of_not_mem (h : '\\' ∉ v) : unescape false v = v := by
  induction v with
  | nil => rfl
  | cons c v ih =>
    rw [List.mem_cons, not_or] at h
    rw [unescape, if_neg (Ne.symm h.1), ih h.2]

/-- What `takeField` has read, when there is no backslash. -/
theorem eq_of_takeField {w r : List Char} (hesc : '\\' ∉ v)
    (h : takeField sep false v = (w, some r)) : v = w ++ sep :: r ∧ sep ∉ w := by
  induction v generalizing w with
  | nil => cases h
  | cons c v ih =>
    rw [List.mem_cons, not_or] at hesc
    rw [takeField, if_neg (Ne.symm hesc.1)] at h
    split_ifs at h with hc
    · obtain ⟨rfl, hr⟩ := Prod.mk.inj h
      rw [hc, Option.some.inj hr]
      simp
    · obtain ⟨rfl, hr⟩ := Prod.mk.inj h
      obtain ⟨hv, hsep⟩ := ih (w := (takeField sep false v).1) hesc.2 (by rw [← hr])
      exact ⟨by rw [List.cons_append, ← hv], by simp [hsep, Ne.symm hc]⟩

theorem length_takeField_lt {w r : List Char} {esc : Bool}
    (h : takeField sep esc v = (w, some r)) : w.length < v.length := by
  induction v generalizing w esc with
  | nil => cases h
  | cons c v ih =>
    rw [List.length_cons]
    cases esc with
    | true =>
      obtain ⟨rfl, hr⟩ := Prod.mk.inj h
      have hlt := @ih (takeField sep false v).1 false (by rw [← hr])
      rw [List.length_cons]
      omega
    | false =>
      rw [takeField] at h
      split_ifs at h
      · obtain ⟨rfl, -⟩ := Prod.mk.inj h
        rw [List.length_nil]
        omega
      · have hlt := ih h
        omega
      · obtain ⟨rfl, hr⟩ := Prod.mk.inj h
        have hlt := @ih (takeField sep false v).1 false (by rw [← hr])
        rw [List.length_cons]
        omega

theorem length_lastField_le (sep : Char) (v : List Char) :
    (lastField sep v).length ≤ v.length := by
  unfold lastField
  split
  · rename_i w h
    exact (length_takeField_lt h).le
  · exact length_unescape_le false v

/-- The last field is read back if it has no backslash, and no separator that only ends it. -/
theorem lastField_eq_iff :
    lastField sep v = v ↔ '\\' ∉ v ∧ ∀ u, v = u ++ [sep] → sep ∈ u := by
  constructor
  · intro h
    have hesc : '\\' ∉ v := by
      intro hmem
      unfold lastField at h
      split at h
      · rename_i w hw
        have hlt := length_takeField_lt hw
        rw [h] at hlt
        omega
      · have hlt := length_unescape_lt hmem
        rw [h] at hlt
        omega
    refine ⟨hesc, fun u hu => ?_⟩
    by_contra hsep
    rw [hu, List.mem_append, not_or] at hesc
    have htake := takeField_append hsep hesc.1 []
    rw [hu, lastField, htake] at h
    have hlen := congrArg List.length h
    simp at hlen
  · rintro ⟨hesc, hend⟩
    unfold lastField
    split
    · rename_i w hw
      obtain ⟨hv, hsep⟩ := eq_of_takeField hesc hw
      exact absurd (hend w hv) hsep
    · exact unescape_of_not_mem hesc

end

end KvmOsx.Fields
