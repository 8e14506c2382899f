import Mathlib

/-!
# Lines that contain a text

A text is cut into lines at separators, as by `sed` and a newline, and the lines with a
given text in them are kept, as by `grep`.

* `not_infix_append_cons`: a text without the character `c` does not reach across a `c`.
* `grepLines`: the lines with the text.
* `grepLines_append_cons`, `grepLines_of_not_infix`, `grepLines_of_line`: what is kept of a
  text that is put together at a separator, that does not contain the text, or is one line.
-/

namespace KvmOsx.Lines

variable {α : Type*}

theorem prefix_of_append_cons {w a b : List α} {c : α} (hc : c ∉ w) (h : w <+: a ++ c :: b) :
    w <+: a := by
  induction a generalizing w with
  | nil =>
    cases w with
    | nil => exact List.nil_prefix
    | cons x w =>
      have hx : x = c := (List.cons_prefix_cons.mp h).1
      exact absurd (by rw [hx]; exact List.mem_cons_self) hc
  | cons y a ih =>
    cases w with
    | nil => exact List.nil_prefix
    | cons x w =>
      obtain ⟨hxy, htail⟩ := List.cons_prefix_cons.mp h
      rw [List.mem_cons, not_or] at hc
      exact List.cons_prefix_cons.mpr ⟨hxy, ih hc.2 htail⟩

theorem infix_of_append_cons {w a b : List α} {c : α} (hc : c ∉ w) (h : w <:+: a ++ c :: b) :
    w <:+: a ∨ w <:+: b := by
  induction a with
  | nil =>
    rcases List.infix_cons_iff.mp h with hprefix | hinfix
    · exact .inl (prefix_of_append_cons (a := []) hc hprefix).isInfix
    · exact .inr hinfix
  | cons y a ih =>
    rcases List.infix_cons_iff.mp h with hprefix | hinfix
    · exact .inl (prefix_of_append_cons (a := y :: a) hc hprefix).isInfix
    · rcases ih hinfix with ha | hb
      · exact .inl (ha.trans (List.infix_cons_iff.mpr (.inr List.infix_rfl)))
      · exact .inr hb

theorem not_infix_append_cons {w a b : List α} {c : α} (hc : c ∉ w) (ha : ¬ w <:+: a)
    (hb : ¬ w <:+: b) : ¬ w <:+: a ++ c :: b :=
  fun h => (infix_of_append_cons hc h).elim ha hb

/-! ## Lines -/

/-- A line is a part of the text. -/
theorem infix_of_mem_splitOnP (p : α → Bool) (t : List α) : ∀ l ∈ t.splitOnP p, l <:+: t := by
  have hsplit : ∀ l ls, t.splitOnP p = l :: ls → l <+: t ∧ ∀ l' ∈ ls, l' <:+: t := by
    induction t with
    | nil => simp
    | cons c t ih =>
      intro l ls h
      rw [List.splitOnP_cons_eq_if_modifyHead] at h
      obtain ⟨x, xs, hx⟩ := List.exists_cons_of_ne_nil (List.splitOnP_ne_nil p t)
      obtain ⟨hhead, htail⟩ := ih x xs hx
      have hcons : t <:+: c :: t := List.infix_cons_iff.mpr (.inr List.infix_rfl)
      split_ifs at h with hp
      · obtain ⟨rfl, rfl⟩ := List.cons.inj h
        refine ⟨List.nil_prefix, fun l' hl' => ?_⟩
        rw [hx, List.mem_cons] at hl'
        rcases hl' with rfl | hl'
        · exact hhead.isInfix.trans hcons
        · exact (htail l' hl').trans hcons
      · rw [hx, List.modifyHead_cons] at h
        obtain ⟨rfl, rfl⟩ := List.cons.inj h
        exact ⟨List.cons_prefix_cons.mpr ⟨rfl, hhead⟩, fun l' hl' => (htail l' hl').trans hcons⟩
  intro l hl
  obtain ⟨x, xs, hx⟩ := List.exists_cons_of_ne_nil (List.splitOnP_ne_nil p t)
  obtain ⟨hhead, htail⟩ := hsplit x xs hx
  rw [hx, List.mem_cons] at hl
  rcases hl with rfl | hl
  · exact hhead.isInfix
  · exact htail l hl

variable [DecidableEq α] {p : α → Bool} {w : List α}

/-- The lines with `w` in them. -/
def grepLines (p : α → Bool) (w t : List α) : List (List α) :=
  (t.splitOnP p).filter fun l => w <:+: l

theorem grepLines_append_cons {c : α} (hc : p c = true) (a b : List α) :
    grepLines p w (a ++ c :: b) = grepLines p w a ++ grepLines p w b := by
  rw [grepLines, List.splitOnP_append_cons _ _ hc, List.filter_append]
  rfl

theorem grepLines_of_not_infix {t : List α} (h : ¬ w <:+: t) : grepLines p w t = [] := by
  apply List.filter_eq_nil_iff.mpr
  intro l hl hw
  exact h ((of_decide_eq_true hw).trans (infix_of_mem_splitOnP p t l hl))

theorem grepLines_of_line {t : List α} (hline : ∀ c ∈ t, p c = false) (h : w <:+: t) :
    grepLines p w t = [t] := by
  rw [grepLines, List.splitOnP_eq_singleton hline]
  simp [h]

end KvmOsx.Lines
