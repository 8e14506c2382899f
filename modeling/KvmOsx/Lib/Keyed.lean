import KvmOsx.Lib.Text

/-!
# Lists with keys

A log is a list of entries, each with a key; the newest entry of a key is its last one.

* `filter_filterMap`: the entries of one key, when each key yields at most one.
* `lastPer`: the newest entry of every key; `lastPer_of_const`: of a log with one key.
* `foldl_log`: the log after a sequence of steps that append to it.
* `foldl_read`: what the step of one key leaves, when the other keys do not touch it.
-/

namespace KvmOsx.Keyed

variable {α β κ : Type*} [DecidableEq κ]

/-- Among distinct keys that yield an entry each, or none, the entries with key `k`
    are what `k` yields. -/
theorem filter_filterMap {f : κ → Option β} {key : β → κ} (hkey : ∀ k b, f k = some b → key b = k)
    {ks : List κ} (hks : ks.Nodup) (k : κ) :
    (ks.filterMap f).filter (fun b => key b = k) = if k ∈ ks then (f k).toList else [] := by
  induction ks with
  | nil => rfl
  | cons k' ks ih =>
    obtain ⟨hk', hks⟩ := List.nodup_cons.mp hks
    cases hf : f k' with
    | none =>
      rw [List.filterMap_cons_none hf, ih hks]
      by_cases hkk : k = k'
      · subst hkk
        simp [hk', hf]
      · simp [hkk]
    | some b =>
      rw [List.filterMap_cons_some hf, List.filter_cons, ih hks, hkey k' b hf]
      by_cases hkk : k = k'
      · subst hkk
        simp [hk', hf]
      · simp [hkk, Ne.symm hkk]

/-- The last entry of every key, in the order of the log. -/
def lastPer (key : α → κ) : List α → List α
  | [] => []
  | x :: xs => if key x ∈ xs.map key then lastPer key xs else x :: lastPer key xs

/-- A log whose entries have all the same key. -/
theorem lastPer_of_const {key : α → κ} {k : κ} {xs : List α} (h : ∀ x ∈ xs, key x = k) :
    lastPer key xs = xs.getLast?.toList := by
  induction xs with
  | nil => rfl
  | cons x xs ih =>
    have hxs : ∀ y ∈ xs, key y = k := fun y hy => h y (List.mem_cons_of_mem x hy)
    cases xs with
    | nil => rfl
    | cons y ys =>
      have hmem : key x ∈ (y :: ys).map key := by
        rw [h x List.mem_cons_self, ← hxs y List.mem_cons_self]
        exact List.mem_map_of_mem List.mem_cons_self
      rw [lastPer, if_pos hmem, ih hxs, List.getLast?_cons_cons]

/-- If the last entry is one of those that are kept, it stays the last one. -/
theorem getLast?_filter {p : α → Bool} {l : List α} (h : ∀ x ∈ l.getLast?, p x = true) :
    (l.filter p).getLast? = l.getLast? := by
  rcases List.eq_nil_or_concat l with rfl | ⟨ys, x, rfl⟩
  · rfl
  · have hx : p x = true := h x (by simp)
    simp [List.filter_append, hx]

/-- Steps that append to a log append what they emit, in order. -/
theorem foldl_log {σ γ : Type*} (log : σ → List α) {step : σ → γ → σ} {emit : γ → List α}
    (hstep : ∀ s c, log (step s c) = log s ++ emit c) (cs : List γ) (s : σ) :
    log (cs.foldl step s) = log s ++ cs.flatMap emit := by
  induction cs generalizing s with
  | nil => simp
  | cons c cs ih => rw [List.foldl_cons, ih, hstep, List.append_assoc, List.flatMap_cons]

/-- What the step of one key leaves is there at the end, if no other key touches it. -/
theorem foldl_read {σ : Type*} (read : σ → α) {f : σ → κ → σ} {k : κ} {v : α}
    (hstep : ∀ s, read (f s k) = v) (hframe : ∀ s k', k' ≠ k → read (f s k') = read s)
    {ks : List κ} (hk : k ∈ ks) (s : σ) : read (ks.foldl f s) = v := by
  induction ks using List.reverseRecOn with
  | nil => cases hk
  | append_singleton ks k' ih =>
    rw [List.foldl_append, List.foldl_cons, List.foldl_nil]
    by_cases hkk : k' = k
    · rw [hkk]
      exact hstep _
    · have hmem : k ∈ ks := by simpa [Ne.symm hkk] using hk
      rw [hframe _ _ hkk]
      exact ih hmem

end KvmOsx.Keyed
