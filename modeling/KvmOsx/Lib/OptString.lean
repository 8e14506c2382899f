import KvmOsx.Lib.Text

/-!
# Option strings

An option string is cut at its commas into items; two commas in a row are one comma of the
item they stand in. An item `key=value` is a pair.

* `items`: the items of a text; `escape` doubles the commas of an item.
* `items_escape_cons`: an escaped item, a comma and a rest are read back;
  `items_cases`: every text has this form.
* `item_plain`: an item that was not escaped is read back only if it has no comma.
* `items_append_cases`: two texts joined by a comma keep their items, unless the first ends
  in the middle of a doubled comma.
* `Pairs`, `Reads`: the items are pairs; none of the keys is repeated or among given ones.
-/

namespace KvmOsx.OptString

/-! ## Items -/

/-- The items of a text. -/
def items : List Char → List (List Char)
  | [] => [[]]
  | ',' :: ',' :: cs => (items cs).modifyHead (',' :: ·)
  | ',' :: cs => [] :: items cs
  | c :: cs => (items cs).modifyHead (c :: ·)

/-- A text begins with a comma. -/
def Comma (cs : List Char) : Prop := cs.head? = some ','

/-- Every comma doubled. -/
def escape (cs : List Char) : List Char := cs.flatMap fun c => if c = ',' then [',', ','] else [c]

@[simp] theorem items_nil : items [] = [[]] := by rw [items]

@[simp] theorem items_comma_comma (cs : List Char) :
    items (',' :: ',' :: cs) = (items cs).modifyHead (',' :: ·) := by rw [items]

theorem items_comma {cs : List Char} (h : ¬ Comma cs) : items (',' :: cs) = [] :: items cs := by
  rw [items]
  rintro cs' rfl
  exact h rfl

theorem items_ne_comma {c : Char} (h : c ≠ ',') (cs : List Char) :
    items (c :: cs) = (items cs).modifyHead (c :: ·) := by
  rw [items]
  · rintro cs' rfl
    exact absurd rfl h
  · exact h

@[simp] theorem escape_nil : escape [] = [] := rfl

@[simp] theorem escape_cons_comma (cs : List Char) : escape (',' :: cs) = ',' :: ',' :: escape cs :=
  rfl

theorem escape_cons_ne {c : Char} (h : c ≠ ',') (cs : List Char) :
    escape (c :: cs) = c :: escape cs := by simp [escape, h]

theorem escape_eq_self {cs : List Char} (h : ',' ∉ cs) : escape cs = cs := by
  induction cs with
  | nil => rfl
  | cons c cs ih =>
    have hc : c ≠ ',' := by
      rintro rfl
      exact h List.mem_cons_self
    rw [escape_cons_ne hc, ih fun hm => h (List.mem_cons_of_mem c hm)]

theorem items_ne_nil (cs : List Char) : items cs ≠ [] := by
  fun_induction items cs <;> simp_all [List.modifyHead_eq_nil_iff]

/-- An escaped item in front of a text without a comma at its start. -/
theorem items_escape_append (v cs : List Char) :
    items (escape v ++ cs) = (items cs).modifyHead (v ++ ·) := by
  induction v with
  | nil =>
    have hne := items_ne_nil cs
    cases hi : items cs with
    | nil => exact absurd hi hne
    | cons i is => simp [hi]
  | cons c v ih =>
    have hmod : (items cs).modifyHead (c :: v ++ ·) =
        ((items cs).modifyHead (v ++ ·)).modifyHead (c :: ·) := by
      cases items cs <;> simp
    rw [hmod, ← ih]
    by_cases hc : c = ','
    · subst hc
      rw [escape_cons_comma]
      exact items_comma_comma _
    · rw [escape_cons_ne hc]
      exact items_ne_comma hc _

/-- One escaped item. -/
theorem items_escape (v : List Char) : items (escape v) = [v] := by
  have h := items_escape_append v []
  simpa using h

/-- An escaped item, a comma and a rest. -/
theorem items_escape_cons (v : List Char) {r : List Char} (hr : ¬ Comma r) :
    items (escape v ++ ',' :: r) = v :: items r := by
  rw [items_escape_append, items_comma hr]
  simp

/-- The first item with its escapes makes up the text, or a comma and a rest follow it. -/
theorem items_cases {cs i : List Char} {is : List (List Char)} (h : items cs = i :: is) :
    (cs = escape i ∧ is = []) ∨
      ∃ r, cs = escape i ++ ',' :: r ∧ ¬ Comma r ∧ is = items r := by
  -- A character in front of the text belongs to its first item.
  have more : ∀ {u c : List Char} {x : Char} {cs i : List Char} {is : List (List Char)},
      (∀ {i is}, items cs = i :: is → (cs = escape i ∧ is = []) ∨
        ∃ r, cs = escape i ++ ',' :: r ∧ ¬ Comma r ∧ is = items r) →
      (∀ v, escape (x :: v) = u ++ escape v) → c = u ++ cs →
      (items cs).modifyHead (x :: ·) = i :: is →
      (c = escape i ∧ is = []) ∨ ∃ r, c = escape i ++ ',' :: r ∧ ¬ Comma r ∧ is = items r := by
    intro u c x cs i is ih hx hc h
    cases hi : items cs with
    | nil => exact absurd hi (items_ne_nil cs)
    | cons i₀ is₀ =>
      rw [hi] at h
      obtain ⟨rfl, rfl⟩ := List.cons.inj h
      rw [hc, hx]
      rcases ih hi with ⟨h1, h2⟩ | ⟨r, h1, h2, h3⟩
      · exact Or.inl ⟨by rw [h1], h2⟩
      · exact Or.inr ⟨r, by rw [h1, List.append_assoc], h2, h3⟩
  fun_induction items cs generalizing i is with
  | case1 =>
    obtain ⟨rfl, rfl⟩ := List.cons.inj h
    exact Or.inl ⟨rfl, rfl⟩
  | case2 cs ih => exact more ih (u := [',', ',']) (fun v => rfl) rfl h
  | case3 cs hcs _ =>
    obtain ⟨rfl, rfl⟩ := List.cons.inj h
    refine Or.inr ⟨cs, rfl, ?_, rfl⟩
    intro hc
    obtain ⟨cs', rfl⟩ := List.head?_eq_some_iff.mp hc
    exact hcs cs' rfl
  | case4 c cs _ hc ih => exact more ih (u := [c]) (escape_cons_ne hc) rfl h

/-- No text of the form `item,rest` with a comma at the start of the item's rest is its escaped
    form: what the doubled commas add is never made up for. -/
theorem append_ne_commas_escape {v r t : List Char} (hr : r ≠ [] ∧ ¬ Comma r)
    (ht : t = [] ∨ Comma t) (k : ℕ) :
    v ++ ',' :: r ≠ List.replicate (k + 1) ',' ++ (escape v ++ t) := by
  induction v generalizing k with
  | nil =>
    intro h
    rw [List.replicate_succ] at h
    have hrt : r = List.replicate k ',' ++ t := by simpa using h
    cases k with
    | zero =>
      have hrt : r = t := by simpa using hrt
      subst hrt
      rcases ht with ht | ht
      · exact hr.1 ht
      · exact hr.2 ht
    | succ k => exact hr.2 (by rw [hrt, List.replicate_succ]; rfl)
  | cons c v ih =>
    intro h
    rw [List.replicate_succ, List.cons_append, List.cons_append] at h
    obtain ⟨rfl, h⟩ := List.cons.inj h
    apply ih (k + 1)
    rw [h, escape_cons_comma, List.replicate_succ' (n := k + 1), List.replicate_succ']
    simp

/-- An item that was put in front of a comma as it is, is read back only if it has no comma. -/
theorem item_plain {v r : List Char} {is : List (List Char)} (hr : r ≠ [] ∧ ¬ Comma r)
    (h : items (v ++ ',' :: r) = v :: is) : ',' ∉ v := by
  have htail : ∃ t, v ++ ',' :: r = escape v ++ t ∧ (t = [] ∨ Comma t) := by
    rcases items_cases h with ⟨h1, -⟩ | ⟨r', h1, -, -⟩
    · exact ⟨[], by rw [h1, List.append_nil], Or.inl rfl⟩
    · exact ⟨',' :: r', h1, Or.inr rfl⟩
  obtain ⟨t, hv, ht⟩ := htail
  clear h
  induction v with
  | nil => exact List.not_mem_nil
  | cons c v ih =>
    by_cases hc : c = ','
    · subst hc
      rw [escape_cons_comma] at hv
      have hv : v ++ ',' :: r = List.replicate (0 + 1) ',' ++ (escape v ++ t) := by
        simpa using hv
      exact absurd hv (append_ne_commas_escape hr ht 0)
    · rw [escape_cons_ne hc] at hv
      have hv : v ++ ',' :: r = escape v ++ t := by simpa using hv
      intro hm
      rcases List.mem_cons.mp hm with rfl | hm
      · exact hc rfl
      · exact ih hv hm

/-- An item without comma in front of a comma. -/
theorem items_plain_cons {v r : List Char} (hv : ',' ∉ v) (hr : ¬ Comma r) :
    items (v ++ ',' :: r) = v :: items r := by
  have h := items_escape_cons v hr
  rwa [escape_eq_self hv] at h

/-- A text without comma in front of another belongs to its first item. -/
theorem items_plain_append {v : List Char} (hv : ',' ∉ v) (cs : List Char) :
    items (v ++ cs) = (items cs).modifyHead (v ++ ·) := by
  have h := items_escape_append v cs
  rwa [escape_eq_self hv] at h

/-- One item without comma. -/
theorem items_plain {v : List Char} (hv : ',' ∉ v) : items v = [v] := by
  have h := items_escape v
  rwa [escape_eq_self hv] at h

/-- An item without comma in front of a comma is read back only if the rest does not begin
    with one. -/
theorem not_comma_of_items {v r : List Char} {is : List (List Char)} (hv : ',' ∉ v)
    (h : items (v ++ ',' :: r) = v :: is) : ¬ Comma r := by
  intro hr
  obtain ⟨r', rfl⟩ := List.head?_eq_some_iff.mp hr
  rw [items_plain_append hv, items_comma_comma] at h
  have hne := items_ne_nil r'
  cases hi : items r' with
  | nil => exact hne hi
  | cons i is' =>
    rw [hi] at h
    have hhead : v ++ ',' :: i = v := (List.cons.inj h).1
    simpa using congrArg List.length hhead

/-- Two texts joined by a comma keep their items, or the first ends in an empty item and the
    comma is taken for the second half of a doubled one. -/
theorem items_append_cases (a : List Char) {b : List Char} (hb : ¬ Comma b) :
    items (a ++ ',' :: b) = items a ++ items b ∨
      ∃ is i h t, items a = is ++ [i, []] ∧ items b = h :: t ∧
        items (a ++ ',' :: b) = is ++ (i ++ ',' :: h) :: t := by
  -- A character in front of the first text changes neither case.
  have more : ∀ (x : Char) (cs : List Char),
      (items (cs ++ ',' :: b) = items cs ++ items b ∨
        ∃ is i h t, items cs = is ++ [i, []] ∧ items b = h :: t ∧
          items (cs ++ ',' :: b) = is ++ (i ++ ',' :: h) :: t) →
      (items (cs ++ ',' :: b)).modifyHead (x :: ·) =
          (items cs).modifyHead (x :: ·) ++ items b ∨
        ∃ is i h t, (items cs).modifyHead (x :: ·) = is ++ [i, []] ∧ items b = h :: t ∧
          (items (cs ++ ',' :: b)).modifyHead (x :: ·) = is ++ (i ++ ',' :: h) :: t := by
    rintro x cs (h | ⟨is, i, h, t, ha, hh, ht⟩)
    · left
      rw [h]
      cases hi : items cs with
      | nil => exact absurd hi (items_ne_nil cs)
      | cons i is => rfl
    · right
      rw [ha, ht]
      cases is with
      | nil => exact ⟨[], x :: i, h, t, rfl, hh, rfl⟩
      | cons j is => exact ⟨(x :: j) :: is, i, h, t, rfl, hh, rfl⟩
  fun_induction items a with
  | case1 =>
    left
    rw [List.nil_append, items_comma hb]
    rfl
  | case2 cs ih =>
    rw [List.cons_append, List.cons_append, items_comma_comma]
    exact more ',' cs ih
  | case3 cs hcs ih =>
    cases cs with
    | nil =>
      right
      obtain ⟨h, t, hh⟩ := List.exists_cons_of_ne_nil (items_ne_nil b)
      refine ⟨[], [], h, t, by simp, hh, ?_⟩
      show items (',' :: ',' :: b) = _
      rw [items_comma_comma, hh]
      rfl
    | cons c cs =>
      have hc : ¬ Comma (c :: cs ++ ',' :: b) := by
        intro h
        obtain rfl : c = ',' := by simpa [Comma] using h
        exact hcs cs rfl
      rw [List.cons_append, items_comma hc]
      rcases ih with h | ⟨is, i, h, t, ha, hh, ht⟩
      · left
        rw [h]
        rfl
      · exact Or.inr ⟨[] :: is, i, h, t, by rw [ha]; rfl, hh, by rw [ht]; rfl⟩
  | case4 c cs _ hc ih =>
    rw [List.cons_append, items_ne_comma hc]
    exact more c cs ih

/-! ## Pairs -/

/-- A key that can be told from its value. -/
def IsKey (k : String) : Prop := k ≠ "" ∧ '=' ∉ k.toList ∧ ',' ∉ k.toList

instance (k : String) : Decidable (IsKey k) := inferInstanceAs (Decidable (_ ∧ _ ∧ _))

/-- `key=value`. -/
def kv (p : String × String) : List Char := p.1.toList ++ '=' :: p.2.toList

/-- The items are pairs, their keys distinct and none of `avoid`. -/
structure Reads (avoid : List String) (is : List (List Char)) (ps : List (String × String)) :
    Prop where
  items : is = ps.map kv
  keys : ∀ p ∈ ps, IsKey p.1
  nodup : (ps.map Prod.fst).Nodup
  fresh : ∀ k ∈ ps.map Prod.fst, k ∉ avoid

/-- The key of an item is what stands before its first `=`. -/
theorem kv_key {p : String × String} {k : String} {v : List Char} (hp : IsKey p.1) (hk : IsKey k)
    (h : k.toList ++ '=' :: v = kv p) : p = (k, String.ofList v) := by
  have hsplit := congrArg (List.splitOn '=') h
  rw [kv, List.splitOn_append_cons_self_of_not_mem hk.2.1,
    List.splitOn_append_cons_self_of_not_mem hp.2.1] at hsplit
  have hkey : k = p.1 := String.toList_inj.mp (List.cons.inj hsplit).1
  rw [kv, hkey] at h
  have hval : v = p.2.toList := (List.cons.inj (List.append_cancel_left h)).2
  rw [hkey, hval, String.ofList_toList]

theorem comma_not_mem_kv {k v : String} (hk : IsKey k) : ',' ∉ kv (k, v) ↔ ',' ∉ v.toList := by
  simp [kv, hk.2.2]

/-- The empty list of items. -/
@[simp] theorem reads_nil {avoid : List String} {ps : List (String × String)} :
    Reads avoid [] ps ↔ ps = [] := by
  constructor
  · intro h
    simpa using h.items
  · rintro rfl
    exact ⟨rfl, by simp, by simp, by simp⟩

/-- One more item. -/
theorem reads_cons {avoid : List String} {i : List Char} {is : List (List Char)}
    {ps : List (String × String)} :
    Reads avoid (i :: is) ps ↔ ∃ p ps', ps = p :: ps' ∧ i = kv p ∧ IsKey p.1 ∧ p.1 ∉ avoid ∧
      Reads (p.1 :: avoid) is ps' := by
  constructor
  · intro h
    cases ps with
    | nil => simpa using h.items
    | cons p ps =>
      obtain ⟨hi, his⟩ := List.cons.inj h.items
      have hnodup := List.nodup_cons.mp h.nodup
      refine ⟨p, ps, rfl, hi, h.keys p List.mem_cons_self, h.fresh p.1 (by simp), ?_⟩
      refine ⟨his, fun q hq => h.keys q (List.mem_cons_of_mem p hq), hnodup.2, ?_⟩
      intro k hk hmem
      rcases List.mem_cons.mp hmem with rfl | hmem
      · exact hnodup.1 hk
      · exact h.fresh k (List.mem_cons_of_mem _ hk) hmem
  · rintro ⟨p, ps, rfl, rfl, hkey, hfresh, h⟩
    refine ⟨by rw [h.items]; rfl, ?_, ?_, ?_⟩
    · intro q hq
      rcases List.mem_cons.mp hq with rfl | hq
      · exact hkey
      · exact h.keys q hq
    · exact List.nodup_cons.mpr ⟨fun hm => h.fresh p.1 hm List.mem_cons_self, h.nodup⟩
    · intro k hk
      rcases List.mem_cons.mp hk with rfl | hk
      · exact hfresh
      · exact fun hm => h.fresh k hk (List.mem_cons_of_mem _ hm)

section Item

variable {avoid : List String} {ps : List (String × String)} {k v : String} {r : List Char}

/-- A text that begins `key=value` and gives the key this value has the pair as its first. -/
theorem reads_head (hk : IsKey k) (h : Reads avoid (items (kv (k, v) ++ r)) ps)
    (hmem : (k, v) ∈ ps) :
    ∃ is ps', items (kv (k, v) ++ r) = kv (k, v) :: is ∧ ps = (k, v) :: ps' ∧
      Reads (k :: avoid) is ps' := by
  have hfront : ',' ∉ k.toList ++ ['='] := by simp [hk.2.2]
  have hcut : kv (k, v) ++ r = (k.toList ++ ['=']) ++ (v.toList ++ r) := by simp [kv]
  obtain ⟨i, is, hi⟩ := List.exists_cons_of_ne_nil (items_ne_nil (v.toList ++ r))
  have hitems : items (kv (k, v) ++ r) = (k.toList ++ '=' :: i) :: is := by
    rw [hcut, items_plain_append hfront, hi]
    simp
  rw [hitems] at h ⊢
  obtain ⟨p, ps', rfl, hp, hkey, -, hrest⟩ := reads_cons.mp h
  have hpk : p = (k, String.ofList i) := kv_key hkey hk hp
  subst hpk
  have hval : (k, v) = (k, String.ofList i) := by
    rcases List.mem_cons.mp hmem with heq | hmem
    · exact heq
    · exact absurd (List.mem_map_of_mem hmem) (List.nodup_cons.mp h.nodup).1
  refine ⟨is, ps', ?_, by rw [hval], hrest⟩
  rw [hp, hval]

/-- A text whose items are pairs does not begin with a comma. -/
theorem not_comma_of_reads (h : Reads avoid (items r) ps) : ¬ Comma r := by
  intro hr
  obtain ⟨r', rfl⟩ := List.head?_eq_some_iff.mp hr
  obtain ⟨i, is, hi⟩ := List.exists_cons_of_ne_nil (items_ne_nil (',' :: r'))
  rw [hi] at h
  obtain ⟨p, ps', rfl, rfl, hkey, -, -⟩ := reads_cons.mp h
  obtain ⟨c, k, hck⟩ := List.exists_cons_of_ne_nil (fun hnil => hkey.1 (String.toList_inj.mp hnil))
  have hc : c ≠ ',' := by
    rintro rfl
    exact hkey.2.2 (by rw [hck]; exact List.mem_cons_self)
  have hesc : escape (kv p) = c :: escape (k ++ '=' :: p.2.toList) := by
    rw [kv, hck, List.cons_append, escape_cons_ne hc]
  rcases items_cases hi with ⟨h1, -⟩ | ⟨r'', h1, -, -⟩
  · rw [hesc] at h1
    exact hc (List.cons.inj h1).1.symm
  · rw [hesc] at h1
    exact hc (List.cons.inj h1).1.symm

/-- `key=value,rest` for a value without comma and a rest that does not begin with one. -/
theorem reads_step (hk : IsKey k) (hv : ',' ∉ v.toList) (hr : ¬ Comma r) :
    Reads avoid (items (kv (k, v) ++ ',' :: r)) ps ↔
      k ∉ avoid ∧ ∃ ps', ps = (k, v) :: ps' ∧ Reads (k :: avoid) (items r) ps' := by
  rw [items_plain_cons ((comma_not_mem_kv hk).mpr hv) hr, reads_cons]
  constructor
  · rintro ⟨p, ps', rfl, hp, hkey, hfresh, hrest⟩
    have hpk : p = (k, v) := by rw [kv_key hkey hk hp, String.ofList_toList]
    subst hpk
    exact ⟨hfresh, ps', rfl, hrest⟩
  · rintro ⟨hfresh, ps', rfl, hrest⟩
    exact ⟨(k, v), ps', rfl, rfl, hk, hfresh, hrest⟩

/-- `key=value,rest` gives the key its value exactly if the value has no comma. -/
theorem reads_item (hk : IsKey k) (hr : r ≠ [] ∧ ¬ Comma r) (hfresh : k ∉ avoid) :
    Reads avoid (items (kv (k, v) ++ ',' :: r)) ps ∧ (k, v) ∈ ps ↔
      ',' ∉ v.toList ∧ ∃ ps', ps = (k, v) :: ps' ∧ Reads (k :: avoid) (items r) ps' := by
  constructor
  · rintro ⟨h, hmem⟩
    obtain ⟨is, ps', hi, -, -⟩ := reads_head hk h hmem
    have hv : ',' ∉ v.toList := (comma_not_mem_kv hk).mp (item_plain hr hi)
    exact ⟨hv, ((reads_step hk hv hr.2).mp h).2⟩
  · rintro ⟨hv, ps', rfl, h⟩
    exact ⟨(reads_step hk hv hr.2).mpr ⟨hfresh, ps', rfl, h⟩, List.mem_cons_self⟩

/-- `key=value,rest` for a value without comma: the rest must not begin with one. -/
theorem reads_plain (hk : IsKey k) (hv : ',' ∉ v.toList) (hfresh : k ∉ avoid) :
    Reads avoid (items (kv (k, v) ++ ',' :: r)) ps ∧ (k, v) ∈ ps ↔
      ∃ ps', ps = (k, v) :: ps' ∧ Reads (k :: avoid) (items r) ps' := by
  constructor
  · rintro ⟨h, hmem⟩
    obtain ⟨is, ps', hi, -, -⟩ := reads_head hk h hmem
    have hr : ¬ Comma r := not_comma_of_items ((comma_not_mem_kv hk).mpr hv) hi
    exact ((reads_step hk hv hr).mp h).2
  · rintro ⟨ps', rfl, h⟩
    exact ⟨(reads_step hk hv (not_comma_of_reads h)).mpr ⟨hfresh, ps', rfl, h⟩,
      List.mem_cons_self⟩

end Item

/-! ## Several pairs -/

/-- Pairs that are read back as they are: a key, and a value without comma. -/
def Plain (hs : List (String × String)) : Prop := ∀ p ∈ hs, IsKey p.1 ∧ ',' ∉ p.2.toList

/-- `key=value,key=value,…` in front of a text. -/
def front (hs : List (String × String)) (r : List Char) : List Char :=
  hs.foldr (fun p t => kv p ++ ',' :: t) r

@[simp] theorem front_nil (r : List Char) : front [] r = r := rfl

@[simp] theorem front_cons (p : String × String) (hs : List (String × String)) (r : List Char) :
    front (p :: hs) r = kv p ++ ',' :: front hs r := rfl

theorem front_append (hs hs' : List (String × String)) (r : List Char) :
    front (hs ++ hs') r = front hs (front hs' r) := List.foldr_append

theorem not_comma_kv {p : String × String} (hp : IsKey p.1) (r : List Char) :
    ¬ Comma (kv p ++ r) := by
  obtain ⟨c, k, hck⟩ := List.exists_cons_of_ne_nil (fun hnil => hp.1 (String.toList_inj.mp hnil))
  intro h
  have hc : c = ',' := by simpa [Comma, kv, hck] using h
  exact hp.2.2 (by rw [hck, hc]; exact List.mem_cons_self)

theorem not_comma_front {hs : List (String × String)} {r : List Char} (hp : Plain hs)
    (hr : ¬ Comma r) : ¬ Comma (front hs r) := by
  cases hs with
  | nil => exact hr
  | cons p hs => exact not_comma_kv (hp p List.mem_cons_self).1 _

/-- Plain pairs in front of a text are its first items. -/
theorem items_front {hs : List (String × String)} {r : List Char} (hp : Plain hs)
    (hr : ¬ Comma r) : items (front hs r) = hs.map kv ++ items r := by
  induction hs with
  | nil => rfl
  | cons p hs ih =>
    have hhs : Plain hs := fun q hq => hp q (List.mem_cons_of_mem p hq)
    obtain ⟨hkey, hval⟩ := hp p List.mem_cons_self
    have hcomma : ',' ∉ kv p := (comma_not_mem_kv hkey).mpr hval
    rw [front_cons, items_plain_cons hcomma (not_comma_front hhs hr), ih hhs]
    rfl

/-- Pairs in front of the others. -/
theorem reads_append {avoid : List String} {hs ps : List (String × String)}
    {is : List (List Char)} (hk : ∀ p ∈ hs, IsKey p.1) (hn : (hs.map Prod.fst).Nodup)
    (hf : ∀ k ∈ hs.map Prod.fst, k ∉ avoid) :
    Reads avoid (hs.map kv ++ is) (hs ++ ps) ↔ Reads (hs.map Prod.fst ++ avoid) is ps := by
  constructor
  · intro h
    have hnodup := h.nodup
    rw [List.map_append, List.nodup_append] at hnodup
    refine ⟨?_, fun p hp => h.keys p (List.mem_append_right hs hp), hnodup.2.1, ?_⟩
    · have hi := h.items
      rw [List.map_append] at hi
      exact List.append_cancel_left hi
    · intro k hk hmem
      rcases List.mem_append.mp hmem with hmem | hmem
      · exact hnodup.2.2 k hmem k hk rfl
      · exact h.fresh k (by rw [List.map_append]; exact List.mem_append_right _ hk) hmem
  · intro h
    refine ⟨by rw [h.items, List.map_append], ?_, ?_, ?_⟩
    · intro p hp
      exact (List.mem_append.mp hp).elim (hk p) (h.keys p)
    · rw [List.map_append, List.nodup_append]
      refine ⟨hn, h.nodup, ?_⟩
      rintro k hk k' hk' rfl
      exact h.fresh k hk' (List.mem_append_left _ hk)
    · intro k hk
      rw [List.map_append] at hk
      rcases List.mem_append.mp hk with hk | hk
      · exact hf k hk
      · exact fun hm => h.fresh k hk (List.mem_append_right _ hm)

/-- A text behind `key=value` whose pair is among those that are read: the text is empty or
    begins with a comma. -/
theorem eq_nil_of_reads {avoid : List String} {is : List (List Char)} {p : String × String}
    {ps : List (String × String)} {r : List Char} (hk : IsKey p.1) (hv : ',' ∉ kv p)
    (hr : ¬ Comma r) (h : Reads avoid (is ++ items (kv p ++ r)) ps) (hp : p ∈ ps) : r = [] := by
  obtain ⟨i, js, hi⟩ := List.exists_cons_of_ne_nil (items_ne_nil r)
  have hitems := h.items
  rw [items_plain_append hv, hi] at hitems
  obtain ⟨ps₁, ps₂, rfl, -, h₂⟩ := List.append_eq_map_iff.mp hitems
  obtain ⟨q, qs, rfl, hq, -⟩ := List.map_eq_cons_iff.mp h₂
  have hmem : q ∈ ps₁ ++ q :: qs := by simp
  have hq' : p.1.toList ++ '=' :: (p.2.toList ++ i) = kv q := by simpa [kv] using hq.symm
  have hval : q = (p.1, String.ofList (p.2.toList ++ i)) := kv_key (h.keys q hmem) hk hq'
  have hsame : q = p := List.inj_on_of_nodup_map h.nodup hmem hp (by rw [hval])
  have hi0 : i = [] := by
    rw [hsame] at hval
    have hlen := congrArg (fun x => x.2.toList.length) hval
    simpa using hlen
  cases r with
  | nil => rfl
  | cons c r =>
    have hc : c ≠ ',' := by
      rintro rfl
      exact hr rfl
    rw [items_ne_comma hc, hi0] at hi
    obtain ⟨j, js', hj⟩ := List.exists_cons_of_ne_nil (items_ne_nil r)
    rw [hj] at hi
    exact absurd (List.cons.inj hi).1 (List.cons_ne_nil _ _)

/-- Plain pairs with distinct keys. -/
theorem reads_front {avoid : List String} {hs : List (String × String)} {p : String × String}
    (hp : Plain (hs ++ [p])) (hnodup : ((hs ++ [p]).map Prod.fst).Nodup)
    (hfresh : ∀ k ∈ (hs ++ [p]).map Prod.fst, k ∉ avoid) :
    Reads avoid (items (front hs (kv p))) (hs ++ [p]) := by
  have hlast : IsKey p.1 ∧ ',' ∉ p.2.toList := hp p (by simp)
  have hcomma : ¬ Comma (kv p) := by simpa using not_comma_kv hlast.1 []
  refine ⟨?_, fun q hq => (hp q hq).1, hnodup, hfresh⟩
  rw [items_front (fun q hq => hp q (List.mem_append_left _ hq)) hcomma,
    items_plain ((comma_not_mem_kv hlast.1).mpr hlast.2), List.map_append]
  rfl

end KvmOsx.OptString
