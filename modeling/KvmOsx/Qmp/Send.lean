import KvmOsx.Lib.JsonParse
import KvmOsx.Lib.Words

/-!
# The command of `qmp-send`

`qmp-send MACHINE COMMAND` puts the command into an array through an unquoted `${@}`, and
prints the elements of the array, one on each line (lines 34 to 40).

* `sent`: what is written behind the line of `qmp_capabilities`.
* `squeeze`, `squeezeRest`: the words of a text on lines of their own, by recursion on the
  text, and the same from within a word.
* `lex_squeeze`: they have the tokens of the text, or are refused where a string is broken.
* `sent_faithful_iff`: the commands that QEMU gets as they were meant.
-/

namespace KvmOsx.Qmp

open Words Json

/-- `printf '%s\n'` of the elements from `${@}`. -/
def sent (dir : Directory) (c : String) : List Char :=
  (dir.unquoted c).flatMap fun w => w.toList ++ ['\n']

/-- The string literals of the tokens have no blank in them. -/
def Unbroken (ts : List Token) : Prop :=
  ∀ raw, Token.str raw ∈ ts → ∀ x ∈ raw, isBlank x = false

/-! ## Words on lines -/

/-- Pieces that are not empty, each with a newline. -/
def onLines (ps : List (List Char)) : List Char :=
  (ps.filter (· ≠ [])).flatMap (· ++ ['\n'])

/-- The words of a text on lines of their own. -/
def squeeze (cs : List Char) : List Char := onLines (cs.splitOnP isBlank)

/-- The same for the text behind a character of a word. -/
def squeezeRest (cs : List Char) : List Char :=
  (cs.splitOnP isBlank).headD [] ++ '\n' :: onLines (cs.splitOnP isBlank).tail

theorem squeeze_nil : squeeze [] = [] := by
  simp [squeeze, onLines]

theorem squeezeRest_nil : squeezeRest [] = ['\n'] := by
  simp [squeezeRest, onLines]

theorem squeeze_blank {c : Char} (hc : isBlank c = true) (cs : List Char) :
    squeeze (c :: cs) = squeeze cs := by
  simp [squeeze, List.splitOnP_cons_eq_if_modifyHead, hc, onLines]

theorem squeezeRest_blank {c : Char} (hc : isBlank c = true) (cs : List Char) :
    squeezeRest (c :: cs) = '\n' :: squeeze cs := by
  simp [squeezeRest, squeeze, List.splitOnP_cons_eq_if_modifyHead, hc]

theorem squeeze_cons {c : Char} (hc : isBlank c = false) (cs : List Char) :
    squeeze (c :: cs) = c :: squeezeRest cs := by
  obtain ⟨x, xs, hx⟩ := List.exists_cons_of_ne_nil (List.splitOnP_ne_nil isBlank cs)
  simp [squeeze, squeezeRest, List.splitOnP_cons_eq_if_modifyHead, hc, hx, onLines]

theorem squeezeRest_cons {c : Char} (hc : isBlank c = false) (cs : List Char) :
    squeezeRest (c :: cs) = c :: squeezeRest cs := by
  obtain ⟨x, xs, hx⟩ := List.exists_cons_of_ne_nil (List.splitOnP_ne_nil isBlank cs)
  simp [squeezeRest, List.splitOnP_cons_eq_if_modifyHead, hc, hx]

/-- Where no file matches a word, the words are sent as they are. -/
theorem sent_eq {dir : Directory} {c : String} (hquiet : ∀ w ∈ words c, dir.glob w = [w]) :
    sent dir c = squeeze c.toList := by
  rw [sent, Directory.unquoted_eq rfl hquiet, words, List.flatMap_map, squeeze, onLines, pieces]
  simp

/-! ## Tokens -/

theorem Unbroken.append {ts ts' : List Token} :
    Unbroken (ts ++ ts') ↔ Unbroken ts ∧ Unbroken ts' := by
  simp only [Unbroken, List.mem_append]
  constructor
  · exact fun h => ⟨fun raw hraw => h raw (.inl hraw), fun raw hraw => h raw (.inr hraw)⟩
  · exact fun h raw hraw => hraw.elim (h.1 raw) (h.2 raw)

/-- What has been read of a string so far has no blank in it. -/
def LexState.Whole : LexState → Prop
  | .str raw => ∀ x ∈ raw, isBlank x = false
  | .esc raw => ∀ x ∈ raw, isBlank x = false
  | _ => True

theorem isSpace_of_isBlank {c : Char} (hc : isBlank c = true) : isSpace c = true := by
  simp only [isBlank, Bool.or_eq_true, decide_eq_true_eq] at hc
  simp [isSpace, hc]

/-- A blank ends a number or a word outside of strings. -/
theorem outside_blank {c : Char} (hc : isBlank c = true) (out : List Token) (text : List Char) :
    outside out text c = (out, .start) := if_pos (isSpace_of_isBlank hc)

theorem outside_whole {out : List Token} (hout : Unbroken out) (text : List Char) (c : Char) :
    Unbroken (outside out text c).1 ∧ LexState.Whole (outside out text c).2 := by
  have hempty : Unbroken [] := fun raw hraw => by cases hraw
  have hpunct : Unbroken [.punct c] := fun raw hraw => by simp at hraw
  unfold outside
  split_ifs
  · exact ⟨hout, trivial⟩
  · exact ⟨hout, fun x hx => by cases hx⟩
  · exact ⟨Unbroken.append.mpr ⟨hout, hpunct⟩, trivial⟩
  · exact ⟨hempty, trivial⟩

/-- A character that is no blank keeps whole what is whole. -/
theorem step_whole {s s' : LexState} {c : Char} {out : List Token} (hs : LexState.Whole s)
    (hc : isBlank c = false) (h : step s c = some (out, s')) :
    Unbroken out ∧ LexState.Whole s' := by
  have hempty : Unbroken [] := fun raw hraw => by cases hraw
  cases s with
  | start =>
    have hwhole := outside_whole hempty [] c
    rwa [Option.some.inj h] at hwhole
  | atom text =>
    have hatom : Unbroken [.atom text] := fun raw hraw => by simp at hraw
    have hwhole := outside_whole hatom text c
    rwa [Option.some.inj h] at hwhole
  | str raw =>
    rw [step] at h
    split_ifs at h
    · obtain ⟨rfl, rfl⟩ := Prod.mk.inj (Option.some.inj h)
      exact ⟨by simpa [Unbroken, LexState.Whole] using hs, trivial⟩
    · obtain ⟨rfl, rfl⟩ := Prod.mk.inj (Option.some.inj h)
      exact ⟨hempty, hs⟩
    · obtain ⟨rfl, rfl⟩ := Prod.mk.inj (Option.some.inj h)
      refine ⟨hempty, fun x hx => ?_⟩
      rcases List.mem_append.mp hx with hx | hx
      · exact hs x hx
      · rw [List.mem_singleton.mp hx, hc]
  | esc raw =>
    rw [step] at h
    split_ifs at h
    obtain ⟨rfl, rfl⟩ := Prod.mk.inj (Option.some.inj h)
    refine ⟨hempty, fun x hx => ?_⟩
    rcases List.mem_append.mp hx with hx | hx
    · exact hs x hx
    · rcases List.mem_pair.mp hx with rfl | rfl
      · rfl
      · exact hc

open Classical in
/-- The tokens of a text whose blanks are newlines: those of the text, or none if a string
    literal has a blank in it. -/
theorem lex_squeeze (cs : List Char) :
    (∀ ts, lex .start cs = some ts →
      lex .start (squeeze cs) = if Unbroken ts then some ts else none) ∧
    ∀ s ts, LexState.Whole s → lex s cs = some ts →
      lex s (squeezeRest cs) = if Unbroken ts then some ts else none := by
  induction cs with
  | nil =>
    constructor
    · intro ts hts
      obtain rfl := Option.some.inj hts
      have hunbroken : Unbroken [] := fun raw hraw => by cases hraw
      rw [squeeze_nil, if_pos hunbroken]
      exact hts
    · intro s ts hs hts
      rw [squeezeRest_nil, lex_cons]
      cases s with
      | start =>
        obtain rfl := Option.some.inj hts
        have hunbroken : Unbroken [] := fun raw hraw => by cases hraw
        rw [if_pos hunbroken]
        rfl
      | atom text =>
        obtain rfl := Option.some.inj hts
        have hunbroken : Unbroken [.atom text] := fun raw hraw => by simp at hraw
        rw [if_pos hunbroken]
        rfl
      | str raw => cases hts
      | esc raw => cases hts
  | cons c cs ih =>
    obtain ⟨ihStart, ihRest⟩ := ih
    cases hc : isBlank c with
    | true =>
      -- outside of strings a blank ends what is open, and so does the newline in its place
      have hstart (out : List Token) (text : List Char) {ts : List Token}
          (hout : Unbroken out)
          (hts : (some (outside out text c)).bind (fun p => (lex p.2 cs).map (p.1 ++ ·)) = some ts) :
          ((some (outside out text '\n')).bind fun p => (lex p.2 (squeeze cs)).map (p.1 ++ ·)) =
            if Unbroken ts then some ts else none := by
        rw [outside_blank hc] at hts
        rw [outside_blank rfl]
        obtain ⟨ts', hts', rfl⟩ := Option.map_eq_some_iff.mp hts
        have hsame : Unbroken (out ++ ts') ↔ Unbroken ts' := by
          rw [Unbroken.append]
          exact and_iff_right hout
        show (lex .start (squeeze cs)).map (out ++ ·) = _
        rw [ihStart ts' hts']
        simp only [hsame]
        split_ifs <;> rfl
      have hempty : Unbroken [] := fun raw hraw => by cases hraw
      constructor
      · intro ts hts
        rw [squeeze_blank hc]
        apply ihStart
        rw [lex_cons] at hts
        have hstep : step .start c = some ([], .start) := congrArg some (outside_blank hc [] [])
        rw [hstep] at hts
        simpa using hts
      · intro s ts hs hts
        rw [squeezeRest_blank hc, lex_cons]
        rw [lex_cons] at hts
        cases s with
        | start => exact hstart [] [] hempty hts
        | atom text =>
          exact hstart [.atom text] text (fun raw hraw => by simp at hraw) hts
        | str raw =>
          -- the newline is refused, and the string has a blank in it
          have hbroken : ¬ Unbroken ts := by
            obtain ⟨⟨out, s'⟩, hstep, hrest⟩ := Option.bind_eq_some_iff.mp hts
            obtain ⟨ts', hts', rfl⟩ := Option.map_eq_some_iff.mp hrest
            rw [step] at hstep
            split_ifs at hstep with hquote hslash
            · rw [hquote] at hc
              cases hc
            · rw [hslash] at hc
              cases hc
            · obtain ⟨rfl, rfl⟩ := Prod.mk.inj (Option.some.inj hstep)
              obtain ⟨more, ts₁, rfl⟩ := exists_str_of_lex (.inl rfl) hts'
              intro hall
              have hfalse := hall (raw ++ [c] ++ more) (by simp) c (by simp)
              rw [hc] at hfalse
              cases hfalse
          rw [if_neg hbroken]
          rfl
        | esc raw =>
          -- no blank stands behind a backslash
          obtain ⟨p, hstep, -⟩ := Option.bind_eq_some_iff.mp hts
          rw [step] at hstep
          split_ifs at hstep with hmem
          simp only [List.contains_eq_mem, List.mem_cons, List.not_mem_nil, or_false,
            decide_eq_true_eq] at hmem
          rcases hmem with rfl | rfl | rfl | rfl | rfl | rfl | rfl | rfl | rfl <;> cases hc
    | false =>
      have hrest : ∀ s ts, LexState.Whole s → lex s (c :: cs) = some ts →
          lex s (c :: squeezeRest cs) = if Unbroken ts then some ts else none := by
        intro s ts hs hts
        rw [lex_cons] at hts
        obtain ⟨⟨out, s'⟩, hstep, hlex⟩ := Option.bind_eq_some_iff.mp hts
        obtain ⟨ts', hts', rfl⟩ := Option.map_eq_some_iff.mp hlex
        obtain ⟨hout, hs'⟩ := step_whole hs hc hstep
        have hsame : Unbroken (out ++ ts') ↔ Unbroken ts' := by
          rw [Unbroken.append]
          exact and_iff_right hout
        rw [lex_cons, hstep]
        show (lex s' (squeezeRest cs)).map (out ++ ·) = _
        rw [ihRest s' ts' hs' hts']
        simp only [hsame]
        split_ifs <;> rfl
      constructor
      · intro ts hts
        rw [squeeze_cons hc]
        exact hrest .start ts trivial hts
      · intro s ts hs hts
        rw [squeezeRest_cons hc]
        exact hrest s ts hs hts

/-- **A command is sent faithfully exactly if none of its string literals has a blank in it**,
    among the commands no word of which matches a file. -/
theorem sent_faithful_iff (dir : Directory) (c : String) {v : Json}
    (hc : parseText c.toList = some v) (hquiet : ∀ w ∈ words c, dir.glob w = [w]) :
    parseText (sent dir c) = some v ↔ ∃ ts, lex .start c.toList = some ts ∧ Unbroken ts := by
  obtain ⟨ts, hts, hv⟩ := Option.bind_eq_some_iff.mp hc
  have hlex := (lex_squeeze c.toList).1 ts hts
  rw [parseText, sent_eq hquiet, hlex, hts]
  by_cases hunbroken : Unbroken ts
  · rw [if_pos hunbroken]
    exact iff_of_true hv ⟨ts, rfl, hunbroken⟩
  · rw [if_neg hunbroken]
    refine iff_of_false (fun h => by cases h) ?_
    rintro ⟨ts', hts', hunbroken'⟩
    obtain rfl := Option.some.inj hts'
    exact hunbroken hunbroken'

/-- `["stop", 7]`, with blanks between the tokens only. -/
theorem sent_faithful_array :
    parseText (sent emptyDirectory "[ \"stop\", 7 ]") = some (.arr [.str "stop", .num "7"]) := by
  have htext : "[ \"stop\", 7 ]".toList =
      ['[', ' ', '"', 's', 't', 'o', 'p', '"', ',', ' ', '7', ' ', ']'] := by simp
  refine (sent_faithful_iff emptyDirectory "[ \"stop\", 7 ]" ?_ fun _ _ => rfl).mpr
    ⟨[.punct '[', .str ['s', 't', 'o', 'p'], .punct ',', .atom ['7'], .punct ']'], ?_, ?_⟩
  · rw [htext]
    rfl
  · rw [htext]
    rfl
  · intro raw hraw
    have hstop : raw = ['s', 't', 'o', 'p'] := by simpa using hraw
    subst hstop
    simp [isBlank]

/-- The string of the command is broken into two lines, and what is sent is no JSON text. -/
theorem sent_breaks_string :
    parseText "\x7b\"id\":\"a b\"\x7d".toList = some (.obj [("id", .str "a b")]) ∧
      parseText (sent emptyDirectory "\x7b\"id\":\"a b\"\x7d") = none := by
  have htext : "\x7b\"id\":\"a b\"\x7d".toList =
      ['{', '"', 'i', 'd', '"', ':', '"', 'a', ' ', 'b', '"', '}'] := by simp
  have hquiet : ∀ w ∈ words "\x7b\"id\":\"a b\"\x7d", emptyDirectory.glob w = [w] := fun _ _ => rfl
  have hsent := sent_eq hquiet
  rw [hsent, htext]
  exact ⟨rfl, rfl⟩

end KvmOsx.Qmp
