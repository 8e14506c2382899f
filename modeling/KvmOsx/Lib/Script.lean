import KvmOsx.Lib.Text

/-!
# And-or lists under `errexit`

A shell script is read one line at a time; each line is an and-or list
`c₁ && c₂ || c₃ …` of commands, and under `set -e` the script ends at the
first list that fails in its last command. What a command does is a parameter
`exec : σ → Cmd → σ × Bool` (the new state, and whether the status was zero).

* `parse`: the and-or list of a line, `none` for a syntax error.
* `AndOr.run`: the short-circuit evaluation, with the failure `set -e` acts on.
* `runLines`: a script of such lines; `runLines_nil`, `runLines_single` and
  `runLines_ran_initial` say which lines were executed.
-/

namespace KvmOsx.Script

/-! ## Syntax -/

/-- A token of a command line. A quoted text and a `$( … )` are part of a word. -/
inductive Tok
  | word (w : String)
  | assign (name value : String)
  | andIf
  | orIf
  | pipe
  | lpar
  | rpar
  deriving DecidableEq, Repr

/-- A line of a script: its tokens. -/
abbrev Line := List Tok

/-- One command of an and-or list: a pipeline or a group `( … )`. -/
abbrev Cmd := List Tok

/-- The tokens of a text without operators. -/
def words (ws : List String) : Line := ws.map Tok.word

/-- Cut a line at its `&&` (`true`) and `||` (`false`) outside groups. -/
def splitTop : ℕ → Line → Cmd × List (Bool × Cmd)
  | _, [] => ([], [])
  | 0, .andIf :: ts => ([], (true, (splitTop 0 ts).1) :: (splitTop 0 ts).2)
  | 0, .orIf :: ts => ([], (false, (splitTop 0 ts).1) :: (splitTop 0 ts).2)
  | d, .lpar :: ts => (.lpar :: (splitTop (d + 1) ts).1, (splitTop (d + 1) ts).2)
  | d, .rpar :: ts => (.rpar :: (splitTop (d - 1) ts).1, (splitTop (d - 1) ts).2)
  | d, t :: ts => (t :: (splitTop d ts).1, (splitTop d ts).2)

/-- A word or an assignment, as opposed to an operator. -/
def Tok.isPlain : Tok → Bool
  | .word _ => true
  | .assign _ _ => true
  | _ => false

/-- `w … | w …`: non-empty simple commands joined by pipes. -/
def isPipeline (c : Cmd) : Bool :=
  (c.splitOn .pipe).all fun s => s ≠ [] && s.all Tok.isPlain

/-- `( … )` around an and-or list of pipelines. -/
def isGroup : Cmd → Bool
  | .lpar :: c => c.getLast? = some .rpar &&
      isPipeline (splitTop 0 c.dropLast).1 && (splitTop 0 c.dropLast).2.all fun p => isPipeline p.2
  | _ => false

/-- An and-or list: the first command, and each further one with its operator. -/
structure AndOr where
  head : Cmd
  tail : List (Bool × Cmd)
  deriving DecidableEq, Repr

/-- The and-or list a line denotes; `none` is a syntax error. A parenthesis
    after the first word of a command is one. -/
def parse (l : Line) : Option AndOr :=
  let p := splitTop 0 l
  if (p.1 :: p.2.map Prod.snd).all (fun c => isPipeline c || isGroup c) then some ⟨p.1, p.2⟩
  else none

/-- `c₁ && c₂ && …`. -/
def andList : List Cmd → Line
  | [] => []
  | [c] => c
  | c :: c' :: cs => c ++ .andIf :: andList (c' :: cs)

theorem andList_cons {c : Cmd} {cs : List Cmd} (h : cs ≠ []) :
    andList (c :: cs) = c ++ .andIf :: andList cs := by
  cases cs with
  | nil => exact absurd rfl h
  | cons c' cs => rfl

/-- A simple command: words and assignments, at least one. -/
def isSimple (c : Cmd) : Bool := c ≠ [] && c.all Tok.isPlain

theorem splitTop_plain {c : Cmd} (h : c.all Tok.isPlain) : splitTop 0 c = (c, []) := by
  induction c with
  | nil => rfl
  | cons t c ih =>
    simp only [List.all_cons, Bool.and_eq_true] at h
    cases t <;> simp_all [splitTop, Tok.isPlain]

theorem splitTop_andIf {c : Cmd} (h : c.all Tok.isPlain) (l : Line) :
    splitTop 0 (c ++ .andIf :: l) = (c, (true, (splitTop 0 l).1) :: (splitTop 0 l).2) := by
  induction c with
  | nil => rfl
  | cons t c ih =>
    simp only [List.all_cons, Bool.and_eq_true] at h
    cases t <;> simp_all [splitTop, Tok.isPlain]

theorem isPipeline_of_isSimple {c : Cmd} (h : isSimple c) : isPipeline c := by
  simp only [isSimple, Bool.and_eq_true, decide_eq_true_eq] at h
  have hp : Tok.pipe ∉ c := fun hm => by simpa [Tok.isPlain] using List.all_eq_true.mp h.2 _ hm
  rw [isPipeline, List.splitOn_eq_singleton hp]
  simpa using h

theorem splitTop_andList {c : Cmd} {cs : List Cmd} (h : ∀ x ∈ c :: cs, isSimple x) :
    splitTop 0 (andList (c :: cs)) = (c, cs.map (true, ·)) := by
  induction cs generalizing c with
  | nil =>
    have hc := h c (by simp)
    simp only [isSimple, Bool.and_eq_true] at hc
    exact splitTop_plain hc.2
  | cons c' cs ih =>
    have hc := h c (by simp)
    simp only [isSimple, Bool.and_eq_true] at hc
    rw [andList, splitTop_andIf hc.2, ih fun x hx => h x (List.mem_cons_of_mem c hx)]
    rfl

theorem isSimple_words {ws : List String} (h : ws ≠ []) : isSimple (words ws) := by
  simp [isSimple, words, Tok.isPlain, h]

/-- A simple command alone. -/
theorem parse_simple {c : Cmd} (h : isSimple c) : parse c = some ⟨c, []⟩ := by
  have hall : ∀ x ∈ [c], isSimple x := by simpa using h
  have hpipe := isPipeline_of_isSimple h
  have hsplit : splitTop 0 c = (c, []) := splitTop_andList hall
  rw [parse, hsplit]
  simp [hpipe]

/-- A list of simple commands joined by `&&` denotes itself. -/
theorem parse_andList {c : Cmd} {cs : List Cmd} (h : ∀ x ∈ c :: cs, isSimple x) :
    parse (andList (c :: cs)) = some ⟨c, cs.map (true, ·)⟩ := by
  have hall : ((c :: cs).all fun c => isPipeline c || isGroup c) = true := by
    rw [List.all_eq_true]
    intro x hx
    rw [isPipeline_of_isSimple (h x hx), Bool.true_or]
  rw [parse, splitTop_andList h]
  simp only [List.map_map, Function.comp_def, List.map_id']
  rw [if_pos hall]

/-! ## Evaluation -/

section Eval

variable {σ : Type*} (exec : σ → Cmd → σ × Bool)

/-- State, status, and whether the command that ran last is the last of the list. -/
structure Ran (σ : Type*) where
  state : σ
  ok : Bool
  final : Bool

/-- The remaining commands of a list: `&&` runs the next one after a success,
    `||` after a failure; a skipped command leaves the status as it was. -/
def runTail : List (Bool × Cmd) → Ran σ → Ran σ
  | [], r => r
  | (conn, c) :: rest, r =>
    if r.ok = conn then
      runTail rest ⟨(exec r.state c).1, (exec r.state c).2, rest.isEmpty⟩
    else runTail rest { r with final := false }

/-- Evaluate an and-or list. -/
def AndOr.run (l : AndOr) (s : σ) : Ran σ :=
  runTail exec l.tail ⟨(exec s l.head).1, (exec s l.head).2, l.tail.isEmpty⟩

/-- The failure `set -e` acts on: the list failed, and in its last command. -/
def Ran.fatal (r : Ran σ) : Bool := !r.ok && r.final

/-- How a script ended. -/
inductive Stop
  | done
  | errexit
  | syntaxError
  deriving DecidableEq, Repr

/-- The outcome of a script: the state, the lines that were executed as
    commands of their own, and the reason it stopped. -/
structure Result (σ : Type*) where
  state : σ
  ran : List Line
  stop : Stop

/-- Run the lines of a script under `set -e`. -/
def runLines : List Line → σ → Result σ
  | [], s => ⟨s, [], .done⟩
  | l :: ls, s =>
    match parse l with
    | none => ⟨s, [], .syntaxError⟩
    | some a =>
      if (a.run exec s).fatal then ⟨(a.run exec s).state, [l], .errexit⟩
      else
        let r := runLines ls (a.run exec s).state
        { r with ran := l :: r.ran }

@[simp] theorem runLines_nil (s : σ) : runLines exec [] s = ⟨s, [], .done⟩ := rfl

/-- The executed lines are a prefix of the script. -/
theorem runLines_ran_initial (ls : List Line) (s : σ) : (runLines exec ls s).ran <+: ls := by
  induction ls generalizing s with
  | nil => simp
  | cons l ls ih =>
    rw [runLines]
    split
    · exact List.nil_prefix
    · split_ifs
      · exact ⟨ls, rfl⟩
      · exact List.prefix_cons_inj l |>.mpr (ih _)

/-- A script that runs to its end has executed every line. -/
theorem runLines_ran_of_done {ls : List Line} {s : σ} (h : (runLines exec ls s).stop = .done) :
    (runLines exec ls s).ran = ls := by
  induction ls generalizing s with
  | nil => rfl
  | cons l ls ih =>
    rw [runLines] at h ⊢
    cases hp : parse l with
    | none => simp [hp] at h
    | some a =>
      by_cases hf : (a.run exec s).fatal = true
      · simp [hp, hf] at h
      · simp only [hp, hf] at h ⊢
        simpa using ih h

/-- A one-line script runs to its end iff the line is an and-or list whose
    failure, if any, `set -e` ignores. -/
theorem runLines_single_done {l : Line} {s : σ} :
    (runLines exec [l] s).stop = .done ↔
      ∃ a, parse l = some a ∧ (a.run exec s).fatal = false := by
  rw [runLines]
  cases hp : parse l with
  | none => simp
  | some a => by_cases hf : (a.run exec s).fatal = true <;> simp [hf]

/-- The state after a one-line script whose line parses. -/
theorem runLines_single_state {l : Line} {s : σ} {a : AndOr} (h : parse l = some a) :
    (runLines exec [l] s).state = (a.run exec s).state := by
  rw [runLines, h]
  dsimp only
  split_ifs <;> rfl

theorem runTail_and_not_fatal {cs : List Cmd} {r : Ran σ} (hr : cs = [] → r.fatal = false)
    (hlast : ∀ c ∈ cs.getLast?, ∀ s, (exec s c).2 = true) :
    (runTail exec (cs.map (true, ·)) r).fatal = false := by
  induction cs generalizing r with
  | nil => exact hr rfl
  | cons c cs ih =>
    rw [List.map_cons, runTail]
    split_ifs with hok
    · refine ih ?_ ?_
      · rintro rfl
        simp [Ran.fatal, hlast c (by simp)]
      · intro c' hc' s
        exact hlast c' (by rw [List.getLast?_cons]; simp [Option.mem_def.mp hc']) s
    · refine ih (fun _ => by simp [Ran.fatal]) ?_
      intro c' hc' s
      exact hlast c' (by rw [List.getLast?_cons]; simp [Option.mem_def.mp hc']) s

/-- `c₁ && … && cₙ` never ends a script under `set -e` if `cₙ` always succeeds. -/
theorem andList_not_fatal {c : Cmd} {cs : List Cmd}
    (hlast : ∀ x ∈ (c :: cs).getLast?, ∀ s, (exec s x).2 = true) (s : σ) :
    ((AndOr.mk c (cs.map (true, ·))).run exec s).fatal = false := by
  refine runTail_and_not_fatal exec ?_ ?_
  · rintro rfl
    simp [Ran.fatal, hlast c (by simp)]
  · intro c' hc' s
    exact hlast c' (by rw [List.getLast?_cons]; simp [Option.mem_def.mp hc']) s

end Eval

end KvmOsx.Script
