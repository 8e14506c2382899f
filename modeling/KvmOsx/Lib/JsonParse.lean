import KvmOsx.Lib.Json

/-!
# Reading JSON

* `step`, `lex`: a text is cut into tokens one character at a time; a string is a token with
  its escapes as they stand.
* `parseTokens`, `parseText`: the value of a list of tokens, and of a text; `none` if it is
  not exactly one value.
* `lex_cons`, `exists_str_of_lex`: one character more, and the token of an open string.
-/

namespace KvmOsx.Json

/-! ## Tokens -/

inductive Token
  | punct (c : Char)
  | str (raw : List Char)
  | atom (text : List Char)
  deriving DecidableEq, Repr

/-- Between tokens, inside a number or a word, inside a string, and behind a backslash. -/
inductive LexState
  | start
  | atom (text : List Char)
  | str (raw : List Char)
  | esc (raw : List Char)
  deriving DecidableEq, Repr

def isSpace (c : Char) : Bool := c = ' ' || c = '\t' || c = '\n' || c = '\r'

def isPunct (c : Char) : Bool := ['{', '}', '[', ']', ':', ','].contains c

/-- A character outside of strings; `out` is the token it ends, and `text` what it continues. -/
def outside (out : List Token) (text : List Char) (c : Char) : List Token × LexState :=
  if isSpace c then (out, .start)
  else if c = '"' then (out, .str [])
  else if isPunct c then (out ++ [.punct c], .start)
  else ([], .atom (text ++ [c]))

/-- The tokens a character completes, and the next state. Control characters do not stand in
    strings. -/
def step : LexState → Char → Option (List Token × LexState)
  | .start, c => some (outside [] [] c)
  | .atom text, c => some (outside [.atom text] text c)
  | .str raw, c =>
    if c = '"' then some ([.str raw], .start)
    else if c = '\\' then some ([], .esc raw)
    else if c.toNat < 32 then none
    else some ([], .str (raw ++ [c]))
  | .esc raw, c =>
    if ['"', '\\', '/', 'b', 'f', 'n', 'r', 't', 'u'].contains c then
      some ([], .str (raw ++ ['\\', c]))
    else none

/-- The tokens of a text. -/
def lex : LexState → List Char → Option (List Token)
  | .start, [] => some []
  | .atom text, [] => some [.atom text]
  | .str _, [] => none
  | .esc _, [] => none
  | s, c :: cs => (step s c).bind fun p => (lex p.2 cs).map (p.1 ++ ·)

theorem lex_cons (s : LexState) (c : Char) (cs : List Char) :
    lex s (c :: cs) = (step s c).bind fun p => (lex p.2 cs).map (p.1 ++ ·) := by
  cases s <;> rfl

/-- A string that is open becomes a token, or the text is refused. -/
theorem exists_str_of_lex {cs raw : List Char} {s : LexState} {ts : List Token}
    (hs : s = .str raw ∨ s = .esc raw) (h : lex s cs = some ts) :
    ∃ more ts', ts = .str (raw ++ more) :: ts' := by
  induction cs generalizing s raw with
  | nil => rcases hs with rfl | rfl <;> cases h
  | cons c cs ih =>
    rw [lex_cons] at h
    obtain ⟨⟨out, s'⟩, hstep, hrest⟩ := Option.bind_eq_some_iff.mp h
    obtain ⟨ts₁, hts₁, rfl⟩ := Option.map_eq_some_iff.mp hrest
    rcases hs with rfl | rfl
    · rw [step] at hstep
      split_ifs at hstep
      · obtain ⟨rfl, -⟩ := Prod.mk.inj (Option.some.inj hstep)
        exact ⟨[], ts₁, by simp⟩
      · obtain ⟨rfl, rfl⟩ := Prod.mk.inj (Option.some.inj hstep)
        exact ih (.inr rfl) hts₁
      · obtain ⟨rfl, rfl⟩ := Prod.mk.inj (Option.some.inj hstep)
        obtain ⟨more, ts', hts'⟩ := ih (.inl rfl) hts₁
        exact ⟨c :: more, ts', by simpa using hts'⟩
    · rw [step] at hstep
      split_ifs at hstep
      obtain ⟨rfl, rfl⟩ := Prod.mk.inj (Option.some.inj hstep)
      obtain ⟨more, ts', hts'⟩ := ih (.inl rfl) hts₁
      exact ⟨'\\' :: c :: more, ts', by simpa using hts'⟩

/-! ## Strings and numbers -/

def hexValue (c : Char) : Option ℕ :=
  if c.isDigit then some (c.toNat - '0'.toNat)
  else if 'a' ≤ c ∧ c ≤ 'f' then some (c.toNat - 'a'.toNat + 10)
  else if 'A' ≤ c ∧ c ≤ 'F' then some (c.toNat - 'A'.toNat + 10)
  else none

/-- What a string denotes, as code points, in which a `\u` may be half of a pair. -/
def unitsOf : List Char → Option (List ℕ)
  | [] => some []
  | '\\' :: 'u' :: a :: b :: c :: d :: cs => do
    let w ← hexValue a
    let x ← hexValue b
    let y ← hexValue c
    let z ← hexValue d
    (unitsOf cs).map fun ns => (((w * 16 + x) * 16 + y) * 16 + z) :: ns
  | '\\' :: c :: cs => do
    let n ← match c with
      | '"' => some 0x22
      | '\\' => some 0x5c
      | '/' => some 0x2f
      | 'b' => some 0x08
      | 'f' => some 0x0c
      | 'n' => some 0x0a
      | 'r' => some 0x0d
      | 't' => some 0x09
      | _ => none
    (unitsOf cs).map fun ns => n :: ns
  | c :: cs => (unitsOf cs).map (c.toNat :: ·)

/-- Pairs of surrogates are put together; half of a pair becomes the replacement character. -/
def joinPairs : List ℕ → List Char
  | [] => []
  | [n] => [if 0xd800 ≤ n ∧ n < 0xe000 then '\ufffd' else Char.ofNat n]
  | n :: m :: ns =>
    if 0xd800 ≤ n ∧ n < 0xdc00 ∧ 0xdc00 ≤ m ∧ m < 0xe000 then
      Char.ofNat (0x10000 + (n - 0xd800) * 0x400 + (m - 0xdc00)) :: joinPairs ns
    else
      (if 0xd800 ≤ n ∧ n < 0xe000 then '\ufffd' else Char.ofNat n) :: joinPairs (m :: ns)

def decodeString (raw : List Char) : Option String :=
  (unitsOf raw).map fun ns => String.ofList (joinPairs ns)

/-- `e+10` and the like, or nothing. -/
def isExponent : List Char → Bool
  | [] => true
  | e :: cs =>
    let digits := match cs with
      | '+' :: ds => ds
      | '-' :: ds => ds
      | ds => ds
    (e = 'e' || e = 'E') && digits ≠ [] && digits.all Char.isDigit

/-- A fraction or nothing, and an exponent or nothing. -/
def isFraction : List Char → Bool
  | '.' :: cs => (cs.takeWhile Char.isDigit) ≠ [] && isExponent (cs.dropWhile Char.isDigit)
  | cs => isExponent cs

def isNumber (cs : List Char) : Bool :=
  let ds := match cs with
    | '-' :: ds => ds
    | ds => ds
  let int := ds.takeWhile Char.isDigit
  int ≠ [] && (int = ['0'] || int.head? ≠ some '0') && isFraction (ds.dropWhile Char.isDigit)

def parseAtom (cs : List Char) : Option Json :=
  if cs = ['n', 'u', 'l', 'l'] then some .null
  else if cs = ['t', 'r', 'u', 'e'] then some (.bool true)
  else if cs = ['f', 'a', 'l', 's', 'e'] then some (.bool false)
  else if isNumber cs then some (.num (String.ofList cs))
  else none

/-! ## Values -/

mutual

/-- A value at the head of the tokens, and the tokens behind it. -/
def parseValue : ℕ → List Token → Option (Json × List Token)
  | 0, _ => none
  | n + 1, ts =>
    match ts with
    | .punct '[' :: .punct ']' :: ts => some (.arr [], ts)
    | .punct '[' :: ts => (parseItems n ts).map fun p => (.arr p.1, p.2)
    | .punct '{' :: .punct '}' :: ts => some (.obj [], ts)
    | .punct '{' :: ts => (parseMembers n ts).map fun p => (.obj p.1, p.2)
    | .str raw :: ts => (decodeString raw).map fun s => (.str s, ts)
    | .atom text :: ts => (parseAtom text).map fun v => (v, ts)
    | _ => none

/-- The elements of an array, behind its bracket. -/
def parseItems : ℕ → List Token → Option (List Json × List Token)
  | 0, _ => none
  | n + 1, ts => do
    let (v, ts) ← parseValue n ts
    match ts with
    | .punct ',' :: ts => (parseItems n ts).map fun p => (v :: p.1, p.2)
    | .punct ']' :: ts => some ([v], ts)
    | _ => none

/-- The members of an object, behind its bracket. -/
def parseMembers : ℕ → List Token → Option (List (String × Json) × List Token)
  | 0, _ => none
  | n + 1, ts =>
    match ts with
    | .str raw :: .punct ':' :: ts => do
      let k ← decodeString raw
      let (v, ts) ← parseValue n ts
      match ts with
      | .punct ',' :: ts => (parseMembers n ts).map fun p => ((k, v) :: p.1, p.2)
      | .punct '}' :: ts => some ([(k, v)], ts)
      | _ => none
    | _ => none

end

/-- Tokens that are exactly one value. A token takes two calls at most. -/
def parseTokens (ts : List Token) : Option Json :=
  match parseValue (2 * ts.length + 2) ts with
  | some (v, []) => some v
  | _ => none

/-- The value of a text. -/
def parseText (cs : List Char) : Option Json := (lex .start cs).bind parseTokens

end KvmOsx.Json
