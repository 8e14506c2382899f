import KvmOsx.Lib.Json
import KvmOsx.Lib.Lines

/-!
# JSON as printed by `jq`

* `quoted`, `pretty`: a string with its escapes, and a value with one member or element on
  each line.
* `Json.texts`: the keys, strings and numbers of a value, as they are printed.
* `not_infix_pretty`: a text made of letters and `_` that is in none of them, and is no part
  of a literal, is nowhere in the printed value.
-/

namespace KvmOsx.Json

/-! ## Printing -/

def hexDigit (n : ℕ) : Char := "0123456789abcdef".toList.getD n '0'

/-- A character inside a string. -/
def escapeChar (c : Char) : List Char :=
  match c with
  | '"' => ['\\', '"']
  | '\\' => ['\\', '\\']
  | '\n' => ['\\', 'n']
  | '\t' => ['\\', 't']
  | '\r' => ['\\', 'r']
  | '\x08' => ['\\', 'b']
  | '\x0c' => ['\\', 'f']
  | c =>
    if c.toNat < 32 ∨ c.toNat = 127 then
      ['\\', 'u', '0', '0', hexDigit (c.toNat / 16), hexDigit (c.toNat % 16)]
    else [c]

/-- The text of a string between its quotes. -/
def escaped (s : String) : List Char := s.toList.flatMap escapeChar

def quoted (s : String) : List Char := '"' :: (escaped s ++ ['"'])

/-- Two blanks for each level. -/
def indent (d : ℕ) : List Char := List.replicate (2 * d) ' '

/-- The lines behind the first one, and the closing bracket. -/
def blockTail (c : Char) (d : ℕ) : List (List Char) → List Char
  | [] => '\n' :: (indent d ++ [c])
  | l :: ls => ',' :: '\n' :: (indent (d + 1) ++ (l ++ blockTail c d ls))

/-- The members or elements of a value, one on each line. -/
def block (o c : Char) (d : ℕ) : List (List Char) → List Char
  | [] => [o, c]
  | l :: ls => o :: '\n' :: (indent (d + 1) ++ (l ++ blockTail c d ls))

mutual

/-- A value that starts `d` levels deep. -/
def pretty (d : ℕ) : Json → List Char
  | .null => "null".toList
  | .bool true => "true".toList
  | .bool false => "false".toList
  | .num text => text.toList
  | .str s => quoted s
  | .arr xs => block '[' ']' d (prettyItems (d + 1) xs)
  | .obj ms => block '{' '}' d (prettyMembers (d + 1) ms)

def prettyItems (d : ℕ) : List Json → List (List Char)
  | [] => []
  | x :: xs => pretty d x :: prettyItems d xs

def prettyMembers (d : ℕ) : List (String × Json) → List (List Char)
  | [] => []
  | (k, v) :: ms => (quoted k ++ ':' :: ' ' :: pretty d v) :: prettyMembers d ms

end

mutual

/-- The keys, strings and numbers in a value. -/
def texts : Json → List (List Char)
  | .null => []
  | .bool _ => []
  | .num text => [text.toList]
  | .str s => [escaped s]
  | .arr xs => textsItems xs
  | .obj ms => textsMembers ms

def textsItems : List Json → List (List Char)
  | [] => []
  | x :: xs => texts x ++ textsItems xs

def textsMembers : List (String × Json) → List (List Char)
  | [] => []
  | (k, v) :: ms => escaped k :: (texts v ++ textsMembers ms)

end

/-! ## Where a text can be -/

open Lines

/-- A text that cannot be in what `jq` prints around keys, strings and numbers. -/
structure Inner (w : List Char) : Prop where
  plain : ∀ c ∈ ['"', ':', ',', ' ', '\n', '[', ']', '{', '}'], c ∉ w
  null : ¬ w <:+: "null".toList
  bool : ¬ w <:+: "true".toList ∧ ¬ w <:+: "false".toList

section

variable {w : List Char}

theorem Inner.ne_nil (hw : Inner w) : ¬ w <:+: [] := by
  intro h
  apply hw.null
  rw [List.infix_nil.mp h]
  exact List.nil_infix

theorem not_infix_indent (hw : Inner w) {t : List Char} (ht : ¬ w <:+: t) (d : ℕ) :
    ¬ w <:+: indent d ++ t := by
  rw [indent]
  induction 2 * d with
  | zero => exact ht
  | succ n ih =>
    exact not_infix_append_cons (a := []) (hw.plain ' ' (by decide)) hw.ne_nil ih

theorem not_infix_cons {c : Char} {t : List Char} (hw : Inner w) (hc : c ∉ w) (ht : ¬ w <:+: t) :
    ¬ w <:+: c :: t := not_infix_append_cons (a := []) hc hw.ne_nil ht

theorem not_infix_blockTail (hw : Inner w) {c : Char} (hc : c ∉ w) (d : ℕ)
    {ls : List (List Char)} (hls : ∀ l ∈ ls, ¬ w <:+: l) {l : List Char} (hl : ¬ w <:+: l) :
    ¬ w <:+: l ++ blockTail c d ls := by
  have hnewline := hw.plain '\n' (by decide)
  induction ls generalizing l with
  | nil =>
    apply not_infix_append_cons hnewline hl
    exact not_infix_indent hw (not_infix_cons hw hc hw.ne_nil) d
  | cons l' ls ih =>
    rw [List.forall_mem_cons] at hls
    apply not_infix_append_cons (hw.plain ',' (by decide)) hl
    apply not_infix_cons hw hnewline
    exact not_infix_indent hw (ih hls.2 hls.1) (d + 1)

theorem not_infix_block (hw : Inner w) {o c : Char} (ho : o ∉ w) (hc : c ∉ w) (d : ℕ)
    {ls : List (List Char)} (hls : ∀ l ∈ ls, ¬ w <:+: l) : ¬ w <:+: block o c d ls := by
  cases ls with
  | nil => exact not_infix_cons hw ho (not_infix_cons hw hc hw.ne_nil)
  | cons l ls =>
    rw [List.forall_mem_cons] at hls
    apply not_infix_cons hw ho
    apply not_infix_cons hw (hw.plain '\n' (by decide))
    exact not_infix_indent hw (not_infix_blockTail hw hc d hls.2 hls.1) (d + 1)

theorem not_infix_quoted (hw : Inner w) {s : String} (hs : ¬ w <:+: escaped s) {t : List Char}
    (ht : ¬ w <:+: t) : ¬ w <:+: quoted s ++ t := by
  have hquote := hw.plain '"' (by decide)
  rw [quoted, List.cons_append, List.append_assoc]
  exact not_infix_cons hw hquote (not_infix_append_cons hquote hs ht)

mutual

theorem not_infix_pretty (hw : Inner w) (d : ℕ) :
    ∀ v : Json, (∀ t ∈ v.texts, ¬ w <:+: t) → ¬ w <:+: pretty d v
  | .null, _ => hw.null
  | .bool true, _ => hw.bool.1
  | .bool false, _ => hw.bool.2
  | .num text, h => h _ (List.mem_singleton_self _)
  | .str s, h => by
    have hquoted := not_infix_quoted hw (h _ (List.mem_singleton_self _)) hw.ne_nil
    rwa [List.append_nil] at hquoted
  | .arr xs, h => not_infix_block hw (hw.plain '[' (by decide)) (hw.plain ']' (by decide)) d
      (not_infix_prettyItems hw (d + 1) xs h)
  | .obj ms, h => not_infix_block hw (hw.plain '{' (by decide)) (hw.plain '}' (by decide)) d
      (not_infix_prettyMembers hw (d + 1) ms h)

theorem not_infix_prettyItems (hw : Inner w) (d : ℕ) :
    ∀ xs : List Json, (∀ t ∈ textsItems xs, ¬ w <:+: t) → ∀ l ∈ prettyItems d xs, ¬ w <:+: l
  | [], _ => by simp [prettyItems]
  | x :: xs, h => by
    rw [textsItems, List.forall_mem_append] at h
    rw [prettyItems, List.forall_mem_cons]
    exact ⟨not_infix_pretty hw d x h.1, not_infix_prettyItems hw d xs h.2⟩

theorem not_infix_prettyMembers (hw : Inner w) (d : ℕ) :
    ∀ ms : List (String × Json), (∀ t ∈ textsMembers ms, ¬ w <:+: t) →
      ∀ l ∈ prettyMembers d ms, ¬ w <:+: l
  | [], _ => by simp [prettyMembers]
  | (k, v) :: ms, h => by
    rw [textsMembers, List.forall_mem_cons, List.forall_mem_append] at h
    rw [prettyMembers, List.forall_mem_cons]
    refine ⟨?_, not_infix_prettyMembers hw d ms h.2.2⟩
    apply not_infix_quoted hw h.1
    apply not_infix_cons hw (hw.plain ':' (by decide))
    exact not_infix_cons hw (hw.plain ' ' (by decide)) (not_infix_pretty hw d v h.2.1)

end

end

end KvmOsx.Json
