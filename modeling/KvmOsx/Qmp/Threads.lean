import KvmOsx.Host.Neighbours
import KvmOsx.Lib.JsonText
import KvmOsx.Lib.Words
import KvmOsx.Qmp.Status

/-!
# Thread ids by `sed` and `grep`

`update-pid-cpu.sh` asks QEMU for its CPUs and takes the thread ids out of the printed reply
with line filters (lines 32 to 41).

* `Cpu`, `CpuReply`, `CpuStream`: what QEMU sends, with one `thread_id` in each CPU and the
  text `thread_id` nowhere else.
* `scrape`, `tasks`: the filters, and the array the loop runs over.
* `tasks_agree`: it holds the thread ids in the order of the reply, and so the loop writes
  that of the CPU with index `i` to `vcpu$i.pid`.

The text `thread_id` has no character that `jq` prints between keys, strings and numbers, so
that it cannot come about where two of them meet.
-/

namespace KvmOsx.Qmp

open Text Words Lines Json Host

/-! ## Replies -/

/-- `thread_id`, what `grep` looks for. -/
def needle : List Char := ['t', 'h', 'r', 'e', 'a', 'd', '_', 'i', 'd']

theorem needle_inner : Inner needle where
  plain := by simp [needle]
  null := by decide
  bool := by decide

/-- Members that do not mention the text anywhere. -/
def Silent (ms : List (String × Json)) : Prop := ∀ t ∈ textsMembers ms, ¬ needle <:+: t

/-- An integer as `jq` prints it. -/
def intText : ℤ → String
  | .ofNat n => Text.num n
  | .negSucc n => "-" ++ Text.num (n + 1)

/-- A CPU, with other members around its thread id. -/
structure Cpu where
  before : List (String × Json)
  thread : ℤ
  after : List (String × Json)
  silentBefore : Silent before
  silentAfter : Silent after

def Cpu.json (c : Cpu) : Json :=
  .obj (c.before ++ ("thread_id", .num (intText c.thread)) :: c.after)

/-- The response to `query-cpus`, with other members around `return`. -/
structure CpuReply where
  before : List (String × Json)
  cpus : List Cpu
  after : List (String × Json)
  silentBefore : Silent before
  silentAfter : Silent after

def CpuReply.json (r : CpuReply) : Json :=
  .obj (r.before ++ ("return", .arr (r.cpus.map Cpu.json)) :: r.after)

/-- The objects of the connection: two that `qmp-send` drops, and the response among others,
    such as events. -/
structure CpuStream where
  dropped : Json × Json
  before : List Json
  reply : CpuReply
  after : List Json
  silentBefore : ∀ t ∈ textsItems before, ¬ needle <:+: t
  silentAfter : ∀ t ∈ textsItems after, ¬ needle <:+: t

def CpuStream.objects (s : CpuStream) : List Json :=
  s.dropped.1 :: s.dropped.2 :: (s.before ++ s.reply.json :: s.after)

/-! ## The filters -/

/-- Where `sed` puts a newline, and the newlines of `jq`. -/
def isCut (c : Char) : Bool := c = ',' || c = '}' || c = '{' || c = '\n'

/-- `qmp-send`: what `jq` prints. -/
def qmpSend (objects : List Json) : Option (List Char) :=
  (qmpSendFilter objects).map fun v => pretty 0 v ++ ['\n']

/-- `sed -e "s/[,}{]/\n/g" | grep thread_id | cut -d":" -f 2`. -/
def scrape (out : List Char) : List String :=
  (grepLines isCut needle out).map fun l => cut ':' 2 (String.ofList l)

/-- `xargs echo` prints the words of the lines, and `tasks=( $tasks )` splits them again. -/
def tasks (out : List Char) : List String := words (join (expand (scrape out)))

/-! ## Lines of a printed value -/

theorem grep_nil : grepLines isCut needle [] = [] :=
  grepLines_of_not_infix needle_inner.ne_nil

theorem grep_cons {c : Char} (hc : isCut c = true) (t : List Char) :
    grepLines isCut needle (c :: t) = grepLines isCut needle t := by
  have happend := grepLines_append_cons (w := needle) hc [] t
  rw [grep_nil, List.nil_append, List.nil_append] at happend
  exact happend

/-- The lines of the members or elements behind the first one. -/
theorem grep_blockTail {c : Char} (hc : c ∉ needle) (d : ℕ) (ls : List (List Char))
    (l : List Char) :
    grepLines isCut needle (l ++ blockTail c d ls) = grepLines isCut needle l ++
      ls.flatMap fun l => grepLines isCut needle (indent (d + 1) ++ l) := by
  induction ls generalizing l with
  | nil =>
    have hend : ¬ needle <:+: indent d ++ [c] := not_infix_indent needle_inner
      (not_infix_cons needle_inner hc needle_inner.ne_nil) d
    rw [blockTail, grepLines_append_cons (by rfl), grepLines_of_not_infix hend]
    rfl
  | cons l' ls ih =>
    rw [blockTail, grepLines_append_cons (by rfl), grep_cons (by rfl), ← List.append_assoc, ih,
      List.flatMap_cons]

/-- The lines of a value with brackets, behind a text on its first line. -/
theorem grep_block {o c : Char} (ho : o ∉ needle) (hc : c ∉ needle) (d : ℕ)
    (ls : List (List Char)) {p : List Char} (hp : ¬ needle <:+: p) :
    grepLines isCut needle (p ++ block o c d ls) =
      ls.flatMap fun l => grepLines isCut needle (indent (d + 1) ++ l) := by
  cases ls with
  | nil =>
    have hempty : ¬ needle <:+: p ++ [o, c] := not_infix_append_cons ho hp
      (not_infix_cons needle_inner hc needle_inner.ne_nil)
    rw [block, grepLines_of_not_infix hempty]
    rfl
  | cons l ls =>
    have hopen : ¬ needle <:+: p ++ [o] := not_infix_append_cons ho hp needle_inner.ne_nil
    have hsplit : p ++ block o c d (l :: ls) =
        (p ++ [o]) ++ '\n' :: (indent (d + 1) ++ l ++ blockTail c d ls) := by
      simp [block]
    rw [hsplit, grepLines_append_cons (by rfl), grepLines_of_not_infix hopen, grep_blockTail hc,
      List.flatMap_cons, List.nil_append]

/-- Lines that do not mention the text are dropped. -/
theorem grep_silent {ls : List (List Char)} (h : ∀ l ∈ ls, ¬ needle <:+: l) (d : ℕ) :
    (ls.flatMap fun l => grepLines isCut needle (indent d ++ l)) = [] := by
  rw [List.flatMap_eq_nil_iff]
  intro l hl
  exact grepLines_of_not_infix (not_infix_indent needle_inner (h l hl) d)

theorem prettyItems_append (d : ℕ) (xs ys : List Json) :
    prettyItems d (xs ++ ys) = prettyItems d xs ++ prettyItems d ys := by
  induction xs with
  | nil => rfl
  | cons x xs ih => rw [List.cons_append, prettyItems, prettyItems, ih, List.cons_append]

theorem prettyMembers_append (d : ℕ) (xs ys : List (String × Json)) :
    prettyMembers d (xs ++ ys) = prettyMembers d xs ++ prettyMembers d ys := by
  induction xs with
  | nil => rfl
  | cons x xs ih =>
    obtain ⟨k, v⟩ := x
    rw [List.cons_append, prettyMembers, prettyMembers, ih, List.cons_append]

/-- An object in which one member matters. -/
theorem grep_obj (d : ℕ) {before after : List (String × Json)} (hbefore : Silent before)
    (hafter : Silent after) (k : String) (v : Json) {p : List Char} (hp : ¬ needle <:+: p) :
    grepLines isCut needle (p ++ pretty d (.obj (before ++ (k, v) :: after))) =
      grepLines isCut needle (indent (d + 1) ++ (quoted k ++ ':' :: ' ' :: pretty (d + 1) v)) := by
  have hopen : '{' ∉ needle := needle_inner.plain _ (by decide)
  have hclose : '}' ∉ needle := needle_inner.plain _ (by decide)
  rw [pretty, grep_block hopen hclose d _ hp, prettyMembers_append, List.flatMap_append,
    grep_silent (not_infix_prettyMembers needle_inner (d + 1) before hbefore), List.nil_append,
    prettyMembers, List.flatMap_cons,
    grep_silent (not_infix_prettyMembers needle_inner (d + 1) after hafter), List.append_nil]

/-! ## The lines of a reply -/

/-- The line of a thread id. -/
def threadLine (d : ℕ) (n : ℤ) : List Char :=
  indent d ++ (quoted "thread_id" ++ ':' :: ' ' :: (intText n).toList)

theorem mem_intText {n : ℤ} {c : Char} (hc : c ∈ (intText n).toList) : c.isDigit ∨ c = '-' := by
  cases n with
  | ofNat n => exact .inl (isDigit_of_mem_num hc)
  | negSucc n =>
    rw [intText, String.toList_append, List.mem_append] at hc
    rcases hc with hc | hc
    · exact .inr (List.mem_singleton.mp hc)
    · exact .inl (isDigit_of_mem_num hc)

theorem not_mem_intText {c : Char} (hdigit : c.isDigit = false) (hdash : c ≠ '-') (n : ℤ) :
    c ∉ (intText n).toList := by
  intro hc
  rcases mem_intText hc with h | h
  · rw [h] at hdigit
    cases hdigit
  · exact hdash h

theorem quoted_threadId : quoted "thread_id" = '"' :: (needle ++ ['"']) := by
  simp [quoted, escaped, escapeChar, needle]

theorem isCut_threadLine (d : ℕ) (n : ℤ) : ∀ c ∈ threadLine d n, isCut c = false := by
  intro c hc
  have hcases : c = ' ' ∨ c ∈ quoted "thread_id" ∨ c = ':' ∨ c ∈ (intText n).toList := by
    simp only [threadLine, indent, List.mem_append, List.mem_replicate, List.mem_cons] at hc
    tauto
  rcases hcases with rfl | hc | rfl | hc
  · rfl
  · rw [quoted_threadId] at hc
    have hall : ∀ c ∈ '"' :: (needle ++ ['"']), isCut c = false := by
      simp [needle, isCut]
    exact hall c hc
  · rfl
  · by_contra hcut
    simp only [isCut, Bool.not_eq_false, Bool.or_eq_true, decide_eq_true_eq] at hcut
    rcases hcut with ((rfl | rfl) | rfl) | rfl <;>
      exact not_mem_intText (by decide) (by decide) n hc

theorem infix_threadLine (d : ℕ) (n : ℤ) : needle <:+: threadLine d n := by
  refine ⟨indent d ++ ['"'], '"' :: ':' :: ' ' :: (intText n).toList, ?_⟩
  rw [threadLine, quoted_threadId]
  simp

theorem cut_threadLine (d : ℕ) (n : ℤ) :
    cut ':' 2 (String.ofList (threadLine d n)) = " " ++ intText n := by
  have hline : (String.ofList (threadLine d n)).toList =
      (String.ofList (indent d ++ quoted "thread_id")).toList ++
        ':' :: (" " ++ intText n).toList := by
    simp [threadLine]
  refine cut_last hline ?_ ?_
  · have hquoted : ':' ∉ quoted "thread_id" := by
      rw [quoted_threadId]
      decide
    simpa [indent] using hquoted
  · have hint : ':' ∉ (intText n).toList := not_mem_intText (by decide) (by decide) n
    simpa using hint

/-- One line is kept of a CPU. -/
theorem grep_cpu (d : ℕ) (c : Cpu) {p : List Char} (hp : ¬ needle <:+: p) :
    grepLines isCut needle (p ++ pretty d c.json) = [threadLine (d + 1) c.thread] := by
  rw [Cpu.json, grep_obj d c.silentBefore c.silentAfter _ _ hp]
  exact grepLines_of_line (isCut_threadLine (d + 1) c.thread) (infix_threadLine (d + 1) c.thread)

theorem grep_cpus (d : ℕ) (cs : List Cpu) :
    ((prettyItems d (cs.map Cpu.json)).flatMap fun l =>
      grepLines isCut needle (indent d ++ l)) = cs.map fun c => threadLine (d + 1) c.thread := by
  induction cs with
  | nil => rfl
  | cons c cs ih =>
    have hindent : ¬ needle <:+: indent d := by
      simpa using not_infix_indent needle_inner needle_inner.ne_nil d
    rw [List.map_cons, prettyItems, List.flatMap_cons, ih, grep_cpu d c hindent]
    rfl

/-- The lines that are kept of a reply. -/
theorem grep_reply (d : ℕ) (r : CpuReply) {p : List Char} (hp : ¬ needle <:+: p) :
    grepLines isCut needle (p ++ pretty d r.json) =
      r.cpus.map fun c => threadLine (d + 3) c.thread := by
  have hopen : '[' ∉ needle := needle_inner.plain _ (by decide)
  have hclose : ']' ∉ needle := needle_inner.plain _ (by decide)
  have hkey : ¬ needle <:+: indent (d + 1) ++ (quoted "return" ++ [':', ' ']) := by
    apply not_infix_indent needle_inner
    decide
  have hline : indent (d + 1) ++ (quoted "return" ++
      ':' :: ' ' :: pretty (d + 1) (.arr (r.cpus.map Cpu.json))) =
        indent (d + 1) ++ (quoted "return" ++ [':', ' ']) ++
          block '[' ']' (d + 1) (prettyItems (d + 2) (r.cpus.map Cpu.json)) := by
    simp [pretty]
  rw [CpuReply.json, grep_obj d r.silentBefore r.silentAfter _ _ hp, hline,
    grep_block hopen hclose (d + 1) _ hkey, grep_cpus]

/-- The lines that are kept of what `qmp-send` prints. -/
theorem scrape_qmpSend (s : CpuStream) :
    (qmpSend s.objects).map scrape = some (s.reply.cpus.map fun c => " " ++ intText c.thread) := by
  have hopen : '[' ∉ needle := needle_inner.plain _ (by decide)
  have hclose : ']' ∉ needle := needle_inner.plain _ (by decide)
  have hindent : ¬ needle <:+: indent 1 := by decide
  have hprinted : qmpSend s.objects =
      some (pretty 0 (.arr (s.before ++ s.reply.json :: s.after)) ++ '\n' :: []) := rfl
  have hlines : grepLines isCut needle
      (pretty 0 (.arr (s.before ++ s.reply.json :: s.after)) ++ '\n' :: []) =
        s.reply.cpus.map fun c => threadLine 4 c.thread := by
    have hblock := grep_block hopen hclose 0
      (prettyItems 1 (s.before ++ s.reply.json :: s.after)) needle_inner.ne_nil
    rw [List.nil_append] at hblock
    rw [grepLines_append_cons (by rfl), grep_nil, List.append_nil, pretty, hblock,
      prettyItems_append, List.flatMap_append,
      grep_silent (not_infix_prettyItems needle_inner 1 s.before s.silentBefore),
      List.nil_append, prettyItems, List.flatMap_cons, grep_reply 1 s.reply hindent,
      grep_silent (not_infix_prettyItems needle_inner 1 s.after s.silentAfter), List.append_nil]
  rw [hprinted, Option.map_some, scrape, hlines, List.map_map]
  congr 1
  apply List.map_congr_left
  intro c _
  exact cut_threadLine 4 c.thread

theorem isWord_intText (n : ℤ) : IsWord (intText n) := by
  cases n with
  | ofNat n => exact isWord_num n
  | negSucc n =>
    have hdash : IsWord "-" := ⟨by decide, by simp [isBlank]⟩
    exact hdash.append (isWord_num (n + 1))

/-- The words of the lines are the numbers. -/
theorem expand_scraped (cs : List Cpu) :
    expand (cs.map fun c => " " ++ intText c.thread) = cs.map fun c => intText c.thread := by
  induction cs with
  | nil => rfl
  | cons c cs ih =>
    have hword : words (" " ++ intText c.thread) = [intText c.thread] := by
      have happend := words_append "" (intText c.thread)
      rw [words_empty, words_of_isWord (isWord_intText c.thread)] at happend
      exact happend
    rw [List.map_cons, expand_cons, hword, ih]
    rfl

/-! ## The loop -/

/-- What the loop writes under an index. -/
theorem write_mem_vcpuEvents {machine : String} {i k : ℕ} {t : String} {ts : List String} :
    RunEvent.write (vcpuName (k + i)) t ∈ vcpuEvents machine k ts ↔ ts[i]? = some t := by
  induction ts generalizing i k with
  | nil => simp [vcpuEvents]
  | cons t' ts ih =>
    rw [vcpuEvents, List.mem_cons, List.mem_cons]
    cases i with
    | zero =>
      have hrest : RunEvent.write (vcpuName k) t ∉ vcpuEvents machine (k + 1) ts := by
        intro hmem
        have hfile : vcpuName k ∈ (vcpuEvents machine (k + 1) ts).filterMap RunEvent.file? :=
          List.mem_filterMap.mpr ⟨_, hmem, rfl⟩
        rw [vcpuEvents_files] at hfile
        obtain ⟨j, hj, hname⟩ := List.mem_map.mp hfile
        have hjk := vcpuName_inj.mp hname
        rw [List.mem_range'_1] at hj
        omega
      simp [hrest, eq_comm]
    | succ i =>
      have hne : vcpuName (k + (i + 1)) ≠ vcpuName k := by
        intro h
        have hki := vcpuName_inj.mp h
        omega
      have hindex : k + (i + 1) = (k + 1) + i := by omega
      simp only [RunEvent.write.injEq, hne, false_and, reduceCtorEq, false_or,
        List.getElem?_cons_succ]
      rw [hindex, ih]

/-- **The scrape agrees with the reply.** The array holds the thread ids in the order of the
    CPUs, and the loop writes that of a CPU under its index and nothing else. -/
theorem tasks_agree (s : CpuStream) (machine : String) :
    ∃ ts, (qmpSend s.objects).map tasks = some ts ∧
      ts = s.reply.cpus.map (fun c => intText c.thread) ∧
      ∀ i t, RunEvent.write (vcpuName i) t ∈ vcpuEvents machine 0 ts ↔
        ∃ c, s.reply.cpus[i]? = some c ∧ intText c.thread = t := by
  obtain ⟨out, hout, hscrape⟩ := Option.map_eq_some_iff.mp (scrape_qmpSend s)
  have htasks : tasks out = s.reply.cpus.map fun c => intText c.thread := by
    rw [tasks, hscrape, expand_scraped]
    apply words_join
    intro t ht
    obtain ⟨c, -, rfl⟩ := List.mem_map.mp ht
    exact isWord_intText c.thread
  refine ⟨tasks out, by rw [hout]; rfl, htasks, fun i t => ?_⟩
  have hget : RunEvent.write (vcpuName (0 + i)) t ∈ vcpuEvents machine 0 (tasks out) ↔ _ :=
    write_mem_vcpuEvents
  rw [Nat.zero_add] at hget
  rw [hget, htasks]
  simp

end KvmOsx.Qmp
