import KvmOsx.Lib.Json

/-!
# `qmp-status`, `wait-for-state` and `machine-boot-kickstart`

`qmp-send` collects what QEMU sends on the connection and drops the first two objects;
`qmp-status` takes the first of the rest for the response. `wait-for-state` polls it until
it prints the awaited state, and `machine-boot-kickstart` waits three times.

* `qmpStatus`: what is printed for a stream of objects.
* `status_printed_iff`: it is the status exactly if no event comes before the response.
* `waitForState`, `kickstart`: the scripts over a sequence of poll results.
* `wait_ends_iff`: waiting ends as it should exactly if the state comes.
-/

namespace KvmOsx.Qmp

/-! ## The stream of one connection -/

/-- `{"QMP": …}`. -/
def greeting (version : Json) : Json := .obj [("QMP", version)]

/-- `{"return": …}`. -/
def response (ret : List (String × Json)) : Json := .obj [("return", .obj ret)]

/-- An asynchronous event. -/
structure Event where
  name : String
  data : Option (List (String × Json))
  timestamp : Json

/-- `{"event": …, "data": …, "timestamp": …}`, with or without data. -/
def Event.json (ev : Event) : Json :=
  .obj ([("event", .str ev.name)] ++ (ev.data.map fun d => ("data", .obj d)).toList ++
    [("timestamp", ev.timestamp)])

/-- What QEMU answers to `query-status`. -/
structure StatusReply where
  members : List (String × Json)
  status : String
  at_status : members.lookup "status" = some (.str status)

/-- The objects of a connection on which `qmp_capabilities` and `query-status` are sent, with
    events before, between and after the two responses. -/
structure Stream where
  version : Json
  before : List Event
  between : List Event
  reply : StatusReply
  after : List Event

/-- The objects in order. -/
def Stream.objects (s : Stream) : List Json :=
  greeting s.version :: s.before.map Event.json ++ response [] :: s.between.map Event.json ++
    response s.reply.members :: s.after.map Event.json

/-! ## The scripts -/

/-- What `jq -r -C` prints: a string as it is, any other value in colour. A coloured text is
    no run state. -/
inductive Printed
  | raw (text : String)
  | coloured (v : Json)

/-- `jq -s ".[2:]"` (qmp-send:40). -/
def qmpSendFilter (objects : List Json) : Option Json := (Json.arr objects).drop 2

/-- `jq -r -C ".[0] | .return.status"` (qmp-status:22). -/
def statusFilter (v : Json) : Option Printed :=
  (((v.item 0).bind (Json.field "return")).bind (Json.field "status")).map fun
    | .str s => .raw s
    | v => .coloured v

/-- What `qmp-status` prints for the objects of a connection; nothing if a filter fails. -/
def qmpStatus (objects : List Json) : Option Printed := (qmpSendFilter objects).bind statusFilter

/-! ## Replies and events -/

/-- An event has no member `return`. -/
theorem statusFilter_event (ev : Event) (rest : List Json) :
    statusFilter (.arr (ev.json :: rest)) = some (.coloured .null) := by
  obtain ⟨name, data, timestamp⟩ := ev
  cases data <;> rfl

theorem statusFilter_capabilities (rest : List Json) :
    statusFilter (.arr (response [] :: rest)) = some (.coloured .null) := rfl

theorem statusFilter_reply (r : StatusReply) (rest : List Json) :
    statusFilter (.arr (response r.members :: rest)) = some (.raw r.status) := by
  show (some ((r.members.lookup "status").getD .null)).map _ = _
  rw [r.at_status]
  rfl

/-- **The printed text is the status of the response exactly if no event comes before the
    response.** Otherwise `null` is printed. -/
theorem status_printed_iff (s : Stream) :
    qmpStatus s.objects = some (.raw s.reply.status) ↔ s.before = [] ∧ s.between = [] := by
  obtain ⟨version, before, between, reply, after⟩ := s
  have hdrop : ∀ a b rest, qmpStatus (a :: b :: rest) = statusFilter (.arr rest) :=
    fun _ _ _ => rfl
  rw [Stream.objects]
  cases before with
  | nil =>
    cases between with
    | nil =>
      refine iff_of_true ?_ ⟨rfl, rfl⟩
      exact statusFilter_reply reply (after.map Event.json)
    | cons ev evs =>
      refine iff_of_false ?_ (by simp)
      simp only [List.map_nil, List.map_cons, List.cons_append, List.nil_append, hdrop,
        statusFilter_event]
      simp
  | cons ev evs =>
    -- The third object is another event, or the response to `qmp_capabilities`.
    refine iff_of_false ?_ (by simp)
    cases evs with
    | nil =>
      simp only [List.map_nil, List.map_cons, List.cons_append, List.nil_append, hdrop,
        statusFilter_capabilities]
      simp
    | cons ev' evs =>
      simp only [List.map_cons, List.cons_append, hdrop, statusFilter_event]
      simp

/-- A machine that runs, and stops while the response is under way. -/
def stopEvent : Stream where
  version := .null
  before := []
  between := [⟨"STOP", none, .null⟩]
  reply := ⟨[("status", .str "running")], "running", rfl⟩
  after := []

/-- One event between the responses. -/
theorem status_hidden_by_event : ¬ ∀ s : Stream, qmpStatus s.objects = some (.raw s.reply.status) := by
  intro h
  have hprinted : qmpStatus stopEvent.objects = some (.coloured .null) := rfl
  rw [h stopEvent] at hprinted
  cases hprinted

/-! ## Polling -/

/-- The name of a run state as QEMU has them: small letters and hyphens. As the pattern of
    `[[ $CURRENT_STATE != $STATE ]]` it stands for itself only. -/
structure RunState where
  text : String
  nonempty : text ≠ ""
  plain : text.toList.all (fun c => c.isLower || c = '-') = true

/-- One call of `qmp-status`: what is printed, if something is. -/
abbrev Poll := Option Printed

/-- `$CURRENT_STATE` is the awaited state. -/
def Poll.shows (state : RunState) : Poll → Bool
  | some (.raw text) => text = state.text
  | _ => false

/-- The machine is down: QEMU is not reachable, and `null` or nothing is printed. -/
def Poll.IsDown (p : Poll) : Prop := p = none ∨ p = some (.coloured .null)

/-- The loop of `wait-for-state` (lines 35-46), from poll number `n`: the number of the poll
    with which it ends. -/
def waitLoop (polls : ℕ → Poll) (state : RunState) : ℕ → ℕ → Option ℕ
  | 0, _ => none
  | fuel + 1, n => if (polls n).shows state then some n else waitLoop polls state fuel (n + 1)

/-- What there is of a machine: its directory and its `config`. -/
structure MachineDir where
  dir : Bool
  config : Bool

/-- The checks of `config-machine-cmd` and of the scripts themselves: the exit status if one
    fails. -/
def MachineDir.check (m : MachineDir) : Option ℕ :=
  if !m.dir then some 1 else if !m.config then some 2 else none

/-- A machine that is there. -/
def MachineDir.known : MachineDir := ⟨true, true⟩

/-- How `wait-for-state` ends: its exit status, and the number of its last poll. -/
structure WaitEnd where
  status : ℕ
  last : ℕ
  deriving DecidableEq, Repr

/-- `wait-for-state MACHINE STATE`, whose first poll has number `n`. -/
def waitForState (m : MachineDir) (polls : ℕ → Poll) (state : RunState) (fuel n : ℕ) :
    Option WaitEnd :=
  match m.check with
  | some status => some ⟨status, n⟩
  | none => (waitLoop polls state fuel n).map fun last => ⟨0, last⟩

/-- The first poll from number `n` on that shows the state. -/
def FirstAt (polls : ℕ → Poll) (state : RunState) (n last : ℕ) : Prop :=
  n ≤ last ∧ (polls last).shows state = true ∧
    ∀ k, n ≤ k → k < last → (polls k).shows state = false

theorem FirstAt.unique {polls : ℕ → Poll} {state : RunState} {n i j : ℕ}
    (hi : FirstAt polls state n i) (hj : FirstAt polls state n j) : i = j := by
  obtain ⟨hni, hsi, hbi⟩ := hi
  obtain ⟨hnj, hsj, hbj⟩ := hj
  rcases Nat.lt_trichotomy i j with h | h | h
  · rw [hbj i hni h] at hsi
    cases hsi
  · exact h
  · rw [hbi j hnj h] at hsj
    cases hsj

/-- The state comes at poll number `n` or later. -/
def Comes (polls : ℕ → Poll) (state : RunState) (n : ℕ) : Prop :=
  ∃ k, n ≤ k ∧ (polls k).shows state = true

/-- If the state comes, there is a first poll that shows it. -/
theorem Comes.first {polls : ℕ → Poll} {state : RunState} {n : ℕ} (h : Comes polls state n) :
    ∃ last, FirstAt polls state n last := by
  classical
  refine ⟨Nat.find h, (Nat.find_spec h).1, (Nat.find_spec h).2, fun k hk hlt => ?_⟩
  have hmin := Nat.find_min h hlt
  simpa [hk] using hmin

/-- The loop ends with the first poll that shows the state. -/
theorem waitLoop_first {polls : ℕ → Poll} {state : RunState} {fuel n last : ℕ}
    (h : waitLoop polls state fuel n = some last) : FirstAt polls state n last := by
  induction fuel generalizing n with
  | zero => cases h
  | succ fuel ih =>
    rw [waitLoop] at h
    split_ifs at h with hs
    · obtain rfl := Option.some.inj h
      exact ⟨le_rfl, hs, fun k hk hlt => absurd hlt (by omega)⟩
    · obtain ⟨hle, hlast, hbefore⟩ := ih h
      refine ⟨by omega, hlast, fun k hk hlt => ?_⟩
      rcases Nat.eq_or_lt_of_le hk with rfl | hk
      · simpa using hs
      · exact hbefore k hk hlt

/-- The loop reaches the first poll that shows the state. -/
theorem waitLoop_of_first {polls : ℕ → Poll} {state : RunState} {n last : ℕ}
    (h : FirstAt polls state n last) : waitLoop polls state (last - n + 1) n = some last := by
  obtain ⟨hle, hlast, hbefore⟩ := h
  obtain ⟨d, rfl⟩ := Nat.exists_eq_add_of_le hle
  rw [Nat.add_sub_cancel_left]
  clear hle
  induction d generalizing n with
  | zero =>
    have hn : (polls n).shows state = true := hlast
    rw [waitLoop, if_pos hn]
    rfl
  | succ d ih =>
    have hn : ¬ (polls n).shows state = true := by simp [hbefore n le_rfl (by omega)]
    rw [waitLoop, if_neg hn]
    have hnext := ih (n := n + 1) (by rwa [Nat.add_right_comm]) fun k hk hlt =>
      hbefore k (by omega) (by omega)
    rw [hnext]
    congr 1
    omega

/-- What is expected of `wait-for-state`: it stops, with status 0 at the first poll that shows
    the state if there is one, and with another status if there is none. -/
def WaitEnds (polls : ℕ → Poll) (state : RunState) (n : ℕ) : Prop :=
  ∃ fuel r, waitForState .known polls state fuel n = some r ∧
    ((r.status = 0 ∧ FirstAt polls state n r.last) ∨ (r.status ≠ 0 ∧ ¬ Comes polls state n))

theorem waitForState_known (polls : ℕ → Poll) (state : RunState) (fuel n : ℕ) :
    waitForState .known polls state fuel n =
      (waitLoop polls state fuel n).map fun last => ⟨0, last⟩ := rfl

theorem waitEnds_iff (polls : ℕ → Poll) (state : RunState) (n : ℕ) :
    WaitEnds polls state n ↔ Comes polls state n := by
  constructor
  · rintro ⟨fuel, r, hr, hend⟩
    rw [waitForState_known] at hr
    obtain ⟨last, hlast, rfl⟩ := Option.map_eq_some_iff.mp hr
    obtain ⟨hle, hshows, -⟩ := waitLoop_first hlast
    exact ⟨last, hle, hshows⟩
  · intro h
    obtain ⟨last, hfirst⟩ := h.first
    refine ⟨last - n + 1, ⟨0, last⟩, ?_, Or.inl ⟨rfl, hfirst⟩⟩
    rw [waitForState_known, waitLoop_of_first hfirst]
    rfl

/-! ## The kickstart -/

/-- The run state `prelaunch`. -/
def prelaunch : RunState := ⟨"prelaunch", by decide, by decide⟩

/-- The run state `running`. -/
def running : RunState := ⟨"running", by decide, by decide⟩

/-- How `machine-boot-kickstart` ends. `down` is a branch `echo "Machine is down!"; exit 1`,
    `failed` a command that `set -e` ends the script for. -/
inductive KickEnd
  | missing (status : ℕ)
  | already
  | down (branch : ℕ)
  | failed
  | done
  deriving DecidableEq, Repr

/-- `if ! wait-for-state …; then echo "Machine is down!"; exit 1; fi` and the commands behind
    it, which succeed or not: the awaited states from branch `branch` on. -/
def waits (m : MachineDir) (polls : ℕ → Poll) (fuel : ℕ) :
    List (RunState × Bool) → ℕ → ℕ → Option KickEnd
  | [], _, _ => some .done
  | (state, ok) :: rest, branch, n =>
    (waitForState m polls state fuel n).bind fun r =>
      if r.status ≠ 0 then some (.down branch)
      else if ok then waits m polls fuel rest (branch + 1) (r.last + 1)
      else some .failed

/-- The three waits (lines 45, 60, 79). `sent` and `post` say whether the commands after the
    first and the second succeed. -/
def kickWaits (sent post : Bool) : List (RunState × Bool) :=
  [(prelaunch, sent), (running, post), (running, true)]

/-- `machine-boot-kickstart MACHINE`. The first poll is that of `machine-state`. -/
def kickstart (m : MachineDir) (polls : ℕ → Poll) (sent post : Bool) (fuel : ℕ) :
    Option KickEnd :=
  match m.check with
  | some status => some (.missing status)
  | none =>
    if (polls 0).shows running then some .already else waits m polls fuel (kickWaits sent post) 0 1

/-- Each wait that is started sees its state. -/
def EachComes (polls : ℕ → Poll) : List (RunState × Bool) → ℕ → Prop
  | [], _ => True
  | (state, ok) :: rest, n =>
    ∃ last, FirstAt polls state n last ∧ (ok = true → EachComes polls rest (last + 1))

/-- How the waits are expected to end: in the error branch of the first one whose state does
    not come, else by a command that fails, else behind the last one. -/
def ShouldEnd (polls : ℕ → Poll) : List (RunState × Bool) → ℕ → ℕ → KickEnd → Prop
  | [], _, _, r => r = .done
  | (state, ok) :: rest, branch, n, r =>
    (¬ Comes polls state n ∧ r = .down branch) ∨
      ∃ last, FirstAt polls state n last ∧
        if ok then ShouldEnd polls rest (branch + 1) (last + 1) r else r = .failed

/-- More polls do not change where the loop ends. -/
theorem waitLoop_mono {polls : ℕ → Poll} {state : RunState} {fuel fuel' n last : ℕ}
    (h : waitLoop polls state fuel n = some last) (hle : fuel ≤ fuel') :
    waitLoop polls state fuel' n = some last := by
  induction fuel generalizing n fuel' with
  | zero => cases h
  | succ fuel ih =>
    obtain ⟨k, rfl⟩ := Nat.exists_eq_add_of_le hle
    rw [Nat.add_right_comm, waitLoop]
    rw [waitLoop] at h
    split_ifs at h ⊢
    · exact h
    · exact ih h (by omega)

theorem waits_mono {polls : ℕ → Poll} {fuel fuel' : ℕ} {ws : List (RunState × Bool)}
    (hle : fuel ≤ fuel') {r : KickEnd} :
    ∀ {b n : ℕ}, waits .known polls fuel ws b n = some r →
      waits .known polls fuel' ws b n = some r := by
  induction ws with
  | nil => exact fun h => h
  | cons w ws ih =>
    intro b n h
    obtain ⟨we, hwe, h⟩ := Option.bind_eq_some_iff.mp h
    rw [waitForState_known] at hwe
    obtain ⟨last, hlast, rfl⟩ := Option.map_eq_some_iff.mp hwe
    rw [waits, waitForState_known, waitLoop_mono hlast hle, Option.map_some, Option.bind_some]
    rw [if_neg (by simp)] at h ⊢
    split_ifs at h ⊢
    · exact ih h
    · exact h

/-- The waits end at all only if each of them sees its state. -/
theorem eachComes_of_waits {polls : ℕ → Poll} {fuel : ℕ} {r : KickEnd}
    {ws : List (RunState × Bool)} :
    ∀ {b n : ℕ}, waits .known polls fuel ws b n = some r → EachComes polls ws n := by
  induction ws with
  | nil => exact fun _ => trivial
  | cons w ws ih =>
    intro b n h
    obtain ⟨we, hwe, h⟩ := Option.bind_eq_some_iff.mp h
    rw [waitForState_known] at hwe
    obtain ⟨last, hlast, rfl⟩ := Option.map_eq_some_iff.mp hwe
    refine ⟨last, waitLoop_first hlast, fun hok => ?_⟩
    rw [if_neg (by simp), if_pos hok] at h
    exact ih h

/-- If each of them does, they end as expected. -/
theorem waits_of_eachComes {polls : ℕ → Poll} {ws : List (RunState × Bool)} :
    ∀ b n, EachComes polls ws n →
      ∃ fuel r, waits .known polls fuel ws b n = some r ∧ ShouldEnd polls ws b n r := by
  induction ws with
  | nil => exact fun _ _ _ => ⟨0, .done, rfl, rfl⟩
  | cons w ws ih =>
    obtain ⟨state, ok⟩ := w
    rintro b n ⟨last, hfirst, hrest⟩
    have hloop := waitLoop_of_first hfirst
    cases ok with
    | false =>
      refine ⟨last - n + 1, .failed, ?_, Or.inr ⟨last, hfirst, rfl⟩⟩
      rw [waits, waitForState_known, hloop]
      rfl
    | true =>
      obtain ⟨fuel, r, hr, hend⟩ := ih (b + 1) (last + 1) (hrest rfl)
      refine ⟨max fuel (last - n + 1), r, ?_, Or.inr ⟨last, hfirst, hend⟩⟩
      rw [waits, waitForState_known, waitLoop_mono hloop (le_max_right _ _)]
      exact waits_mono (le_max_left _ _) hr

/-- What is expected of the kickstart: it ends, and in an error branch if a state that is
    awaited does not come. -/
def KickEnds (polls : ℕ → Poll) (sent post : Bool) : Prop :=
  ∃ fuel r, kickstart .known polls sent post fuel = some r ∧
    if (polls 0).shows running then r = .already
    else ShouldEnd polls (kickWaits sent post) 0 1 r

end KvmOsx.Qmp
