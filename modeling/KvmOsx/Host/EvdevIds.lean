import KvmOsx.Lib.Runs
import KvmOsx.Lib.Tickets

/-!
# Object ids of attached input devices

Each `mon-evdev-attach` reads a number from `var/evdev_state`, sends `object-add` with the
id `evdev_NUMBER` and writes the next number back. Nothing locks the file: the processes
of an `input-attach`, of the kickstart and of users may take turns in any order.

* `EvdevState`, `evdevStep`: the file, the processes, and the objects in QEMU.
* `EvdevInv`: what holds while the attaches take turns one after the other.
* `evdev_ids_fresh`: their ids are fresh then, and only then if all of them end.
-/

namespace KvmOsx.Host

open Text Runs Counter

/-! ## Attaching and detaching -/

/-- The id `evdev_N`. -/
def evdevId (n : ℕ) : String := "evdev_" ++ num n

theorem evdevId_inj {m n : ℕ} : evdevId m = evdevId n ↔ m = n := prefix_num_inj "evdev_"

/-- `var/evdev_state` and the attach processes, and the ids of the objects in QEMU. -/
structure EvdevState (P : Type*) where
  tickets : Tickets P
  objects : List String

/-- A step of a `mon-evdev-attach` process `p`, or the `object-del` of a `mon-evdev-detach`.
    `input-detach` is a `mon-evdev-detach` for each id of a list (bin/input-detach:21-24). -/
inductive EvdevAction (P : Type*)
  | readState (p : P)
  | objectAdd (p : P) (accept : Bool)
  | writeState (p : P)
  | objectDel (id : String)
  deriving DecidableEq, Repr

/-- QEMU adds an object under an id that is free, unless it rejects it for a reason of its own. -/
def qemuObjectAdd (accept : Bool) (id : String) (objects : List String) : List String :=
  if accept && id ∉ objects then objects ++ [id] else objects

variable {P : Type*} [DecidableEq P]

/-- One step (bin/mon-evdev-attach:19-40, bin/mon-evdev-detach:6-10). -/
def evdevStep (s : EvdevState P) : EvdevAction P → Option (EvdevState P)
  | .readState p => (s.tickets.read p).map fun tickets => { s with tickets }
  | .objectAdd p accept =>
    (s.tickets.toUse p).bind fun n => (s.tickets.use p).map fun tickets =>
      { tickets, objects := qemuObjectAdd accept (evdevId n) s.objects }
  | .writeState p => (s.tickets.write p).map fun tickets => { s with tickets }
  | .objectDel id => some { s with objects := s.objects.filter (· ≠ id) }

/-- The kickstart has written `0`, and no attach has begun (bin/machine-boot-kickstart:74). -/
def evdevStart : EvdevState P where
  tickets := ⟨0, fun _ => .idle⟩
  objects := []

/-! ## Fresh ids -/

/-- The id that is sent is not that of an object in QEMU. -/
def SendsFree (s : EvdevState P) (a : EvdevAction P) : Prop :=
  ∀ p accept n, a = .objectAdd p accept → s.tickets.toUse p = some n → evdevId n ∉ s.objects

/-- No two attaches have sent the same id. -/
def DistinctIds (s : EvdevState P) : Prop :=
  ∀ p q m n, s.tickets.Used p m → s.tickets.Used q n → evdevId m = evdevId n → p = q

/-- No attach of the run sends an id in use, or one that another attach sent. -/
def FreshIds (acts : List (EvdevAction P)) : Prop :=
  EachStep evdevStep SendsFree acts evdevStart ∧ Always evdevStep DistinctIds acts evdevStart

/-- An attach that reads the file does not do so during the work of another. -/
def InTurn (s : EvdevState P) (a : EvdevAction P) : Prop :=
  ∀ p, a = .readState p → s.tickets.Finished

/-- No attach of the run reads the file between the reading and the writing of another. -/
def Serialised (acts : List (EvdevAction P)) : Prop := EachStep evdevStep InTurn acts evdevStart

/-! ## Attaches in turn -/

/-- The numbers are drawn one at a time, and each object is that of an attach. -/
structure EvdevInv (s : EvdevState P) : Prop where
  exclusive : Exclusive s.tickets
  objects : ∀ id ∈ s.objects, ∃ p n, id = evdevId n ∧ s.tickets.Used p n

theorem mem_qemuObjectAdd {accept : Bool} {id x : String} {objects : List String}
    (h : x ∈ qemuObjectAdd accept id objects) : x ∈ objects ∨ x = id := by
  unfold qemuObjectAdd at h
  split_ifs at h
  · simpa using h
  · exact Or.inl h

omit [DecidableEq P] in
theorem EvdevInv.start : EvdevInv (evdevStart : EvdevState P) := by
  refine ⟨Exclusive.start 0, ?_⟩
  intro id hid
  simp [evdevStart] at hid

section Steps

variable {s s' : EvdevState P} {p : P} {accept : Bool}

theorem readState_eq (h : evdevStep s (.readState p) = some s') :
    s.tickets.read p = some s'.tickets ∧ s'.objects = s.objects := by
  obtain ⟨tickets, ht, rfl⟩ := Option.map_eq_some_iff.mp h
  exact ⟨ht, rfl⟩

theorem objectAdd_eq (h : evdevStep s (.objectAdd p accept) = some s') :
    ∃ n, s.tickets.toUse p = some n ∧ s.tickets.use p = some s'.tickets ∧
      s'.objects = qemuObjectAdd accept (evdevId n) s.objects := by
  obtain ⟨n, hn, hs⟩ := Option.bind_eq_some_iff.mp h
  obtain ⟨tickets, ht, rfl⟩ := Option.map_eq_some_iff.mp hs
  exact ⟨n, hn, ht, rfl⟩

theorem writeState_eq (h : evdevStep s (.writeState p) = some s') :
    s.tickets.write p = some s'.tickets ∧ s'.objects = s.objects := by
  obtain ⟨tickets, ht, rfl⟩ := Option.map_eq_some_iff.mp h
  exact ⟨ht, rfl⟩

theorem objectDel_eq {id : String} (h : evdevStep s (.objectDel id) = some s') :
    s'.tickets = s.tickets ∧ s'.objects = s.objects.filter (· ≠ id) := by
  obtain rfl := Option.some.inj h
  exact ⟨rfl, rfl⟩

/-- A process keeps its number. -/
theorem held_step {a : EvdevAction P} {q : P} {n : ℕ} (h : evdevStep s a = some s')
    (hq : s.tickets.Held q n) : s'.tickets.Held q n := by
  cases a with
  | readState p => exact held_read (readState_eq h).1 hq
  | objectAdd p accept =>
    obtain ⟨-, -, huse, -⟩ := objectAdd_eq h
    exact held_use huse hq
  | writeState p => exact held_write (writeState_eq h).1 hq
  | objectDel id => rwa [(objectDel_eq h).1]

end Steps

/-- While the attaches take turns, each step keeps the invariant. -/
theorem EvdevInv.step {s s' : EvdevState P} {a : EvdevAction P} (hs : EvdevInv s)
    (hturn : InTurn s a) (h : evdevStep s a = some s') : EvdevInv s' := by
  cases a with
  | readState p =>
    obtain ⟨hread, hobjects⟩ := readState_eq h
    refine ⟨hs.exclusive.read (hturn p rfl) hread, ?_⟩
    rw [hobjects]
    intro id hid
    obtain ⟨q, n, rfl, hq⟩ := hs.objects id hid
    exact ⟨q, n, rfl, used_read hread hq⟩
  | objectAdd p accept =>
    obtain ⟨n, hn, huse, hobjects⟩ := objectAdd_eq h
    refine ⟨hs.exclusive.use huse, ?_⟩
    rw [hobjects]
    intro id hid
    rcases mem_qemuObjectAdd hid with hold | rfl
    · obtain ⟨q, m, rfl, hq⟩ := hs.objects id hold
      exact ⟨q, m, rfl, used_use huse hq⟩
    · exact ⟨p, n, rfl, used_toUse hn huse⟩
  | writeState p =>
    obtain ⟨hwrite, hobjects⟩ := writeState_eq h
    refine ⟨hs.exclusive.write hwrite, ?_⟩
    rw [hobjects]
    intro id hid
    obtain ⟨q, n, rfl, hq⟩ := hs.objects id hid
    exact ⟨q, n, rfl, used_write hwrite hq⟩
  | objectDel id =>
    obtain ⟨htickets, hobjects⟩ := objectDel_eq h
    refine ⟨htickets ▸ hs.exclusive, ?_⟩
    rw [hobjects, htickets]
    intro x hx
    exact hs.objects x (List.mem_of_mem_filter hx)

omit [DecidableEq P] in
theorem EvdevInv.distinctIds {s : EvdevState P} (hs : EvdevInv s) : DistinctIds s := by
  intro p q m n hp hq hid
  obtain rfl := evdevId_inj.mp hid
  exact hs.exclusive.used_inj hp hq

omit [DecidableEq P] in
theorem EvdevInv.sendsFree {s : EvdevState P} (hs : EvdevInv s) (a : EvdevAction P) :
    SendsFree s a := by
  intro p accept n _ hn hmem
  obtain ⟨q, m, hid, hq⟩ := hs.objects _ hmem
  obtain rfl := evdevId_inj.mp hid
  exact hs.exclusive.not_used (toUse_eq_some.mp hn) hq

/-! ## Runs -/

section Runs

variable {acts : List (EvdevAction P)}

/-- The invariant holds as long as the attaches take turns. -/
theorem EvdevInv.run {t : EvdevState P} (hturn : Serialised acts)
    (h : run evdevStep acts evdevStart = some t) : EvdevInv t :=
  run_invariant_of EvdevInv.start (fun _ _ _ hs hturn hstep => hs.step hturn hstep) hturn h

/-- A number that was drawn stays drawn. -/
theorem held_run {s t : EvdevState P} {p : P} {n : ℕ} (hp : s.tickets.Held p n)
    (h : run evdevStep acts s = some t) : t.tickets.Held p n :=
  run_invariant (P := fun s => s.tickets.Held p n) hp
    (fun _ _ _ hs hstep => held_step hstep hs) h

/-- An attach that reads during the work of another will have sent the same id. -/
theorem finished_of_distinct {rest : List (EvdevAction P)} {m m' t : EvdevState P} {p : P}
    (hm : EvdevInv m) (hread : evdevStep m (.readState p) = some m')
    (hrest : run evdevStep rest m' = some t) (ht : t.tickets.Finished)
    (hdistinct : DistinctIds t) : m.tickets.Finished := by
  intro q hq
  obtain ⟨n, hp, hq', hne⟩ := held_twice hm.exclusive hq (readState_eq hread).1
  have hsent : ∀ r, m'.tickets.Held r n → t.tickets.Used r n := by
    intro r hr
    exact ht.used (held_run hr hrest)
  exact hne (hdistinct p q n n (hsent p hp) (hsent q hq') rfl)

theorem serialised_of_distinct {t : EvdevState P} (h : run evdevStep acts evdevStart = some t)
    (ht : t.tickets.Finished) (hdistinct : DistinctIds t) : Serialised acts := by
  -- by induction on the part of the run that is done
  have hdone : ∀ before rest, acts = before ++ rest → Serialised before := by
    intro before
    induction before using List.reverseRecOn with
    | nil =>
      intro rest _
      exact eachStep_nil _
    | append_singleton before a ih =>
      rintro rest rfl
      have hbefore : Serialised before := ih (a :: rest) (by simp)
      obtain ⟨m', hm', hrest⟩ := run_split h
      have hsnoc := hm'
      rw [run_snoc] at hsnoc
      obtain ⟨m, hm, hstep⟩ := Option.bind_eq_some_iff.mp hsnoc
      refine (eachStep_snoc hm a).mpr ⟨hbefore, ?_⟩
      rintro p rfl
      exact finished_of_distinct (EvdevInv.run hbefore hm) hstep hrest ht hdistinct
  exact hdone acts [] (by simp)

/-- **Fresh ids of attached input devices.** If no attach reads the file between the reading
    and the writing of another, no attach sends the id of an object in QEMU or of another
    attach; once every attach has come to its end, only then. -/
theorem evdev_ids_fresh {t : EvdevState P} (h : run evdevStep acts evdevStart = some t) :
    (Serialised acts → FreshIds acts) ∧
      (t.tickets.Finished → (FreshIds acts ↔ Serialised acts)) := by
  have hfresh : Serialised acts → FreshIds acts := by
    intro hturn
    constructor
    · rintro before a after m rfl hm
      exact (EvdevInv.run (eachStep_left hturn) hm).sendsFree a
    · rintro before after m rfl hm
      exact (EvdevInv.run (eachStep_left hturn) hm).distinctIds
  refine ⟨hfresh, fun ht => ⟨?_, hfresh⟩⟩
  intro hids
  exact serialised_of_distinct h ht (hids.2 acts [] t (by simp) h)

end Runs

/-- Two attaches, one after the other; the first device is detached in between. -/
def inTurnRun : List (EvdevAction Bool) :=
  [.readState true, .objectAdd true true, .writeState true, .objectDel "evdev_0",
    .readState false, .objectAdd false true, .writeState false]

theorem evdev_ids_fresh_in_turn : FreshIds inTurnRun := by
  have hidle : ∀ c, (⟨c, fun _ => .idle⟩ : Tickets Bool).Finished := by
    rintro c p ⟨n, hp | hp⟩ <;> cases hp
  have hother : ∀ (s : EvdevState Bool) (a : EvdevAction Bool),
      (∀ p, a ≠ .readState p) → InTurn s a := by
    intro s a ha p hp
    exact absurd hp (ha p)
  have hturn : Serialised inTurnRun := by
    unfold Serialised inTurnRun
    refine (eachStep_cons rfl).mpr ⟨fun _ _ => hidle 0, ?_⟩
    refine (eachStep_cons rfl).mpr ⟨hother _ _ (by simp), ?_⟩
    refine (eachStep_cons rfl).mpr ⟨hother _ _ (by simp), ?_⟩
    refine (eachStep_cons rfl).mpr ⟨hother _ _ (by simp), ?_⟩
    refine (eachStep_cons rfl).mpr ⟨fun _ _ => ?_, ?_⟩
    · rintro q ⟨n, hq | hq⟩ <;> cases q <;> cases hq
    refine (eachStep_cons rfl).mpr ⟨hother _ _ (by simp), ?_⟩
    refine (eachStep_cons rfl).mpr ⟨hother _ _ (by simp), ?_⟩
    exact eachStep_nil _
  exact (evdev_ids_fresh (show run evdevStep inTurnRun evdevStart = some _ from rfl)).1 hturn

/-- Two attaches that both read before one of them writes. -/
def interleavedRun : List (EvdevAction Bool) :=
  [.readState true, .readState false, .objectAdd true true, .objectAdd false true,
    .writeState true, .writeState false]

/-- The second attach sends `evdev_0` while the first one's object has that id. -/
theorem evdev_ids_collide :
    (run evdevStep interleavedRun evdevStart).isSome = true ∧ ¬ FreshIds interleavedRun := by
  refine ⟨by decide, ?_⟩
  rintro ⟨hsends, -⟩
  have hfree := hsends [.readState true, .readState false, .objectAdd true true]
    (.objectAdd false true) [.writeState true, .writeState false] _ rfl rfl false true 0 rfl rfl
  exact hfree (by decide)

end KvmOsx.Host
