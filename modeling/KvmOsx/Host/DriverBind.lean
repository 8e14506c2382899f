import KvmOsx.Lib.Runs

/-!
# Binding PCI devices to drivers

`vfio-bind`, `vfio-unbind`, `vfio-reset` and `drv-bind` write to files below
`/sys/bus/pci`. `vfio-bind` and `drv-bind` skip a device as claimed if its
`driver_override` names the driver, whatever the device is bound to.

* `PciState`, `Kernel`, `Write`: the devices, and what the kernel does on a write.
* `PciScript.call`: the writes of a call, and its status.
* `honest_iff_unclaimed`: when a call that ends with status 0 has bound its device.
* `binds_honest_iff`: the same throughout a sequence of calls, interrupted or not.
* `settled_run`: `vfio-bind` and `drv-bind` on their own never leave a device wrongly claimed.
-/

namespace KvmOsx.Host

open Runs

/-! ## Devices and the kernel -/

/-- A device: its ids, the driver it is bound to, and its `driver_override`. -/
structure PciDev where
  vendor : String
  device : String
  driver : Option String
  override : Option String
  deriving DecidableEq, Repr

/-- The devices below `/sys/bus/pci/devices`, and the drivers below `/sys/bus/pci/drivers`. -/
structure PciState where
  dev : String → Option PciDev
  drv : String → Bool

/-- The driver a device is bound to. -/
def PciState.driverOf (s : PciState) (dev : String) : Option String := (s.dev dev).bind (·.driver)

/-- `$(cat /sys/bus/pci/devices/$dev/driver_override)`. -/
def PciState.catOverride (s : PciState) (dev : String) : String :=
  (s.dev dev).elim "" fun d => d.override.getD "(null)"

/-- Change a device, if it is there. -/
def PciState.modify (s : PciState) (dev : String) (f : PciDev → PciDev) : PciState :=
  { s with dev := Function.update s.dev dev ((s.dev dev).map f) }

/-- A write of a script. `unbind` is the write to `driver/unbind`, which is made only if
    the device is bound. -/
inductive Write
  | override (dev text : String)
  | unbind (dev : String)
  | probe (dev : String)
  | bind (drv dev : String)
  | newId (text : String)
  | removeId (text : String)
  deriving DecidableEq, Repr

/-- What is left open of the kernel: the driver a device without an override is bound to,
    what the writes to `new_id` and `remove_id` do, and whether `vfio-pci` can be loaded. -/
structure Kernel where
  native : String → PciState → Option String
  newId : String → PciState → PciState
  removeId : String → PciState → PciState
  modprobe : Bool

/-- The effect of a write. -/
def Kernel.write (k : Kernel) (s : PciState) : Write → PciState
  | .override dev text =>
    if text = "" then s else s.modify dev fun d => { d with override := some text }
  | .unbind dev => s.modify dev fun d => { d with driver := none }
  | .probe dev => s.modify dev fun d =>
    if d.driver = none then { d with driver := d.override.or (k.native dev s) } else d
  | .bind drv dev => s.modify dev fun d =>
    if d.driver = none ∧ d.override = some drv then { d with driver := some drv } else d
  | .newId text => k.newId text s
  | .removeId text => k.removeId text s

/-- The effect of several. -/
def Kernel.perform (k : Kernel) (ws : List Write) (s : PciState) : PciState := ws.foldl k.write s

/-- The write to the `bind` file of a driver works. -/
def PciState.canBind (s : PciState) (drv dev : String) : Bool :=
  (s.dev dev).elim false fun d => d.driver = none && d.override = some drv

/-! ## The scripts -/

/-- The writes of a call that is not interrupted, and its status. -/
structure Call where
  writes : List Write
  status : ℕ
  deriving DecidableEq, Repr

/-- The writes of a round in front of those of the rest. -/
def Call.after (ws : List Write) (c : Call) : Call := ⟨ws ++ c.writes, c.status⟩

/-- The loop of `vfio-bind`. `set -e` ends it at the first `cat` of a missing device's file
    (bin/vfio-bind:10-62). -/
def vfioBindLoop (k : Kernel) : List String → PciState → Call
  | [], _ => ⟨[], 0⟩
  | dev :: devs, s =>
    match s.dev dev with
    | none => ⟨[], 1⟩
    | some d =>
      if d.driver = some "vfio-pci" then vfioBindLoop k devs s
      else if s.catOverride dev = "vfio-pci" then vfioBindLoop k devs s
      else
        let ws := [.override dev "vfio-pci", .unbind dev, .probe dev]
        (vfioBindLoop k devs (k.perform ws s)).after ws

/-- `vfio-bind`; `set -e` ends it if `modprobe` fails. -/
def vfioBind (k : Kernel) (devs : List String) (s : PciState) : Call :=
  if k.modprobe then vfioBindLoop k devs s else ⟨[], 1⟩

/-- `echo -n $vendor $device`, less the blank of an empty part. -/
def idText (parts : List String) : String := " ".intercalate (parts.filter (· ≠ ""))

/-- `vfio-unbind`. The line that sets `device` begins with a stray `q`, so the variable is
    never set (bin/vfio-unbind:5-32). -/
def vfioUnbind (k : Kernel) : List String → PciState → Call
  | [], _ => ⟨[], 0⟩
  | dev :: devs, s =>
    let text := idText [(s.dev dev).elim "" (·.vendor)]
    let ws := [.override dev "", .newId text, .unbind dev, .removeId text]
    (vfioUnbind k devs (k.perform ws s)).after ws

/-- `vfio-reset` (bin/vfio-reset:5-42). -/
def vfioReset (k : Kernel) : List String → PciState → Call
  | [], _ => ⟨[], 0⟩
  | dev :: devs, s =>
    if s.catOverride dev = "vfio-pci" then vfioReset k devs s
    else
      let text := idText [(s.dev dev).elim "" (·.vendor), (s.dev dev).elim "" (·.device)]
      let ws := [.override dev "vfio-pci", .newId text, .unbind dev, .bind "vfio-pci" dev,
        .removeId text]
      (vfioReset k devs (k.perform ws s)).after ws

/-- The loop of `drv-bind`; `status` is that of the round before (bin/drv-bind:5-47). -/
def drvBindLoop (k : Kernel) (drv : String) (status : ℕ) : List String → PciState → Call
  | [], _ => ⟨[], status⟩
  | dev :: devs, s =>
    if s.catOverride dev = drv then drvBindLoop k drv 0 devs s
    else if (s.dev dev).isNone then ⟨[], 2⟩
    else if s.drv drv = false then ⟨[], 1⟩
    else
      let ws := [.override dev drv, .unbind dev]
      let s := k.perform ws s
      let status := if s.canBind drv dev then 0 else 1
      (drvBindLoop k drv status devs (k.write s (.bind drv dev))).after (ws ++ [.bind drv dev])

/-- `drv-bind DRIVER`. -/
def drvBind (k : Kernel) (drv : String) (devs : List String) (s : PciState) : Call :=
  drvBindLoop k drv 0 devs s

/-- The scripts with their arguments. -/
inductive PciScript
  | vfioBind (devs : List String)
  | vfioUnbind (devs : List String)
  | vfioReset (devs : List String)
  | drvBind (drv : String) (devs : List String)
  deriving DecidableEq, Repr

/-- What a call comes to in a state. -/
def PciScript.call (k : Kernel) (s : PciState) : PciScript → Call
  | .vfioBind devs => Host.vfioBind k devs s
  | .vfioUnbind devs => Host.vfioUnbind k devs s
  | .vfioReset devs => Host.vfioReset k devs s
  | .drvBind drv devs => Host.drvBind k drv devs s

/-- A call, with the number of writes after which it is interrupted, if it is. -/
structure PciCall where
  script : PciScript
  stop : Option ℕ
  deriving DecidableEq, Repr

/-- The writes that are made. -/
def PciCall.writes (k : Kernel) (s : PciState) (a : PciCall) : List Write :=
  a.stop.elim (a.script.call k s).writes fun n => (a.script.call k s).writes.take n

/-- One call. -/
def pciStep (k : Kernel) (s : PciState) (a : PciCall) : Option PciState :=
  some (k.perform (a.writes k s) s)

/-! ## Honest calls -/

/-- The call is a `vfio-bind DEV` or `drv-bind DRIVER DEV` that is not interrupted. -/
def PciCall.Binds (a : PciCall) (drv dev : String) : Prop :=
  a.stop = none ∧ (a.script = .vfioBind [dev] ∧ drv = "vfio-pci" ∨ a.script = .drvBind drv [dev])

/-- If the call binds a device and ends with status 0, the device is bound to the driver. -/
def Honest (k : Kernel) (s : PciState) (a : PciCall) : Prop :=
  ∀ drv dev, a.Binds drv dev → (a.script.call k s).status = 0 →
    (k.perform (a.script.call k s).writes s).driverOf dev = some drv

/-- The override names the driver, but the device is not bound to it. -/
def Claimed (s : PciState) (drv dev : String) : Prop :=
  s.catOverride dev = drv ∧ s.driverOf dev ≠ some drv

/-- The script gets to its loop. -/
def PciScript.Starts (k : Kernel) : PciScript → Prop
  | .vfioBind _ => k.modprobe = true
  | _ => True

/-- The device the call is to bind is not claimed wrongly. -/
def Unclaimed (k : Kernel) (s : PciState) (a : PciCall) : Prop :=
  ∀ drv dev, a.Binds drv dev → a.script.Starts k → ¬ Claimed s drv dev

/-! ## One device -/

section Rounds

variable {k : Kernel} {s : PciState} {dev drv : String}

@[simp] theorem perform_append (ws ws' : List Write) :
    k.perform (ws ++ ws') s = k.perform ws' (k.perform ws s) := List.foldl_append

theorem modify_modify (f g : PciDev → PciDev) :
    (s.modify dev f).modify dev g = s.modify dev (g ∘ f) := by
  simp [PciState.modify, Option.map_map]

theorem driverOf_modify (f : PciDev → PciDev) :
    (s.modify dev f).driverOf dev = (s.dev dev).bind fun d => (f d).driver := by
  cases h : s.dev dev <;> simp [PciState.driverOf, PciState.modify, h]

/-- Override, unbind and probe bind a device to the driver of the override. -/
theorem perform_probe (h : drv ≠ "") :
    k.perform [.override dev drv, .unbind dev, .probe dev] s =
      s.modify dev fun d => { d with driver := some drv, override := some drv } := by
  simp only [Kernel.perform, List.foldl_cons, List.foldl_nil, Kernel.write, if_neg h, modify_modify]
  congr 1

/-- So do override, unbind and the write to the `bind` file of the driver. -/
theorem perform_bind (h : drv ≠ "") :
    k.perform ([.override dev drv, .unbind dev] ++ [.bind drv dev]) s =
      s.modify dev fun d => { d with driver := some drv, override := some drv } := by
  simp only [List.cons_append, List.nil_append, Kernel.perform, List.foldl_cons, List.foldl_nil,
    Kernel.write, if_neg h, modify_modify]
  congr 1
  funext d
  simp

theorem canBind_perform {d : PciDev} (h : s.dev dev = some d) :
    (k.perform [.override dev drv, .unbind dev] s).canBind drv dev =
      decide (drv ≠ "" ∨ d.override = some drv) := by
  by_cases hdrv : drv = ""
  · simp [Kernel.perform, Kernel.write, PciState.canBind, PciState.modify, h, hdrv]
  · simp [Kernel.perform, Kernel.write, PciState.canBind, PciState.modify, h, hdrv]

end Rounds

section Single

variable {k : Kernel} {s : PciState} {drv dev : String}

/-- `vfio-bind DEV` has bound the device exactly if it was not claimed wrongly. -/
theorem vfioBind_honest (hk : k.modprobe = true) :
    ((vfioBind k [dev] s).status = 0 →
      (k.perform (vfioBind k [dev] s).writes s).driverOf dev = some "vfio-pci") ↔
        ¬ Claimed s "vfio-pci" dev := by
  rw [vfioBind, if_pos hk]
  cases hdev : s.dev dev with
  | none =>
    have hfree : ¬ Claimed s "vfio-pci" dev := by simp [Claimed, PciState.catOverride, hdev]
    simp [vfioBindLoop, hdev, hfree]
  | some d =>
    simp only [vfioBindLoop, hdev]
    split_ifs with hdriver hover
    · have hbound : s.driverOf dev = some "vfio-pci" := by simp [PciState.driverOf, hdev, hdriver]
      simp [Claimed, hbound, Kernel.perform]
    · simp [Claimed, hover, Kernel.perform]
    · have hfree : ¬ Claimed s "vfio-pci" dev := fun hc => hover hc.1
      refine iff_of_true (fun _ => ?_) hfree
      rw [Call.after, List.append_nil, perform_probe (by decide), driverOf_modify, hdev]
      rfl

/-- And so has `drv-bind DRIVER DEV`. -/
theorem drvBind_honest :
    ((drvBind k drv [dev] s).status = 0 →
      (k.perform (drvBind k drv [dev] s).writes s).driverOf dev = some drv) ↔
        ¬ Claimed s drv dev := by
  simp only [drvBind, drvBindLoop]
  split_ifs with hover hdev hdrv hcan
  · simp [Claimed, hover, Kernel.perform]
  · simp [Claimed, hover]
  · simp [Claimed, hover]
  · have hfree : ¬ Claimed s drv dev := fun hc => hover hc.1
    refine iff_of_true (fun _ => ?_) hfree
    obtain ⟨d, hd⟩ := Option.ne_none_iff_exists'.mp (show s.dev dev ≠ none by simpa using hdev)
    -- an override that is the empty text would have made the script skip the device
    have hne : drv ≠ "" := by
      rintro rfl
      rw [canBind_perform hd] at hcan
      have hempty : d.override = some "" := by simpa using hcan
      simp [PciState.catOverride, hd, hempty] at hover
    rw [Call.after, List.append_nil, perform_bind hne, driverOf_modify, hd]
    rfl
  · simp [Claimed, hover, Call.after]

end Single

/-- A call is honest exactly if the device it is to bind is not claimed wrongly. -/
theorem honest_iff_unclaimed {k : Kernel} {s : PciState} {a : PciCall} :
    Honest k s a ↔ Unclaimed k s a := by
  refine forall_congr' fun drv => forall_congr' fun dev => forall_congr' fun hbinds => ?_
  obtain ⟨-, ⟨hscript, rfl⟩ | hscript⟩ := hbinds
  · rw [hscript]
    show ((vfioBind k [dev] s).status = 0 → _) ↔ (k.modprobe = true → _)
    by_cases hk : k.modprobe = true
    · rw [show (PciScript.vfioBind [dev]).call k s = vfioBind k [dev] s from rfl, vfioBind_honest hk]
      simp [hk]
    · simp [vfioBind, hk]
  · rw [hscript]
    show ((drvBind k drv [dev] s).status = 0 → _) ↔ (True → _)
    rw [show (PciScript.drvBind drv [dev]).call k s = drvBind k drv [dev] s from rfl, drvBind_honest]
    simp

/-- **Whenever a call ends with status 0, its device is bound, exactly if** no call is made
    for a device whose override names the driver though it is not bound to it: in every
    sequence of calls, interrupted or not. -/
theorem binds_honest_iff (k : Kernel) (acts : List PciCall) (s : PciState) :
    EachStep (pciStep k) (Honest k) acts s ↔ EachStep (pciStep k) (Unclaimed k) acts s := by
  constructor
  · intro h before a after t hacts ht
    exact honest_iff_unclaimed.mp (h before a after t hacts ht)
  · intro h before a after t hacts ht
    exact honest_iff_unclaimed.mpr (h before a after t hacts ht)

/-- The graphics card of a host, bound to `nvidia`. -/
def oneCard : PciState where
  dev := Function.update (fun _ => none) "0000:03:00.0"
    (some ⟨"0x10de", "0x1b06", some "nvidia", none⟩)
  drv := fun drv => drv = "nvidia" || drv = "vfio-pci"

/-- A kernel that takes no new ids and leaves unbound devices alone. -/
def plainKernel : Kernel where
  native := fun _ _ => none
  newId := fun _ s => s
  removeId := fun _ s => s
  modprobe := true

/-- `vfio-unbind` leaves the override in place, so the next `vfio-bind` skips the device:
    it ends with status 0 and the device is bound to no driver. -/
theorem bind_after_unbind_skips :
    ¬ EachStep (pciStep plainKernel) (Honest plainKernel)
      [⟨.vfioBind ["0000:03:00.0"], none⟩, ⟨.vfioUnbind ["0000:03:00.0"], none⟩,
        ⟨.vfioBind ["0000:03:00.0"], none⟩] oneCard := by
  intro h
  have hlast := h [⟨.vfioBind ["0000:03:00.0"], none⟩, ⟨.vfioUnbind ["0000:03:00.0"], none⟩]
    ⟨.vfioBind ["0000:03:00.0"], none⟩ [] _ rfl rfl "vfio-pci" "0000:03:00.0"
    ⟨rfl, Or.inl ⟨rfl, rfl⟩⟩ rfl
  exact absurd hlast (by decide)

/-! ## Settled devices -/

/-- A device with an override is bound to the driver it names. -/
def Settled (s : PciState) : Prop :=
  ∀ dev d drv, s.dev dev = some d → d.override = some drv → d.driver = some drv

theorem Settled.modify {s : PciState} (hs : Settled s) (dev drv : String) :
    Settled (s.modify dev fun d => { d with driver := some drv, override := some drv }) := by
  intro dev' d drv' hdev hover
  by_cases heq : dev' = dev
  · subst heq
    simp only [PciState.modify, Function.update_self] at hdev
    obtain ⟨d', -, rfl⟩ := Option.map_eq_some_iff.mp hdev
    exact hover
  · simp only [PciState.modify, Function.update_of_ne heq] at hdev
    exact hs dev' d drv' hdev hover

/-- A settled device is claimed rightly, if the driver has a name a driver can have. -/
theorem Settled.unclaimed {s : PciState} (hs : Settled s) {drv : String} (hdrv : drv ≠ "")
    (hnull : drv ≠ "(null)") (dev : String) : ¬ Claimed s drv dev := by
  rintro ⟨hover, hdriver⟩
  cases hdev : s.dev dev with
  | none => simp [PciState.catOverride, hdev, hdrv.symm] at hover
  | some d =>
    cases ho : d.override with
    | none => simp [PciState.catOverride, hdev, ho, hnull.symm] at hover
    | some o =>
      have hname : o = drv := by simpa [PciState.catOverride, hdev, ho] using hover
      rw [hname] at ho
      exact hdriver (by simp [PciState.driverOf, hdev, hs dev d drv hdev ho])

theorem vfioBindLoop_settled (k : Kernel) (devs : List String) (s : PciState) (hs : Settled s) :
    Settled (k.perform (vfioBindLoop k devs s).writes s) := by
  induction devs generalizing s with
  | nil => exact hs
  | cons dev devs ih =>
    cases hdev : s.dev dev with
    | none =>
      simp only [vfioBindLoop, hdev]
      exact hs
    | some d =>
      simp only [vfioBindLoop, hdev]
      split_ifs
      · exact ih s hs
      · exact ih s hs
      · rw [Call.after, perform_append]
        apply ih
        rw [perform_probe (by decide)]
        exact hs.modify dev "vfio-pci"

theorem drvBindLoop_settled (k : Kernel) {drv : String} (hdrv : drv ≠ "") (devs : List String)
    (status : ℕ) (s : PciState) (hs : Settled s) :
    Settled (k.perform (drvBindLoop k drv status devs s).writes s) := by
  induction devs generalizing status s with
  | nil => exact hs
  | cons dev devs ih =>
    unfold drvBindLoop
    split_ifs
    · exact ih 0 s hs
    · exact hs
    · exact hs
    · have hround : Settled
          (k.write (k.perform [.override dev drv, .unbind dev] s) (.bind drv dev)) := by
        have hbind : k.perform ([.override dev drv, .unbind dev] ++ [.bind drv dev]) s = _ :=
          perform_bind hdrv
        rw [perform_append] at hbind
        rw [show k.write (k.perform [.override dev drv, .unbind dev] s) (.bind drv dev) =
          k.perform [.bind drv dev] (k.perform [.override dev drv, .unbind dev] s) from rfl, hbind]
        exact hs.modify dev drv
      rw [Call.after, perform_append, perform_append]
      exact ih _ _ hround

/-- The call is a `vfio-bind`, or a `drv-bind` with a name a driver can have, and is not
    interrupted. -/
def PciCall.OnlyBinds (a : PciCall) : Prop :=
  a.stop = none ∧ ((∃ devs, a.script = .vfioBind devs) ∨
    ∃ drv devs, a.script = .drvBind drv devs ∧ drv ≠ "" ∧ drv ≠ "(null)")

theorem settled_step {k : Kernel} {s s' : PciState} {a : PciCall} (hs : Settled s)
    (ha : a.OnlyBinds) (h : pciStep k s a = some s') : Settled s' := by
  obtain rfl := Option.some.inj h
  obtain ⟨hstop, ⟨devs, hscript⟩ | ⟨drv, devs, hscript, hdrv, -⟩⟩ := ha
  · simp only [PciCall.writes, hstop, Option.elim_none, hscript, PciScript.call, vfioBind]
    split_ifs
    · exact vfioBindLoop_settled k devs s hs
    · exact hs
  · simp only [PciCall.writes, hstop, Option.elim_none, hscript, PciScript.call]
    exact drvBindLoop_settled k hdrv devs 0 s hs

/-- `vfio-bind` and `drv-bind` on their own, on settled devices, are honest throughout. -/
theorem settled_run (k : Kernel) {acts : List PciCall} {s : PciState} (hs : Settled s)
    (hacts : ∀ a ∈ acts, a.OnlyBinds) : EachStep (pciStep k) (Honest k) acts s := by
  rintro before a after t rfl ht
  have honly : EachStep (pciStep k) (fun _ a => a.OnlyBinds) before s := by
    rintro b c b' m rfl -
    exact hacts c (by simp)
  have hsettled : Settled t :=
    run_invariant_of hs (fun _ _ _ hs ha hstep => settled_step hs ha hstep) honly ht
  apply honest_iff_unclaimed.mpr
  rintro drv dev ⟨-, hbinds⟩ -
  obtain ⟨-, ⟨devs, hscript⟩ | ⟨drv', devs, hscript, hdrv, hnull⟩⟩ := hacts a (by simp)
  · rcases hbinds with ⟨-, rfl⟩ | hbinds
    · exact hsettled.unclaimed (by decide) (by decide) dev
    · cases hscript.symm.trans hbinds
  · rcases hbinds with ⟨hbinds, -⟩ | hbinds
    · cases hscript.symm.trans hbinds
    · obtain ⟨rfl, -⟩ := PciScript.drvBind.inj (hscript.symm.trans hbinds)
      exact hsettled.unclaimed hdrv hnull dev

end KvmOsx.Host
