import KvmOsx.Lib.Runs

/-!
# The list of attached USB devices

`mon-usb-attach V:P` asks QEMU for a `usb-host` device unless `var/usb_state` has a line
for the pair, and `machine-boot-kickstart` starts that file anew. Nothing ever adds a
line: the command that did is commented out (bin/mon-usb-attach:45).

* `UsbState`, `usbStep`: the file, the devices in QEMU, and the scripts.
* `usbState_step`: no script but the kickstart writes the file.
* `registry_iff`: when the file tells which devices are there.
-/

namespace KvmOsx.Host

open Text Runs

/-! ## Vendor and product -/

/-- A hexadecimal digit. -/
def isHex (c : Char) : Bool :=
  c.isDigit || ('a' ≤ c && c ≤ 'f') || ('A' ≤ c && c ≤ 'F')

/-- A vendor and a product, in hexadecimal. -/
structure UsbId where
  vendor : String
  product : String
  vendor_ne : vendor ≠ ""
  product_ne : product ≠ ""
  vendor_hex : ∀ c ∈ vendor.toList, isHex c = true
  product_hex : ∀ c ∈ product.toList, isHex c = true

/-- The argument `V:P`. -/
def UsbId.arg (u : UsbId) : String := u.vendor ++ ":" ++ u.product

/-- `$VENDOR_ID$PRODUCT_ID`. -/
def UsbId.key (u : UsbId) : String := u.vendor ++ u.product

/-- A `usb-host` device, with the arguments `device_add` got. -/
structure UsbHostDev where
  id : String
  vendorid : String
  productid : String
  deriving DecidableEq, Repr

/-- The device of a pair (bin/mon-usb-attach:31-40). -/
def UsbId.device (u : UsbId) : UsbHostDev where
  id := "usb_" ++ u.key
  vendorid := "0x" ++ u.vendor
  productid := "0x" ++ u.product

/-- The lines of `var/usb_state`, and the `usb-host` devices in QEMU. -/
structure UsbState where
  usbState : List String
  devices : List UsbHostDev
  deriving DecidableEq, Repr

/-! ## The scripts -/

/-- `contains KEY FILE`: a line of the file is the key (kvm/lib-helper.sh:13-18). -/
def contains (key : String) (lines : List String) : Bool := key ∈ lines

/-- QEMU adds a device under an id that is free, unless it rejects it for a reason of its own. -/
def deviceAdd (accept : Bool) (d : UsbHostDev) (devices : List UsbHostDev) : List UsbHostDev :=
  if accept && d.id ∉ devices.map (·.id) then devices ++ [d] else devices

/-- What a `mon-usb-attach` ends with, sends, and leaves behind. -/
structure AttachRun where
  exit : ℕ
  sent : Option UsbHostDev
  state : UsbState
  deriving DecidableEq, Repr

/-- `mon-usb-attach M V:P`; `accept` is QEMU's answer (bin/mon-usb-attach:20-48). -/
def monUsbAttach (arg : String) (accept : Bool) (s : UsbState) : AttachRun :=
  let vendor := cut ':' 1 (echo arg)
  let product := cut ':' 2 (echo arg)
  if !contains (vendor ++ product) s.usbState then
    let dev : UsbHostDev := ⟨"usb_" ++ (vendor ++ product), "0x" ++ vendor, "0x" ++ product⟩
    ⟨0, some dev, { s with devices := deviceAdd accept dev s.devices }⟩
  else ⟨1, none, s⟩

/-- `mon-usb-detach M ID`: `device_del` (bin/mon-usb-detach). -/
def monUsbDetach (id : String) (s : UsbState) : UsbState :=
  { s with devices := s.devices.filter fun d => d.id ≠ id }

/-- The loop of `input-attach` over `USB_DEVICE`, with QEMU's answers (bin/input-attach:20-24). -/
def inputAttach (adds : List (UsbId × Bool)) (s : UsbState) : UsbState :=
  adds.foldl (fun s x => (monUsbAttach x.1.arg x.2 s).state) s

/-- The loop of `input-detach` over the `usb-host` children of `/machine/peripheral`
    (bin/input-detach:26-29). -/
def inputDetach (s : UsbState) : UsbState :=
  (s.devices.map (·.id)).foldl (fun s id => monUsbDetach id s) s

/-- The end of `machine-boot-kickstart`: the test of `"\$VIRT_INPUT"` always holds
    (bin/machine-boot-kickstart:73-77). -/
def kickstart (adds : List (UsbId × Bool)) (s : UsbState) : UsbState :=
  inputAttach adds { s with usbState := ["#usb"] }

/-- A call of one of the scripts. -/
inductive UsbAction
  | attach (u : UsbId) (accept : Bool)
  | detach (id : String)
  | inputAttach (adds : List (UsbId × Bool))
  | inputDetach

/-- One call. -/
def usbStep (s : UsbState) : UsbAction → Option UsbState
  | .attach u accept => some (monUsbAttach u.arg accept s).state
  | .detach id => some (monUsbDetach id s)
  | .inputAttach adds => some (inputAttach adds s)
  | .inputDetach => some (inputDetach s)

/-! ## The pair of an argument -/

theorem not_mem_of_hex {t : String} (ht : ∀ c ∈ t.toList, isHex c = true) {x : Char}
    (hx : isHex x = false) : x ∉ t.toList := by
  intro hmem
  rw [ht x hmem] at hx
  exact absurd hx (by decide)

section Pairs

variable (u : UsbId)

theorem UsbId.arg_toList : u.arg.toList = u.vendor.toList ++ ':' :: u.product.toList := by
  simp [UsbId.arg]

theorem UsbId.vendor_cons : ∃ c cs, u.vendor.toList = c :: cs ∧ isHex c = true := by
  obtain ⟨c, cs, hcs⟩ := List.exists_cons_of_ne_nil
    (show u.vendor.toList ≠ [] by simpa using u.vendor_ne)
  exact ⟨c, cs, hcs, u.vendor_hex c (by simp [hcs])⟩

@[simp] theorem UsbId.echo_arg : echo u.arg = u.arg := by
  obtain ⟨c, cs, hcs, hc⟩ := u.vendor_cons
  have hdash : c ≠ '-' := by
    rintro rfl
    exact absurd hc (by decide)
  have hlist : u.arg.toList = c :: (cs ++ ':' :: u.product.toList) := by simp [u.arg_toList, hcs]
  unfold echo
  rw [hlist]
  split
  · rename_i heq
    exact absurd (List.cons.inj heq).1 hdash
  · rfl

@[simp] theorem UsbId.cut_vendor : cut ':' 1 u.arg = u.vendor :=
  cut_one u.arg_toList (not_mem_of_hex u.vendor_hex (by decide))

@[simp] theorem UsbId.cut_product : cut ':' 2 u.arg = u.product :=
  cut_last u.arg_toList (not_mem_of_hex u.vendor_hex (by decide))
    (not_mem_of_hex u.product_hex (by decide))

/-- No spelling of a pair is the first line of the file. -/
theorem UsbId.arg_ne : u.arg ≠ "#usb" := by
  obtain ⟨c, cs, hcs, hc⟩ := u.vendor_cons
  intro h
  have hlist := congrArg String.toList h
  rw [u.arg_toList, hcs] at hlist
  obtain rfl : c = '#' := (List.cons.inj hlist).1
  exact absurd hc (by decide)

theorem UsbId.key_ne : u.key ≠ "#usb" := by
  obtain ⟨c, cs, hcs, hc⟩ := u.vendor_cons
  intro h
  have hlist := congrArg String.toList h
  rw [UsbId.key, String.toList_append, hcs] at hlist
  obtain rfl : c = '#' := (List.cons.inj hlist).1
  exact absurd hc (by decide)

/-- The script on the argument of a pair. -/
theorem monUsbAttach_arg (accept : Bool) (s : UsbState) :
    monUsbAttach u.arg accept s =
      if contains u.key s.usbState then ⟨1, none, s⟩
      else ⟨0, some u.device, { s with devices := deviceAdd accept u.device s.devices }⟩ := by
  unfold monUsbAttach
  rw [u.echo_arg, u.cut_vendor, u.cut_product]
  by_cases h : contains u.key s.usbState = true
  · have h' : contains (u.vendor ++ u.product) s.usbState = true := h
    rw [if_pos h]
    simp [h']
  · have h' : contains (u.vendor ++ u.product) s.usbState = false := by
      simpa [UsbId.key] using h
    rw [if_neg h]
    simp [h', UsbId.device, UsbId.key]

end Pairs

/-! ## The file and the devices -/

/-- The state after the kickstart: the file has its first line only, and each device is
    that of a pair. -/
structure Started (s : UsbState) : Prop where
  file : s.usbState = ["#usb"]
  devices : ∀ d ∈ s.devices, ∃ u : UsbId, d = u.device

theorem contains_eq_false {s : UsbState} (hs : s.usbState = ["#usb"]) (u : UsbId) :
    contains u.key s.usbState = false := by
  simp [contains, hs, u.key_ne]

/-- With this file, an attach always asks QEMU. -/
theorem monUsbAttach_sends {s : UsbState} (hs : s.usbState = ["#usb"]) (u : UsbId)
    (accept : Bool) :
    monUsbAttach u.arg accept s =
      ⟨0, some u.device, { s with devices := deviceAdd accept u.device s.devices }⟩ := by
  rw [monUsbAttach_arg, contains_eq_false hs u]
  exact if_neg (by decide)

theorem mem_deviceAdd {accept : Bool} {d e : UsbHostDev} {devices : List UsbHostDev}
    (h : e ∈ deviceAdd accept d devices) : e ∈ devices ∨ e = d := by
  unfold deviceAdd at h
  split_ifs at h
  · simpa using h
  · exact Or.inl h

theorem deviceAdd_eq_nil {accept : Bool} {d : UsbHostDev} {devices : List UsbHostDev} :
    deviceAdd accept d devices = [] ↔ devices = [] ∧ accept = false := by
  constructor
  · intro h
    unfold deviceAdd at h
    split_ifs at h with hadd
    · simp at h
    · subst h
      simpa using hadd
  · rintro ⟨rfl, rfl⟩
    rfl

theorem Started.attach {s : UsbState} (hs : Started s) (u : UsbId) (accept : Bool) :
    Started (monUsbAttach u.arg accept s).state := by
  rw [monUsbAttach_sends hs.file]
  refine ⟨hs.file, ?_⟩
  intro d hd
  rcases mem_deviceAdd hd with hold | rfl
  · exact hs.devices d hold
  · exact ⟨u, rfl⟩

theorem Started.detach {s : UsbState} (hs : Started s) (id : String) :
    Started (monUsbDetach id s) := by
  refine ⟨hs.file, ?_⟩
  intro d hd
  exact hs.devices d (List.mem_of_mem_filter hd)

theorem Started.inputAttach {s : UsbState} (hs : Started s) (adds : List (UsbId × Bool)) :
    Started (inputAttach adds s) := by
  unfold Host.inputAttach
  induction adds generalizing s with
  | nil => exact hs
  | cons x adds ih => exact ih (hs.attach x.1 x.2)

theorem Started.inputDetach {s : UsbState} (hs : Started s) : Started (inputDetach s) := by
  unfold Host.inputDetach
  generalize s.devices.map (·.id) = ids
  induction ids generalizing s with
  | nil => exact hs
  | cons id ids ih => exact ih (hs.detach id)

theorem Started.kickstart (adds : List (UsbId × Bool)) (lines : List String) :
    Started (kickstart adds ⟨lines, []⟩) := by
  apply Started.inputAttach
  exact ⟨rfl, by simp⟩

/-- No call writes the file. -/
theorem Started.step {s s' : UsbState} {a : UsbAction} (hs : Started s)
    (hstep : usbStep s a = some s') : Started s' := by
  cases a with
  | attach u accept =>
    obtain rfl := Option.some.inj hstep
    exact hs.attach u accept
  | detach id =>
    obtain rfl := Option.some.inj hstep
    exact hs.detach id
  | inputAttach adds =>
    obtain rfl := Option.some.inj hstep
    exact hs.inputAttach adds
  | inputDetach =>
    obtain rfl := Option.some.inj hstep
    exact hs.inputDetach

/-- There is no device after an `input-attach` exactly if there was none and QEMU rejects
    each new one. -/
theorem inputAttach_eq_nil {s : UsbState} (hs : Started s) (adds : List (UsbId × Bool)) :
    (inputAttach adds s).devices = [] ↔ s.devices = [] ∧ ∀ x ∈ adds, x.2 = false := by
  unfold inputAttach
  induction adds generalizing s with
  | nil => simp
  | cons x adds ih =>
    have hfirst : (monUsbAttach x.1.arg x.2 s).state.devices = [] ↔
        s.devices = [] ∧ x.2 = false := by
      rw [monUsbAttach_sends hs.file]
      exact deviceAdd_eq_nil
    rw [List.foldl_cons, ih (hs.attach x.1 x.2), hfirst, List.forall_mem_cons, and_assoc]

/-- `input-detach` removes every device. -/
theorem inputDetach_devices (s : UsbState) : (inputDetach s).devices = [] := by
  have hloop : ∀ (ids : List String) (s : UsbState),
      (ids.foldl (fun s id => monUsbDetach id s) s).devices =
        s.devices.filter fun d => d.id ∉ ids := by
    intro ids
    induction ids with
    | nil => simp
    | cons id ids ih =>
      intro s
      rw [List.foldl_cons, ih, monUsbDetach, List.filter_filter]
      congr 1
      funext d
      simp [not_or, Bool.and_comm]
  rw [inputDetach, hloop, List.filter_eq_nil_iff]
  intro d hd
  simpa using ⟨d, hd, rfl⟩

/-! ## The registry -/

/-- The file has a line for the pair, in either spelling. -/
def Recorded (s : UsbState) (u : UsbId) : Prop := u.arg ∈ s.usbState ∨ u.key ∈ s.usbState

/-- The device is one of the pair. -/
def UsbHostDev.Is (d : UsbHostDev) (u : UsbId) : Prop :=
  d.vendorid = "0x" ++ u.vendor ∧ d.productid = "0x" ++ u.product

/-- QEMU has a device of the pair. -/
def Present (s : UsbState) (u : UsbId) : Prop := ∃ d ∈ s.devices, d.Is u

/-- The file tells which devices there are: an attach of a pair that is there is refused,
    and works again once the device is removed. -/
structure Registry (s : UsbState) : Prop where
  pairs : ∀ u, Recorded s u ↔ Present s u
  refused : ∀ u accept, Present s u →
    (monUsbAttach u.arg accept s).exit = 1 ∧ (monUsbAttach u.arg accept s).sent = none
  again : ∀ u, ∀ d ∈ s.devices, d.Is u →
    (monUsbAttach u.arg true (monUsbDetach d.id s)).exit = 0 ∧
      Present (monUsbAttach u.arg true (monUsbDetach d.id s)).state u

theorem UsbId.device_is {u v : UsbId} (h : u.device.Is v) : u.device = v.device := by
  obtain ⟨hv, hp⟩ := h
  have hvendor : u.vendor = v.vendor := (String.append_right_inj _).mp hv
  have hproduct : u.product = v.product := (String.append_right_inj _).mp hp
  simp [UsbId.device, UsbId.key, hvendor, hproduct]

theorem not_recorded {s : UsbState} (hs : Started s) (u : UsbId) : ¬ Recorded s u := by
  simp [Recorded, hs.file, u.arg_ne, u.key_ne]

/-- A device that was removed can be attached again. -/
theorem attach_after_detach {s : UsbState} (hs : Started s) {u : UsbId} {d : UsbHostDev}
    (hd : d ∈ s.devices) (hu : d.Is u) :
    (monUsbAttach u.arg true (monUsbDetach d.id s)).exit = 0 ∧
      Present (monUsbAttach u.arg true (monUsbDetach d.id s)).state u := by
  obtain ⟨v, rfl⟩ := hs.devices d hd
  have hdev : v.device = u.device := UsbId.device_is hu
  rw [monUsbAttach_sends (hs.detach v.device.id).file]
  refine ⟨rfl, u.device, ?_, rfl, rfl⟩
  have hfree : u.device.id ∉ (monUsbDetach v.device.id s).devices.map (·.id) := by
    simp [monUsbDetach, hdev]
  simp [deviceAdd, hfree]

/-- After the kickstart, the file is right exactly as long as there is no device. -/
theorem registry_iff_nil {s : UsbState} (hs : Started s) : Registry s ↔ s.devices = [] := by
  constructor
  · intro h
    apply List.eq_nil_iff_forall_not_mem.mpr
    intro d hd
    obtain ⟨u, rfl⟩ := hs.devices d hd
    exact not_recorded hs u ((h.pairs u).mpr ⟨_, hd, rfl, rfl⟩)
  · intro h
    have habsent : ∀ u, ¬ Present s u := by
      rintro u ⟨d, hd, -⟩
      simp [h] at hd
    refine ⟨?_, ?_, ?_⟩
    · intro u
      exact iff_of_false (not_recorded hs u) (habsent u)
    · intro u accept hu
      exact absurd hu (habsent u)
    · intro u d hd hu
      exact attach_after_detach hs hd hu

/-- QEMU rejects each device the call asks for. -/
def UsbAction.Rejected : UsbAction → Prop
  | .attach _ accept => accept = false
  | .detach _ => True
  | .inputAttach adds => ∀ x ∈ adds, x.2 = false
  | .inputDetach => True

/-- From a state without devices, a call leaves none exactly if QEMU rejects what it asks for. -/
theorem step_eq_nil {s s' : UsbState} {a : UsbAction} (hs : Started s) (hnil : s.devices = [])
    (hstep : usbStep s a = some s') : s'.devices = [] ↔ a.Rejected := by
  cases a with
  | attach u accept =>
    obtain rfl := Option.some.inj hstep
    rw [monUsbAttach_sends hs.file]
    show deviceAdd accept u.device s.devices = [] ↔ accept = false
    rw [deviceAdd_eq_nil, and_iff_right hnil]
  | detach id =>
    obtain rfl := Option.some.inj hstep
    exact iff_of_true (by simp [monUsbDetach, hnil]) trivial
  | inputAttach adds =>
    obtain rfl := Option.some.inj hstep
    rw [inputAttach_eq_nil hs, and_iff_right hnil]
    rfl
  | inputDetach =>
    obtain rfl := Option.some.inj hstep
    exact iff_of_true (inputDetach_devices s) trivial

/-- Every call can be made in every state. -/
theorem usbStep_isSome (a : UsbAction) (s : UsbState) : ∃ s', usbStep s a = some s' := by
  cases a <;> exact ⟨_, rfl⟩

/-- The keyboard with vendor `05ac` and product `8242`. -/
def appleRemote : UsbId where
  vendor := "05ac"
  product := "8242"
  vendor_ne := by decide
  product_ne := by decide
  vendor_hex := by simp [isHex]
  product_hex := by simp [isHex]

end KvmOsx.Host
