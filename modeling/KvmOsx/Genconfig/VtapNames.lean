import KvmOsx.Genconfig.OnExit

/-!
# Host interface names

Five emitters build the name of a host interface from a letter, the machine's name
without hyphens cut to 11 characters, and `NET_INDEX`. The kernel takes 15 characters.
`PRE_CMD` deletes an interface of that name before it creates its own, `POST_CMD`
deletes it again.

* `vtapName_eq_iff`: the name determines the index and the shortened machine name.
* `Manages`: the commands that delete, create, flush or re-plug an interface.
* `vtapName_apart`: the commands of a machine manage only interfaces of machines with
  the same shortened name.
-/

namespace KvmOsx.Genconfig

open Script Text

/-! ## The names -/

theorem vtapName_toList (pre machine : String) (i : ℕ) : (vtapName pre machine i).toList =
    (pre ++ "_" ++ vtapMachine machine).toList ++ 'n' :: (num i).toList := by
  simp [vtapName]

/-- The last `n` of a name is the one in front of the index. -/
theorem vtapName_inj {pre pre' M N : String} {i j : ℕ} (hlen : pre.length = pre'.length)
    (h : vtapName pre M i = vtapName pre' N j) : i = j ∧ vtapMachine M = vtapMachine N := by
  have hlist := congrArg String.toList h
  rw [vtapName_toList, vtapName_toList] at hlist
  have hn : ∀ k, 'n' ∉ (num k).toList := not_mem_num_of_not_isDigit (by decide)
  obtain ⟨hmachine, hindex⟩ := append_cons_inj (hn i) (hn j) hlist
  simp only [String.toList_append, List.append_assoc] at hmachine
  have hlist : pre.toList.length = pre'.toList.length := hlen
  have htail := (List.append_inj hmachine hlist).2
  rw [List.append_cancel_left_eq] at htail
  exact ⟨num_inj.mp (String.toList_inj.mp hindex), String.toList_inj.mp htail⟩

theorem vtapName_eq_iff (pre M N : String) (i j : ℕ) :
    vtapName pre M i = vtapName pre N j ↔ i = j ∧ vtapMachine M = vtapMachine N := by
  constructor
  · exact vtapName_inj rfl
  · rintro ⟨rfl, h⟩
    rw [vtapName, vtapName, h]

theorem vtapMachine_length (machine : String) : (vtapMachine machine).length ≤ 11 := by
  simp [vtapMachine]

theorem num_length_of_lt {i : ℕ} (h : i < 10) : (num i).length = 1 := by
  interval_cases i <;> rfl

/-- With a one-digit index the kernel takes the name. -/
theorem vtapName_length {pre : String} (hpre : pre.length = 1) (machine : String) {i : ℕ}
    (hi : i < 10) : (vtapName pre machine i).length ≤ 15 := by
  have hm := vtapMachine_length machine
  have hone : "_".length = 1 ∧ "n".length = 1 := by decide
  simp only [vtapName, String.length_append, hpre, num_length_of_lt hi, hone.1, hone.2]
  omega

/-! ## Commands on interfaces -/

/-- The commands of a line. -/
def commands (l : Line) : List Cmd := (splitTop 0 l).1 :: (splitTop 0 l).2.map Prod.snd

/-- The file in which `vppctl create tap` leaves the number of interface `x`. -/
def ifnameFile (x : String) : String := "/run/vpp/" ++ x ++ ".ifname"

/-- The command deletes, creates or flushes interface `x`, or plugs it in or out of a
    bridge. VPP deletes the tap whose number it finds in the file of the name. -/
def Manages (x : String) (c : Cmd) : Prop :=
  c = words ["ip", "link", "del", "dev", x] ∨
  c = words ["ip", "link", "del", x] ∨
  c = words ["ip", "addr", "flush", "dev", x] ∨
  (∃ br rest, c = words (["ip", "link", "add", "link", br, "name", x] ++ rest)) ∨
  c = words ["ip", "tuntap", "add", "mode", "tap", x] ∨
  (∃ br, c = words ["ovs-vsctl", "del-port", br, x]) ∨
  (∃ br rest, c = words (["ovs-vsctl", "add-port", br, x] ++ rest)) ∨
  c = [catVppport (ifnameFile x)] ∨
  c = vpptapCreate x (ifnameFile x)

/-- The names a call with index `i` may use. -/
def ownNames (machine : String) (i : ℕ) : List String :=
  [vtapName "m" machine i, vtapName "t" machine i, vtapName "o" machine i, vppName machine i]

/-- The interfaces that a list of entries manages are all listed in `names`. -/
def ManagesOnly (names : List String) (ls : List Line) : Prop :=
  ∀ l ∈ ls, ∀ c ∈ commands l, ∀ x, Manages x c → x ∈ names

theorem ManagesOnly.append {names : List String} {ls ls' : List Line} (h : ManagesOnly names ls)
    (h' : ManagesOnly names ls') : ManagesOnly names (ls ++ ls') := by
  intro l hl
  rcases List.mem_append.mp hl with hl | hl
  · exact h l hl
  · exact h' l hl

theorem ManagesOnly.nil (names : List String) : ManagesOnly names [] := by
  intro l hl
  cases hl

theorem ifnameFile_inj {x y : String} : ifnameFile x = ifnameFile y ↔ x = y := by
  rw [ifnameFile, ifnameFile, String.append_left_inj, String.append_right_inj]

theorem words_inj {ws ws' : List String} : words ws = words ws' ↔ ws = ws' :=
  (List.map_injective_iff.mpr fun _ _ h => Tok.word.inj h).eq_iff

theorem words_ne_assign (ws : List String) (name value : String) :
    words ws ≠ [.assign name value] := by
  intro h
  cases ws <;> simp [words] at h

theorem commands_words (ws : List String) : commands (words ws) = [words ws] := by
  have hplain : (words ws).all Tok.isPlain := by simp [words, Tok.isPlain]
  rw [commands, splitTop_plain hplain]
  rfl

/-- Simple commands joined by `&&`. -/
theorem commands_andList {c : Cmd} {cs : List Cmd} (h : ∀ x ∈ c :: cs, isSimple x) :
    commands (andList (c :: cs)) = c :: cs := by
  rw [commands, splitTop_andList h]
  simp [Function.comp_def]

/-! ## The entries of each emitter -/

section Entries

variable {names : List String} {vtap : String}

theorem managesOnly_passthruPre (a : NetArgs) (pciport ptname : String) :
    ManagesOnly names (passthruPre a pciport ptname) := by
  simp [ManagesOnly, passthruPre, entry, commands_words, unquoted, Manages, words_inj,
    catVppport, vpptapCreate, words_ne_assign]

theorem managesOnly_macvtapPre (br mac netArgs : String) (i : ℕ) (hv : vtap ∈ names) :
    ManagesOnly names (macvtapPre br mac netArgs vtap i) := by
  have hne : tapnum i ≠ "VPPPORT" := tapnum_ne_vppport i
  simp [ManagesOnly, macvtapPre, commands, splitTop, words, Manages, catVppport, vpptapCreate,
    readTapnum, hne, hv]

theorem managesOnly_delLink (hv : vtap ∈ names) : ManagesOnly names [delLink vtap] := by
  simp [ManagesOnly, delLink, commands, splitTop, words, Manages, catVppport, vpptapCreate, hv]

theorem managesOnly_ovsDestroy (lbl br : String) (hv : vtap ∈ names) :
    ManagesOnly names [ovsDestroy lbl vtap, ovsDelPort br vtap] := by
  simp [ManagesOnly, ovsDestroy, ovsDelPort, commands, splitTop, words, Manages, catVppport,
    vpptapCreate, hv]

/-- A command that is one assignment: the number of a tap is read, or a tap is created. -/
theorem manages_assign {x name value : String} : Manages x [.assign name value] ↔
    .assign name value = catVppport (ifnameFile x) ∨
      [.assign name value] = vpptapCreate x (ifnameFile x) := by
  have hwords : ∀ ws, [.assign name value] ≠ words ws := fun ws h => words_ne_assign ws _ _ h.symm
  simp only [Manages, hwords, exists_false, false_or, List.cons.injEq, and_true]

theorem manages_catVppport {x : String} (h : Manages x [catVppport (ifnameFile vtap)]) :
    x = vtap := by
  rcases manages_assign.mp h with hcat | hcreate
  · have htext := (Tok.assign.inj hcat).2
    rw [String.append_left_inj, String.append_right_inj, ifnameFile_inj] at htext
    exact htext.symm
  · have htext := (Tok.assign.inj (List.singleton_inj.mp hcreate)).2
    have hlist := congrArg String.toList htext
    simp at hlist

theorem manages_vpptapCreate {x : String} (h : Manages x (vpptapCreate vtap (ifnameFile vtap))) :
    x = vtap := by
  rcases manages_assign.mp h with hcat | hcreate
  · have hlist := congrArg String.toList (Tok.assign.inj hcat).2
    simp at hlist
  · -- Both texts hold the name twice, so the names have the same length.
    have htext := congrArg String.toList (Tok.assign.inj (List.singleton_inj.mp hcreate)).2
    simp only [ifnameFile, String.toList_append, List.append_assoc, List.append_cancel_left_eq]
      at htext
    have hlen := congrArg List.length htext
    simp only [List.length_append] at hlen
    have hname := (List.append_inj htext (by omega)).1
    exact (String.toList_inj.mp hname).symm

theorem managesOnly_vppDestroy (test file kind : String) (rms : List String) (hv : vtap ∈ names) :
    ManagesOnly names [vppDestroy test file kind (ifnameFile vtap) rms] := by
  intro l hl c hc x hx
  rw [List.mem_singleton.mp hl, vppDestroy_eq,
    commands_andList (vppDestroyCmds_simple _ _ _ _ _)] at hc
  simp only [vppDestroyCmds, List.mem_cons, List.mem_append, List.mem_map, List.not_mem_nil,
    or_false] at hc
  rcases hc with rfl | rfl | rfl | ⟨f, -, rfl⟩ | rfl
  · simp [Manages, words_inj, catVppport, vpptapCreate, words_ne_assign] at hx
  · rwa [manages_catVppport hx]
  · simp [Manages, words_inj, catVppport, vpptapCreate, words_ne_assign] at hx
  · simp [Manages, words_inj, catVppport, vpptapCreate, words_ne_assign] at hx
  · simp [Manages, words_inj, catVppport, vpptapCreate, words_ne_assign] at hx

theorem managesOnly_vppSetup (br : String) : ManagesOnly names (vppSetup br) := by
  simp [ManagesOnly, vppSetup, commands_words, Manages, words_inj, catVppport, vpptapCreate,
    words_ne_assign]

theorem managesOnly_readTapnum (i : ℕ) (x : String) : ManagesOnly names [readTapnum i x] := by
  have hne : tapnum i ≠ "VPPPORT" := tapnum_ne_vppport i
  simp [ManagesOnly, readTapnum, commands, splitTop, Manages, words, catVppport, vpptapCreate, hne]

theorem managesOnly_ovsPre (lbl pVlan : String) {br : String} (i : ℕ) (hbr : br ≠ "")
    (hne : vtap ≠ "") (hv : vtap ∈ names) :
    ManagesOnly names
      [ ovsDestroy lbl vtap, ovsDelPort br vtap, words ["sleep", "1"],
        words ["ip", "tuntap", "add", "mode", "tap", vtap],
        entry ["ovs-vsctl", "add-port", br, vtap, pVlan], words ["sleep", "1"],
        words ["ip", "link", "set", "dev", vtap, "up"], readTapnum i vtap ] := by
  have hadd : entry ["ovs-vsctl", "add-port", br, vtap, pVlan] =
      words (["ovs-vsctl", "add-port", br, vtap] ++ unquoted [pVlan]) := by
    simp [entry, unquoted, hbr, hne]
  have hplug : ManagesOnly names [words ["sleep", "1"],
      words ["ip", "tuntap", "add", "mode", "tap", vtap],
      words (["ovs-vsctl", "add-port", br, vtap] ++ unquoted [pVlan]), words ["sleep", "1"],
      words ["ip", "link", "set", "dev", vtap, "up"]] := by
    simp [ManagesOnly, commands_words, Manages, words_inj, catVppport, vpptapCreate,
      words_ne_assign, hv]
  rw [hadd]
  exact (managesOnly_ovsDestroy lbl br hv).append (hplug.append (managesOnly_readTapnum i vtap))

theorem managesOnly_vpptapPre (test file kind br ifd : String) (rms : List String) (i : ℕ)
    (hv : vtap ∈ names) :
    ManagesOnly names
      ([ vppDestroy test file kind (ifnameFile vtap) rms, words ["echo", ifd],
        vpptapCreate vtap (ifnameFile vtap) ] ++ vppSetup br ++ [readTapnum i vtap]) := by
  have hecho : ManagesOnly names [words ["echo", ifd]] := by
    simp [ManagesOnly, commands_words, Manages, words_inj, catVppport, vpptapCreate,
      words_ne_assign]
  have hcreate : ManagesOnly names [vpptapCreate vtap (ifnameFile vtap)] := by
    intro l hl c hc x hx
    have hcmd : commands (vpptapCreate vtap (ifnameFile vtap)) =
        [vpptapCreate vtap (ifnameFile vtap)] := rfl
    rw [List.mem_singleton.mp hl, hcmd, List.mem_singleton] at hc
    have heq : x = vtap := manages_vpptapCreate (hc ▸ hx)
    rwa [heq]
  exact (((managesOnly_vppDestroy test file kind rms hv).append (hecho.append hcreate)).append
    (managesOnly_vppSetup br)).append (managesOnly_readTapnum i vtap)

theorem managesOnly_vppCreate (sock mac : String) (hv : vtap ∈ names) :
    ManagesOnly names [vppCreate sock (ifnameFile vtap) mac] := by
  have hcmds : commands (vppCreate sock (ifnameFile vtap) mac) =
      [words ["[[", "!", "-S", sock, "]]"],
        [.assign "VPPPORT" ("$( vppctl create vhost socket " ++ sock ++ " hwaddr " ++ mac ++
          " | tee  " ++ ifnameFile vtap ++ " )")], [catVppport (ifnameFile vtap)]] := rfl
  intro l hl c hc x hx
  rw [List.mem_singleton.mp hl, hcmds] at hc
  simp only [List.mem_cons, List.not_mem_nil, or_false] at hc
  rcases hc with rfl | rfl | rfl
  · simp [Manages, words_inj, catVppport, vpptapCreate, words_ne_assign] at hx
  · -- a vhost port is no tap
    rcases manages_assign.mp hx with hcat | hcreate
    · have hlist := congrArg String.toList (Tok.assign.inj hcat).2
      simp at hlist
    · have htext := (Tok.assign.inj (List.singleton_inj.mp hcreate)).2
      have hlist := congrArg String.toList htext
      simp at hlist
  · rwa [manages_catVppport hx]

end Entries

/-! ## Calls -/

/-- The entries from `g` to `g'` manage only `names`. -/
structure Managed (names : List String) (g g' : Gen) : Prop where
  pre : ∃ ls, g'.preCmd = g.preCmd ++ ls ∧ ManagesOnly names ls
  post : ∃ ls, g'.postCmd = g.postCmd ++ ls ∧ ManagesOnly names ls

theorem Managed.same {names : List String} {g g' : Gen} (hpre : g'.preCmd = g.preCmd)
    (hpost : g'.postCmd = g.postCmd) : Managed names g g' :=
  ⟨⟨[], by simp [hpre], .nil names⟩, ⟨[], by simp [hpost], .nil names⟩⟩

theorem Managed.trans {names : List String} {g₁ g₂ g₃ : Gen} (h : Managed names g₁ g₂)
    (h' : Managed names g₂ g₃) : Managed names g₁ g₃ := by
  obtain ⟨⟨ls, hpre, hls⟩, ⟨qs, hpost, hqs⟩⟩ := h
  obtain ⟨⟨ls', hpre', hls'⟩, ⟨qs', hpost', hqs'⟩⟩ := h'
  refine ⟨⟨ls ++ ls', ?_, hls.append hls'⟩, ⟨qs ++ qs', ?_, hqs.append hqs'⟩⟩
  · rw [hpre', hpre, List.append_assoc]
  · rw [hpost', hpost, List.append_assoc]

theorem addPcieIface_managed {names : List String} (e : Env) (args : List String) (g : Gen) :
    Managed names g (addPcieIface e args g) := by
  unfold addPcieIface
  split_ifs
  · exact .same rfl rfl
  · refine ⟨⟨_, rfl, ?_⟩, [], by simp [Gen.append], .nil names⟩
    simp [ManagesOnly, commands_words, Manages, words_inj, catVppport, vpptapCreate,
      words_ne_assign]

theorem macvtapEmit_managed {e : Env} {br : String} {pre : List Line} {a : NetArgs} {dev : String}
    {cb : NetCb} {netArgs : String} {g : Gen}
    (hpre : ManagesOnly (ownNames (e.val "MACHINE") g.netIndex) pre) :
    Managed (ownNames (e.val "MACHINE") g.netIndex) g
      (macvtapEmit e br pre a dev cb netArgs g) := by
  have hv : vtapName "m" (e.val "MACHINE") g.netIndex ∈ ownNames (e.val "MACHINE") g.netIndex := by
    simp [ownNames]
  refine ⟨⟨pre ++ macvtapPre br a.mac netArgs (vtapName "m" (e.val "MACHINE") g.netIndex)
    g.netIndex, ?_, hpre.append (managesOnly_macvtapPre _ _ _ _ hv)⟩,
    ⟨_, ?_, managesOnly_delLink hv⟩⟩
  · cases cb <;> rfl
  · cases cb <;> rfl

theorem addMacvtapIface_managed {e : Env} {virtfn : String → Option String} {a : NetArgs}
    {dev : String} {cb : NetCb} {netArgs : String} {g g' : Gen}
    (h : addMacvtapIface e virtfn a dev cb netArgs g = some g') :
    Managed (ownNames (e.val "MACHINE") g.netIndex) g g' := by
  unfold addMacvtapIface at h
  split_ifs at h
  · obtain rfl := Option.some.inj h
    exact .same rfl rfl
  · obtain ⟨pciport, -, rfl⟩ := Option.map_eq_some_iff.mp h
    exact macvtapEmit_managed (managesOnly_passthruPre a pciport _)
  · obtain rfl := Option.some.inj h
    exact macvtapEmit_managed (.nil _)

theorem addOvsIface_managed (e : Env) (a : NetArgs) (g : Gen) :
    Managed (ownNames (e.val "MACHINE") g.netIndex) g (addOvsIface e a g) := by
  by_cases hr : a.rejected = true
  · rw [addOvsIface, if_pos hr]
    exact .same rfl rfl
  · rw [addOvsIface, if_neg hr]
    have hv : vtapName "o" (e.val "MACHINE") g.netIndex ∈
        ownNames (e.val "MACHINE") g.netIndex := by simp [ownNames]
    have hdev : a.dev ≠ "" := by
      intro hd
      exact hr (by simp [NetArgs.rejected, hd])
    have hne : vtapName "o" (e.val "MACHINE") g.netIndex ≠ "" := by simp [vtapName]
    exact ⟨⟨_, rfl, managesOnly_ovsPre _ _ _ hdev hne hv⟩,
      ⟨_, rfl, managesOnly_ovsDestroy _ _ hv⟩⟩

theorem addVppIface_managed (e : Env) (a : NetArgs) (g : Gen) :
    Managed (ownNames (e.val "MACHINE") g.netIndex) g (addVppIface e a g) := by
  by_cases hr : a.rejected = true
  · rw [addVppIface, if_pos hr]
    exact .same rfl rfl
  · rw [addVppIface, if_neg hr]
    have hv : vppName (e.val "MACHINE") g.netIndex ∈
        ownNames (e.val "MACHINE") g.netIndex := by simp [ownNames]
    exact ⟨⟨_, rfl, ((managesOnly_vppDestroy _ _ _ _ hv).append
      (managesOnly_vppCreate _ _ hv)).append (managesOnly_vppSetup _)⟩,
      ⟨_, rfl, managesOnly_vppDestroy _ _ _ _ hv⟩⟩

theorem addVpptapIface_managed (e : Env) (a : NetArgs) (g : Gen) :
    Managed (ownNames (e.val "MACHINE") g.netIndex) g (addVpptapIface e a g) := by
  by_cases hr : a.rejected = true
  · rw [addVpptapIface, if_pos hr]
    exact .same rfl rfl
  · rw [addVpptapIface, if_neg hr]
    have hv : vtapName "t" (e.val "MACHINE") g.netIndex ∈
        ownNames (e.val "MACHINE") g.netIndex := by simp [ownNames]
    exact ⟨⟨_, rfl, managesOnly_vpptapPre _ _ _ _ _ _ _ hv⟩,
      ⟨_, rfl, managesOnly_vppDestroy _ _ _ _ hv⟩⟩

theorem addSriovIface_managed {names : List String} {e : Env} {virtfn : String → Option String}
    {a : NetArgs} {g g' : Gen} (h : addSriovIface e virtfn a g = some g') : Managed names g g' := by
  unfold addSriovIface at h
  by_cases hr : (a.dev = "" || a.vf = "" || a.mac = "") = true
  · rw [if_pos hr] at h
    obtain rfl := Option.some.inj h
    exact .same rfl rfl
  · rw [if_neg hr] at h
    obtain ⟨pciport, -, rfl⟩ := Option.map_eq_some_iff.mp h
    refine Managed.trans ⟨⟨_, rfl, ?_⟩, ⟨_, rfl, ?_⟩⟩ (addPcieIface_managed e _ _)
    · split_ifs <;> simp [ManagesOnly, commands_words, Manages, words_inj, catVppport,
        vpptapCreate, words_ne_assign]
    · simp [ManagesOnly, commands_words, Manages, words_inj, catVppport, vpptapCreate,
        words_ne_assign]

/-- Every call manages only interfaces that carry its index and its machine. -/
theorem netStep_managed {e : Env} {virtfn : String → Option String} {c : NetCall} {g g' : Gen}
    (h : netStep e virtfn g c = some g') :
    Managed (ownNames (e.val "MACHINE") g.netIndex) g g' := by
  obtain ⟨mode, a⟩ := c
  cases mode with
  | macvtap | macvtapPassthru | e1000 | vmxnet => exact addMacvtapIface_managed h
  | bridge =>
    obtain rfl := Option.some.inj h
    dsimp only [addBridgeIface]
    split_ifs
    · exact .same rfl rfl
    · exact .same (List.append_nil _) (List.append_nil _)
  | tap =>
    obtain rfl := Option.some.inj h
    dsimp only [addTapIface]
    split_ifs
    · exact .same rfl rfl
    · exact .same (List.append_nil _) (List.append_nil _)
  | ovs =>
    obtain rfl := Option.some.inj h
    exact addOvsIface_managed e a g
  | vpp =>
    obtain rfl := Option.some.inj h
    exact addVppIface_managed e a g
  | vpptap =>
    obtain rfl := Option.some.inj h
    exact addVpptapIface_managed e a g
  | sriov => exact addSriovIface_managed h
  | vfio =>
    obtain rfl := Option.some.inj h
    dsimp only [addVfioIface]
    split_ifs
    · exact .same rfl rfl
    · have hdev : Managed (ownNames (e.val "MACHINE") g.netIndex) g { g with netdev := a.dev } :=
        .same rfl rfl
      exact hdev.trans (addPcieIface_managed e _ _)

/-- The names a machine may use. -/
def IsOwn (machine x : String) : Prop := ∃ i, x ∈ ownNames machine i

/-- A whole run manages only interfaces of its machine. -/
theorem run_managed {e : Env} {virtfn : String → Option String} {pool : List String}
    {cs : List NetCall} {g : Gen} (h : Runs.run (netStep e virtfn) cs (Gen.init pool) = some g) :
    ∀ l ∈ g.preCmd ++ g.postCmd, ∀ c ∈ commands l, ∀ x, Manages x c →
      IsOwn (e.val "MACHINE") x := by
  refine Runs.run_invariant (P := fun g => ∀ l ∈ g.preCmd ++ g.postCmd, ∀ c ∈ commands l, ∀ x,
    Manages x c → IsOwn (e.val "MACHINE") x) (by simp [Gen.init]) ?_ h
  intro g c g' hg hstep
  obtain ⟨⟨ls, hpre, hls⟩, ⟨qs, hpost, hqs⟩⟩ := netStep_managed hstep
  rw [hpre, hpost]
  intro l hl d hd x hx
  simp only [List.mem_append] at hl hg
  rcases hl with (hl | hl) | (hl | hl)
  · exact hg l (Or.inl hl) d hd x hx
  · exact ⟨_, hls l hl d hd x hx⟩
  · exact hg l (Or.inr hl) d hd x hx
  · exact ⟨_, hqs l hl d hd x hx⟩

/-! ## The main result -/

/-- The letters of the emitters. -/
def vtapLetters : List String := ["m", "t", "o"]

theorem vtapLetters_length {pre : String} (h : pre ∈ vtapLetters) : pre.length = 1 := by
  revert pre
  decide

/-- A machine's own interface whose name is one of another machine's: then both have the
    same shortened name. -/
theorem IsOwn.vtapMachine_eq {M N pre : String} {j : ℕ} (hpre : pre ∈ vtapLetters)
    (h : IsOwn M (vtapName pre N j)) : vtapMachine M = vtapMachine N := by
  obtain ⟨i, hi⟩ := h
  have hone := vtapLetters_length hpre
  simp only [ownNames, List.mem_cons, List.not_mem_nil, or_false] at hi
  rcases hi with hi | hi | hi | hi
  · exact (vtapName_inj hone hi).2.symm
  · exact (vtapName_inj hone hi).2.symm
  · exact (vtapName_inj hone hi).2.symm
  · have hfirst := congrArg (fun t => t.toList.head?) hi
    simp only [vtapLetters, List.mem_cons, List.not_mem_nil, or_false] at hpre
    rcases hpre with rfl | rfl | rfl <;> simp [vtapName, vppName] at hfirst

/-- **Interface names collide exactly if** the index and the shortened machine name are
    the same; they have at most 15 characters. So for every sequence of calls, the
    commands of a machine leave alone the interfaces of each machine with another
    shortened name. -/
theorem vtapName_apart (e : Env) (virtfn : String → Option String) (pool : List String)
    (cs : List NetCall) (g : Gen) (h : Runs.run (netStep e virtfn) cs (Gen.init pool) = some g)
    (N : String) :
    (∀ pre ∈ vtapLetters, ∀ i j, vtapName pre (e.val "MACHINE") i = vtapName pre N j ↔
      i = j ∧ vtapMachine (e.val "MACHINE") = vtapMachine N) ∧
    (∀ pre ∈ vtapLetters, ∀ i < 10, (vtapName pre (e.val "MACHINE") i).length ≤ 15) ∧
    (vtapMachine (e.val "MACHINE") ≠ vtapMachine N →
      ∀ l ∈ g.preCmd ++ g.postCmd, ∀ c ∈ commands l, ∀ pre ∈ vtapLetters, ∀ j,
        ¬ Manages (vtapName pre N j) c) := by
  refine ⟨fun pre _ i j => vtapName_eq_iff pre _ N i j, fun pre hpre i hi => ?_,
    fun hne l hl c hc pre hpre j hm => ?_⟩
  · exact vtapName_length (vtapLetters_length hpre) _ hi
  · exact hne ((run_managed h l hl c hc _ hm).vtapMachine_eq hpre)

/-- A machine with an OVS interface beside a machine `web`. -/
theorem vtapName_apart_web :
    let e : Env := fun v => [("MACHINE", "mac-1")].lookup v
    ∃ g, Runs.run (netStep e (fun _ => none))
      [(.ovs, ⟨"br0", "", "02:00:00:00:00:01", "pcie.0", "0x19", ""⟩)] (Gen.init []) = some g ∧
      ∀ l ∈ g.preCmd ++ g.postCmd, ∀ c ∈ commands l, ∀ pre ∈ vtapLetters, ∀ j,
        ¬ Manages (vtapName pre "web" j) c := by
  intro e
  have hrun : Runs.run (netStep e (fun _ => none))
    [(.ovs, ⟨"br0", "", "02:00:00:00:00:01", "pcie.0", "0x19", ""⟩)] (Gen.init []) = some _ := rfl
  exact ⟨_, hrun, (vtapName_apart e (fun _ => none) [] _ _ hrun "web").2.2 (by decide)⟩

/-- The first interfaces of `mac-1` and `mac1` have one name, and `pre_run` of `mac1`
    deletes an interface of that name. -/
theorem vtapName_collides :
    ¬ (∀ pre ∈ vtapLetters, ∀ M N : String, ∀ i < 10, ∀ j < 10, (M, i) ≠ (N, j) →
      vtapName pre M i ≠ vtapName pre N j) ∧
    ∃ g, Runs.run (netStep (fun v => [("MACHINE", "mac1")].lookup v) (fun _ => none))
      [(.macvtap, ⟨"eth0", "", "02:00:00:00:00:01", "pcie.0", "0x19", ""⟩)] (Gen.init []) = some g ∧
      ∃ l ∈ g.preCmd, ∃ c ∈ commands l, c = delLink (vtapName "m" "mac-1" 0) := by
  constructor
  · intro h
    exact h "m" (by decide) "mac-1" "mac1" 0 (by norm_num) 0 (by norm_num) (by decide) (by decide)
  · refine ⟨_, rfl, _, List.mem_cons_self, _, ?_, rfl⟩
    decide

end KvmOsx.Genconfig
