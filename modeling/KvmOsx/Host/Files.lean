import KvmOsx.Lib.Text

/-!
# Files and block devices of the host

What the scripts can tell about a path: what kind of file it is once links are
followed (`test -e`, `-f`, `-d`, `-b`), where it leads (`realpath`), and, for a
logical volume, what `lvdisplay -c` prints.

* `Lv`: a logical volume; its names hold no `:` and no `/`, so that the fields of
  the `lvdisplay` line can be cut out again (`Lv.cut_path`, `Lv.cut_vg`).
* `Storage`: the image file or block device behind a path.
* `Files.opened`: what QEMU opens for the text of a `file=` operand.
-/

namespace KvmOsx.Host

open Text

/-! ## Logical volumes -/

/-- A logical volume: its group, its name, the number of its device node and the
    further fields of its `lvdisplay -c` line. LVM allows no `:` and `/` in names
    and no empty names. -/
structure Lv where
  vg : String
  name : String
  minor : ℕ
  fields : String
  vg_ne : vg ≠ ""
  name_ne : name ≠ ""
  vg_colon : ':' ∉ vg.toList
  name_colon : ':' ∉ name.toList
  name_slash : '/' ∉ name.toList
  deriving DecidableEq

/-- `/dev/VG/LV`. -/
def Lv.path (l : Lv) : String := "/dev/" ++ l.vg ++ "/" ++ l.name

/-- The device node the path leads to. -/
def Lv.device (l : Lv) : String := "/dev/dm-" ++ num l.minor

/-- The line `lvdisplay -c` prints for the volume. -/
def Lv.display (l : Lv) : String := l.path ++ ":" ++ l.vg ++ ":" ++ l.fields

theorem Lv.path_colon (l : Lv) : ':' ∉ l.path.toList := by
  simp [Lv.path, l.vg_colon, l.name_colon]

@[simp] theorem Lv.cut_path (l : Lv) : cut ':' 1 l.display = l.path :=
  cut_one (v := l.vg ++ ":" ++ l.fields) (by simp [Lv.display]) l.path_colon

@[simp] theorem Lv.cut_vg (l : Lv) : cut ':' 2 l.display = l.vg :=
  cut_two (w := l.fields) (by simp [Lv.display]) l.path_colon l.vg_colon

@[simp] theorem Lv.basename_path (l : Lv) : basename l.path = l.name :=
  basename_append l.name_slash

/-! ## Paths -/

/-- An absolute path. -/
structure AbsPath where
  text : String
  abs : text.toList.head? = some '/'
  deriving DecidableEq

theorem AbsPath.ne_empty (p : AbsPath) : p.text ≠ "" := by
  intro h
  have habs := p.abs
  rw [h] at habs
  cases habs

/-- What a path leads to. A block device that is not a logical volume may still be
    a device-mapper node. -/
inductive Node
  | absent
  | regular (real : AbsPath)
  | directory
  | lvm (lv : Lv)
  | blockdev (real : AbsPath)
  deriving DecidableEq

/-- The files of the host. -/
abbrev Files := String → Node

/-- `test -e`. -/
def Node.e (n : Node) : Bool := n ≠ .absent

/-- `test -d`. -/
def Node.d (n : Node) : Bool := n = .directory

/-- `test -f`. -/
def Node.f : Node → Bool
  | .regular _ => true
  | _ => false

/-- `test -b`. -/
def Node.b : Node → Bool
  | .lvm _ => true
  | .blockdev _ => true
  | _ => false

/-- A block device outside LVM. -/
def Node.foreign : Node → Bool
  | .blockdev _ => true
  | _ => false

/-- `realpath PATH`, for a path that is no link if it leads to no file or device. -/
def Node.realpath (path : String) : Node → String
  | .absent => path
  | .directory => path
  | .regular real => real.text
  | .lvm lv => lv.device
  | .blockdev real => real.text

/-- `lvdisplay -c PATH 2>/dev/null`: nothing unless the path leads to a logical volume. -/
def Node.lvdisplay : Node → String
  | .lvm lv => lv.display
  | _ => ""

/-! ## Storage -/

/-- An image file, a logical volume, or another block device. -/
inductive Storage
  | image (path : String)
  | lv (vg name : String)
  | device (path : String)
  deriving DecidableEq

/-- The file or block device a path leads to. -/
def Node.storage : Node → Option Storage
  | .regular real => some (.image real.text)
  | .lvm lv => some (.lv lv.vg lv.name)
  | .blockdev real => some (.device real.text)
  | _ => none

theorem Node.e_of_storage {n : Node} (h : n.storage ≠ none) : n.e = true := by
  cases n with
  | absent | directory => exact absurd rfl h
  | regular | lvm | blockdev => rfl

theorem Node.e_of_f {n : Node} (h : n.f = true) : n.e = true := by
  cases n with
  | regular => rfl
  | absent | directory | lvm | blockdev => cases h

/-- The path in a `file=` operand. QEMU takes a text with a `:` in front of every
    `/` for `PROTOCOL:…`, and only `file:` and `host_device:` are local. -/
def localPath (t : String) : Option String :=
  let s := t.toList.takeWhile fun c => c ≠ ':' ∧ c ≠ '/'
  match t.toList.drop s.length with
  | ':' :: rest =>
    if s = "file".toList ∨ s = "host_device".toList then some (String.ofList rest) else none
  | _ => some t

/-- The local file or block device QEMU opens for a `file=` operand. -/
def Files.opened (fs : Files) (t : String) : Option Storage :=
  (localPath t).bind fun p => (fs p).storage

theorem localPath_slash {t : String} (h : t.toList.head? = some '/') : localPath t = some t := by
  obtain ⟨rest, hrest⟩ := List.head?_eq_some_iff.mp h
  simp [localPath, hrest]

theorem localPath_fat (t : String) : localPath ("fat:rw:" ++ t) = none := by
  simp [localPath]

theorem localPath_nbd (t : String) : localPath ("nbd:unix:" ++ t) = none := by
  simp [localPath]

example : localPath "iscsi://127.0.0.1/iqn:disk/1" = none := by decide
example : localPath "/dev/vg0/system" = some "/dev/vg0/system" := by decide

end KvmOsx.Host
