import Mathlib

/-!
# JSON values

* `Json`: values, with numbers by their text.
* `Json.field`, `Json.item`, `Json.drop`: the filters `.key`, `.[k]` and `.[k:]` of `jq`;
  `none` is an error.
-/

namespace KvmOsx

/-- A JSON value; an object is the list of its members. -/
inductive Json
  | null
  | bool (b : Bool)
  | num (text : String)
  | str (s : String)
  | arr (xs : List Json)
  | obj (ms : List (String × Json))

namespace Json

/-- `.key`: a key that is not there yields `null`, and so does every key of `null`. -/
def field (key : String) : Json → Option Json
  | .obj ms => some ((ms.lookup key).getD .null)
  | .null => some .null
  | _ => none

/-- `.[k]` of an array or `null`. -/
def item (k : ℕ) : Json → Option Json
  | .arr xs => some (xs.getD k .null)
  | .null => some .null
  | _ => none

/-- `.[k:]` of an array or `null`. -/
def drop (k : ℕ) : Json → Option Json
  | .arr xs => some (.arr (xs.drop k))
  | .null => some .null
  | _ => none

end Json

end KvmOsx
