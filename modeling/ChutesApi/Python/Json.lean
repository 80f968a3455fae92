import Mathlib.Data.Rat.Init
/-!
# JSON values

What `json.loads` makes of a request's body, and how Python iterates over
it.
-/

namespace ChutesApi

namespace Python

/-- A value of a JSON document. An object has each of its keys once. -/
inductive Json
  | null
  | bool (b : Bool)
  | number (q : ℚ)
  | string (s : String)
  | array (items : List Json)
  | object (entries : List (String × Json))

namespace Json

/-- `for item in value`; `none` is a `TypeError`. -/
def iterate : Json → Option (List Json)
  | .array items => some items
  | .string s => some (s.toList.map fun c => .string (String.singleton c))
  | .object entries => some (entries.map fun entry => .string entry.1)
  | .null | .bool _ | .number _ => none

/-- A `str`. -/
def text? : Json → Option String
  | .string s => some s
  | _ => none

/-- A `str | None`. -/
def optionalText? : Json → Option (Option String)
  | .null => some none
  | value => value.text?.map some

/-- A `dict | None`. -/
def isOptionalObject : Json → Bool
  | .null | .object _ => true
  | _ => false

/-- `payload.pop(key, default)`, for keys that are popped once. -/
def pop (entries : List (String × Json)) (key : String) (default : Json) : Json :=
  (entries.lookup key).getD default

end Json

end Python

end ChutesApi
