import Mathlib.Init

/-!
# JSON values, as Go decodes them into `any`

An object is the list of its fields, whose names differ; a field that is absent reads as `null`.
-/

inductive Json where
  | null
  | bool (b : Bool)
  | num (literal : String)
  | str (s : String)
  | arr (elems : List Json)
  | obj (fields : List (String × Json))

namespace Json

abbrev Object := List (String × Json)

def field (o : Object) (key : String) : Json := (o.lookup key).getD .null

/-- What the standard library makes of values: their JSON text and back, and the text of a number, a list or a map
under `%v`. -/
structure Codec where
  marshal : Json → String
  marshal_ne_empty : ∀ v, marshal v ≠ ""
  unmarshal : String → Option Json
  format : Json → String

end Json
