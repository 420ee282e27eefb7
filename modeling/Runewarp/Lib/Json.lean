/-!
# JSON values

Values of a JSON library, and how a derived reader takes a record out of one: by the names
of its fields from an object, and by their places from an array.

An object is its entries.  Of several entries under one key the first counts, so that every
finite map is the meaning of some object and nothing depends on a later entry.
-/

namespace Runewarp

inductive Json where
  | null
  | bool (value : Bool)
  /-- A number with its text. -/
  | number (text : String)
  | string (value : String)
  | array (items : List Json)
  | object (fields : List (String × Json))

namespace Json

/-- The value under a key; only an object has any. -/
def get (key : String) : Json → Option Json
  | .object fields => fields.lookup key
  | _ => none

def asStr : Json → Option String
  | .string value => some value
  | _ => none

/-- An optional field: `null` is the absent one. -/
def readOption {α : Type} (read : Json → Option α) : Json → Option (Option α)
  | .null => some none
  | value => (read value).map some

def readList {α : Type} (read : Json → Option α) : Json → Option (List α)
  | .array items => items.mapM read
  | _ => none

/-- The values of the optional fields of a record, `null` for those that are absent.  An
array has to have one for each. -/
def readFields (names : List String) : Json → Option (List Json)
  | .object fields => some (names.map fun name => (fields.lookup name).getD .null)
  | .array items => if items.length = names.length then some items else none
  | _ => none

end Json

end Runewarp
