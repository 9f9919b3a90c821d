import TypeCoverage.Number.Binary64
import TypeCoverage.OrderedMap

/-!
# JSON values

A value is null, a truth value, a number, a string, an array or an object. Whole numbers keep
their exact value as long as they fit in 64 bits; every other number is binary floating point.
Objects list their members in the order in which they are written; reading puts them in
increasing order of keys.
-/

set_option autoImplicit false

namespace TypeCoverage

/-- A JSON number. `negative n` stands for `-n` with `n` from 1 to `2 ^ 63`, and `natural n`
has `n < 2 ^ 64`. -/
inductive Json.Number where
  | natural (n : Nat)
  | negative (n : Nat)
  | decimal (x : Binary64)
  deriving DecidableEq, Repr, Inhabited

inductive Json where
  | null
  | bool (b : Bool)
  | number (n : Json.Number)
  | string (s : Text)
  | array (items : List Json)
  | object (members : List (Text × Json))
  deriving Inhabited

namespace Json

def nat (n : Nat) : Json := .number (.natural n)

/-- The object with the given members in order of keys; of two members with one key the later
counts. -/
def ofMembers (members : List (Text × Json)) : Json :=
  .object (OrderedMap.ofList members).entries

def member? (key : Text) : Json → Option Json
  | .object members => OrderedMap.lookup key members
  | _ => none

end Json

end TypeCoverage
