import TypeCoverage.Json.Basic
import TypeCoverage.Number.Notation

/-!
# Coverage

How many of the places that were looked at have a sound type. The share is a percentage in
floating point; where nothing was looked at, all of it is covered.
-/

set_option autoImplicit false

namespace TypeCoverage

/-- The number of sound places among all places. -/
structure Coverage where
  correct : Nat
  total : Nat
  deriving DecidableEq, Repr

namespace Coverage

def sum (parts : List Coverage) : Coverage where
  correct := parts.foldr (fun c n => c.correct + n) 0
  total := parts.foldr (fun c n => c.total + n) 0

/-- The covered share in percent. The quotient is rounded before it is multiplied. -/
def percent (c : Coverage) : Binary64 :=
  if c.total = 0 then Binary64.ofNat 100
  else ((Binary64.ofNat c.correct).div (Binary64.ofNat c.total)).mul (Binary64.ofNat 100)

/-- The share for people, with two places. -/
def percentText (c : Coverage) : Text := c.percent.fixedTwo ++ ['%']

/-! ## Stored form

A coverage is stored as an object; the names of its members stand first. -/

def correctKey : Text := ['c', 'o', 'r', 'r', 'e', 'c', 't', 'C', 'o', 'u', 'n', 't']
def totalKey : Text := ['t', 'o', 't', 'a', 'l', 'C', 'o', 'u', 'n', 't']

def members (c : Coverage) : List (Text × Json) :=
  [(correctKey, .nat c.correct), (totalKey, .nat c.total)]

def toJson (c : Coverage) : Json := .object c.members

end Coverage

end TypeCoverage
