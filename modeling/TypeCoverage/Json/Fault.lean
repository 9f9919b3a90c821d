import TypeCoverage.Number.Notation
import TypeCoverage.Text.Quoted

/-!
# What is wrong with a JSON document

A fault is either one of form, met while the text is read, or a mismatch between a well-formed
value and the shape that was asked for. A fault found while reading has a place: the line, from
one, and the number of bytes read in that line.
-/

set_option autoImplicit false

namespace TypeCoverage.Json

/-- What a mismatch found in place of what was expected. -/
inductive Found where
  | null
  | bool (b : Bool)
  | natural (n : Nat)
  | negative (n : Nat)
  | decimal (x : Binary64)
  | string (s : Text)
  | sequence
  | map
  deriving DecidableEq, Repr

def Found.text : Found → String
  | .null => "null"
  | .bool true => "boolean `true`"
  | .bool false => "boolean `false`"
  | .natural n => "integer `" ++ toString n ++ "`"
  | .negative n => "integer `-" ++ toString n ++ "`"
  | .decimal x => "floating point `" ++ String.ofList x.compact ++ "`"
  | .string s => "string " ++ s.quoted
  | .sequence => "sequence"
  | .map => "map"

/-- A well-formed value that does not have the shape that was asked for. -/
inductive Mismatch where
  | wrongType (found : Found) (expected : String)
  | wrongValue (found : Found) (expected : String)
  | wrongLength (length : Nat) (expected : String)
  | missingField (name : Text)
  | duplicateField (name : Text)
  deriving DecidableEq, Repr

def Mismatch.text : Mismatch → String
  | .wrongType found expected => "invalid type: " ++ found.text ++ ", expected " ++ expected
  | .wrongValue found expected => "invalid value: " ++ found.text ++ ", expected " ++ expected
  | .wrongLength n expected => "invalid length " ++ toString n ++ ", expected " ++ expected
  | .missingField name => "missing field `" ++ String.ofList name ++ "`"
  | .duplicateField name => "duplicate field `" ++ String.ofList name ++ "`"

inductive Fault where
  | endInValue
  | endInList
  | endInObject
  | endInString
  | expectedValue
  | expectedIdentifier
  | expectedColon
  | expectedListCommaOrEnd
  | expectedObjectCommaOrEnd
  | trailingComma
  | trailingCharacters
  | keyNotString
  | invalidNumber
  | numberOutOfRange
  | invalidEscape
  | controlCharacter
  | loneSurrogate
  | endInSurrogatePair
  | invalidCodePoint
  | tooDeep
  | mismatch (m : Mismatch)
  deriving DecidableEq, Repr

/-- The wording of a fault, without its place. -/
def Fault.text : Fault → String
  | .endInValue => "EOF while parsing a value"
  | .endInList => "EOF while parsing a list"
  | .endInObject => "EOF while parsing an object"
  | .endInString => "EOF while parsing a string"
  | .expectedValue => "expected value"
  | .expectedIdentifier => "expected ident"
  | .expectedColon => "expected `:`"
  | .expectedListCommaOrEnd => "expected `,` or `]`"
  | .expectedObjectCommaOrEnd => "expected `,` or `\x7d`"
  | .trailingComma => "trailing comma"
  | .trailingCharacters => "trailing characters"
  | .keyNotString => "key must be a string"
  | .invalidNumber => "invalid number"
  | .numberOutOfRange => "number out of range"
  | .invalidEscape => "invalid escape"
  | .controlCharacter =>
    "control character (\\u0000-\\u001F) found while parsing a string"
  | .loneSurrogate => "lone leading surrogate in hex escape"
  | .endInSurrogatePair => "unexpected end of hex escape"
  | .invalidCodePoint => "invalid unicode code point"
  | .tooDeep => "recursion limit exceeded"
  | .mismatch m => m.text

/-- A place in a document: the line, from one, and the bytes read in that line. -/
structure Place where
  line : Nat
  column : Nat
  deriving DecidableEq, Repr

/-- The place after a number of bytes. -/
def Place.after (bs : Bytes) : Place :=
  bs.foldl (fun p b => if b = 10 then ⟨p.line + 1, 0⟩ else ⟨p.line, p.column + 1⟩) ⟨1, 0⟩

/-- A fault and, if it was found while reading, its place. -/
structure Failure where
  fault : Fault
  place? : Option Place
  deriving DecidableEq, Repr

def Failure.message (f : Failure) : String :=
  match f.place? with
  | none => f.fault.text
  | some p =>
    f.fault.text ++ " at line " ++ toString p.line ++ " column " ++ toString p.column

end TypeCoverage.Json
