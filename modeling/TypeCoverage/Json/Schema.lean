import TypeCoverage.Json.Parser
import TypeCoverage.Json.Skip

/-!
# Shapes of values

A shape is something that can be read in two ways: from a parsed value, where mismatches have
no place, and directly from text, where the first fault met is the one reported. A record is
read from an object, whose unknown members are passed over, or from an array of its fields in
order, where optional fields may be missing at the end.
-/

set_option autoImplicit false

namespace TypeCoverage.Json

/-- A shape of values of type `α`: how they are read from a parsed value and from text. -/
structure Shape (α : Type) where
  ofJson : Json → Except Mismatch α
  ofText : Reader α

/-! ## What was found instead -/

def found : Json → Found
  | .null => .null
  | .bool b => .bool b
  | .number (.natural n) => .natural n
  | .number (.negative n) => .negative n
  | .number (.decimal x) => .decimal x
  | .string s => .string s
  | .array _ => .sequence
  | .object _ => .map

/-- Stops because the value at hand is not what was expected. A scalar is read first, so that
its own faults come before the mismatch. -/
def wrongType {α : Type} (expected : String) : Bytes → Except Stop α
  | [] => stopAt .endInValue []
  | b :: rest =>
    if b = ascii '[' then mismatchAt (.wrongType .sequence expected) (b :: rest)
    else if b = ascii '\x7b' then mismatchAt (.wrongType .map expected) (b :: rest)
    else do
      let (v, rest) ← readScalar 0 b rest
      mismatchAt (.wrongType (found v) expected) rest

/-! ## Strings and counts -/

def Shape.string : Shape Text where
  ofJson
    | .string s => .ok s
    | v => .error (.wrongType (found v) "a string")
  ofText bs :=
    match skipSpace bs with
    | [] => stopAt .endInValue []
    | b :: rest =>
      if b = ascii '\x22' then readString rest else wrongType "a string" (b :: rest)

/-- A count from a number that was read. -/
def countOf : Number → Except Mismatch Nat
  | .natural n => .ok n
  | .negative n => .error (.wrongValue (.negative n) "usize")
  | .decimal x => .error (.wrongType (.decimal x) "usize")

/-- The shape of counts: whole numbers of 64 bits without a sign. -/
def Shape.count : Shape Nat where
  ofJson
    | .number n => countOf n
    | v => .error (.wrongType (found v) "usize")
  ofText bs :=
    match skipSpace bs with
    | [] => stopAt .endInValue []
    | b :: rest =>
      if b = ascii '-' ∨ isDigit b then do
        let (n, rest) ←
          if b = ascii '-' then readNumber 0 true rest else readNumber 0 false (b :: rest)
        match countOf n with
        | .ok n => return (n, rest)
        | .error m => mismatchAt m rest
      else wrongType "usize" (b :: rest)

/-- A shape whose values are renamed by `f`. -/
def Shape.map {α β : Type} (f : α → β) (s : Shape α) : Shape β where
  ofJson v := (s.ofJson v).map f
  ofText bs := (s.ofText bs).map fun r => (f r.1, r.2)

/-- The shape of a value that may be null instead. -/
def Shape.optional {α : Type} (s : Shape α) : Shape (Option α) where
  ofJson
    | .null => .ok none
    | v => (s.ofJson v).map some
  ofText bs :=
    match skipSpace bs with
    | b :: rest =>
      if b = ascii 'n' then do
        let rest ← word ['u', 'l', 'l'] rest
        return (none, rest)
      else (s.ofText (b :: rest)).map fun r => (some r.1, r.2)
    | [] => (s.ofText []).map fun r => (some r.1, r.2)

/-! ## Lists -/

/-- Whether another item of a list follows, and where it or the closing bracket stands. No
comma comes before the `first` item. -/
def nextItem (first : Bool) (bs : Bytes) : Except Stop (Bool × Bytes) :=
  match skipSpace bs with
  | [] => stopAt .endInList []
  | b :: rest =>
    if b = ascii ']' then .ok (false, b :: rest)
    else if first then .ok (true, b :: rest)
    else if b = ascii ',' then
      match skipSpace rest with
      | [] => stopAt .endInValue []
      | c :: cs =>
        if c = ascii ']' then stopAhead .trailingComma (c :: cs) else .ok (true, c :: cs)
    else stopAhead .expectedListCommaOrEnd (b :: rest)

/-- The items of a list, up to its closing bracket. A list has at most as many items as bytes,
which bounds `fuel`. -/
def listItems {α : Type} (item : Reader α) : Nat → Bool → Reader (List α)
  | 0, _, bs => stopAt .endInList bs
  | fuel + 1, first, bs => do
    let (more, bs) ← nextItem first bs
    if more then
      let (x, bs) ← item bs
      let (xs, bs) ← listItems item fuel false bs
      return (x :: xs, bs)
    else return ([], bs.drop 1)

def Shape.list {α : Type} (s : Shape α) : Shape (List α) where
  ofJson
    | .array vs => vs.mapM s.ofJson
    | v => .error (.wrongType (found v) "a sequence")
  ofText bs :=
    match skipSpace bs with
    | [] => stopAt .endInValue []
    | b :: rest =>
      if b = ascii '[' then listItems s.ofText (rest.length + 1) true rest
      else wrongType "a sequence" (b :: rest)

/-! ## Records -/

/-- A field of a record that is put together in a draft of type `σ`. -/
structure Field (σ : Type) where
  name : Text
  required : Bool
  isSet : σ → Bool
  ofJson : σ → Json → Except Mismatch σ
  ofText : σ → Reader σ

/-- A field with a shape, and how the draft holds it. -/
def Field.of {σ α : Type} (name : Text) (required : Bool) (shape : Shape α)
    (isSet : σ → Bool) (set : σ → α → σ) : Field σ where
  name
  required
  isSet
  ofJson draft v := (shape.ofJson v).map (set draft)
  ofText draft bs := (shape.ofText bs).map fun r => (set draft r.1, r.2)

/-- A kind of record: its name, the draft with no field set, its fields in order, and the
record of a draft in which every required field is set. -/
structure RecordShape (σ α : Type) where
  name : String
  blank : σ
  fields : List (Field σ)
  complete : σ → Option α

namespace RecordShape

variable {σ α : Type} (s : RecordShape σ α)

def expected : String := "struct " ++ s.name

/-- What a mismatch says was expected of an array that is too short. -/
def expectedFields : String :=
  s.expected ++ " with " ++ toString s.fields.length ++
    (if s.fields.length = 1 then " element" else " elements")

/-- The record of a draft, or the first required field that is missing. -/
def finishDraft (draft : σ) : Except Mismatch α :=
  match s.complete draft with
  | some x => .ok x
  | none =>
    match s.fields.find? fun f => f.required && !f.isSet draft with
    | some f => .error (.missingField f.name)
    | none => .error (.missingField [])

def field? (name : Text) : Option (Field σ) := s.fields.find? fun f => f.name = name

/-! ### From a parsed value -/

/-- The draft after the members of an object. -/
def draftOfMembers (draft : σ) : List (Text × Json) → Except Mismatch σ
  | [] => .ok draft
  | (key, v) :: ms =>
    match s.field? key with
    | none => draftOfMembers draft ms
    | some f => do
      let draft ← f.ofJson draft v
      draftOfMembers draft ms

/-- The draft after the items of an array, one for each field, and the items left. `index`
counts the items before. -/
def draftOfItems : Nat → List (Field σ) → σ → List Json → Except Mismatch (σ × List Json)
  | _, [], draft, vs => .ok (draft, vs)
  | index, f :: fs, draft, [] =>
    if f.required then .error (.wrongLength index s.expectedFields)
    else draftOfItems index fs draft []
  | index, f :: fs, draft, v :: vs => do
    let draft ← f.ofJson draft v
    draftOfItems (index + 1) fs draft vs

/-- The record a parsed value denotes. -/
def ofJson : Json → Except Mismatch α
  | .object members => do
    let draft ← s.draftOfMembers s.blank members
    s.finishDraft draft
  | .array vs => do
    let (draft, left) ← s.draftOfItems 0 s.fields s.blank vs
    let x ← s.finishDraft draft
    if left.isEmpty then return x
    else .error (.wrongLength vs.length "fewer elements in array")
  | v => .error (.wrongType (found v) s.expected)

/-! ### From text -/

/-- Whether another member of an object follows, and where its key or the closing bracket
stands. -/
def nextMember (first : Bool) (bs : Bytes) : Except Stop (Bool × Bytes) :=
  match skipSpace bs with
  | [] => stopAt .endInObject []
  | b :: rest =>
    if b = ascii '\x7d' then .ok (false, b :: rest)
    else if first then
      if b = ascii '\x22' then .ok (true, b :: rest) else stopAhead .keyNotString (b :: rest)
    else if b = ascii ',' then
      match skipSpace rest with
      | [] => stopAt .endInValue []
      | c :: cs =>
        if c = ascii '\x22' then .ok (true, c :: cs)
        else if c = ascii '\x7d' then stopAhead .trailingComma (c :: cs)
        else stopAhead .keyNotString (c :: cs)
    else stopAhead .expectedObjectCommaOrEnd (b :: rest)

def colon (bs : Bytes) : Except Stop Bytes :=
  match skipSpace bs with
  | [] => stopAt .endInObject []
  | c :: rest => if c = ascii ':' then .ok rest else stopAhead .expectedColon (c :: rest)

/-- Stops with a mismatch that belongs to the record as a whole; its place is where the record
ends. -/
def unplaced {β : Type} (m : Mismatch) (rest : Bytes) : Except Stop β :=
  .error { fault := .mismatch m, rest, placed := false }

/-- The draft after the members of an object, up to its closing bracket. An object has fewer
members than bytes, which bounds `fuel`. -/
def readDraft : Nat → Bool → σ → Reader σ
  | 0, _, _, bs => stopAt .endInObject bs
  | fuel + 1, first, draft, bs => do
    let (more, bs) ← nextMember first bs
    if more then
      let (key, bs) ← readString (bs.drop 1)
      match s.field? key with
      | none =>
        let bs ← colon bs
        let bs ← skipValue bs
        readDraft fuel false draft bs
      | some f =>
        if f.isSet draft then unplaced (.duplicateField key) bs
        else
          let bs ← colon bs
          let (draft, bs) ← f.ofText draft bs
          readDraft fuel false draft bs
    else return (draft, bs)

/-- The draft after the items of an array, one for each field. -/
def readFields : Nat → List (Field σ) → Bool → σ → Reader σ
  | _, [], _, draft, bs => .ok (draft, bs)
  | index, f :: fs, first, draft, bs => do
    let (more, bs) ← nextItem first bs
    if more then
      let (draft, bs) ← f.ofText draft bs
      readFields (index + 1) fs false draft bs
    else if f.required then unplaced (.wrongLength index s.expectedFields) bs
    else readFields index fs first draft bs

/-- Where an array ends after its last field. -/
def endOfArray (bs : Bytes) : Except Stop Bytes :=
  match skipSpace bs with
  | [] => stopAt .endInList []
  | b :: rest =>
    if b = ascii ']' then .ok rest
    else if b = ascii ',' then
      match skipSpace rest with
      | c :: cs =>
        if c = ascii ']' then stopAhead .trailingComma (c :: cs)
        else stopAhead .trailingCharacters (c :: cs)
      | [] => stopAhead .trailingCharacters []
    else stopAhead .trailingCharacters (b :: rest)

/-- Gives a mismatch without a place the end of its record: past blanks, past a comma and
blanks in an array, and past the closing bracket if it comes next. -/
def placeAtEnd {β : Type} (closing : UInt8) (r : Except Stop β) : Except Stop β :=
  match r with
  | .ok x => .ok x
  | .error stop =>
    if stop.placed then .error stop
    else
      let rest := skipSpace stop.rest
      match rest with
      | b :: after =>
        if b = closing then .error { stop with rest := after, placed := true }
        else if closing = ascii ']' ∧ b = ascii ',' then
          .error { stop with rest := skipSpace after, placed := true }
        else .error { stop with rest, placed := true }
      | [] => .error { stop with rest, placed := true }

/-- The record of a draft that was read, with the bytes left. -/
def finishRead (draft : σ) (rest : Bytes) : Except Stop (α × Bytes) :=
  match s.finishDraft draft with
  | .ok x => .ok (x, rest)
  | .error m => unplaced m rest

def ofText : Reader α := fun bs =>
  match skipSpace bs with
  | [] => stopAt .endInValue []
  | b :: rest =>
    if b = ascii '\x7b' then do
      let (x, rest) ← placeAtEnd (ascii '\x7d') do
        let (draft, rest) ← s.readDraft (rest.length + 1) true s.blank rest
        s.finishRead draft rest
      return (x, rest.drop 1)
    else if b = ascii '[' then do
      let (x, rest) ← placeAtEnd (ascii ']') do
        let (draft, rest) ← s.readFields 0 s.fields true s.blank rest
        s.finishRead draft rest
      let rest ← endOfArray rest
      return (x, rest)
    else wrongType s.expected (b :: rest)

def shape : Shape α := ⟨s.ofJson, s.ofText⟩

end RecordShape

/-- The value of a whole document of a given shape. -/
def Shape.parse {α : Type} (s : Shape α) (bs : Bytes) : Except Failure α :=
  match (do
    let (x, rest) ← s.ofText bs
    finish rest
    return x : Except Stop α) with
  | .ok x => .ok x
  | .error stop => .error (stop.failure bs)

end TypeCoverage.Json
