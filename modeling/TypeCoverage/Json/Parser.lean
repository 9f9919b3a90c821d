import TypeCoverage.Json.Token

/-!
# Reading JSON

The reader of whole documents. Arrays and objects nest up to 127 deep, and of two members with
one key the later counts.
-/

set_option autoImplicit false

namespace TypeCoverage.Json

/-- The deepest nesting of arrays and objects. -/
def maxDepth : Nat := 127

/-- The items of an array from its first item on. A list has at most as many items as it has
bytes, which bounds `fuel`. -/
def readItems (value : Reader Json) : Nat → Reader (List Json)
  | 0, bs => stopAt .endInList bs
  | fuel + 1, bs => do
    let (v, bs) ← value bs
    match skipSpace bs with
    | [] => stopAt .endInList []
    | b :: rest =>
      if b = ascii ']' then return ([v], rest)
      else if b = ascii ',' then
        match skipSpace rest with
        | [] => stopAt .endInValue []
        | c :: cs =>
          if c = ascii ']' then stopAhead .trailingComma (c :: cs)
          else do
            let (vs, rest) ← readItems value fuel (c :: cs)
            return (v :: vs, rest)
      else stopAhead .expectedListCommaOrEnd (b :: rest)

/-- A member of an object: its key, a colon and its value. -/
def readMember (value : Reader Json) : Reader (Text × Json) := fun bs =>
  match bs with
  | [] => stopAt .endInObject []
  | b :: bs =>
    if b ≠ ascii '\x22' then stopAhead .keyNotString (b :: bs)
    else do
      let (key, bs) ← readString bs
      match skipSpace bs with
      | [] => stopAt .endInObject []
      | c :: rest =>
        if c ≠ ascii ':' then stopAhead .expectedColon (c :: rest)
        else do
          let (v, rest) ← value rest
          return ((key, v), rest)

/-- The members of an object from its first key on. -/
def readMembers (value : Reader Json) : Nat → Reader (List (Text × Json))
  | 0, bs => stopAt .endInObject bs
  | fuel + 1, bs => do
    let (m, bs) ← readMember value bs
    match skipSpace bs with
    | [] => stopAt .endInObject []
    | b :: rest =>
      if b = ascii '\x7d' then return ([m], rest)
      else if b = ascii ',' then
        match skipSpace rest with
        | [] => stopAt .endInValue []
        | c :: cs =>
          if c = ascii '\x7d' then stopAhead .trailingComma (c :: cs)
          else do
            let (ms, rest) ← readMembers value fuel (c :: cs)
            return (m :: ms, rest)
      else stopAhead .expectedObjectCommaOrEnd (b :: rest)

/-- A value that is neither an array nor an object, from its first byte `b` on. -/
def readScalar (ahead : Nat) (b : UInt8) (rest : Bytes) : Except Stop (Json × Bytes) :=
  if b = ascii 'n' then do
    let rest ← word ['u', 'l', 'l'] rest
    return (.null, rest)
  else if b = ascii 't' then do
    let rest ← word ['r', 'u', 'e'] rest
    return (.bool true, rest)
  else if b = ascii 'f' then do
    let rest ← word ['a', 'l', 's', 'e'] rest
    return (.bool false, rest)
  else if b = ascii '-' then do
    let (n, rest) ← readNumber ahead true rest
    return (.number n, rest)
  else if isDigit b then do
    let (n, rest) ← readNumber ahead false (b :: rest)
    return (.number n, rest)
  else if b = ascii '\x22' then do
    let (s, rest) ← readString rest
    return (.string s, rest)
  else stopAhead .expectedValue (b :: rest)

/-- A value that nests at most `depth` deep. A number too large is noticed in the byte that
follows it. -/
def readValue : Nat → Reader Json
  | depth, bs =>
    match skipSpace bs with
    | [] => stopAt .endInValue []
    | b :: rest =>
      if b = ascii '[' then
        match depth with
        | 0 => stopAhead .tooDeep (b :: rest)
        | depth + 1 =>
          match skipSpace rest with
          | [] => stopAt .endInList []
          | c :: cs =>
            if c = ascii ']' then return (.array [], cs)
            else do
              let (vs, rest) ← readItems (readValue depth) (c :: cs).length (c :: cs)
              return (.array vs, rest)
      else if b = ascii '\x7b' then
        match depth with
        | 0 => stopAhead .tooDeep (b :: rest)
        | depth + 1 =>
          match skipSpace rest with
          | [] => stopAt .endInObject []
          | c :: cs =>
            if c = ascii '\x7d' then return (.object [], cs)
            else do
              let (ms, rest) ← readMembers (readValue depth) (c :: cs).length (c :: cs)
              return (ofMembers ms, rest)
      else readScalar 1 b rest

/-- Nothing but blanks may follow a document. -/
def finish (bs : Bytes) : Except Stop Unit :=
  match skipSpace bs with
  | [] => .ok ()
  | rest => stopAhead .trailingCharacters rest

def Stop.failure (bs : Bytes) (s : Stop) : Failure :=
  { fault := s.fault
    place? := some (Place.after (bs.take (bs.length - s.rest.length - s.before))) }

/-- The value of a document. -/
def parse (bs : Bytes) : Except Failure Json :=
  match (do
    let (v, rest) ← readValue maxDepth bs
    finish rest
    return v : Except Stop Json) with
  | .ok v => .ok v
  | .error s => .error (s.failure bs)

end TypeCoverage.Json
