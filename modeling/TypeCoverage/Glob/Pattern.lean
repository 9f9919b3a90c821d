import TypeCoverage.Text.Basic

/-!
# Path patterns

A pattern is a text with `?` for one byte, `*` for any run of bytes, classes in square brackets,
alternatives in braces and a backslash before a character that stands for itself. Between
slashes, `**` stands for any number of directories, also none. This module cuts a pattern into
its parts.
-/

set_option autoImplicit false

namespace TypeCoverage.Glob

/-- Why a text is no pattern. -/
inductive Fault where
  | unclosedClass
  | invalidRange (low high : Char)
  | unclosedAlternatives
  | unopenedAlternatives
  | danglingEscape
  deriving DecidableEq, Repr

def Fault.text : Fault → String
  | .unclosedClass => "unclosed character class; missing ']'"
  | .invalidRange low high =>
    "invalid range; '" ++ String.ofList [low] ++ "' > '" ++ String.ofList [high] ++ "'"
  | .unclosedAlternatives =>
    "unclosed alternate group; missing '\x7d' (maybe escape '\x7b' with '[\x7b]'?)"
  | .unopenedAlternatives =>
    "unopened alternate group; missing '\x7b' (maybe escape '\x7d' with '[\x7d]'?)"
  | .danglingEscape => "dangling '\\'"

/-- A part of a pattern. `leadingDirs`, `innerDirs` and `trailingDirs` are the three places of
`**`. A group has no alternative that stands for nothing; without any it stands for nothing
itself. -/
inductive Token where
  | literal (c : Char)
  | anyByte
  | anyRun
  | leadingDirs
  | innerDirs
  | trailingDirs
  | oneOf (negated : Bool) (ranges : List (Char × Char))
  | group (branches : List (List Token))
  deriving Repr

abbrev Pattern := List Token

def Token.isVoid : Token → Bool
  | group [] => true
  | _ => false

/-! ## Reading -/

/-- A group that is open: the parts before it and its finished alternatives, the last ones
first. -/
structure Group where
  outer : List Token
  finished : List (List Token)

/-- What has been read: the character before, the parts of the innermost sequence, the last one
first, and the open groups, the innermost first. -/
structure Progress where
  before : Option Char
  tokens : List Token
  groups : List Group

def Progress.push (p : Progress) (token : Token) : Progress :=
  { p with tokens := token :: p.tokens }

/-- The part that a `**` between slashes becomes together with the slash before it. It adds
nothing after another `**`. -/
def Progress.pushDirs (p : Progress) (token : Token) : Progress :=
  match p.tokens with
  | .leadingDirs :: _ => p
  | .trailingDirs :: _ => p
  | _ :: rest => { p with tokens := token :: rest }
  | [] => { p with tokens := [token] }

/-- A double star and what follows it, after which the reading goes on. -/
def readDoubleStar (p : Progress) (rest : Text) : Progress × Text :=
  let plain := ({ (p.push .anyRun).push .anyRun with before := some '*' }, rest)
  let inGroup := !p.groups.isEmpty
  if p.tokens.isEmpty then
    match rest with
    | [] => (p.push .leadingDirs, [])
    | '/' :: rest => ({ p.push .leadingDirs with before := some '/' }, rest)
    | _ => plain
  else if p.before ≠ some '/' ∧ !(inGroup ∧ (p.before = some ',' ∨ p.before = some '\x7b')) then
    plain
  else
    match rest with
    | [] => (p.pushDirs .trailingDirs, [])
    | c :: rest' =>
      if inGroup ∧ (c = ',' ∨ c = '\x7d') then
        ({ p.pushDirs .trailingDirs with before := some '*' }, rest)
      else if c = '/' then ({ p.pushDirs .innerDirs with before := some '/' }, rest')
      else plain

/-- The ranges of a class with its last range ending at `c`. -/
def extendLast (ranges : List (Char × Char)) (c : Char) : Except Fault (List (Char × Char)) :=
  match ranges with
  | (low, _) :: rest => if c < low then .error (.invalidRange low c) else .ok ((low, c) :: rest)
  | [] => .ok [(c, c)]

/-- The items of a class up to its closing bracket, and what follows. The last range comes
first. A bracket or dash that comes first stands for itself, and so does a dash before the
closing bracket. -/
def readClass (first inRange : Bool) (ranges : List (Char × Char)) :
    Text → Except Fault (List (Char × Char) × Text)
  | [] => .error .unclosedClass
  | c :: rest =>
    if c = ']' then
      if first then readClass false false ((c, c) :: ranges) rest
      else .ok ((if inRange then ('-', '-') :: ranges else ranges).reverse, rest)
    else if c = '-' ∧ first then readClass false false ((c, c) :: ranges) rest
    else if c = '-' ∧ !inRange then readClass false true ranges rest
    else if inRange then
      match extendLast ranges c with
      | .error e => .error e
      | .ok ranges => readClass false false ranges rest
    else readClass false false ((c, c) :: ranges) rest

/-- A class after its opening bracket, and what follows. -/
def readClassToken (s : Text) : Except Fault (Token × Text) := do
  let (negated, body) := match s with
    | '!' :: rest => (true, rest)
    | '^' :: rest => (true, rest)
    | _ => (false, s)
  let (ranges, rest) ← readClass true false [] body
  return (.oneOf negated ranges, rest)

/-- Closes the innermost group. Empty alternatives are dropped. -/
def closeGroup (p : Progress) : Except Fault Progress :=
  match p.groups with
  | [] => .error .unopenedAlternatives
  | g :: groups =>
    let branches := (p.tokens :: g.finished).reverse.filter fun tokens =>
      !tokens.all Token.isVoid
    .ok { before := some '\x7d', tokens := .group (branches.map List.reverse) :: g.outer, groups }

/-- Starts the next alternative of the innermost group; outside groups a comma stands for
itself. -/
def nextAlternative (p : Progress) : Progress :=
  match p.groups with
  | [] => { p.push (.literal ',') with before := some ',' }
  | g :: groups =>
    { before := some ',', tokens := [],
      groups := { g with finished := p.tokens :: g.finished } :: groups }

/-- Reads the rest of a pattern. Each step takes a character, which bounds `fuel`. -/
def readFrom : Nat → Progress → Text → Except Fault Progress
  | 0, p, _ => .ok p
  | _ + 1, p, [] => .ok p
  | fuel + 1, p, c :: rest =>
    if c = '?' then readFrom fuel { p.push .anyByte with before := some c } rest
    else if c = '*' then
      match rest with
      | '*' :: rest =>
        let (p, rest) := readDoubleStar p rest
        readFrom fuel p rest
      | _ => readFrom fuel { p.push .anyRun with before := some c } rest
    else if c = '[' then
      match readClassToken rest with
      | .error e => .error e
      | .ok (token, rest) => readFrom fuel { p.push token with before := some ']' } rest
    else if c = '\x7b' then
      readFrom fuel { before := some c, tokens := [], groups := ⟨p.tokens, []⟩ :: p.groups } rest
    else if c = '\x7d' then
      match closeGroup p with
      | .error e => .error e
      | .ok p => readFrom fuel p rest
    else if c = ',' then readFrom fuel (nextAlternative p) rest
    else if c = '\\' then
      match rest with
      | [] => .error .danglingEscape
      | d :: rest => readFrom fuel { p.push (.literal d) with before := some d } rest
    else readFrom fuel { p.push (.literal c) with before := some c } rest

/-- The parts of a pattern. -/
def parse (pattern : Text) : Except Fault Pattern := do
  let p ← readFrom pattern.length ⟨none, [], []⟩ pattern
  if p.groups.isEmpty then return p.tokens.reverse else .error .unclosedAlternatives

end TypeCoverage.Glob
