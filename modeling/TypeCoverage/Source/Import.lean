import TypeCoverage.Source.Statement
import TypeCoverage.Text.Word

/-!
# Import statements

Two forms of import carry a module specifier: an import that binds the result of `require`, and
an import declaration. Both are recognised on the text of a statement whose code begins with
`import`; the first form is tried first. The recognisers below take a text and give what
follows the part they recognise.
-/

set_option autoImplicit false

namespace TypeCoverage.Source

/-- What a statement is: an import of a module, or anything else. -/
inductive StatementKind where
  | importEquals (specifier : Text)
  | importDeclaration (specifier : Text)
  | other
  deriving DecidableEq, Repr

/-! ## Recognisers -/

def importWord : Text := ['i', 'm', 'p', 'o', 'r', 't']
def typeWord : Text := ['t', 'y', 'p', 'e']
def requireWord : Text := ['r', 'e', 'q', 'u', 'i', 'r', 'e']

def someBlanks? : Text → Option Text
  | c :: cs => if isBlank c then some (Text.skipBlanks cs) else none
  | [] => none

def char? (wanted : Char) : Text → Option Text
  | c :: cs => if c = wanted then some cs else none
  | [] => none

/-- A name: a letter of ASCII, `_` or `$`, then name characters. -/
def name? : Text → Option Text
  | c :: cs => if isNameStart c then some (cs.dropWhile isNameChar) else none
  | [] => none

def isSpecifierQuote (c : Char) : Bool := c == '\x27' || c == '\x22'

/-- A specifier between quotes, which need not be the same, and what follows it. -/
def specifier? : Text → Option (Text × Text)
  | q :: cs =>
    if isSpecifierQuote q then
      match cs.takeWhile (fun c => !isSpecifierQuote c),
          cs.dropWhile (fun c => !isSpecifierQuote c) with
      | s :: ss, _ :: rest => some (s :: ss, rest)
      | _, _ => none
    else none
  | [] => none

/-! ## The two forms -/

/-- The specifier of `name = require(specifier)`. -/
def requireBinding? (s : Text) : Option Text := do
  let s ← name? s
  let s ← char? '=' (Text.skipBlanks s)
  let s ← Text.stripPrefix? requireWord (Text.skipBlanks s)
  let s ← char? '(' (Text.skipBlanks s)
  let (spec, s) ← specifier? (Text.skipBlanks s)
  let _ ← char? ')' (Text.skipBlanks s)
  return spec

/-- The specifier of an import that binds the result of `require`. A `type` before the name is
passed over, unless it is the name. -/
def importEquals? (s : Text) : Option Text := do
  let s ← Text.stripPrefix? importWord s
  let s ← someBlanks? s
  let typed? := do
    let s ← Text.stripPrefix? typeWord s
    let s ← someBlanks? s
    requireBinding? s
  typed?.orElse fun _ => requireBinding? s

/-- Whether what stands between `import` and the first quote lets a specifier follow: blanks
only, or anything that ends with the word `from` and blanks. Directly after `import` no word
can begin. -/
def leadsToSpecifier (s : Text) : Bool :=
  match s.reverse.dropWhile isBlank with
  | [] => true
  | 'm' :: 'o' :: 'r' :: 'f' :: c :: _ => !isWord c
  | _ => false

def importDeclaration? (s : Text) : Option Text := do
  let s ← Text.stripPrefix? importWord s
  if leadsToSpecifier (s.takeWhile fun c => !isSpecifierQuote c) then
    let (spec, _) ← specifier? (s.dropWhile fun c => !isSpecifierQuote c)
    return spec
  else none

/-- What a statement with this text and code is. -/
def Span.kind (s : Span) : StatementKind :=
  if importWord.isPrefixOf s.code then
    match importEquals? s.text with
    | some spec => .importEquals spec
    | none =>
      match importDeclaration? s.text with
      | some spec => .importDeclaration spec
      | none => .other
  else .other

def StatementKind.specifier? : StatementKind → Option Text
  | .importEquals spec => some spec
  | .importDeclaration spec => some spec
  | .other => none

end TypeCoverage.Source
