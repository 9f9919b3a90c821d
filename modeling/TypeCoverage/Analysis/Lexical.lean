import TypeCoverage.Analysis.Matches
import TypeCoverage.Analysis.Tally
import TypeCoverage.Text.Alphanumeric

/-!
# The lexical analyzer

Without a type checker the only types one sees are those that are written down. This analyzer
counts explicit type annotations and, in strict mode, assertions: `: any` is an `any` finding
and `: Promise<any>` contains one, `x as T`, `<T>x` and `x!` are assertions. Imports are not
looked at, and of a re-export only annotations are. All patterns run over the mask of a
statement, so comments and literals hold no sites.
-/

set_option autoImplicit false

namespace TypeCoverage.Analysis

def anyWord : Text := ['a', 'n', 'y']

/-! ## Annotations -/

/-- Words that may follow a colon without being a type. -/
def notTypes : List Text :=
  [['a', 'w', 'a', 'i', 't'], ['b', 'r', 'e', 'a', 'k'], ['c', 'a', 's', 'e'], ['c', 'o', 'n',
    't', 'i', 'n', 'u', 'e'], ['d', 'e', 'f', 'a', 'u', 'l', 't'], ['d', 'e', 'l', 'e', 't',
    'e'], ['d', 'o'], ['f', 'o', 'r'], ['i', 'f'], ['n', 'e', 'w'],
    ['r', 'e', 't', 'u', 'r', 'n'], ['s', 'w', 'i', 't', 'c', 'h'], ['t', 'h', 'r', 'o', 'w'],
      ['t', 'r', 'y'], ['w', 'h', 'i', 'l', 'e'], ['y', 'i', 'e', 'l', 'd']]

def endsAnnotated (c : Char) : Bool := isNameChar c || c == ')' || c == ']' || c == '?'

/-- An annotation: the end of a name, a colon and a type expression, with blanks around the
colon. It is about the type. -/
def annotation : Recogniser := fun _ s =>
  match s with
  | [] => none
  | c :: cs =>
    if endsAnnotated c then
      let (gap, rest) := blanks cs
      match rest with
      | ':' :: rest => do
        let (gap₂, rest) := blanks rest
        let type ← typeExpression? rest
        let lead := 1 + gap.length + 1 + gap₂.length
        return ⟨lead + type.length, lead, type, type⟩
      | _ => none
    else none

def headWord (type : Text) : Text :=
  type.takeWhile fun c => isAlphanumeric c || c == '_' || c == '$'

/-- The part of a statement that a match is about, as a finding. -/
def findingOf (s : Statement) (offset : Nat) (m : Match) (kind : FindingKind) : Site :=
  .unsound (.placed (s.placeOf (offset + m.lead)) kind m.text)

def annotationSite? (s : Statement) (offset : Nat) (m : Match) : Option Site :=
  if notTypes.contains (headWord m.type) then none
  else if m.type = anyWord then some (findingOf s offset m .any)
  else if hasWord anyWord m.type then some (findingOf s offset m .containsAny)
  else some .sound

def annotationSites (s : Statement) : List Site :=
  (matchesIn annotation s.code).filterMap fun m => annotationSite? s m.1 m.2

/-! ## Assertions -/

def asWord : Text := ['a', 's']

def constWord : Text := ['c', 'o', 'n', 's', 't']

/-- An assertion `as T`. It is about all it takes. -/
def asAssertion : Recogniser := fun before s =>
  if atWordStart before then do
    let rest ← Text.stripPrefix? asWord s
    let (gap, rest) := blanks rest
    if gap.isEmpty then none
    else
      let type ← typeExpression? rest
      let text := asWord ++ gap ++ type
      return ⟨text.length, 0, text, type⟩
  else none

/-- What `as T` counts as; `as const` is no assertion. -/
def asSite? (s : Statement) (offset : Nat) (m : Match) : Option Site :=
  if m.type = constWord then none
  else some (findingOf s offset m (if m.type = anyWord then .any else .unsafeAs))

def precedesAngle (c : Char) : Bool := c == '=' || c == '(' || c == ',' || c == ':' || isBlank c

/-- A type between angles at the head of a text, with a name character after it that begins
what is asserted about. -/
def angleType? (s : Text) : Option Match :=
  match s with
  | '<' :: rest => do
    let name ← dottedName? rest
    let suffix := arraySuffix (rest.drop name.length)
    match rest.drop (name.length + suffix.length) with
    | '>' :: rest =>
      let (gap, rest) := blanks rest
      match rest with
      | c :: _ =>
        if isNameChar c then
          let text := '<' :: (name ++ suffix ++ ['>'])
          some ⟨text.length + gap.length + 1, 0, text, name ++ suffix⟩
        else none
      | [] => none
    | _ => none
  | _ => none

/-- An assertion `<T>x`, at the start of the code or after one of a few characters. It is about
the type with its angles. -/
def angleAssertion : Recogniser := fun before s =>
  let atStart := if before.isNone then angleType? s else none
  atStart.orElse fun _ =>
    match s with
    | c :: rest =>
      if precedesAngle c then
        (angleType? rest).map fun m => { m with length := m.length + 1, lead := 1 }
      else none
    | [] => none

def angleSite (s : Statement) (offset : Nat) (m : Match) : Site :=
  findingOf s offset m (if m.type = anyWord then .any else .unsafeTypeAssertion)

def endsExpression (c : Char) : Bool := isNameChar c || c == ')' || c == ']'

/-- A non-null assertion: the end of an expression and a bang that no equals sign follows. It
is about the bang, and takes a character on each side of it. -/
def nonNullAssertion : Recogniser := fun _ s =>
  match s with
  | c :: '!' :: rest =>
    if endsExpression c then
      match rest with
      | [] => some ⟨2, 1, ['!'], []⟩
      | d :: _ => if d = '=' then none else some ⟨3, 1, ['!'], []⟩
    else none
  | _ => none

def nonNullSite (s : Statement) (offset : Nat) (m : Match) : Site :=
  findingOf s offset m .unsafeNonNull

/-- The assertions of a statement: first all `as T`, then all `<T>x`, then all `x!`. -/
def assertionSites (s : Statement) : List Site :=
  (matchesIn asAssertion s.code).filterMap (fun m => asSite? s m.1 m.2)
    ++ (matchesIn angleAssertion s.code).map (fun m => angleSite s m.1 m.2)
    ++ (matchesIn nonNullAssertion s.code).map (fun m => nonNullSite s m.1 m.2)

/-! ## Statements -/

/-- Whether code is a re-export: `export`, perhaps `type`, and a brace or a star. -/
def isReExport (code : Text) : Bool :=
  match (do
    let s ← Text.stripPrefix? (['e', 'x', 'p', 'o', 'r', 't']) code
    let s ← Source.someBlanks? s
    return ((Text.stripPrefix? Source.typeWord s).bind Source.someBlanks?).getD s) with
  | some (c :: _) => c == '\x7b' || c == '*'
  | _ => false

def lexicalSites (strict : Bool) (s : Statement) : List Site :=
  if s.kind = .other then
    annotationSites s ++ (if strict && !isReExport s.code then assertionSites s else [])
  else []

/-- The lexical analyzer. It has no diagnostics. -/
def lexical : Analyzer :=
  .ofSites (fun _ _ strict s => lexicalSites strict s) fun _ _ => []

theorem lexical_tally (file : Text) (unit : SourceUnit) (strict : Bool) :
    lexical.tally file unit strict
      = .ofSites unit.ignoredLines (unit.statements.flatMap (lexicalSites strict)) :=
  Analyzer.tally_ofSites file unit strict

end TypeCoverage.Analysis
