import TypeCoverage.Glob.Pattern

/-!
# How paths are compared with a pattern

Many patterns are so simple that a path is compared with a text: as a whole, at its head, at its
tail, or by the name or the extension of the file. The others are compiled to an expression,
some with an extension that is compared first. What is compared decides one thing beyond speed:
a path that ends in `..` has neither a name nor an extension.
-/

set_option autoImplicit false

namespace TypeCoverage.Glob

/-- How paths are compared with a pattern. -/
inductive Approach where
  | name
  | whole
  | extension
  | head
  | tail
  | extensionFirst
  | expression
  deriving DecidableEq, Repr

def Token.char? : Token → Option Char
  | .literal c => some c
  | _ => none

def textOf? (tokens : List Token) : Option Text := tokens.mapM Token.char?

/-- The parts after the directories that a pattern begins with. -/
def afterLeadingDirs : List Token → List Token
  | .leadingDirs :: ts => ts
  | ts => ts

/-- Whether a pattern is a text. -/
def isWhole (tokens : Pattern) : Bool := (textOf? tokens).any fun text => !text.isEmpty

/-- Whether a pattern is a name in any directory. -/
def isName : Pattern → Bool
  | .leadingDirs :: ts =>
    (textOf? ts).any fun text => !text.isEmpty && !text.contains '/'
  | _ => false

/-- Whether a pattern is a star, a dot and an extension. -/
def isExtension (tokens : Pattern) : Bool :=
  match afterLeadingDirs tokens with
  | .anyRun :: .literal '.' :: ts =>
    (textOf? ts).any fun text => !text.contains '.' && !text.contains '/'
  | _ => false

/-- Whether a pattern is a text and a star, or a directory and all below it. -/
def isHead (tokens : Pattern) : Bool :=
  match tokens.reverse with
  | .anyRun :: ts => (textOf? ts).any fun text => !text.isEmpty
  | .trailingDirs :: ts => (textOf? ts).isSome
  | _ => false

/-- Whether a pattern is a star and a text, or a text in any directory. A star and a slash is
no such pattern. -/
def isTail (tokens : Pattern) : Bool :=
  match afterLeadingDirs tokens with
  | .anyRun :: ts => (textOf? ts).any fun text => !text.isEmpty && text != ['/']
  | ts => (textOf? ts).any fun text => !text.isEmpty

/-- Whether the characters that a pattern ends with hold a dot and no slash after it. -/
def endsWithExtension (tokens : Pattern) : Bool :=
  ((tokens.reverse.map Token.char?).find? fun c? =>
    c? == some '.' || c? == some '/' || c?.isNone) == some (some '.')

def approach (tokens : Pattern) : Approach :=
  if isName tokens then .name
  else if isWhole tokens then .whole
  else if isExtension tokens then .extension
  else if isHead tokens then .head
  else if isTail tokens then .tail
  else if endsWithExtension tokens then .extensionFirst
  else .expression

/-- Whether only a path with a name can match. -/
def Approach.needsName : Approach → Bool
  | .name => true
  | .extension => true
  | .extensionFirst => true
  | _ => false

/-- Whether a path has a name, which `..` at its end is not. -/
def hasName (path : Text) : Bool := (Text.pieces '/' path).getLast? != some ['.', '.']

end TypeCoverage.Glob
