import TypeCoverage.Text.Basic

/-!
# Normal paths

Paths are texts with `/` between components. Normalization works on the text alone: it drops
empty components and `.`, and lets `..` take back the component before it. At the root `..`
changes nothing; in a relative path it stays where there is nothing to take back.
-/

set_option autoImplicit false

namespace TypeCoverage.Path

/-- The component that stays in place. -/
def here : Text := ['.']

/-- The component that goes up. -/
def up : Text := ['.', '.']

def isAbsolute : Text → Bool
  | '/' :: _ => true
  | _ => false

/-- The components so far, the last one first, after one more. -/
def push (absolute : Bool) (stack : List Text) (part : Text) : List Text :=
  if part = [] ∨ part = here then stack
  else if part = up then
    match stack with
    | [] => if absolute then [] else [up]
    | top :: rest =>
      if top ≠ up then rest
      else if absolute then top :: rest
      else up :: top :: rest
  else part :: stack

def components (path : Text) : List Text :=
  ((Text.pieces '/' path).foldl (push (isAbsolute path)) []).reverse

def ofComponents (absolute : Bool) (parts : List Text) : Text :=
  if absolute then '/' :: Text.join ['/'] parts else Text.join ['/'] parts

def normalize (path : Text) : Text := ofComponents (isAbsolute path) (components path)

/-- The path of `part` as seen from the directory `dir`, written out. -/
def under (dir part : Text) : Text := dir ++ '/' :: part

/-- What stands before the last slash of a path, if there is one. -/
def parent? (path : Text) : Option Text :=
  match path.reverse.dropWhile fun c => c != '/' with
  | _ :: before => some before.reverse
  | [] => none

/-- What follows a directory and a slash in a path strictly below it. -/
def below? (dir path : Text) : Option Text := Text.stripPrefix? (dir ++ ['/']) path

end TypeCoverage.Path
