import TypeCoverage.Failure
import TypeCoverage.Settings
import TypeCoverage.Text.Blank
import TypeCoverage.Text.Lines

/-!
# Selecting files

The candidates of a run are the lines of a file list. Each has a path key, which is its normal
path: relative to the working directory, or absolute. A candidate is selected unless it lies
under `node_modules`, has no key because it is outside the working directory, is not on the
list of allowed files, or matches an ignore pattern. Of candidates with one key the first
counts.
-/

set_option autoImplicit false

namespace TypeCoverage.Selection

/-! ## File lists -/

/-- The candidates of a file list: its lines without blanks at their ends, and no empty one. -/
def candidates (content : Text) : List Text :=
  ((Text.lines content).map Text.trim).filter fun line => !line.isEmpty

/-- The candidates of a file list's content, which must be UTF-8. -/
def ofContent (content : Bytes) : Except Failure (List Text) :=
  match Utf8.decode? content with
  | some text => .ok (candidates text)
  | none => .error (.list .notText)

/-- The candidates of the file list at a path, where `-` is standard input. -/
def load (d : Disk) (input : Bytes) (path : Text) : Except Failure (List Text) :=
  if path = ['-'] then ofContent input
  else
    match d.read path with
    | .ok content => ofContent content
    | .error .isDirectory => .error (.list (.system .isDirectory))
    | .error fault => .error (.unreadable path fault)

/-! ## Path keys -/

def absolutePath (directory candidate : Text) : Text :=
  if Path.isAbsolute candidate then Path.normalize candidate
  else Path.normalize (Path.under directory candidate)

/-- An absolute path as seen from the working directory; none outside of it. -/
def relativeTo? (directory path : Text) : Option Text :=
  if path = directory then some []
  else if directory = ['/'] then some (path.dropWhile fun c => c == '/')
  else Path.below? directory path

/-- The key of a candidate. The working directory itself has none in relative mode. -/
def key? (directory : Text) (absolute : Bool) (candidate : Text) : Option Text :=
  let path := absolutePath directory candidate
  if absolute then some path
  else (relativeTo? directory path).filter fun key => !key.isEmpty

/-! ## Selecting -/

/-- The directory of installed packages. -/
def packagesWord : Text := ['n', 'o', 'd', 'e', '_', 'm', 'o', 'd', 'u', 'l', 'e', 's']

/-- The parts of the ignore patterns, or the first that is no pattern. -/
def parseAll (patterns : List Text) : Except Failure (List Glob.Pattern) :=
  patterns.mapM fun pattern =>
    match Glob.parse pattern with
    | .ok tokens => .ok tokens
    | .error fault => .error (.invalidPattern pattern fault)

/-- The ignore patterns, if they can be used together. -/
def ignorePatterns (patterns : List Text) : Except Failure (List Glob.Pattern) := do
  let parsed ← parseAll patterns
  match Glob.setFault? parsed with
  | some fault => .error (.invalidPatterns patterns fault)
  | none => return parsed

/-- The key of a candidate that is selected. -/
def selectedKey? (directory : Text) (absolute : Bool) (allowed? : Option (List Text))
    (ignored : List Glob.Pattern) (candidate : Text) : Option Text :=
  if Text.occursIn packagesWord candidate then none
  else
    (key? directory absolute candidate).filter fun key =>
      (match allowed? with
        | some allowed => allowed.contains key
        | none => true)
      && !ignored.any fun pattern => Glob.hits pattern key

/-- The keys without repetitions, in the order of their first occurrence; `seen` holds those
that came before. -/
def distinct (seen : List Text) : List Text → List Text
  | [] => []
  | k :: ks => if seen.contains k then distinct seen ks else k :: distinct (k :: seen) ks

/-- The keys of the selected candidates, against a working directory. -/
def select (settings : Settings) (directory : Text) (candidates : List Text) :
    Except Failure (List Text) := do
  let directory := Path.normalize directory
  let ignored ← ignorePatterns settings.ignorePatterns
  let allowed? := settings.files?.map fun files =>
    files.filterMap (key? directory settings.absolutePaths)
  return distinct [] (candidates.filterMap
    (selectedKey? directory settings.absolutePaths allowed? ignored))

end TypeCoverage.Selection
