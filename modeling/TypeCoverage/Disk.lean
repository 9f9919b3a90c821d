import TypeCoverage.Path.Normal
import TypeCoverage.Text.Utf8

/-!
# Disks

A disk is a tree of directories and files with a working directory. Paths are followed one
component at a time, as they are written: each step needs the directory it starts from, also a
step to `.`, to `..` or to the empty component after a final slash. A disk keeps its nodes by
location, which is the list of names from the root.
-/

set_option autoImplicit false

namespace TypeCoverage

/-- Why the system refuses an operation on a path. -/
inductive SystemFault where
  | notFound
  | alreadyThere
  | notDirectory
  | isDirectory
  | nameTooLong
  | nulInPath
  deriving DecidableEq, Repr

def SystemFault.text : SystemFault → String
  | .notFound => "No such file or directory (os error 2)"
  | .alreadyThere => "File exists (os error 17)"
  | .notDirectory => "Not a directory (os error 20)"
  | .isDirectory => "Is a directory (os error 21)"
  | .nameTooLong => "File name too long (os error 36)"
  | .nulInPath => "file name contained an unexpected NUL byte"

/-- A place in the tree: the names from the root. -/
abbrev Location := List Text

/-- What stands at a location. -/
inductive Node where
  | directory
  | file (content : Bytes)
  deriving DecidableEq, Repr

/-- A tree of directories and files with a working directory. The root needs no node. -/
structure Disk where
  nodes : List (Location × Node)
  current : Location

namespace Disk

def node? (d : Disk) (l : Location) : Option Node :=
  if l = [] then some .directory else (d.nodes.find? fun n => n.1 = l).map (·.2)

def put (d : Disk) (l : Location) (n : Node) : Disk :=
  { d with nodes := (l, n) :: d.nodes.filter fun m => m.1 ≠ l }

/-- The disk without a location and all that is below it. -/
def erase (d : Disk) (l : Location) : Disk :=
  { d with nodes := d.nodes.filter fun m => !l.isPrefixOf m.1 }

def currentPath (d : Disk) : Text := Path.ofComponents true d.current

/-! ## Following paths -/

/-- The most bytes a name may have. -/
def maxName : Nat := 255

/-- The most bytes a path may have. -/
def maxPath : Nat := 4095

/-- Whether a text takes more than a number of bytes. -/
def exceeds (limit : Nat) (s : Text) : Bool := limit < (Utf8.encode s).length

/-- One step from a location, which must be a directory. The location it leads to may be
free. -/
def step (d : Disk) (l : Location) (part : Text) : Except SystemFault Location :=
  match d.node? l with
  | none => .error .notFound
  | some (.file _) => .error .notDirectory
  | some .directory =>
    if part = [] ∨ part = Path.here then .ok l
    else if part = Path.up then .ok l.dropLast
    else if exceeds maxName part then .error .nameTooLong
    else .ok (l ++ [part])

/-- Where paths start: at the root or in the working directory. -/
def origin (d : Disk) (path : Text) : Location :=
  if Path.isAbsolute path then [] else d.current

/-- The location a path leads to, which may be free. -/
def locate (d : Disk) (path : Text) : Except SystemFault Location :=
  if path.contains '\x00' then .error .nulInPath
  else if path = [] then .error .notFound
  else if exceeds maxPath path then .error .nameTooLong
  else (Text.pieces '/' path).foldlM d.step (d.origin path)

/-- What stands where a path leads. -/
def at? (d : Disk) (path : Text) : Option Node :=
  match d.locate path with
  | .ok l => d.node? l
  | .error _ => none

def isFile (d : Disk) (path : Text) : Bool :=
  match d.at? path with
  | some (.file _) => true
  | _ => false

def isDirectory (d : Disk) (path : Text) : Bool := d.at? path = some .directory

def hasPath (d : Disk) (path : Text) : Bool := (d.at? path).isSome

/-! ## Files -/

def read (d : Disk) (path : Text) : Except SystemFault Bytes := do
  let l ← d.locate path
  match d.node? l with
  | none => .error .notFound
  | some .directory => .error .isDirectory
  | some (.file content) => .ok content

/-- Writes a file in an existing directory, in place of any file that stood there. -/
def write (d : Disk) (path : Text) (content : Bytes) : Except SystemFault Disk := do
  let l ← d.locate path
  if d.node? l = some .directory then .error .isDirectory
  else .ok (d.put l (.file content))

def removeFile (d : Disk) (path : Text) : Disk :=
  match d.locate path with
  | .ok l =>
    match d.node? l with
    | some (.file _) => d.erase l
    | _ => d
  | .error _ => d

/-- Removes what a path leads to with all below it. -/
def remove (d : Disk) (path : Text) : Disk :=
  match d.locate path with
  | .ok l => d.erase l
  | .error _ => d

/-! ## Directories -/

/-- Makes one directory. The path may end with slashes. -/
def makeDirectory (d : Disk) (path : Text) : Except SystemFault Disk := do
  let l ← d.locate (if path.all (· == '/') then path
    else (path.reverse.dropWhile fun c => c == '/').reverse)
  match d.node? l with
  | some _ => .error .alreadyThere
  | none => .ok (d.put l .directory)

/-- The components of a path that name something: neither empty nor `.`, but a `.` that a
relative path begins with counts. -/
def namedParts (path : Text) : List Text :=
  let parts := Text.pieces '/' path
  match parts with
  | first :: rest =>
    (if first = [] then [] else [first]) ++ rest.filter fun p => !(p = [] ∨ p = Path.here)
  | [] => []

/-- The proper ancestors of a path as paths, the nearest first; neither the root nor the empty
path is among them. -/
def ancestors (path : Text) : List Text :=
  let parts := namedParts path
  ((List.range parts.length).drop 1).reverse.map fun n =>
    Path.ofComponents (Path.isAbsolute path) (parts.take n)

/-- Makes a directory, unless there is one. -/
def ensureDirectory (d : Disk) (path : Text) : Disk × Except SystemFault Unit :=
  match d.makeDirectory path with
  | .ok d => (d, .ok ())
  | .error fault =>
    if fault = .alreadyThere ∧ d.isDirectory path then (d, .ok ()) else (d, .error fault)

/-- Makes directories from the last path to the first, and stops at a fault. -/
def ensureAll (d : Disk) : List Text → Disk × Except SystemFault Unit
  | [] => (d, .ok ())
  | path :: below =>
    match ensureAll d below with
    | (d, .error fault) => (d, .error fault)
    | (d, .ok _) => d.ensureDirectory path

/-- The paths among these, the deepest first, that have to be made: those before the first that
is there or can be made. A path that can be neither is a fault. -/
def missing (d : Disk) : List Text → Except SystemFault (List Text)
  | [] => .ok []
  | path :: above =>
    match d.ensureDirectory path with
    | (_, .ok _) => .ok [path]
    | (_, .error .notFound) => (d.missing above).map (path :: ·)
    | (_, .error fault) => .error fault

/-- Makes a directory and the ancestors it lacks. What was made stays when a later one cannot
be. -/
def makeDirectories (d : Disk) (path : Text) : Disk × Except SystemFault Unit :=
  if namedParts path = [] then (d, .ok ())
  else
    match d.missing (path :: ancestors path) with
    | .error fault => (d, .error fault)
    | .ok paths => d.ensureAll paths

/-- Writes a file and makes the directories above it. A path that leads to no place is left
alone. -/
def writeDeep (d : Disk) (path : Text) (content : Bytes) : Disk :=
  let d := match ancestors path with
    | [] => d
    | above :: _ => (d.makeDirectories above).1
  match d.write path content with
  | .ok d => d
  | .error _ => d

end Disk

end TypeCoverage
