import TypeCoverage.Path.Normal
import TypeCoverage.Source.Unit

/-!
# Resolving imports

A local specifier is resolved against the files of a run. The module path is tried with six
suffixes in order; the first candidate that is a file of the run wins. Where the paths of a run
are relative to a working directory, absolute module paths below it are made relative too.
-/

set_option autoImplicit false

namespace TypeCoverage

/-- A dependency: the result of `dependent` rests on the content of `dependency`, which is a
file of the run or a module path that was not found. -/
structure Edge where
  dependent : Text
  dependency : Text
  deriving DecidableEq, Repr

/-- The files of a run and, where their paths are relative, the working directory. -/
structure Resolver where
  known : List Text
  root? : Option Text

namespace Resolver

/-- The suffixes of candidates, in the order in which they are tried. -/
def suffixes : List Text :=
  [['.', 't', 's'], ['.', 't', 's', 'x'], ['.', 'd', '.', 't', 's'], ['/', 'i', 'n', 'd', 'e',
    'x', '.', 't', 's'], ['/', 'i', 'n', 'd', 'e', 'x', '.', 't', 's', 'x'], ['/', 'i', 'n', 'd',
    'e', 'x', '.', 'd', '.', 't', 's']]

/-- Whether a specifier names a local file whose content matters. -/
def isLocal (specifier : Text) : Bool :=
  (specifier.head? == some '.' || specifier.head? == some '/')
    && !(['.', 'j', 's', 'o', 'n']).isSuffixOf specifier && !(['.', 'n', 'o', 'd',
      'e']).isSuffixOf specifier

/-- A directory without the slashes at its end. -/
def trimSlashes (dir : Text) : Text := (dir.reverse.dropWhile fun c => c == '/').reverse

/-- A specifier as a path from where the importer's path starts. -/
def spelled (importer specifier : Text) : Text :=
  if Path.isAbsolute specifier then specifier
  else
    match Path.parent? importer with
    | some dir => Path.under dir specifier
    | none => specifier

/-- An absolute path below the root as a relative one; any other path is kept. -/
def relativize (root? : Option Text) (path : Text) : Text :=
  match root? with
  | some root =>
    if Path.isAbsolute path then (Path.below? (trimSlashes root) path).getD path else path
  | none => path

def modulePath (r : Resolver) (importer specifier : Text) : Text :=
  relativize r.root? (Path.normalize (spelled importer specifier))

/-- The file a specifier names, or its module path if no candidate is a file of the run. -/
def resolve (r : Resolver) (importer specifier : Text) : Text :=
  let module := r.modulePath importer specifier
  ((suffixes.map fun suffix => module ++ suffix).find? r.known.contains).getD module

/-- The dependencies of a file, one for each import of a local module. -/
def edgesOf (r : Resolver) (file : Text) (unit : SourceUnit) : List Edge :=
  (unit.statements.filterMap Statement.specifier?).filterMap fun specifier =>
    if isLocal specifier then some ⟨file, r.resolve file specifier⟩ else none

/-- The dependencies of all files, in order. -/
def edges (r : Resolver) (files : List (Text × SourceUnit)) : List Edge :=
  files.flatMap fun f => r.edgesOf f.1 f.2

end Resolver

end TypeCoverage
