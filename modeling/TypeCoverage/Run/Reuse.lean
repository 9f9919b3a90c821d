import TypeCoverage.Imports.Invalidation
import TypeCoverage.Run.Source
import TypeCoverage.Settings
import TypeCoverage.Store.Basic

/-!
# Which records are reused

The slot of a source file first holds its stored record if the digest in it is the digest of
the file's content. Then every file whose slot is empty takes with it the slots of the files
that import it, directly or through others.
-/

set_option autoImplicit false

namespace TypeCoverage.Reuse

/-- The stored record of a source file, if it was computed from this content. -/
def current? (store : Store) (s : SourceFile) : Option FileRecord :=
  (store.get? s.path).filter fun record => record.digest = s.digest

/-- The slots before anything is invalidated. -/
def provisional (store : Store) (sources : List SourceFile) : Slots FileRecord :=
  OrderedMap.ofList (sources.map fun s => (s.path, current? store s))

/-- How imports are resolved in a run. Where the paths of the run are relative, they are
relative to the working directory. -/
def resolver (settings : Settings) (d : Disk) (sources : List SourceFile) : Resolver where
  known := sources.map (·.path)
  root? := if settings.absolutePaths then none else some d.currentPath

/-- The dependencies among the source files of a run. -/
def edges (settings : Settings) (d : Disk) (sources : List SourceFile) : List Edge :=
  (resolver settings d sources).edges (sources.map fun s => (s.path, s.unit))

/-- The slots of a run and the number of those that were invalidated. Without the cache there
is nothing to invalidate. -/
def slots (settings : Settings) (d : Disk) (store : Store) (sources : List SourceFile) :
    Slots FileRecord × Nat :=
  let before := provisional store sources
  if settings.cacheEnabled then
    Edge.invalidateRejected (edges settings d sources) before (sources.map (·.path))
  else (before, 0)

end TypeCoverage.Reuse
