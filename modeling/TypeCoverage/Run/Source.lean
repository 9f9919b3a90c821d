import TypeCoverage.Analysis.Tally
import TypeCoverage.Digest.Sha1
import TypeCoverage.Failure
import TypeCoverage.Text.Utf8

/-!
# Source files

A source file of a run has its path, the digest of its bytes, and its scanned text. Bytes that
are not UTF-8 are replaced before the text is scanned; the digest sees the bytes as they are.

The files of a list are read at the same time. A list with files that cannot be read fails with one
of them, and it is not the list that says which.
-/

set_option autoImplicit false

namespace TypeCoverage

/-- The order in which a run comes to the files of a list. It may be any, and another one in the
next run over the same list. -/
structure Schedule where
  order : List Text → List Text
  perm : ∀ files, (order files).Perm files

/-- The schedule that comes to the files as they are listed. -/
def Schedule.listed : Schedule := ⟨id, fun _ => .refl _⟩

/-- A file that has been read. Without the cache the digest is empty. -/
structure SourceFile where
  path : Text
  digest : Text
  unit : SourceUnit
  deriving DecidableEq, Repr

namespace SourceFile

def ofContent (path : Text) (content : Bytes) (cached : Bool) : SourceFile :=
  ⟨path, contentDigest content cached, SourceUnit.parse (Utf8.decodeLossy content)⟩

def load (d : Disk) (cached : Bool) (path : Text) : Except Failure SourceFile :=
  match d.read path with
  | .ok content => .ok (ofContent path content cached)
  | .error fault => .error (.unreadable path fault)

/-- The failure of a file that cannot be read. -/
def unreadable? (d : Disk) (path : Text) : Option Failure :=
  match d.read path with
  | .ok _ => none
  | .error fault => some (.unreadable path fault)

/-- Reads the source files of a list. Of the files that cannot be read the one that the schedule
comes to first is reported. -/
def loadAll (d : Disk) (cached : Bool) (paths : List Text) (schedule : Schedule := .listed) :
    Except Failure (List SourceFile) :=
  match (schedule.order paths).findSome? (unreadable? d) with
  | some failure => .error failure
  | none => paths.mapM (load d cached)

def semanticErrors (s : SourceFile) (a : Analyzer) : List Finding :=
  (a.diagnostics s.path s.unit).map Diagnostic.toFinding

end SourceFile

end TypeCoverage
