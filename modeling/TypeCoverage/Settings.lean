import TypeCoverage.Finding

/-!
# Settings

What a run is asked to do: where the file list comes from, which files are selected, whether
results are kept between runs, how strictly the analyzer looks, and what is reported.
-/

set_option autoImplicit false

namespace TypeCoverage

/-- The categories of findings that a report leaves out. -/
structure IgnoredCategories where
  nested : Bool := false
  asAssertion : Bool := false
  typeAssertion : Bool := false
  nonNullAssertion : Bool := false
  deriving DecidableEq, Repr

namespace IgnoredCategories

def allows (i : IgnoredCategories) : FindingKind → Bool
  | .containsAny => !i.nested
  | .unsafeAs => !i.asAssertion
  | .unsafeTypeAssertion => !i.typeAssertion
  | .unsafeNonNull => !i.nonNullAssertion
  | _ => true

def isEmpty (i : IgnoredCategories) : Bool := i = {}

end IgnoredCategories

inductive ReportFormat where
  | console
  | json
  deriving DecidableEq, Repr

/-- The settings of a run. The list path `-` stands for standard input. -/
structure Settings where
  listPath : Text := ['-']
  absolutePaths : Bool := false
  files? : Option (List Text) := none
  ignorePatterns : List Text := []
  cacheEnabled : Bool := false
  cacheDir? : Option Text := none
  clearCache : Bool := false
  ignored : IgnoredCategories := {}
  reportSemanticErrors : Bool := false
  strict : Bool := false
  threads? : Option Nat := none
  verbose : Bool := false
  format : ReportFormat := .console
  fileCounts : Bool := false
  detail : Bool := false
  atLeast? : Option Binary64 := none
  deriving DecidableEq, Repr

namespace Settings

/-- The cache directory that is used when none is given. -/
def defaultCacheDir : Text := ['.', 't', 'y', 'p', 'e', '-', 'c', 'o', 'v', 'e', 'r', 'a', 'g',
  'e']

def cacheDir (s : Settings) : Text := s.cacheDir?.getD defaultCacheDir

end Settings

end TypeCoverage
