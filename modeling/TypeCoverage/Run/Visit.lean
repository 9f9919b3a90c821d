import TypeCoverage.Coverage
import TypeCoverage.Run.Reuse

/-!
# Visiting files

A run visits each file of its list once for each time it is listed. A visit takes the record
from the file's slot, asks for semantic errors that are wanted and missing in it, or computes a
record where the slot is empty.
-/

set_option autoImplicit false

namespace TypeCoverage

/-- Where the record of a visit comes from. -/
inductive Origin where
  | kept
  | completed
  | computed
  deriving DecidableEq, Repr

/-- A source file with its record in a run. -/
structure Visit where
  source : SourceFile
  origin : Origin
  record : FileRecord
  deriving DecidableEq, Repr

namespace Visit

/-! ## Records -/

def compute (a : Analyzer) (settings : Settings) (s : SourceFile) : FileRecord :=
  let t := a.tally s.path s.unit settings.strict
  { digest := s.digest
    correct := t.correct
    total := t.total
    findings := t.findings
    semanticErrors? := if settings.reportSemanticErrors then some (s.semanticErrors a) else none }

def reuse (a : Analyzer) (settings : Settings) (s : SourceFile) (record : FileRecord) : Visit :=
  if settings.reportSemanticErrors && record.semanticErrors?.isNone then
    ⟨s, .completed, { record with semanticErrors? := some (s.semanticErrors a) }⟩
  else ⟨s, .kept, record⟩

def ofSource (a : Analyzer) (settings : Settings) (slots : Slots FileRecord) (s : SourceFile) :
    Visit :=
  match slots.get? s.path with
  | some (some record) => reuse a settings s record
  | _ => ⟨s, .computed, compute a settings s⟩

/-! ## What a visit did -/

/-- Whether the visit found a record. -/
def isHit (v : Visit) : Bool := v.origin != .computed

/-- Whether the record is not the stored one. -/
def isNew (v : Visit) : Bool := v.origin != .kept

def analyzed (v : Visit) : List Statement :=
  match v.origin with
  | .computed => v.source.unit.statements
  | _ => []

def isDiagnosed (settings : Settings) (v : Visit) : Bool :=
  match v.origin with
  | .computed => settings.reportSemanticErrors
  | .completed => true
  | .kept => false

/-! ## What a visit contributes -/

/-- The semantic errors that are reported. -/
def semanticErrors (settings : Settings) (v : Visit) : List Finding :=
  if settings.reportSemanticErrors then v.record.semanticErrors?.getD [] else []

/-- The coverage of the file. Semantic errors are places that are not sound. -/
def coverage (settings : Settings) (v : Visit) : Coverage :=
  ⟨v.record.correct, v.record.total + (v.semanticErrors settings).length⟩

/-- The reported findings: those of no ignored category, then the semantic errors. -/
def findings (settings : Settings) (v : Visit) : List FileFinding :=
  (v.record.findings.filter (fun f => settings.ignored.allows f.kind)
    ++ v.semanticErrors settings).map fun f => ⟨v.source.path, f⟩

def store (s : Store) (v : Visit) : Store :=
  if v.isNew then s.insert v.source.path v.record else s

end Visit

end TypeCoverage
