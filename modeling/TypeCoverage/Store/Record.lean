import TypeCoverage.Coverage
import TypeCoverage.Finding

/-!
# Records

A record is what is kept about one source file between runs: the digest of the content it was
computed from, the counts, the findings before any category is left out, and the semantic
errors if they were asked for.
-/

set_option autoImplicit false

namespace TypeCoverage

/-- The kept result of one source file. Semantic errors are no part of the counts, and absent
ones were never asked for. -/
structure FileRecord where
  digest : Text
  correct : Nat
  total : Nat
  findings : List Finding
  semanticErrors? : Option (List Finding)
  deriving DecidableEq, Repr

namespace FileRecord

/-! ## Stored form

A record is stored as an object; the names of its members stand first, and those of the counts are
the ones of a coverage. It is read into a draft. -/

def digestKey : Text := ['h', 'a', 's', 'h']
def findingsKey : Text := ['a', 'n', 'y', 's']
def semanticErrorsKey : Text := ['s', 'e', 'm', 'a', 'n', 't', 'i', 'c', 'E', 'r', 'r', 'o', 'r',
  's']

/-- The stored form. Semantic errors that were not asked for are left out. -/
def toJson (r : FileRecord) : Json :=
  .object ([(digestKey, Json.string r.digest), (Coverage.correctKey, Json.nat r.correct),
      (Coverage.totalKey, Json.nat r.total),
      (findingsKey, Json.array (r.findings.map Finding.toJson))]
    ++ match r.semanticErrors? with
      | some errors => [(semanticErrorsKey, Json.array (errors.map Finding.toJson))]
      | none => [])

/-- A record of which some fields are known. -/
structure Draft where
  digest? : Option Text := none
  correct? : Option Nat := none
  total? : Option Nat := none
  findings? : Option (List Finding) := none
  semanticErrors? : Option (Option (List Finding)) := none

def Draft.complete (d : Draft) : Option FileRecord := do
  let digest ← d.digest?
  let correct ← d.correct?
  let total ← d.total?
  return ⟨digest, correct, total, d.findings?.getD [], d.semanticErrors?.getD none⟩

def recordShape : Json.RecordShape Draft FileRecord where
  name := "FileRecord"
  blank := {}
  fields :=
    [.of digestKey true .string (fun d => d.digest?.isSome)
        fun d s => { d with digest? := some s },
      .of Coverage.correctKey true .count (fun d => d.correct?.isSome)
        fun d n => { d with correct? := some n },
      .of Coverage.totalKey true .count (fun d => d.total?.isSome)
        fun d n => { d with total? := some n },
      .of findingsKey false (.list Finding.shape) (fun d => d.findings?.isSome)
        fun d fs => { d with findings? := some fs },
      .of semanticErrorsKey false (.optional (.list Finding.shape))
        (fun d => d.semanticErrors?.isSome) fun d fs => { d with semanticErrors? := some fs }]
  complete := Draft.complete

def shape : Json.Shape FileRecord := recordShape.shape

end FileRecord

end TypeCoverage
