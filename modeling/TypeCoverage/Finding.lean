import TypeCoverage.Json.Schema
import TypeCoverage.Text.Lines

/-!
# Findings

A finding is a place in a source file whose type is not safe. Its kind has a name that reports
and stored records use; kinds that this library does not know keep their name.
-/

set_option autoImplicit false

namespace TypeCoverage

inductive FindingKind where
  | any
  | containsAny
  | unsafeAs
  | unsafeTypeAssertion
  | unsafeNonNull
  | semanticError
  | other (name : Text)
  deriving DecidableEq, Repr

namespace FindingKind

def name : FindingKind → Text
  | any => ['a', 'n', 'y']
  | containsAny => ['c', 'o', 'n', 't', 'a', 'i', 'n', 's', '-', 'a', 'n', 'y']
  | unsafeAs => ['u', 'n', 's', 'a', 'f', 'e', '-', 'a', 's', '-', 'a', 's', 's', 'e', 'r', 't',
    'i', 'o', 'n']
  | unsafeTypeAssertion => ['u', 'n', 's', 'a', 'f', 'e', '-', 't', 'y', 'p', 'e', '-', 'a', 's',
    's', 'e', 'r', 't', 'i', 'o', 'n']
  | unsafeNonNull => ['u', 'n', 's', 'a', 'f', 'e', '-', 'n', 'o', 'n', '-', 'n', 'u', 'l', 'l',
    '-', 'a', 's', 's', 'e', 'r', 't', 'i', 'o', 'n']
  | semanticError => ['s', 'e', 'm', 'a', 'n', 't', 'i', 'c', '-', 'e', 'r', 'r', 'o', 'r']
  | other name => name

/-- The kinds with a reserved name. -/
def reserved : List FindingKind :=
  [any, containsAny, unsafeAs, unsafeTypeAssertion, unsafeNonNull, semanticError]

def ofName (name : Text) : FindingKind :=
  (reserved.find? fun kind => kind.name = name).getD (other name)

/-- A reserved name gives back its kind. -/
theorem ofName_name_of_mem {kind : FindingKind} (h : kind ∈ reserved) :
    ofName kind.name = kind := by
  simp only [reserved, List.mem_cons, List.not_mem_nil, or_false] at h
  rcases h with rfl | rfl | rfl | rfl | rfl | rfl <;> simp [ofName, reserved, name]

/-- A name that is not reserved gives a kind of that name. -/
theorem ofName_eq_other {n : Text} (h : ∀ kind ∈ reserved, kind.name ≠ n) :
    ofName n = other n := by
  have hnone : reserved.find? (fun kind => kind.name = n) = none := by
    rw [List.find?_eq_none]
    intro kind hk
    simpa using h kind hk
  simp [ofName, hnone]

end FindingKind

/-- A place whose type is not safe. -/
structure Finding where
  line : Nat
  character : Nat
  kind : FindingKind
  text? : Option Text
  deriving DecidableEq, Repr

structure FileFinding where
  file : Text
  finding : Finding
  deriving DecidableEq, Repr

namespace Finding

def placed (place : Position) (kind : FindingKind) (text : Text) : Finding :=
  ⟨place.line, place.character, kind, some text⟩

/-! ## Stored form

A finding is stored as an object; the names of its members stand first. It is read into a draft,
which is complete when the required members have come. -/

def lineKey : Text := ['l', 'i', 'n', 'e']
def characterKey : Text := ['c', 'h', 'a', 'r', 'a', 'c', 't', 'e', 'r']
def kindKey : Text := ['k', 'i', 'n', 'd']
def textKey : Text := ['t', 'e', 'x', 't']

/-- The members of the stored form. A missing text is left out. -/
def members (f : Finding) : List (Text × Json) :=
  [(lineKey, Json.nat f.line), (characterKey, Json.nat f.character),
    (kindKey, Json.string f.kind.name)]
    ++ match f.text? with
      | some text => [(textKey, Json.string text)]
      | none => []

def toJson (f : Finding) : Json := .object f.members

/-- A finding of which some fields are known. -/
structure Draft where
  line? : Option Nat := none
  character? : Option Nat := none
  kind? : Option FindingKind := none
  text? : Option (Option Text) := none

def Draft.complete (d : Draft) : Option Finding := do
  let line ← d.line?
  let character ← d.character?
  let kind ← d.kind?
  return ⟨line, character, kind, d.text?.getD none⟩

def recordShape : Json.RecordShape Draft Finding where
  name := "Finding"
  blank := {}
  fields :=
    [.of lineKey true .count (fun d => d.line?.isSome) fun d n => { d with line? := some n },
      .of characterKey true .count (fun d => d.character?.isSome)
        fun d n => { d with character? := some n },
      .of kindKey true (Json.Shape.string.map FindingKind.ofName) (fun d => d.kind?.isSome)
        fun d k => { d with kind? := some k },
      .of textKey false (.optional .string) (fun d => d.text?.isSome)
        fun d t => { d with text? := some t }]
  complete := Draft.complete

def shape : Json.Shape Finding := recordShape.shape

end Finding

def FileFinding.fileKey : Text := ['f', 'i', 'l', 'e']

/-- The form of a file finding in reports: the file, then the finding's own members. -/
def FileFinding.toJson (f : FileFinding) : Json :=
  .object ((fileKey, .string f.file) :: f.finding.members)

end TypeCoverage
