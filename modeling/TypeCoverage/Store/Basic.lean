import TypeCoverage.Json.Printer
import TypeCoverage.Store.Record
import TypeCoverage.Text.Utf8

/-!
# The store and its snapshot

A store holds one record for each path. Its snapshot is an indented JSON document with the
records in order of paths. An older layout, where the records were an array, is taken for an
empty store.
-/

set_option autoImplicit false

namespace TypeCoverage

/-- The kept records by path. -/
structure Store where
  records : OrderedMap FileRecord

namespace Store

def empty : Store := ⟨OrderedMap.empty⟩

instance : Inhabited Store := ⟨empty⟩

def get? (s : Store) (path : Text) : Option FileRecord := s.records.get? path

def insert (s : Store) (path : Text) (record : FileRecord) : Store :=
  ⟨s.records.insert path record⟩

def size (s : Store) : Nat := s.records.size

/-! ## Writing

The snapshot is an object with one member, which maps paths to records. -/

def recordsKey : Text := ['c', 'a', 'c', 'h', 'e']

def toJson (s : Store) : Json :=
  .object [(recordsKey, .object (s.records.entries.map fun e => (e.1, e.2.toJson)))]

/-- The content of the snapshot. -/
def snapshot (s : Store) : Bytes := Utf8.encode (Json.pretty 0 s.toJson)

/-! ## Reading -/

def recordsOf (members : List (Text × Json)) : Except Json.Mismatch (List (Text × FileRecord)) :=
  members.mapM fun m => (FileRecord.shape.ofJson m.2).map fun r => (m.1, r)

def ofRecords : Json → Except Json.Mismatch Store
  | .object members => (recordsOf members).map fun es => ⟨OrderedMap.ofList es⟩
  | v => .error (.wrongType (Json.found v) "a map")

def isOldLayout (v : Json) : Bool :=
  match v.member? recordsKey with
  | some (.array _) => true
  | _ => false

/-- The store a parsed snapshot denotes. Without records it is empty; as an array it has the
records as its only item. -/
def ofJson (v : Json) : Except Json.Mismatch Store :=
  match v with
  | .object _ =>
    if isOldLayout v then .ok empty
    else match v.member? recordsKey with
      | some records => ofRecords records
      | none => .ok empty
  | .array [] => .ok empty
  | .array [records] => ofRecords records
  | .array (records :: more) => do
    let _ ← ofRecords records
    .error (.wrongLength (more.length + 1) "fewer elements in array")
  | v => .error (.wrongType (Json.found v) "struct CacheStore")

/-- The store of a snapshot's content, with whether it had the older layout. -/
def ofSnapshot (content : Bytes) : Except Json.Failure (Store × Bool) := do
  let v ← Json.parse content
  match ofJson v with
  | .ok s => return (s, isOldLayout v)
  | .error m => .error { fault := .mismatch m, place? := none }

end Store

end TypeCoverage
