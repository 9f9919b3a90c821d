import TypeCoverage.Failure
import TypeCoverage.Store.Basic

/-!
# The snapshot on disk

A store is kept in one file of the cache directory. Without that file the store is empty; a
file that is no snapshot is a failure, never an empty store. Saving makes the directory if it
is not there and replaces the file as a whole.
-/

set_option autoImplicit false

namespace TypeCoverage.Store

def snapshotName : Text := ['r', 'e', 's', 'u', 'l', 't', '.', 'j', 's', 'o', 'n']

def snapshotPath (directory : Text) : Text :=
  if directory = [] then snapshotName
  else if directory.getLast? = some '/' then directory ++ snapshotName
  else Path.under directory snapshotName

/-- The store that is kept in a cache directory, with whether its snapshot had the older
layout. -/
def load (d : Disk) (directory : Text) : Except Failure (Store × Bool) :=
  let path := snapshotPath directory
  if d.isFile path then
    match d.read path with
    | .ok content => (ofSnapshot content).mapError .snapshot
    | .error fault => .error (.unreadable path fault)
  else .ok (empty, false)

/-- The store a run starts with: the kept one if results are kept at all. -/
def loadIf (enabled : Bool) (d : Disk) (directory : Text) : Except Failure (Store × Bool) :=
  if enabled then load d directory else .ok (empty, false)

/-- Keeps a store in a cache directory. The first part is the disk afterwards, also when the
snapshot cannot be written. -/
def save (s : Store) (d : Disk) (directory : Text) : Disk × Except Failure Unit :=
  let (d, made) := if d.hasPath directory then (d, .ok ()) else d.makeDirectories directory
  match made with
  | .error fault => (d, .error (.store (.directory directory fault)))
  | .ok _ =>
    let path := snapshotPath directory
    match d.write path s.snapshot with
    | .ok d => (d, .ok ())
    | .error fault => (d, .error (.store (.file path fault)))

/-- Removes the snapshot of a cache directory. -/
def clear (d : Disk) (directory : Text) : Disk := d.removeFile (snapshotPath directory)

end TypeCoverage.Store
