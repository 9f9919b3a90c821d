import TypeCoverage.Imports.Resolver
import TypeCoverage.OrderedMap

/-!
# Invalidation

Each file of a run has a slot that may hold a result. A file whose result is rejected takes
with it the results of all files that depend on it, directly or through others. The walk goes
on only from slots that it clears, so a cleared slot stops it and cycles end.
-/

set_option autoImplicit false

namespace TypeCoverage

/-- The slots of a run by file; an empty slot holds no result. -/
abbrev Slots (α : Type) := OrderedMap (Option α)

namespace Slots

variable {α : Type}

def holds (slots : Slots α) (file : Text) : Bool :=
  match slots.get? file with
  | some (some _) => true
  | _ => false

def isCleared (slots : Slots α) (file : Text) : Bool :=
  match slots.get? file with
  | some none => true
  | _ => false

/-- The number of slots that hold a result. -/
def live (slots : Slots α) : Nat := (slots.entries.filter fun e => e.2.isSome).length

/-- Clears the slots of some files, and gives those that held a result. -/
def clear (slots : Slots α) : List Text → Slots α × List Text
  | [] => (slots, [])
  | file :: files =>
    if slots.holds file then
      let (slots, cleared) := clear (slots.insert file none) files
      (slots, file :: cleared)
    else clear slots files

/-- Clears the dependents of the pending files and of every file cleared on the way, and counts
them. `fuel` bounds the steps; the live slots and pending files together get one fewer with
each step. -/
def walk (dependents : Text → List Text) : Nat → Slots α → List Text → Slots α × Nat
  | 0, slots, _ => (slots, 0)
  | _ + 1, slots, [] => (slots, 0)
  | fuel + 1, slots, file :: pending =>
    let (slots, cleared) := slots.clear (dependents file)
    let (slots, count) := walk dependents fuel slots (cleared.reverse ++ pending)
    (slots, cleared.length + count)

end Slots

namespace Edge

/-- The files that depend directly on a file, in the order of the edges. -/
def dependents (edges : List Edge) (file : Text) : List Text :=
  (edges.filter fun e => e.dependency = file).map Edge.dependent

/-- Clears the slots of all dependents of a file, direct or not, and counts the results that
were held. -/
def invalidate {α : Type} (edges : List Edge) (slots : Slots α) (seed : Text) : Slots α × Nat :=
  slots.walk (dependents edges) (slots.live + 1) [seed]

/-- Invalidates from each file in turn whose own slot is empty when its turn comes. -/
def invalidateRejected {α : Type} (edges : List Edge) (slots : Slots α) :
    List Text → Slots α × Nat
  | [] => (slots, 0)
  | file :: files =>
    if slots.isCleared file then
      let (slots, count) := invalidate edges slots file
      let (slots, more) := invalidateRejected edges slots files
      (slots, count + more)
    else invalidateRejected edges slots files

end Edge

/-! ## An index of dependents -/

/-- The dependents of each file, gathered once from the edges, for files that are invalidated
one after the other. -/
structure DependentIndex where
  lists : OrderedMap (List Text)

namespace DependentIndex

/-- The files that depend directly on a file. -/
def dependents (index : DependentIndex) (file : Text) : List Text :=
  (index.lists.get? file).getD []

def add (index : DependentIndex) (e : Edge) : DependentIndex :=
  ⟨index.lists.insert e.dependency (index.dependents e.dependency ++ [e.dependent])⟩

def ofEdges (edges : List Edge) : DependentIndex := edges.foldl add ⟨OrderedMap.empty⟩

/-- Clears the slots of all dependents of a file, direct or not, and counts the results that
were held. -/
def invalidate {α : Type} (index : DependentIndex) (slots : Slots α) (seed : Text) :
    Slots α × Nat :=
  slots.walk index.dependents (slots.live + 1) [seed]

end DependentIndex

end TypeCoverage
