import TypeCoverage.Glob.Approach
import TypeCoverage.Text.Utf8

/-!
# Matching paths

A pattern must match the whole UTF-8 form of a path. A path of `n` bytes has `n + 1` places, and
a match is followed by marking the places it can have reached: each part of a pattern turns the
marks before it into the marks after it, so the work is bounded by the parts times the places.
-/

set_option autoImplicit false

namespace TypeCoverage.Glob

/-! ## Marks -/

/-- For each place in a path, from its start to its end, whether a match can have reached it. -/
abbrev Marks := List Bool

namespace Marks

/-- The marks one byte further, over the bytes with a property. -/
def step (path : Bytes) (p : UInt8 → Bool) (m : Marks) : Marks :=
  false :: path.zipWith (fun b marked => marked && p b) m

/-- The marks and all places after the first one; `seen` says that a mark came before. -/
def spreadFrom : Bool → Marks → Marks
  | _, [] => []
  | seen, marked :: m => (seen || marked) :: spreadFrom (seen || marked) m

/-- The marks and all places after the first one. -/
def spread (m : Marks) : Marks := spreadFrom false m

def union (m m' : Marks) : Marks := m.zipWith (· || ·) m'

def slash (path : Bytes) (m : Marks) : Marks := m.step path (· == 47)

def start (path : Bytes) : Marks := true :: path.map fun _ => false

def none (path : Bytes) : Marks := false :: path.map fun _ => false

end Marks

/-! ## Parts -/

/-- The byte ranges of a character range. A range whose ends take several bytes joins the last
byte of its low end to the first byte of its high end. -/
def rangeBytes (low high : Char) : List (UInt8 × UInt8) :=
  let lows := Utf8.encodeChar low
  let highs := Utf8.encodeChar high
  let single (b : UInt8) : UInt8 × UInt8 := (b, b)
  if low = high then lows.map single
  else
    lows.dropLast.map single ++ [(lows.getLast?.getD 0, highs.head?.getD 0)]
      ++ highs.tail.map single

def classBytes (ranges : List (Char × Char)) : List (UInt8 × UInt8) :=
  ranges.flatMap fun r => rangeBytes r.1 r.2

def inRanges (ranges : List (UInt8 × UInt8)) (b : UInt8) : Bool :=
  ranges.any fun r => r.1 ≤ b && b ≤ r.2

mutual

/-- The marks after a part of a pattern. -/
def Token.advance (path : Bytes) : Token → Marks → Marks
  | .literal c, m => (Utf8.encodeChar c).foldl (fun m b => m.step path (· == b)) m
  | .anyByte, m => m.step path fun _ => true
  | .anyRun, m => m.spread
  | .leadingDirs, m => m.union (m.spread.slash path)
  | .innerDirs, m => (m.slash path).union ((m.slash path).spread.slash path)
  | .trailingDirs, m => (m.slash path).spread
  | .oneOf negated ranges, m => m.step path fun b => inRanges (classBytes ranges) b != negated
  | .group branches, m => if branches.isEmpty then m else advanceAny path branches m

def advanceAll (path : Bytes) : List Token → Marks → Marks
  | [], m => m
  | t :: ts, m => advanceAll path ts (t.advance path m)

def advanceAny (path : Bytes) : List (List Token) → Marks → Marks
  | [], _ => Marks.none path
  | ts :: branches, m => (advanceAll path ts m).union (advanceAny path branches m)

end

/-! ## Whole patterns -/

/-- The marks after a whole pattern. Directories alone match every path. -/
def reached (tokens : Pattern) (path : Bytes) : Marks :=
  match tokens with
  | [.leadingDirs] => (Marks.start path).spread
  | _ => advanceAll path tokens (Marks.start path)

/-- Whether a pattern matches a path. -/
def hits (tokens : Pattern) (path : Text) : Bool :=
  (reached tokens (Utf8.encode path)).getLast? == some true
    && (hasName path || !(approach tokens).needsName)

end TypeCoverage.Glob
