import TypeCoverage.Session

/-!
# The program

Takes an image of the paths that a session looks at, runs the session on it, and carries out
what the session changed. All decisions are the session's.
-/

set_option autoImplicit false

namespace TypeCoverage.Program

/-! ## Images -/

/-- The system's code for reading a directory as a file. -/
def directoryCode : UInt32 := 21

/-- What stands at a location of the system. What cannot be read counts as missing. -/
def probe (l : Location) : IO (Option Node) := do
  match ← (IO.FS.readBinFile (String.ofList (Path.ofComponents true l))).toBaseIO with
  | .ok content => return some (.file content.toList)
  | .error (.inappropriateType _ code _) =>
    return if code = directoryCode then some .directory else none
  | .error _ => return none

/-- The disk with an image of a location. -/
def withLocation (d : Disk) (l : Location) : IO Disk := do
  if (d.node? l).isSome then return d
  match ← probe l with
  | some node => return d.put l node
  | none => return d

/-- The disk with an image of every location that a path passes from `l` on. -/
def withParts (d : Disk) (l : Location) : List Text → IO Disk
  | [] => return d
  | part :: parts =>
    match d.step l part with
    | .error _ => return d
    | .ok next => do
      let d ← withLocation d next
      withParts d next parts

/-- The disk with an image of what stands along a path. -/
def withPath (d : Disk) (path : Text) : IO Disk :=
  withParts d (d.origin path) (Text.pieces '/' path)

/-- A disk with nothing but the working directory. -/
def startingDisk : IO Disk := do
  let here := Path.components (toString (← IO.currentDir)).toList
  withLocation ⟨[], here⟩ here

/-! ## Changes -/

/-- Carries out that a node is new or has changed, or is gone. -/
def carryOut (before after : Disk) (l : Location) : IO Unit := do
  let path := String.ofList (Path.ofComponents true l)
  match after.node? l with
  | some (.file content) =>
    unless before.node? l = after.node? l do
      IO.FS.writeBinFile path (ByteArray.mk content.toArray)
  | some .directory => unless before.node? l = after.node? l do IO.FS.createDirAll path
  | none => IO.FS.removeFile path

/-- Carries out what differs between two disks, shorter locations first. -/
def carryOutAll (before after : Disk) : IO Unit := do
  let locations := (before.nodes ++ after.nodes).map (·.1)
  for l in locations.mergeSort fun a b => a.length ≤ b.length do
    carryOut before after l

/-! ## Running -/

/-- The image that a session with these settings needs. -/
def imageFor (settings : Settings) (d : Disk) (input : Bytes) : IO Disk := do
  let d ← withPath d settings.listPath
  let d ← withPath d (Store.snapshotPath settings.cacheDir)
  match Session.files settings d input with
  | .ok files => files.foldlM withPath d
  | .error _ => return d

/-- Standard input, if the settings ask for it. -/
def inputFor (settings : Settings) : IO Bytes := do
  if settings.listPath = ['-'] then
    return (← (← IO.getStdin).readBinToEnd).toList
  else return []

end TypeCoverage.Program

open TypeCoverage TypeCoverage.Program in
def main (args : List String) : IO UInt32 := do
  let args := args.map String.toList
  let before ← startingDisk
  let (before, input) ←
    match (CommandLine.parse args).toOption.bind fun s => (CommandLine.check s).toOption with
    | some settings => do
      let input ← inputFor settings
      pure (← imageFor settings before input, input)
    | none => pure (before, [])
  let session := Session.exec before args input
  carryOutAll before session.disk
  for line in session.log do
    IO.eprintln (line.level.name ++ " " ++ String.ofList line.shown)
  IO.print (String.ofList session.output)
  return UInt32.ofNat session.exitCode
