import TypeCoverage.Disk
import TypeCoverage.Glob.Expression
import TypeCoverage.Json.Fault

/-!
# Failures

Everything that can end a run early, by cause, and the message for each.
-/

set_option autoImplicit false

namespace TypeCoverage

/-- Why a file list cannot be read once it is open. -/
inductive ListFault where
  | system (fault : SystemFault)
  | notText
  deriving DecidableEq, Repr

def ListFault.text : ListFault → String
  | .system fault => fault.text
  | .notText => "stream did not contain valid UTF-8"

/-- Which value of an option cannot be. -/
inductive SettingFault where
  | atLeastOutOfRange (value : Binary64)
  | noThreads
  deriving DecidableEq, Repr

def SettingFault.text : SettingFault → String
  | .atLeastOutOfRange value =>
    "--at-least must be between 0 and 100, got " ++ String.ofList value.plain
  | .noThreads => "--threads must be at least 1"

/-- Which part of the kept results cannot be written. -/
inductive StoreFault where
  | directory (path : Text) (fault : SystemFault)
  | file (path : Text) (fault : SystemFault)
  deriving DecidableEq, Repr

def StoreFault.text : StoreFault → String
  | .directory path fault =>
    "Failed to create cache directory '" ++ String.ofList path ++ "': " ++ fault.text
  | .file path fault =>
    "Failed to create cache file '" ++ String.ofList path ++ "': " ++ fault.text

/-- Why a run ends early. -/
inductive Failure where
  | unreadable (path : Text) (fault : SystemFault)
  | setting (fault : SettingFault)
  | invalidPattern (pattern : Text) (fault : Glob.Fault)
  | invalidPatterns (patterns : List Text) (fault : Glob.SetFault)
  | list (fault : ListFault)
  | store (fault : StoreFault)
  | snapshot (failure : Json.Failure)
  deriving DecidableEq, Repr

def Failure.message : Failure → String
  | .unreadable path fault => "Cannot open file '" ++ String.ofList path ++ "': " ++ fault.text
  | .setting fault => "Invalid configuration: " ++ fault.text
  | .invalidPattern pattern fault =>
    "Invalid ignore pattern '" ++ String.ofList pattern ++ "': error parsing glob '"
      ++ String.ofList pattern ++ "': " ++ fault.text
  | .invalidPatterns patterns fault =>
    "Invalid ignore pattern '" ++ String.ofList (Text.join [',', ' '] patterns) ++ "': "
      ++ fault.text
  | .list fault => "I/O error: " ++ fault.text
  | .store fault => "Cache error: " ++ fault.text
  | .snapshot failure => "Cache file is malformed: " ++ failure.message

end TypeCoverage
