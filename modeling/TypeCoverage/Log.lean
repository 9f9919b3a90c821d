import TypeCoverage.Text.Basic

/-!
# Log lines

What a run tells on the side: a level and a message. A terminal may take some control characters
for commands, so these are written by their codes.
-/

set_option autoImplicit false

namespace TypeCoverage

/-- How much a log line matters. -/
inductive LogLevel where
  | info
  | warning
  | error
  deriving DecidableEq, Repr

def LogLevel.name : LogLevel → String
  | .info => "INFO"
  | .warning => "WARN"
  | .error => "ERROR"

structure LogLine where
  level : LogLevel
  message : String
  deriving DecidableEq, Repr

/-- How a character of a message stands in the log: bell, backspace, form feed, escape, delete
and the second block of control characters by their codes, any other as it is. -/
def loggedChar (c : Char) : Text :=
  if c = '\x07' ∨ c = '\x08' ∨ c = '\x0c' ∨ c = '\x1b' ∨ c = '\x7f' then
    ['\\', 'x'] ++ Text.hexPair c.toNat
  else if 0x80 ≤ c.toNat ∧ c.toNat ≤ 0x9F then
    ['\\', 'u', '\x7b'] ++ Text.hexPair c.toNat ++ ['\x7d']
  else [c]

def LogLine.shown (line : LogLine) : Text := line.message.toList.flatMap loggedChar

end TypeCoverage
