import TypeCoverage.Failure
import TypeCoverage.Number.Reading
import TypeCoverage.Settings

/-!
# The command line

Arguments are flags, options with values, and the path of the file list. They are read in order.
An option that waits for values takes the arguments that are no options; it is settled when the
next flag, option or path comes, or at the end, and only then are its values looked at. `--`
ends the options. Short flags may be written together.
-/

set_option autoImplicit false

namespace TypeCoverage.CommandLine

/-- Why arguments are not turned into settings. Asking for help or for the version is among
the reasons. -/
inductive Refusal where
  | helpRequested
  | versionRequested
  | unknownArgument
  | missingValue
  | unreadableValue
  | repeated
  | unwantedValue
  deriving DecidableEq, Repr

/-! ## Flags and options -/

/-- A flag: its name, whether settings have it, and the settings with it. -/
structure Flag where
  name : Text
  isSet : Settings → Bool
  set : Settings → Settings

def flags : List Flag :=
  [⟨['c', 'a', 'c', 'h', 'e'], (·.cacheEnabled), fun s => { s with cacheEnabled := true }⟩,
    ⟨['c', 'l', 'e', 'a', 'r', '-', 'c', 'a', 'c', 'h', 'e'], (·.clearCache),
      fun s => { s with clearCache := true }⟩,
    ⟨['i', 'g', 'n', 'o', 'r', 'e', '-', 'n', 'e', 's', 't', 'e', 'd'], (·.ignored.nested),
      fun s => { s with ignored := { s.ignored with nested := true } }⟩,
    ⟨['i', 'g', 'n', 'o', 'r', 'e', '-', 'a', 's', '-', 'a', 's', 's', 'e', 'r', 't', 'i', 'o',
      'n'], (·.ignored.asAssertion),
      fun s => { s with ignored := { s.ignored with asAssertion := true } }⟩,
    ⟨['i', 'g', 'n', 'o', 'r', 'e', '-', 't', 'y', 'p', 'e', '-', 'a', 's', 's', 'e', 'r', 't',
      'i', 'o', 'n'], (·.ignored.typeAssertion),
      fun s => { s with ignored := { s.ignored with typeAssertion := true } }⟩,
    ⟨['i', 'g', 'n', 'o', 'r', 'e', '-', 'n', 'o', 'n', '-', 'n', 'u', 'l', 'l', '-', 'a', 's',
      's', 'e', 'r', 't', 'i', 'o', 'n'], (·.ignored.nonNullAssertion),
      fun s => { s with ignored := { s.ignored with nonNullAssertion := true } }⟩,
    ⟨['r', 'e', 'p', 'o', 'r', 't', '-', 's', 'e', 'm', 'a', 'n', 't', 'i', 'c', '-', 'e', 'r',
      'r', 'o', 'r'], (·.reportSemanticErrors),
      fun s => { s with reportSemanticErrors := true }⟩,
    ⟨['s', 't', 'r', 'i', 'c', 't'], (·.strict), fun s => { s with strict := true }⟩,
    ⟨['f', 'i', 'l', 'e', '-', 'c', 'o', 'u', 'n', 't', 's'], (·.fileCounts),
      fun s => { s with fileCounts := true }⟩,
    ⟨['a', 'b', 's', 'o', 'l', 'u', 't', 'e', '-', 'p', 'a', 't', 'h'], (·.absolutePaths),
      fun s => { s with absolutePaths := true }⟩,
    ⟨['d', 'e', 't', 'a', 'i', 'l'], (·.detail), fun s => { s with detail := true }⟩,
    ⟨['j', 's', 'o', 'n'], fun s => s.format == .json, fun s => { s with format := .json }⟩,
    ⟨['v', 'e', 'r', 'b', 'o', 's', 'e'], (·.verbose), fun s => { s with verbose := true }⟩]

inductive ValueOption where
  | cacheDirectory
  | files
  | ignoreFiles
  | atLeast
  | threads
  deriving DecidableEq, Repr

def ValueOption.name : ValueOption → Text
  | cacheDirectory => ['c', 'a', 'c', 'h', 'e', '-', 'd', 'i', 'r', 'e', 'c', 't', 'o', 'r', 'y']
  | files => ['f', 'i', 'l', 'e', 's']
  | ignoreFiles => ['i', 'g', 'n', 'o', 'r', 'e', '-', 'f', 'i', 'l', 'e', 's']
  | atLeast => ['a', 't', '-', 'l', 'e', 'a', 's', 't']
  | threads => ['t', 'h', 'r', 'e', 'a', 'd', 's']

def valueOptions : List ValueOption := [.cacheDirectory, .files, .ignoreFiles, .atLeast, .threads]

def ValueOption.takesMany : ValueOption → Bool
  | files => true
  | ignoreFiles => true
  | _ => false

/-- What a name or letter stands for. -/
inductive Known where
  | help
  | version
  | flag (flag : Flag)
  | option (option : ValueOption)

def knownName? (name : Text) : Option Known :=
  if name = ['h', 'e', 'l', 'p'] then some .help
  else if name = ['v', 'e', 'r', 's', 'i', 'o', 'n'] then some .version
  else
    match flags.find? fun f => f.name = name with
    | some f => some (.flag f)
    | none => (valueOptions.find? fun o => o.name = name).map .option

def knownLetter? (c : Char) : Option Known :=
  if c = 'h' then some .help
  else if c = 'V' then some .version
  else if c = 'v' then knownName? (['v', 'e', 'r', 'b', 'o', 's', 'e'])
  else if c = 'j' then some (.option .threads)
  else none

/-! ## Values -/

/-- The settings with the values of an option. An option for one value may come once. -/
def withValues (s : Settings) (option : ValueOption) (values : List Text) :
    Except Refusal Settings :=
  match values with
  | [] => .error .missingValue
  | v :: _ =>
    match option with
    | .files => .ok { s with files? := some (s.files?.getD [] ++ values) }
    | .ignoreFiles => .ok { s with ignorePatterns := s.ignorePatterns ++ values }
    | .cacheDirectory =>
      if s.cacheDir?.isSome then .error .repeated
      else if v = [] then .error .missingValue
      else .ok { s with cacheDir? := some v }
    | .atLeast =>
      if s.atLeast?.isSome then .error .repeated
      else
        match Binary64.ofText? v with
        | some x => .ok { s with atLeast? := some x }
        | none => .error .unreadableValue
    | .threads =>
      if s.threads?.isSome then .error .repeated
      else
        match Text.count? v with
        | some n => .ok { s with threads? := some n }
        | none => .error .unreadableValue

/-! ## Reading -/

/-- What has been read: the settings so far, the option that is not settled with its values, and
whether the path of the file list has come. -/
structure Progress where
  settings : Settings
  waiting? : Option (ValueOption × List Text)
  hasPath : Bool

def settle (p : Progress) : Except Refusal Progress :=
  match p.waiting? with
  | none => .ok p
  | some (option, values) =>
    (withValues p.settings option values).map fun s => { p with settings := s, waiting? := none }

/-- One more occurrence of something known that has no value attached to it. -/
def occur (p : Progress) (known : Known) : Except Refusal Progress :=
  match settle p, known with
  | .error refusal, _ => .error refusal
  | .ok _, .help => .error .helpRequested
  | .ok _, .version => .error .versionRequested
  | .ok p, .flag f =>
    if f.isSet p.settings then .error .repeated else .ok { p with settings := f.set p.settings }
  | .ok p, .option o => .ok { p with waiting? := some (o, []) }

def attach (p : Progress) (option : ValueOption) (value : Text) : Except Refusal Progress := do
  let p ← settle p
  let s ← withValues p.settings option [value]
  return { p with settings := s }

/-- A long name, with a value after an equals sign if there is one. -/
def readLong (p : Progress) (body : Text) : Except Refusal Progress :=
  match knownName? (body.takeWhile fun c => c != '=') with
  | none => .error .unknownArgument
  | some known =>
    match body.dropWhile fun c => c != '=', known with
    | [], _ => occur p known
    | _ :: value, .option o => attach p o value
    | _ :: _, _ => .error .unwantedValue

/-- Letters written together. An option takes what follows its letter as its value. -/
def readShort (p : Progress) : Text → Except Refusal Progress
  | [] => .ok p
  | c :: cs =>
    match knownLetter? c with
    | none => .error .unknownArgument
    | some (.option o) =>
      match cs with
      | [] => occur p (.option o)
      | '=' :: value => attach p o value
      | _ => attach p o cs
    | some known => do
      let p ← occur p known
      readShort p cs

/-- Whether the option that waits takes another value. -/
def takesMore : Option (ValueOption × List Text) → Bool
  | some (option, values) => option.takesMany || values.isEmpty
  | none => false

/-- An argument that is no option, outside the values of one: the path of the file list. -/
def readPath (p : Progress) (arg : Text) : Except Refusal Progress :=
  if p.hasPath then .error .unknownArgument
  else do
    let p ← settle p
    return { p with settings := { p.settings with listPath := arg }, hasPath := true }

/-- An argument before the end of the options. -/
def readArgument (p : Progress) (arg : Text) : Except Refusal Progress :=
  match arg with
  | '-' :: '-' :: body => readLong p body
  | '-' :: c :: cs => readShort p (c :: cs)
  | _ =>
    match p.waiting? with
    | some (option, values) =>
      if takesMore p.waiting? then .ok { p with waiting? := some (option, values ++ [arg]) }
      else readPath p arg
    | none => readPath p arg

/-- The arguments in order, where `ended` says that the options have ended. -/
def readAll (p : Progress) (ended : Bool) : List Text → Except Refusal Progress
  | [] => settle p
  | arg :: args =>
    if ended then do
      let p ← readPath p arg
      readAll p true args
    else if arg = ['-', '-'] then readAll p true args
    else do
      let p ← readArgument p arg
      readAll p false args

/-- The settings that arguments ask for. -/
def parse (args : List Text) : Except Refusal Settings :=
  (readAll ⟨{}, none, false⟩ false args).map (·.settings)

/-! ## Checking -/

/-- The settings, if their values can be: a required percentage from 0 to 100, and at least one
thread. -/
def check (s : Settings) : Except Failure Settings :=
  match s.atLeast? with
  | some x =>
    if !(Binary64.le (Binary64.ofNat 0) x && Binary64.le x (Binary64.ofNat 100)) then
      .error (.setting (.atLeastOutOfRange x))
    else if s.threads? = some 0 then .error (.setting .noThreads)
    else .ok s
  | none => if s.threads? = some 0 then .error (.setting .noThreads) else .ok s

end TypeCoverage.CommandLine
