/-
# Command lines

A command line names one job document and may set flags. A flag is a letter after one
dash or a word after two. Letters can share a dash. A flag with a value takes what
follows its letter or the equals sign after its word, and otherwise the next argument,
which must not look like a flag. After two dashes alone every argument is plain. No flag
may be set twice. A flag that asks for help or the version ends the reading.

Key definitions: `Parameter`, `Switch`, `Arguments`, `Invocation`, `UsageError`,
`Invocation.ofArguments`, `Invocation.usage`.
-/
namespace Stepwise

/-- The flags with a value. -/
inductive Parameter where
  | output
  | storageUrl
  | artifactsDir
  deriving DecidableEq, Repr

/-- The flags without a value. -/
inductive Switch where
  | verbose
  | help
  | version
  deriving DecidableEq, Repr

/-- A flag. -/
inductive Flag where
  | parameter (p : Parameter)
  | switch (s : Switch)
  deriving DecidableEq, Repr

namespace Parameter

/-- The flag and its value, as messages show them. -/
def text : Parameter → String
  | .output => "--output <OUTPUT>"
  | .storageUrl => "--storage-url <STORAGE_URL>"
  | .artifactsDir => "--artifacts-dir <ARTIFACTS_DIR>"

/-- Whether a value is usable; a path is not empty. -/
def accepts : Parameter → String → Bool
  | .storageUrl, _ => true
  | _, value => value ≠ ""

end Parameter

/-- The flag, as messages show it. -/
def Switch.text : Switch → String
  | .verbose => "--verbose"
  | .help => "--help"
  | .version => "--version"

namespace Flag

/-- The flag with a letter. -/
def ofLetter? : Char → Option Flag
  | 'o' => some (.parameter .output)
  | 'v' => some (.switch .verbose)
  | 'h' => some (.switch .help)
  | 'V' => some (.switch .version)
  | _ => none

/-- The flag with a word. -/
def ofWord? : String → Option Flag
  | "output" => some (.parameter .output)
  | "storage-url" => some (.parameter .storageUrl)
  | "artifacts-dir" => some (.parameter .artifactsDir)
  | "verbose" => some (.switch .verbose)
  | "help" => some (.switch .help)
  | "version" => some (.switch .version)
  | _ => none

end Flag

/-- Why a command line cannot be used. -/
inductive UsageError where
  | unknown (argument : String)
  | unexpectedValue (switch : Switch) (value : String)
  | missingValue (parameter : Parameter)
  | repeated (flag : String)
  | missingJob
  deriving DecidableEq, Repr

/-- What a command line asks to run. -/
structure Arguments where
  /-- The path of the job document. -/
  job : String
  /-- The path of the file for the report. -/
  output : Option String
  storageUrl : Option String
  artifactsDir : Option String
  verbose : Bool
  deriving DecidableEq, Repr

/-- What a command line asks for. -/
inductive Invocation where
  | run (arguments : Arguments)
  | help
  | version
  deriving DecidableEq, Repr

/-- How the program is called. -/
def Invocation.usageLine : String := "Usage: flowrunner [OPTIONS] <JOB>"

/-- What the program can be asked for. -/
def Invocation.usage : String :=
  "Runs a flow job document\n\n" ++ Invocation.usageLine ++ "\n\nArguments:\n" ++
  "  <JOB>  Job document (JSON, or YAML by extension)\n\nOptions:\n" ++
  "  -o, --output <OUTPUT>                " ++
  "Write the execution output to this file instead of stdout\n" ++
  "      --storage-url <STORAGE_URL>      Base URL of the storage service\n" ++
  "      --artifacts-dir <ARTIFACTS_DIR>  Directory code artifacts are resolved in\n" ++
  "  -v, --verbose                        Enable debug logging\n" ++
  "  -h, --help                           Print help\n" ++
  "  -V, --version                        Print version\n"

namespace UsageError

/-- The words for an error. -/
def message : UsageError → String
  | .unknown argument => "unexpected argument '" ++ argument ++ "' found"
  | .unexpectedValue switch value =>
    "unexpected value '" ++ value ++ "' for '" ++ switch.text ++
      "' found; no more were expected"
  | .missingValue parameter =>
    "a value is required for '" ++ parameter.text ++ "' but none was supplied"
  | .repeated flag => "the argument '" ++ flag ++ "' cannot be used multiple times"
  | .missingJob => "the following required arguments were not provided:\n  <JOB>"

/-- The error with advice. -/
def text (e : UsageError) : String :=
  "error: " ++ e.message ++ "\n\n" ++ Invocation.usageLine ++
    "\n\nFor more information, try '--help'.\n"

end UsageError

/-- What has been read of a command line. -/
structure Given where
  job : Option String
  output : Option String
  storageUrl : Option String
  artifactsDir : Option String
  verbose : Bool
  deriving DecidableEq, Repr

/-- How the reading of a command line goes on. -/
inductive Progress where
  | more (given : Given)
  /-- The next argument is the value of a flag. -/
  | awaiting (given : Given) (parameter : Parameter)
  | answered (invocation : Invocation)

namespace Given

/-- Before anything has been read. -/
def nothing : Given := ⟨none, none, none, none, false⟩

/-- What a flag has been set to. -/
def get? (g : Given) : Parameter → Option String
  | .output => g.output
  | .storageUrl => g.storageUrl
  | .artifactsDir => g.artifactsDir

/-- Sets a flag to a value. -/
def set (g : Given) (p : Parameter) (value : String) : Except UsageError Given :=
  if (g.get? p).isSome then .error (.repeated p.text)
  else if !p.accepts value then .error (.missingValue p)
  else .ok <| match p with
    | .output => { g with output := some value }
    | .storageUrl => { g with storageUrl := some value }
    | .artifactsDir => { g with artifactsDir := some value }

/-- Sets a flag that has no value. -/
def turnOn (g : Given) : Switch → Except UsageError Progress
  | .help => .ok (.answered .help)
  | .version => .ok (.answered .version)
  | .verbose =>
    if g.verbose then .error (.repeated Switch.verbose.text)
    else .ok (.more { g with verbose := true })

/-- Takes a plain argument. -/
def name (g : Given) (argument : String) : Except UsageError Given :=
  if g.job.isSome then .error (.unknown argument) else .ok { g with job := some argument }

/-- What has been asked for when the command line ends. -/
def finish (g : Given) : Except UsageError Invocation :=
  match g.job with
  | none => .error .missingJob
  | some job => .ok (.run ⟨job, g.output, g.storageUrl, g.artifactsDir, g.verbose⟩)

/-- Reads the letters after a dash. -/
def letters (g : Given) : List Char → Except UsageError Progress
  | [] => .ok (.more g)
  | c :: rest =>
    match Flag.ofLetter? c with
    | none => .error (.unknown (String.ofList ['-', c]))
    | some (.parameter p) =>
      match rest with
      | [] => .ok (.awaiting g p)
      | '=' :: value => (g.set p (String.ofList value)).map .more
      | value => (g.set p (String.ofList value)).map .more
    | some (.switch s) =>
      match g.turnOn s with
      | .ok (.more g) => letters g rest
      | outcome => outcome

/-- Reads the word after two dashes. -/
def word (g : Given) (cs : List Char) : Except UsageError Progress :=
  let word := String.ofList (cs.takeWhile (· ≠ '='))
  match Flag.ofWord? word, cs.dropWhile (· ≠ '=') with
  | none, _ => .error (.unknown ("--" ++ word))
  | some (.parameter p), [] => .ok (.awaiting g p)
  | some (.parameter p), _ :: value => (g.set p (String.ofList value)).map .more
  | some (.switch s), [] => g.turnOn s
  | some (.switch s), _ :: value => .error (.unexpectedValue s (String.ofList value))

/-- Reads one argument that no flag waits for. -/
def argument (g : Given) (a : String) : Except UsageError Progress :=
  match a.toList with
  | '-' :: '-' :: cs => g.word cs
  | '-' :: c :: cs => g.letters (c :: cs)
  | _ => (g.name a).map .more

end Given

namespace Invocation

/-- Whether an argument looks like a flag. -/
def looksLikeFlag (a : String) : Bool := a.toList.head? = some '-' && a ≠ "-"

/-- Reads plain arguments. -/
def readPlain (g : Given) : List String → Except UsageError Invocation
  | [] => g.finish
  | a :: rest =>
    match g.name a with
    | .error e => .error e
    | .ok g => readPlain g rest

mutual

/-- Reads arguments. -/
def read (g : Given) : List String → Except UsageError Invocation
  | [] => g.finish
  | a :: rest =>
    if a = "--" then readPlain g rest
    else
      match g.argument a with
      | .error e => .error e
      | .ok (.answered invocation) => .ok invocation
      | .ok (.awaiting g p) => readValue g p rest
      | .ok (.more g) => read g rest

/-- Reads arguments, the first being the value of a flag. -/
def readValue (g : Given) (p : Parameter) : List String → Except UsageError Invocation
  | [] => .error (.missingValue p)
  | a :: rest =>
    if looksLikeFlag a then .error (.missingValue p)
    else
      match g.set p a with
      | .error e => .error e
      | .ok g => read g rest

end

/-- What a row of arguments asks for. -/
def ofArguments (arguments : List String) : Except UsageError Invocation :=
  read .nothing arguments

end Invocation
end Stepwise
