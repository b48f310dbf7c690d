import GraphWire.Fairy.Basic

/-!
# `GraphWire.Cli` — the commands `run`, `check` and `fmt`

`check` says whether a configuration is complete, `fmt` prints it in canonical form, and `run`
starts the engine. What a command prints is computed from its arguments and the file that it reads.

## Contents
- **`Command`** and `Command.ofArgs?`.
- **`Failure`**, an error with its causes, and its report.
- **`Outcome`**, `fileText`, and **`Command.outcome`**.
-/

namespace GraphWire.Cli

/-! ## Arguments -/

inductive Command where
  | run (path root : String)
  | check (path root : String)
  | fmt (path : String)
  deriving DecidableEq

namespace Command

def defaultPath : String := "ppf.conf"

/-- The file that the command reads. -/
def path : Command → String
  | run path _ => path
  | check path _ => path
  | fmt path => path

/-- The options that were given. -/
structure Options where
  path : Option String
  root : Option String

/-- What stands behind an option and an equals sign. -/
def valueOf? (option arg : String) : Option String :=
  let head := (option ++ "=").toList
  if head.isPrefixOf arg.toList then some (String.ofList (arg.toList.drop head.length)) else none

/-- Reads the options behind the name of the command. An option must not be given twice. -/
def options? (options : Options) : List String → Option Options
  | [] => some options
  | "-v" :: rest => options? options rest
  | "--verbose" :: rest => options? options rest
  | arg :: rest =>
    if arg = "-c" ∨ arg = "--config" then
      match options.path, rest with
      | none, value :: rest => options? { options with path := some value } rest
      | _, _ => none
    else if arg = "--root" then
      match options.root, rest with
      | none, value :: rest => options? { options with root := some value } rest
      | _, _ => none
    else
      match options.path, (valueOf? "--config" arg).orElse fun _ => valueOf? "-c" arg with
      | none, some value => options? { options with path := some value } rest
      | some _, some _ => none
      | _, none =>
        match options.root, valueOf? "--root" arg with
        | none, some value => options? { options with root := some value } rest
        | _, _ => none

/-- The command that the arguments ask for. -/
def ofArgs? (args : List String) : Option Command := do
  match args.dropWhile fun arg => arg = "-v" || arg = "--verbose" with
  | [] => none
  | name :: rest =>
    let options ← options? ⟨none, none⟩ rest
    let path := options.path.getD defaultPath
    let root := options.root.getD FairyConfig.defaultRoot
    match name with
    | "run" => return .run path root
    | "check" => return .check path root
    | "fmt" => if options.root.isNone then return .fmt path else none
    | _ => none

end Command

/-! ## Failures -/

/-- An error and what caused it, the nearest cause first. -/
structure Failure where
  message : String
  causes : List String
  deriving DecidableEq

namespace Failure

/-- The text with every line but the first moved to the right. -/
def indented (margin s : String) : String :=
  String.ofList (s.toList.flatMap fun c => if c = '\n' then c :: margin.toList else [c])

/-- The causes, numbered from the given number. -/
def numbered (n : Nat) : List String → String
  | [] => ""
  | cause :: rest =>
    let digits := toString n
    let label := String.ofList (List.replicate (5 - digits.length) ' ') ++ digits ++ ": "
    "\n" ++ label ++ indented "       " cause ++ numbered (n + 1) rest

/-- The report of a failure: the error, and its causes, numbered if there are several. -/
def report (failure : Failure) : String :=
  let causes := match failure.causes with
    | [] => ""
    | [cause] => "\n\nCaused by:\n    " ++ indented "    " cause
    | causes => "\n\nCaused by:" ++ numbered 0 causes
  "Error: " ++ failure.message ++ causes ++ "\n"

/-- The error of a fairy with the reasons behind it. -/
def chain (e : FairyError) : List String :=
  match e with
  | .io reason => [e.message, reason]
  | .connect _ reason => [e.message, reason]
  | _ => [e.message]

/-- The failure of a step, caused by the error of a fairy. -/
def during (step : String) (e : FairyError) : Failure := ⟨step, chain e⟩

end Failure

/-! ## Commands -/

/-- What a command prints, and its exit code. -/
structure Outcome where
  stdout : String
  stderr : String
  code : Nat
  deriving DecidableEq

namespace Outcome

def success (stdout : String) : Outcome := ⟨stdout, "", 0⟩

def failure (stdout : String) (f : Failure) : Outcome := ⟨stdout, f.report, 1⟩

end Outcome

/-- The text of a file, or the reason why it cannot be read; no bytes if the file is not there. -/
def fileText : Option ByteArray → Except String String
  | none => .error "No such file or directory (os error 2)"
  | some bytes =>
    match decodeUtf8 bytes with
    | .ok text => .ok text
    | .error _ => .error "stream did not contain valid UTF-8"

/-- What the command works with: the file by its text or by the reason why it cannot be read, and
    the outcome of dialling an address. -/
structure Surroundings where
  file : Except String String
  dial : Address → Except String (Ranged .i32)

/-- Which of the declared fields are set. -/
def fieldReport (config : Config) (name : String) : String :=
  String.join <| FairyConfig.schema.fields.map fun field =>
    let label := field.name ++ String.ofList (List.replicate (20 - field.name.length) ' ')
    let state := if (config.raw? name field.name).isSome then "set" else "unset"
    "  " ++ label ++ " " ++ state ++ "\n"

/-- What is said of a valid configuration. -/
def validReport (path root : String) (reachable : Nat) (executable : String) (down : Address) :
    String :=
  "✓ " ++ path ++ " is valid\n"
    ++ "  Root: " ++ root ++ s!" ({reachable} objects reachable)\n"
    ++ "  Executable: " ++ executable ++ "\n"
    ++ "  Downstream: " ++ down.text ++ "\n"

/-- The file in canonical form. -/
def fmt (surroundings : Surroundings) (path : String) : Outcome :=
  match surroundings.file with
  | .error reason => .failure "" ⟨"reading " ++ path, [reason]⟩
  | .ok text =>
    match Config.parse text with
    | .error e => .failure "" ⟨"parsing " ++ path, [e.message]⟩
    | .ok config =>
      match config.write with
      | .error e => .failure "" ⟨e.message, []⟩
      | .ok canonical => .success canonical

/-- A loaded configuration: its object, whether that is valid, and the session it is in. -/
structure Loaded where
  walker : Walker
  valid : Bool
  session : Session

/-- Loads the configuration of the given name from the file. -/
def load (surroundings : Surroundings) (path root : String) : Except Failure Loaded :=
  let action : Action FairyError (Walker × Bool) := do
    let walker ← FairyConfig.load surroundings.file root
    return (walker, ← FairyConfig.schema.check fairySchemas walker)
  match action .fresh with
  | .ok (walker, valid) session => .ok ⟨walker, valid, session⟩
  | .error e _ => .error (.during ("loading " ++ path) e)

/-- Whether the configuration is complete, and if so, the main things it says. -/
def check (surroundings : Surroundings) (path root : String) : Outcome :=
  match load surroundings path root with
  | .error f => .failure "" f
  | .ok ⟨walker, valid, session⟩ =>
    let config := session.stores.get walker.store
    if !valid then
      .failure (fieldReport config root)
        ⟨path ++ ": object '" ++ root ++ "' is not a valid fairy configuration", []⟩
    else
      let action : Action FairyError (String × Address) := do
        return (← FairyConfig.executable.fetch walker, ← FairyConfig.downAddress.fetch walker)
      match action session with
      | .error e _ => .failure "" ⟨e.message, []⟩
      | .ok (executable, down) _ =>
        .success (validReport path root (config.reach [root]).length executable down)

/-- Starts the engine, as far as its connection. -/
def run (surroundings : Surroundings) (path root : String) : Outcome :=
  match load surroundings path root with
  | .error f => .failure "" f
  | .ok ⟨walker, valid, session⟩ =>
    if !valid then
      .failure ""
        ⟨path ++ ": object '" ++ root ++ "' is incomplete; run `ppf check` for details", []⟩
    else
      match Fairy.setup surroundings.dial (Fairy.new session walker) with
      | .error e _ => .failure "" (.during "starting engine" e)
      | .ok _ _ => .success ""

/-- Runs a command. -/
def Command.outcome (surroundings : Surroundings) : Command → Outcome
  | .run path root => Cli.run surroundings path root
  | .check path root => Cli.check surroundings path root
  | .fmt path => Cli.fmt surroundings path

/-- What is said about arguments that ask for nothing. -/
def usage : Outcome := ⟨"", "Usage: ppf [OPTIONS] <COMMAND>\n", 2⟩

end GraphWire.Cli
