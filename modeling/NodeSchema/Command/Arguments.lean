import NodeSchema.Command.Basic

/-!
# Reading arguments

Options have a long name, and some a short one of one character. A value stands after `=`, after the
short name or in the next argument, and flags with short names may stand together. No option may be
given twice, and the first argument that is wrong, or that asks for help, decides.

* `readSettings` reads the options of a command.
* `Command.ofArguments` reads a whole command line.
-/

namespace NodeSchema

/-- What an option takes. -/
inductive OptionKind where
  | flag
  /-- Any text. -/
  | text
  /-- A text that is not empty. -/
  | path
  /-- Nothing: the option ends the reading. -/
  | ends (e : Ending)
deriving DecidableEq, Repr

/-- An option. -/
structure OptionSpec where
  long : String
  short : Option Char
  kind : OptionKind
deriving DecidableEq, Repr

/-- Whether an option takes a value. -/
def OptionSpec.takesValue (o : OptionSpec) : Bool :=
  match o.kind with
  | .text | .path => true
  | .flag | .ends _ => false

/-- The options that were given, by their long names. Flags have an empty value. -/
abbrev Settings := List (String × String)

/-- Adds an option with its value. -/
def Settings.add (s : Settings) (o : OptionSpec) (value : String) : Except Ending Settings :=
  if (s.lookup o.long).isSome || (o.kind = .path && value = "") then .error .usage
  else .ok ((o.long, value) :: s)

/-- Adds an option that takes no value. -/
def Settings.addFlag (s : Settings) (o : OptionSpec) : Except Ending Settings :=
  match o.kind with
  | .ends e => .error e
  | _ => s.add o ""

/-- Reads what follows the two dashes of a long option. The second part of the result is an option
that waits for its value. -/
def readLong (specs : List OptionSpec) (s : Settings) (body : List Char) :
    Except Ending (Settings × Option OptionSpec) := do
  let name := String.ofList (body.takeWhile (· ≠ '='))
  match specs.find? (·.long = name), body.dropWhile (· ≠ '=') with
  | none, _ => throw .usage
  | some o, [] => if o.takesValue then return (s, some o) else return (← s.addFlag o, none)
  | some o, _ :: value =>
    if o.takesValue then return (← s.add o (String.ofList value), none) else throw .usage

/-- Reads what follows the dash of short options. -/
def readShort (specs : List OptionSpec) (s : Settings) :
    List Char → Except Ending (Settings × Option OptionSpec)
  | [] => .ok (s, none)
  | c :: cs =>
    match specs.find? (·.short = some c) with
    | none => .error .usage
    | some o =>
      if o.takesValue then
        match cs with
        | [] => .ok (s, some o)
        | '=' :: value | value => (s.add o (String.ofList value)).map fun s => (s, none)
      else do readShort specs (← s.addFlag o) cs

/-- Reads one argument that is an option. -/
def readOption (specs : List OptionSpec) (s : Settings) (a : String) :
    Except Ending (Settings × Option OptionSpec) :=
  match a.toList with
  | '-' :: '-' :: body => readLong specs s body
  | '-' :: c :: cs => readShort specs s (c :: cs)
  | _ => .error .usage

/-- Whether an argument is an option, or the two dashes that end the options. -/
def isOption (a : String) : Bool :=
  match a.toList with
  | '-' :: _ :: _ => true
  | _ => false

/-- Reads the options of a command, where nothing but options may be given. -/
def readSettings (specs : List OptionSpec) (s : Settings) : List String → Except Ending Settings
  | [] => .ok s
  | "--" :: rest => if rest.isEmpty then .ok s else .error .usage
  | a :: rest => do
    match ← readOption specs s a, rest with
    | (s, none), rest => readSettings specs s rest
    | (_, some _), [] => throw .usage
    | (s, some o), value :: rest =>
      if isOption value then throw .usage
      readSettings specs (← s.add o value) rest

/-! ### The command line -/

/-- The options that every command has. -/
def commonOptions : List OptionSpec :=
  [⟨"verbose", some 'v', .flag⟩, ⟨"help", some 'h', .ends .help⟩]

/-- The options before the command. -/
def globalOptions : List OptionSpec :=
  ⟨"version", some 'V', .ends .version⟩ :: commonOptions

/-- The option that names the schema file. -/
def schemaOption : OptionSpec :=
  ⟨"schema", some 's', .path⟩

def generateOptions : List OptionSpec :=
  [ schemaOption, ⟨"out-dir", some 'o', .path⟩, ⟨"header", none, .text⟩, ⟨"source", none, .text⟩,
    ⟨"guard", none, .text⟩ ] ++ commonOptions

def checkOptions : List OptionSpec :=
  [schemaOption, ⟨"layout", none, .flag⟩] ++ commonOptions

def dumpOptions : List OptionSpec :=
  schemaOption :: commonOptions

/-- The command that the settings of `generate` give. -/
def Settings.toGenerate (s : Settings) : Command :=
  let o : Options := {}
  .generate (s.lookup "schema") ((s.lookup "out-dir").getD ".")
    { o with
      headerName := (s.lookup "header").getD o.headerName
      sourceName := (s.lookup "source").getD o.sourceName
      guard := (s.lookup "guard").getD o.guard }

/-- The names that may follow the command `help`. -/
def helpTopics : List String :=
  ["generate", "check", "dump", "help"]

/-- Reads the name of a command and what follows it. -/
def readCommand (name : String) (rest : List String) : Except Ending Command :=
  match name with
  | "generate" => (readSettings generateOptions [] rest).map (·.toGenerate)
  | "check" =>
    (readSettings checkOptions [] rest).map fun s =>
      .check (s.lookup "schema") (s.lookup "layout").isSome
  | "dump" => (readSettings dumpOptions [] rest).map fun s => .dump (s.lookup "schema")
  | "help" =>
    match rest with
    | [] => .error .help
    | [topic] => .error (if topic ∈ helpTopics then .help else .usage)
    | _ => .error .usage
  | _ => .error .usage

/-- Reads a command line whose global options are `s` so far. -/
def readArguments (s : Settings) : List String → Except Ending Command
  | [] => .error .usage
  | a :: rest =>
    if isOption a then do
      let (s, _) ← readOption globalOptions s a
      readArguments s rest
    else readCommand a rest

/-- Reads a command line. -/
def Command.ofArguments (arguments : List String) : Except Ending Command :=
  readArguments [] arguments

end NodeSchema
