import NodeSchema.Builtin
import NodeSchema.Command.Arguments
import NodeSchema.Command.Report
import NodeSchema.Files.Artifacts
import NodeSchema.Files.Schema
import NodeSchema.Registry.Json

/-!
# Running commands

A command loads its schema first, and touches no file before that. What goes wrong is reported with
the step that failed; errors of the schema have a label of their own.
-/

namespace NodeSchema

namespace Outcome

/-- A run that printed `out`. -/
def success (out : String) : Outcome :=
  ⟨0, out, ""⟩

/-- A run that failed with an error. -/
def failure (out label message : String) : Outcome :=
  ⟨1, out, label ++ ": " ++ message ++ "\n"⟩

/-- A run that ended abnormally. -/
def aborted (out : String) : Outcome :=
  ⟨101, out, "aborted\n"⟩

end Outcome

/-- How a report of an error begins. -/
def Error.label (e : Error) : String :=
  if e.isSchemaError then "Schema error" else "Error"

/-- The report of an error in a step of a command. -/
def Error.outcome (e : Error) (step : String) : Outcome :=
  .failure "" e.label (step ++ ": " ++ e.message)

/-- How a command ends that stops in a step. -/
def Stop.outcome (step : String) : Stop → Outcome
  | .error e => e.outcome step
  | .aborted => .aborted ""

/-- How a command ends that has printed `out` and finds a record without a layout. -/
def LayoutError.outcome (e : LayoutError) (out : String) : Outcome :=
  match e.message? with
  | some message => .failure out "Error" message
  | none => .aborted out

section

variable {m : Type → Type} [Monad m] [Storage m]

/-- Loads the schema of a command, and goes on with the registry. -/
def withSchema (schema : Option String) (next : Registry → m Outcome) : m Outcome := do
  match schema with
  | none =>
    match Builtin.registry with
    | .ok r => next r
    | .error stop => return stop.outcome "Invalid built-in schema"
  | some path =>
    match ← loadSchema path with
    | .ok r => next r
    | .error stop => return stop.outcome ("Invalid schema " ++ path)

/-- What is printed for the paths that were written. -/
def writtenLines (paths : List String) : String :=
  String.join (paths.map fun p => "Wrote " ++ p ++ "\n")

/-- Runs a command. -/
def Command.run : Command → m Outcome
  | generate schema dir options => withSchema schema fun r => do
    match ← (r.generate options).write options dir with
    | .ok paths => return .success (writtenLines paths)
    | .error e => return e.outcome ("Failed to write artifacts to " ++ dir)
  | check schema layout => withSchema schema fun r =>
    if layout then
      match r.layoutSummary with
      | .ok lines => return .success (r.summary ++ lines)
      | .error e => return e.outcome r.summary
    else return .success r.summary
  | dump schema => withSchema schema fun r => return .success (r.toJson.pretty 0 ++ "\n")

end

/-- The name of the program. -/
def programName : String := "astgen"

/-- What is printed when help is asked for. -/
def helpText : String :=
  "Generates C AST declarations and container operations\n\n" ++
  "Usage: " ++ programName ++ " [OPTIONS] <COMMAND>\n\n" ++
  "Commands:\n" ++
  "  generate  Regenerate the operations and declarations units\n" ++
  "  check     Validate a schema and print a summary\n" ++
  "  dump      Print the registry as JSON\n" ++
  "  help      Print this message or the help of the given subcommand(s)\n\n" ++
  "Options:\n" ++
  "  -v, --verbose  Verbose output\n" ++
  "  -h, --help     Print help\n" ++
  "  -V, --version  Print version\n"

/-- How the program ends when its arguments give no command. -/
def Ending.outcome : Ending → Outcome
  | usage => ⟨2, "", helpText⟩
  | help => .success helpText
  | version => .success (programName ++ " 0.1.0\n")

/-- Runs the program on its arguments. -/
def runProgram {m : Type → Type} [Monad m] [Storage m] (arguments : List String) : m Outcome :=
  match Command.ofArguments arguments with
  | .ok command => command.run
  | .error ending => return ending.outcome

end NodeSchema
