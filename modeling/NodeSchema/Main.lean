import NodeSchema.Command.Run

/-!
# The program

The files are those of the machine.
-/

namespace NodeSchema

/-- Whether an error of the system has a number. The numbers come with either sign. -/
def isCode (code n : UInt32) : Bool :=
  code = n || code = -n

/-- The reason that an error of the system gives. -/
def FileFault.ofSystem (e : IO.Error) : FileFault :=
  match e with
  | .noFileOrDirectory .. => .missing
  | .alreadyExists .. => .taken
  | .inappropriateType _ code _ => if isCode code 20 then .notDirectory else .isDirectory
  | .invalidArgument _ code _ => if isCode code 36 then .tooLong else .other (toString e)
  | e => .other (toString e)

/-- The result of a step on the file of the machine at a path. -/
def onMachine {α : Type} (p : String) (step : IO α) : IO (Except FileFault α) :=
  match Path.fault? p with
  | some f => return .error f
  | none => tryCatch (Except.ok <$> step) fun e => return .error (.ofSystem e)

instance : Storage IO where
  readBytes p := onMachine p (IO.FS.readBinFile p)
  writeBytes p content := onMachine p (IO.FS.writeBinFile p content)
  makeDir p := onMachine p (IO.FS.createDir p)

end NodeSchema

open NodeSchema

/-- Runs the program on its arguments. -/
def main (arguments : List String) : IO UInt32 := do
  let outcome ← runProgram arguments
  IO.print outcome.stdout
  IO.eprint outcome.stderr
  return UInt32.ofNat outcome.code
