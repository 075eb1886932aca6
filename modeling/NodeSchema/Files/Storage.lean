import NodeSchema.Files.Path

/-!
# Files

What the program needs of a file system. Reading schemas and writing units are written once, for
every storage: the files of the machine and a tree in memory are two of them.

* `Path.fault?` is the fault that a path has by itself, whatever the files are.
* `makeDirs` makes a directory with those above it.
-/

namespace NodeSchema

/-- Why a file cannot be used. -/
inductive FileFault where
  /-- There is nothing at the path. -/
  | missing
  /-- There is something at the path already. -/
  | taken
  /-- A part of the path, other than the last, is not a directory. -/
  | notDirectory
  /-- There is a directory at the path. -/
  | isDirectory
  /-- The path, or a name in it, has too many bytes. -/
  | tooLong
  /-- The path has a character that ends texts for the system. -/
  | endsEarly
  /-- The bytes are no text. -/
  | notText
  /-- Any other reason, in the words of the system. -/
  | other (text : String)
deriving DecidableEq, Repr

/-- The wording of a fault. -/
def FileFault.message : FileFault → String
  | missing => "No such file or directory (os error 2)"
  | taken => "File exists (os error 17)"
  | notDirectory => "Not a directory (os error 20)"
  | isDirectory => "Is a directory (os error 21)"
  | tooLong => "File name too long (os error 36)"
  | endsEarly => "file name contained an unexpected NUL byte"
  | notText => "stream did not contain valid UTF-8"
  | other text => text

namespace Path

/-- The most bytes that a path may have. -/
def maxBytes : Nat := 4095

/-- The most bytes that a name in a path may have. -/
def maxNameBytes : Nat := 255

/-- Why a path is of no use in any storage. -/
def fault? (p : String) : Option FileFault :=
  if '\x00' ∈ p.toList then some .endsEarly
  else if maxBytes < p.utf8ByteSize then some .tooLong
  else if p = "" then some .missing
  else none

end Path

/-- Files that a computation can use. -/
class Storage (m : Type → Type) where
  /-- The content of a file. -/
  readBytes : String → m (Except FileFault ByteArray)
  /-- Makes or replaces a file. -/
  writeBytes : String → ByteArray → m (Except FileFault Unit)
  /-- Makes a directory in one that exists. -/
  makeDir : String → m (Except FileFault Unit)

namespace Storage

variable {m : Type → Type} [Monad m] [Storage m]

/-- The text of a file. -/
def readText (p : String) : m (Except FileFault String) := do
  match ← readBytes p with
  | .error f => return .error f
  | .ok bytes =>
    match String.fromUTF8? bytes with
    | some text => return .ok text
    | none => return .error .notText

/-- Makes or replaces a file with a text. -/
def writeText (p text : String) : m (Except FileFault Unit) :=
  writeBytes p text.toUTF8

/-- Whether there is a directory at a path, which shows when it is read like a file. -/
def isDir (p : String) : m Bool := do
  match ← readBytes p with
  | .error .isDirectory => return true
  | _ => return false

/-- Makes a directory unless there is one. -/
def ensureDir (p : String) : m (Except FileFault Unit) := do
  match ← makeDir p with
  | .ok () => return .ok ()
  | .error f => if ← isDir p then return .ok () else return .error f

/-- Makes the first directory of a list, where each one lies in the next. Nothing is to be done for
the empty path. -/
def makeDirsUp : List String → m (Except FileFault Unit)
  | [] => return .error .missing
  | p :: above => do
    if p = "" then return .ok ()
    match ← ensureDir p with
    | .error .missing =>
      match ← makeDirsUp above with
      | .ok () => ensureDir p
      | .error f => return .error f
    | result => return result

/-- Makes a directory with those above it, unless it is there. -/
def makeDirs (p : String) : m (Except FileFault Unit) :=
  makeDirsUp (Path.ancestors p)

end Storage

end NodeSchema
