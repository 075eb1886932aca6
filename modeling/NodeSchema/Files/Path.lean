/-!
# Paths

A path is a text whose parts stand between slashes. Empty parts say nothing, and a part `.` stays
where it is.
-/

namespace NodeSchema.Path

/-- Whether a path starts at the root. -/
def isAbsolute (p : String) : Bool :=
  p.toList.head? = some '/'

/-- Whether a path can only be that of a directory. -/
def endsWithSlash (p : String) : Bool :=
  p.toList.getLast? = some '/'

/-- The parts of a path. -/
def parts (p : String) : List String :=
  ((p.toList.splitOn '/').filter (· ≠ [])).map String.ofList

/-- A name in a directory. An absolute name stands for itself. -/
def join (dir name : String) : String :=
  if isAbsolute name then name
  else if dir = "" || endsWithSlash dir then dir ++ name
  else dir ++ "/" ++ name

/-- What follows the last point of a name, if the name does not start with that point. -/
def nameExtension? (name : List Char) : Option String :=
  match name.reverse.dropWhile (· ≠ '.') with
  | '.' :: _ :: _ => some (String.ofList (name.reverse.takeWhile (· ≠ '.')).reverse)
  | _ => none

/-- The extension of the file that a path names. -/
def extension? (p : String) : Option String :=
  match ((parts p).filter (· ≠ ".")).getLast? with
  | none | some ".." => none
  | some name => nameExtension? name.toList

/-- The parts of a path that say something: a part `.` does so only at the start of a relative
path. -/
def components (p : String) : List String :=
  match parts p with
  | [] => []
  | c :: cs => (if isAbsolute p && c = "." then [] else [c]) ++ cs.filter (· ≠ ".")

/-- A path and the directories above it, the nearest first. A relative path ends with the empty
one. -/
def ancestors (p : String) : List String :=
  let cs := components p
  let root := if isAbsolute p then "/" else ""
  p :: (List.range cs.length).reverse.map fun n => root ++ "/".intercalate (cs.take n)

end NodeSchema.Path
