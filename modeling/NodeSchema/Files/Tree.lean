import NodeSchema.Files.Storage

/-!
# Trees of files

Files and directories in memory. A place in a tree is the list of names on the way from its root, and
relative paths start at the working directory.

* `FileTree.find?` is the view of a tree: what is at a place.
* `FileTree.target` is the place that a path means, found part by part: everything before the last
  part has to be a directory.
-/

namespace NodeSchema

/-- What is at a place. -/
inductive FileEntry where
  | file (content : ByteArray)
  | directory

/-- Files and directories. -/
structure FileTree where
  /-- Where relative paths start. -/
  workingDir : List String
  /-- The first entry of a place counts. -/
  entries : List (List String × FileEntry)

namespace FileTree

/-- What is at a place. The root is a directory. -/
def find? (t : FileTree) : List String → Option FileEntry
  | [] => some .directory
  | place => t.entries.lookup place

/-- Puts something at a place. -/
def insert (t : FileTree) (place : List String) (e : FileEntry) : FileTree :=
  { t with entries := (place, e) :: t.entries }

theorem find?_insert_self (t : FileTree) {place : List String} (h : place ≠ []) (e : FileEntry) :
    (t.insert place e).find? place = some e := by
  cases place with
  | nil => exact absurd rfl h
  | cons name rest => simp [find?, insert]

theorem find?_insert_ne (t : FileTree) {place other : List String} (h : other ≠ place)
    (e : FileEntry) : (t.insert place e).find? other = t.find? other := by
  cases other with
  | nil => rfl
  | cons name rest => simp only [find?, insert, List.lookup_cons, beq_eq_false_iff_ne.2 h]

/-- The places of a tree. -/
def places (t : FileTree) : List (List String) :=
  (t.entries.map (·.1)).eraseDups

/-- What is at a place, if its last name is not too long to be looked for. -/
def lookup (t : FileTree) (place : List String) : Except FileFault (Option FileEntry) :=
  if (place.getLast?.any fun name => Path.maxNameBytes < name.utf8ByteSize) then .error .tooLong
  else .ok (t.find? place)

/-- Goes on from a directory through directories. -/
def walk (t : FileTree) : List String → List String → Except FileFault (List String)
  | place, [] => .ok place
  | place, "." :: parts => t.walk place parts
  | place, ".." :: parts => t.walk place.dropLast parts
  | place, name :: parts =>
    match t.lookup (place ++ [name]) with
    | .error f => .error f
    | .ok none => .error .missing
    | .ok (some (.file _)) => .error .notDirectory
    | .ok (some .directory) => t.walk (place ++ [name]) parts

/-- Where relative or absolute paths start. -/
def start (t : FileTree) (p : String) : List String :=
  if Path.isAbsolute p then [] else t.workingDir

/-- What a path means. -/
inductive Target where
  /-- A directory, without a name of its own. -/
  | directory
  /-- A place whose directory exists. -/
  | place (p : List String)

/-- What a path means. -/
def target (t : FileTree) (p : String) : Except FileFault Target :=
  match Path.fault? p with
  | some f => .error f
  | none =>
    let parts := Path.parts p
    match parts.getLast? with
    | none => .ok .directory
    | some "." | some ".." => (t.walk (t.start p) parts).map fun _ => .directory
    | some name => (t.walk (t.start p) parts.dropLast).map fun dir => .place (dir ++ [name])

/-- The content of the file at a path. -/
def read (t : FileTree) (p : String) : Except FileFault ByteArray := do
  match ← t.target p with
  | .directory => throw .isDirectory
  | .place q =>
    match ← t.lookup q with
    | none => throw .missing
    | some .directory => throw .isDirectory
    | some (.file content) => if Path.endsWithSlash p then throw .notDirectory else return content

/-- The tree after a file is made or replaced. -/
def write (t : FileTree) (p : String) (content : ByteArray) : Except FileFault FileTree := do
  match ← t.target p with
  | .directory => throw .isDirectory
  | .place q =>
    if Path.endsWithSlash p then throw .isDirectory
    match ← t.lookup q with
    | some .directory => throw .isDirectory
    | _ => return t.insert q (.file content)

/-- The tree after a directory is made. -/
def makeDir (t : FileTree) (p : String) : Except FileFault FileTree := do
  match ← t.target p with
  | .directory => throw .taken
  | .place q =>
    if (← t.lookup q).isSome then throw .taken
    return t.insert q .directory

/-- The state after a step that may be refused. -/
def commit (t : FileTree) : Except FileFault FileTree → Except FileFault Unit × FileTree
  | .ok u => (.ok (), u)
  | .error f => (.error f, t)

instance : Storage (StateM FileTree) where
  readBytes p := do return (← get).read p
  writeBytes p content := modifyGet fun t => t.commit (t.write p content)
  makeDir p := modifyGet fun t => t.commit (t.makeDir p)

end FileTree

end NodeSchema
