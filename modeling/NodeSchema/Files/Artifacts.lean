import NodeSchema.Files.Storage
import NodeSchema.Error
import NodeSchema.Generated.Declarations

/-!
# Writing the generated units
-/

namespace NodeSchema

/-- The path of the operations. -/
def Options.sourcePath (o : Options) (dir : String) : String :=
  Path.join dir o.sourceName

/-- The path of the declarations. -/
def Options.headerPath (o : Options) (dir : String) : String :=
  Path.join dir o.headerName

/-- Writes the operations and then the declarations into a directory, which is made if there is
none, and gives both paths. What was written before a fault stays. -/
def Artifacts.write {m : Type → Type} [Monad m] [Storage m] (a : Artifacts) (o : Options)
    (dir : String) : m (Except Error (List String)) := do
  let step (result : m (Except FileFault Unit)) : ExceptT Error m Unit :=
    ExceptT.mk (result >>= fun x => pure (x.mapError fun f => Error.io f.message))
  ExceptT.run do
    step (Storage.makeDirs dir)
    step (Storage.writeText (o.sourcePath dir) a.operations)
    step (Storage.writeText (o.headerPath dir) a.declarations)
    return [o.sourcePath dir, o.headerPath dir]

end NodeSchema
