import NodeSchema.Files.Artifacts
import NodeSchema.Proofs.C.Lines
import NodeSchema.Proofs.Files.Tree
import NodeSchema.Proofs.Registry.Build

/-!
# The units on disk

Writing the generated units makes the directory, then the file of the operations and then the file
of the declarations. Nothing keeps the two names from meaning one file, and then the operations are
replaced.

* `Registry.operations_ne_declarations`: the two units are never alike.
* `Registry.write_generate_ok`: **what is on disk after the units are written.**
* `write_generate_sameName`: writing succeeds, and the operations are lost.
-/

namespace NodeSchema

open C Text

/-! ### The texts of the units -/

/-- A unit starts with its first preprocessor line. -/
theorem C.SourceUnit.exists_toList_render {u : SourceUnit} {line : String} {lines : List String}
    {items : List Item} (h : u.items = .directives (line :: lines) :: items) :
    ∃ rest, u.render.toList = line.toList ++ rest := by
  rw [SourceUnit.toList_render, blockText, h, List.map_cons, List.map_cons, intercalate_cons,
    Item.lines, List.map_cons, intercalate_cons, List.append_assoc, List.append_assoc]
  exact ⟨_, rfl⟩

/-- **The two units are never alike**: one starts with an inclusion, the other with a guard. -/
theorem Registry.operations_ne_declarations (r : Registry) (o : Options) :
    (r.generate o).operations ≠ (r.generate o).declarations := by
  obtain ⟨rest, hoperations⟩ : ∃ rest, (operationsUnit r o).render.toList =
      (includeLine o.headerName).toList ++ rest := SourceUnit.exists_toList_render rfl
  obtain ⟨rest', hdeclarations⟩ : ∃ rest, (declarationsUnit r o).render.toList =
      ("#ifndef " ++ o.guard).toList ++ rest := SourceUnit.exists_toList_render rfl
  intro heq
  have hthird := congrArg (fun text : String => text.toList[2]?) heq
  simp only [generate, hoperations, hdeclarations] at hthird
  simp [includeLine, String.toList_append] at hthird

/-! ### Steps -/

section

variable {α : Type} {t u : FileTree}

/-- A step on the files that succeeds, and what comes after it. -/
theorem run_step_bind {x : StateM FileTree (Except FileFault Unit)}
    {next : Unit → ExceptT Error (StateM FileTree) α} {a : α}
    (h : (ExceptT.mk (x >>= fun y => pure (y.mapError fun f => Error.io f.message)) >>=
      next).run t = (.ok a, u)) :
    ∃ t', x t = (.ok (), t') ∧ (next ()).run t' = (.ok a, u) := by
  have hrun : ExceptT.bindCont next (((x t).1).mapError fun f => Error.io f.message) (x t).2 =
      (.ok a, u) := h
  cases hx : x t with
  | mk result t' =>
    rw [hx] at hrun
    cases result with
    | ok => exact ⟨t', rfl, hrun⟩
    | error f => cases hrun

theorem write_of_writeText {p text : String}
    (h : (Storage.writeText p text : StateM FileTree (Except FileFault Unit)) t = (.ok (), u)) :
    t.write p text.toUTF8 = .ok u := by
  have hcommit : t.commit (t.write p text.toUTF8) = (.ok (), u) := h
  cases hwrite : t.write p text.toUTF8 with
  | ok u' =>
    rw [hwrite] at hcommit
    cases hcommit
    rfl
  | error f =>
    rw [hwrite] at hcommit
    cases hcommit

/-- The steps of writing the units. -/
theorem Artifacts.write_steps {a : Artifacts} {o : Options} {dir : String} {paths : List String}
    (h : (a.write o dir : StateM FileTree (Except Error (List String))) t = (.ok paths, u)) :
    paths = [o.sourcePath dir, o.headerPath dir] ∧ ∃ t₁ t₂, t.NewDirs t₁ ∧
      t₁.write (o.sourcePath dir) a.operations.toUTF8 = .ok t₂ ∧
      t₂.write (o.headerPath dir) a.declarations.toUTF8 = .ok u := by
  obtain ⟨t₁, hdirs, h⟩ := run_step_bind h
  obtain ⟨t₂, hsource, h⟩ := run_step_bind h
  obtain ⟨t₃, hheader, h⟩ := run_step_bind h
  cases h
  have hnew := FileTree.makesDirs_makeDirs dir t
  rw [hdirs] at hnew
  exact ⟨rfl, t₁, t₂, hnew, write_of_writeText hsource, write_of_writeText hheader⟩

end

/-! ### Files afterwards -/

/-- The paths mean one place. -/
def FileTree.SamePlace (t : FileTree) (p q : String) : Prop :=
  ∃ place, t.target p = .ok (.place place) ∧ t.target q = .ok (.place place)

/-- Paths of one place end with the same name. -/
theorem FileTree.SamePlace.getLast?_eq {t : FileTree} {p q : String} (h : t.SamePlace p q) :
    (Path.parts p).getLast? = (Path.parts q).getLast? := by
  obtain ⟨place, hp, hq⟩ := h
  rw [← getLast?_of_target hp, getLast?_of_target hq]

/-- **What is on disk after the units are written.** The paths of the operations and of the
declarations are given, in this order. The file of the declarations holds them. The file of the
operations holds them if it is another file; if it is the same, they are lost. At any other place
nothing changes, apart from directories that are made. -/
theorem Registry.write_generate_ok {r : Registry} {o : Options} {dir : String} {t u : FileTree}
    {paths : List String}
    (h : ((r.generate o).write o dir : StateM FileTree (Except Error (List String))) t =
      (.ok paths, u)) :
    paths = [o.sourcePath dir, o.headerPath dir] ∧
    u.read (o.headerPath dir) = .ok (r.generate o).declarations.toUTF8 ∧
    (¬ u.SamePlace (o.sourcePath dir) (o.headerPath dir) →
      u.read (o.sourcePath dir) = .ok (r.generate o).operations.toUTF8) ∧
    (u.SamePlace (o.sourcePath dir) (o.headerPath dir) →
      u.read (o.sourcePath dir) = .ok (r.generate o).declarations.toUTF8 ∧
      (r.generate o).operations ≠ (r.generate o).declarations) ∧
    ∀ place, u.target (o.sourcePath dir) ≠ .ok (.place place) →
      u.target (o.headerPath dir) ≠ .ok (.place place) →
      u.find? place = t.find? place ∨ t.find? place = none ∧ u.find? place = some .directory := by
  obtain ⟨hpaths, t₁, t₂, hnew, hsource, hheader⟩ := Artifacts.write_steps h
  obtain ⟨place, hsource⟩ := FileTree.write_ok hsource
  obtain ⟨place', hheader⟩ := FileTree.write_ok hheader
  have hplace : u.target (o.sourcePath dir) = .ok (.place place) :=
    FileTree.target_of_keepsDirs hheader.keepsDirs hsource.target_eq
  refine ⟨hpaths, hheader.read_eq (.refl u) hheader.find?_self, fun hne => ?_, fun hsame => ?_,
    fun other hother hother' => ?_⟩
  · have hne : place ≠ place' := by
      rintro rfl
      exact hne ⟨place, hplace, hheader.target_eq⟩
    exact hsource.read_eq hheader.keepsDirs ((hheader.find?_ne hne).trans hsource.find?_self)
  · obtain ⟨both, hboth, hboth'⟩ := hsame
    cases hplace.symm.trans hboth
    cases hheader.target_eq.symm.trans hboth'
    exact ⟨hsource.read_eq hheader.keepsDirs hheader.find?_self,
      r.operations_ne_declarations o⟩
  · have hne : other ≠ place := by
      rintro rfl
      exact hother hplace
    have hne' : other ≠ place' := by
      rintro rfl
      exact hother' hheader.target_eq
    rw [hheader.find?_ne hne', hsource.find?_ne hne]
    exact hnew.find? other

/-- With the names that are taken if none are given, there are two files. -/
theorem write_generate_ok_call :
    let t : FileTree := ⟨[], []⟩
    let a := callRegistry.generate {}
    let result := (a.write {} "out" : StateM FileTree (Except Error (List String))) t
    result.1 = .ok ["out/ast.c", "out/ast.h"] ∧
      result.2.read (Options.sourcePath {} "out") = .ok a.operations.toUTF8 ∧
      result.2.read (Options.headerPath {} "out") = .ok a.declarations.toUTF8 := by
  intro t a result
  have hok : result.1 = .ok ["out/ast.c", "out/ast.h"] := by decide +kernel
  have hnames : (Path.parts (Options.sourcePath {} "out")).getLast? ≠
      (Path.parts (Options.headerPath {} "out")).getLast? := by decide +kernel
  have hresult : result = (.ok ["out/ast.c", "out/ast.h"], result.2) := Prod.ext hok rfl
  obtain ⟨-, hheader, hsource, -⟩ := Registry.write_generate_ok hresult
  exact ⟨hok, hsource fun hsame => hnames hsame.getLast?_eq, hheader⟩

/-- With one name for both files, writing succeeds, and the operations are lost. -/
theorem write_generate_sameName :
    let t : FileTree := ⟨[], []⟩
    let o : Options := { headerName := "ast.c" }
    let a := callRegistry.generate o
    let result := (a.write o "out" : StateM FileTree (Except Error (List String))) t
    result.1 = .ok ["out/ast.c", "out/ast.c"] ∧
      result.2.read (o.sourcePath "out") = .ok a.declarations.toUTF8 ∧
      a.declarations ≠ a.operations := by
  intro t o a result
  have hok : result.1 = .ok ["out/ast.c", "out/ast.c"] := by decide +kernel
  have hresult : result = (.ok ["out/ast.c", "out/ast.c"], result.2) := Prod.ext hok rfl
  obtain ⟨-, t₁, t₂, -, -, hheader⟩ := Artifacts.write_steps hresult
  obtain ⟨place, hheader⟩ := FileTree.write_ok hheader
  exact ⟨hok, hheader.read_eq (.refl _) hheader.find?_self,
    (callRegistry.operations_ne_declarations o).symm⟩

end NodeSchema
