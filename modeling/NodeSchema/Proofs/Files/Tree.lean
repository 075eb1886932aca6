import NodeSchema.Files.Tree
import NodeSchema.Proofs.Except

/-!
# What changes in a tree of files

A path that means a place goes on meaning it while no directory is lost (`KeepsDirs`). Making
directories adds directories and nothing else (`NewDirs`), and writing a file changes only its
place.

* `target_of_keepsDirs`: the places of paths stay.
* `write_ok`, `Written.read_eq`: **a file that is written is read again.**
* `makesDirs_makeDirs`: what making directories changes.
-/

namespace NodeSchema

namespace FileTree

variable {t u v : FileTree} {p : String} {place : List String} {content : ByteArray}

theorem bind_apply {α β : Type} (x : StateM FileTree α) (f : α → StateM FileTree β) (t : FileTree) :
    (x >>= f) t = f (x t).1 (x t).2 :=
  rfl

/-! ### Places of paths -/

/-- No directory is lost. -/
structure KeepsDirs (t u : FileTree) : Prop where
  workingDir : u.workingDir = t.workingDir
  directory : ∀ place, t.find? place = some .directory → u.find? place = some .directory

theorem KeepsDirs.refl (t : FileTree) : t.KeepsDirs t :=
  ⟨rfl, fun _ => id⟩

/-- Whether a place can be looked for does not depend on what is there. -/
theorem lookup_eq_ok {e : Option FileEntry} (h : t.lookup place = .ok e) (u : FileTree) :
    e = t.find? place ∧ u.lookup place = .ok (u.find? place) := by
  unfold lookup at h ⊢
  split_ifs at h ⊢
  cases h
  exact ⟨rfl, rfl⟩

/-- A walk goes on at a name exactly if there is a directory. -/
theorem walk_cons_eq_ok {name : String} {parts dir : List String} (hdot : name ≠ ".")
    (hdots : name ≠ "..") :
    t.walk place (name :: parts) = .ok dir ↔
      t.lookup (place ++ [name]) = .ok (some .directory) ∧
        t.walk (place ++ [name]) parts = .ok dir := by
  rw [walk]
  · cases t.lookup (place ++ [name]) with
    | error f => simp
    | ok e =>
      cases e with
      | none => simp
      | some e => cases e <;> simp
  · exact hdot
  · exact hdots

/-- A walk through directories is still possible where none of them is lost. -/
theorem walk_of_keepsDirs (h : t.KeepsDirs u) {parts dir : List String}
    (hwalk : t.walk place parts = .ok dir) : u.walk place parts = .ok dir := by
  induction parts generalizing place with
  | nil => exact hwalk
  | cons name parts ih =>
    by_cases hdot : name = "."
    · subst hdot
      exact ih hwalk
    · by_cases hdots : name = ".."
      · subst hdots
        exact ih hwalk
      · rw [walk_cons_eq_ok hdot hdots] at hwalk ⊢
        obtain ⟨hfind, hu⟩ := lookup_eq_ok hwalk.1 u
        rw [h.directory _ hfind.symm] at hu
        exact ⟨hu, ih hwalk.2⟩

/-- **The places of paths stay** while no directory is lost. -/
theorem target_of_keepsDirs (h : t.KeepsDirs u) {x : Target} (htarget : t.target p = .ok x) :
    u.target p = .ok x := by
  have hstart : u.start p = t.start p := by rw [start, start, h.workingDir]
  have hwalk {parts : List String} {f : List String → Target}
      (hw : (t.walk (t.start p) parts).map f = .ok x) :
      (u.walk (u.start p) parts).map f = .ok x := by
    obtain ⟨dir, hdir, rfl⟩ := map_eq_ok.1 hw
    rw [hstart, walk_of_keepsDirs h hdir]
    rfl
  unfold target at htarget ⊢
  cases hfault : Path.fault? p with
  | some f =>
    rw [hfault] at htarget
    cases htarget
  | none =>
    rw [hfault] at htarget
    simp only at htarget ⊢
    split at htarget
    · exact htarget
    · exact hwalk htarget
    · exact hwalk htarget
    · exact hwalk htarget

/-- The last name of a path is that of its place. -/
theorem getLast?_of_target (h : t.target p = .ok (.place place)) :
    place.getLast? = (Path.parts p).getLast? := by
  unfold target at h
  cases hfault : Path.fault? p with
  | some f =>
    rw [hfault] at h
    cases h
  | none =>
    rw [hfault] at h
    simp only at h
    split at h
    · cases h
    · obtain ⟨dir, -, ⟨⟩⟩ := map_eq_ok.1 h
    · obtain ⟨dir, -, ⟨⟩⟩ := map_eq_ok.1 h
    · rename_i name hlast
      obtain ⟨dir, -, hplace⟩ := map_eq_ok.1 h
      cases hplace
      rw [hlast, List.getLast?_concat]

/-! ### Files -/

/-- The file is written at a place, where there is no directory. -/
structure Written (t : FileTree) (p : String) (content : ByteArray) (place : List String)
    (u : FileTree) : Prop where
  target : t.target p = .ok (.place place)
  slash : Path.endsWithSlash p = false
  found : ∀ v : FileTree, v.lookup place = .ok (v.find? place)
  free : t.find? place ≠ some .directory
  eq : u = t.insert place (.file content)

/-- A file that could be written is at the place of its path. -/
theorem write_ok (h : t.write p content = .ok u) : ∃ place, t.Written p content place u := by
  unfold write at h
  obtain ⟨x, htarget, h⟩ := bind_eq_ok.1 h
  cases x with
  | directory => cases h
  | place place =>
    simp only at h
    split_ifs at h with hslash
    · cases h
    · obtain ⟨e, hlookup, h⟩ := bind_eq_ok.1 h
      obtain ⟨rfl, -⟩ := lookup_eq_ok hlookup t
      split at h
      · cases h
      · rename_i hfree
        cases h
        exact ⟨place, htarget, by simpa using hslash, fun v => (lookup_eq_ok hlookup v).2,
          hfree, rfl⟩

theorem read_eq_ok (htarget : t.target p = .ok (.place place))
    (hslash : Path.endsWithSlash p = false)
    (hlookup : t.lookup place = .ok (some (.file content))) : t.read p = .ok content := by
  unfold read
  rw [htarget]
  simp only [ok_bind, hlookup, hslash]
  rfl

namespace Written

theorem ne_nil (h : t.Written p content place u) : place ≠ [] := by
  rintro rfl
  exact h.free rfl

theorem find?_self (h : t.Written p content place u) : u.find? place = some (.file content) := by
  rw [h.eq]
  exact t.find?_insert_self h.ne_nil _

/-- Writing a file leaves every other place alone. -/
theorem find?_ne (h : t.Written p content place u) {other : List String} (hne : other ≠ place) :
    u.find? other = t.find? other := by
  rw [h.eq]
  exact t.find?_insert_ne hne _

theorem keepsDirs (h : t.Written p content place u) : t.KeepsDirs u where
  workingDir := by rw [h.eq]; rfl
  directory other hother := by
    rw [h.find?_ne]
    · exact hother
    · rintro rfl
      exact h.free hother

/-- A path means the same place after the file is written. -/
theorem target_eq (h : t.Written p content place u) : u.target p = .ok (.place place) :=
  target_of_keepsDirs h.keepsDirs h.target

/-- **A file that is written is read again**, as long as its place holds it. -/
theorem read_eq (h : t.Written p content place u) (hv : u.KeepsDirs v) {content' : ByteArray}
    (hfind : v.find? place = some (.file content')) : v.read p = .ok content' :=
  read_eq_ok (target_of_keepsDirs hv h.target_eq) h.slash ((h.found v).trans (congrArg _ hfind))

end Written

/-! ### Directories -/

/-- There are new directories, and nothing else is new or lost. -/
structure NewDirs (t u : FileTree) : Prop where
  workingDir : u.workingDir = t.workingDir
  find? : ∀ place, u.find? place = t.find? place ∨
    t.find? place = none ∧ u.find? place = some .directory

theorem NewDirs.refl (t : FileTree) : t.NewDirs t :=
  ⟨rfl, fun _ => .inl rfl⟩

theorem NewDirs.trans (h : t.NewDirs u) (h' : u.NewDirs v) : t.NewDirs v where
  workingDir := h'.workingDir.trans h.workingDir
  find? place := by
    rcases h.find? place with heq | ⟨hnone, hdir⟩
    · rw [← heq]
      exact h'.find? place
    · rcases h'.find? place with heq | ⟨hnone', -⟩
      · exact .inr ⟨hnone, heq.trans hdir⟩
      · rw [hdir] at hnone'
        cases hnone'

theorem newDirs_insert (h : t.find? place = none) : t.NewDirs (t.insert place .directory) where
  workingDir := rfl
  find? other := by
    have hne : place ≠ [] := by
      rintro rfl
      cases h
    by_cases hother : other = place
    · subst hother
      exact .inr ⟨h, t.find?_insert_self hne _⟩
    · exact .inl (t.find?_insert_ne hother _)

/-- What makes a directory makes nothing else. -/
theorem newDirs_makeDir (h : t.makeDir p = .ok u) : t.NewDirs u := by
  unfold makeDir at h
  obtain ⟨x, -, h⟩ := bind_eq_ok.1 h
  cases x with
  | directory => cases h
  | place place =>
    simp only at h
    obtain ⟨e, hlookup, h⟩ := bind_eq_ok.1 h
    obtain ⟨rfl, -⟩ := lookup_eq_ok hlookup t
    split_ifs at h with hsome
    · cases h
    · cases h
      exact newDirs_insert (by simpa using hsome)

/-- The computation makes directories and changes nothing else. -/
def MakesDirs {α : Type} (x : StateM FileTree α) : Prop :=
  ∀ t : FileTree, t.NewDirs (x t).2

section

variable {α β : Type}

theorem MakesDirs.pure (a : α) : MakesDirs (Pure.pure a) :=
  fun t => .refl t

theorem MakesDirs.bind {x : StateM FileTree α} {f : α → StateM FileTree β} (hx : MakesDirs x)
    (hf : ∀ a, MakesDirs (f a)) : MakesDirs (x >>= f) := by
  intro t
  rw [bind_apply]
  exact (hx t).trans (hf _ _)

end

theorem makesDirs_makeDir (p : String) : MakesDirs (Storage.makeDir p) := by
  intro t
  have hrun : (Storage.makeDir p : StateM FileTree (Except FileFault Unit)) t =
      t.commit (t.makeDir p) := rfl
  rw [hrun]
  cases h : t.makeDir p with
  | ok u => exact newDirs_makeDir h
  | error f => exact .refl t

theorem makesDirs_isDir (p : String) : MakesDirs (Storage.isDir p) := by
  have hread : MakesDirs (Storage.readBytes p) := fun t => .refl t
  refine hread.bind fun result => ?_
  split <;> exact .pure _

theorem makesDirs_ensureDir (p : String) : MakesDirs (Storage.ensureDir p) := by
  refine (makesDirs_makeDir p).bind fun result => ?_
  cases result with
  | ok => exact .pure _
  | error f =>
    refine (makesDirs_isDir p).bind fun found => ?_
    cases found <;> exact .pure _

theorem makesDirs_makeDirsUp (ps : List String) : MakesDirs (Storage.makeDirsUp ps) := by
  induction ps with
  | nil => exact .pure _
  | cons p above ih =>
    unfold Storage.makeDirsUp
    split_ifs
    · exact .pure _
    · refine (makesDirs_ensureDir p).bind fun result => ?_
      split
      · refine ih.bind fun result => ?_
        cases result with
        | ok => exact makesDirs_ensureDir p
        | error f => exact .pure _
      · exact .pure _

/-- **Making directories makes nothing else.** -/
theorem makesDirs_makeDirs (p : String) : MakesDirs (Storage.makeDirs p) :=
  makesDirs_makeDirsUp _

end FileTree

end NodeSchema
