import NodeSchema.Proofs.C.Scope
import NodeSchema.Proofs.Generated.Containers
import NodeSchema.Proofs.Generated.Identifiers

/-!
# What the element type of a container stands for

The functions of a container pass the type of the elements to the macros that grow and release the
buffer. The type is written with the name of the base record of the family, which stands for that
record unless a variable in scope has the same name. Two of the variables are named after the group,
and one has a fixed name. The base record is named independently of all three, and building a registry
does not compare them. So a registry can be built in whose operations unit a variable hides the type of
the elements. (Names that clash outside of functions are told by `Registry.ClashFree`.)

* `SourceUnit.Denotes`: where variables are in scope, a name stands for a record.
* `Family.PassesElementType`: what the functions of a container pass to macros, and what hides it.
* `passesElementType_of_build`: **a variable hides the type exactly if the base record is called like
  it**, and the pointer to the container can be called so only if the group starts with a small letter.
* `elementTypes_hidden`: a registry with a family for each of the three variables.
-/

namespace NodeSchema

open C Code

/-- **A name stands for a record** that the unit declares by a typedef, where variables are in scope. -/
structure C.SourceUnit.Denotes (u : SourceUnit) (scope : List String) (name : String)
    (d : RecordDecl) : Prop where
  /-- No variable hides the name. -/
  visible : name ∉ scope
  record : u.record? name = some d
  typedef : d.kind ≠ .struct
  /-- No other typedef has the name. -/
  unique : u.typedefs.count name = 1

variable {r : Registry} {f : Family} {o : Options}

/-- The name of a base record stands for it wherever no variable hides it. -/
theorem Registry.Consistent.denotes_iff (h : r.Consistent) (hf : f ∈ r.families)
    {scope : List String} :
    (declarationsUnit r o).Denotes scope f.base.name f.baseDecl ↔ f.base.name ∉ scope := by
  constructor
  · exact fun hdenotes => hdenotes.visible
  · intro hvisible
    have hgiven : f.base.name ∈ r.givenTypes :=
      List.mem_append_right _ (List.mem_map_of_mem hf)
    have htypedef : f.base.name ∈ (declarationsUnit r o).typedefs :=
      mem_typedefs_iff.2 (List.mem_append_left _ hgiven)
    exact ⟨hvisible, record?_baseDecl h hf, RecordKind.noConfusion,
      List.count_eq_one_of_mem (nodup_typedefs h o) htypedef⟩

/-! ### The types that are passed -/

namespace Family

/-- The variables where the buffer grows, the innermost one first. -/
def growScope (f : Family) : List String :=
  ["oldCapacity", f.arrayName, f.group]

theorem typeUses_init (f : Family) : f.containerOps.init.typeUses = [] :=
  rfl

/-- Appending an element passes the type where the buffer grows. -/
theorem typeUses_write (f : Family) :
    f.containerOps.write.typeUses = [⟨f.elementType, f.growScope⟩] :=
  rfl

/-- Releasing the buffer passes the type. -/
theorem typeUses_free (f : Family) :
    f.containerOps.free.typeUses = [⟨f.elementType, [f.arrayName]⟩] :=
  rfl

/-- The functions pass the type of the elements only, and no variable is in scope other than those
where the buffer grows. -/
theorem of_mem_typeUses {g : Function} (hg : g ∈ f.containerOps.functions) {u : TypeUse}
    (hu : u ∈ g.typeUses) : u.type = f.elementType ∧ u.scope ⊆ f.growScope := by
  simp only [ContainerOps.functions, List.mem_cons, List.not_mem_nil, or_false] at hg
  rcases hg with rfl | rfl | rfl
  · rw [typeUses_init] at hu
    cases hu
  · rw [typeUses_write, List.mem_singleton] at hu
    subst hu
    exact ⟨rfl, List.Subset.refl _⟩
  · rw [typeUses_free, List.mem_singleton] at hu
    subst hu
    have harray : f.arrayName ∈ f.growScope := List.mem_cons_of_mem _ List.mem_cons_self
    exact ⟨rfl, List.cons_subset.2 ⟨harray, List.nil_subset _⟩⟩

/-- The variables start with a small letter if the group does. -/
theorem startsLower_of_mem_growScope (h : startsLower f.group) {x : String}
    (hx : x ∈ f.growScope) : startsLower x := by
  have hne : f.group ≠ "" := by
    intro hnil
    rw [hnil] at h
    exact absurd h (by decide)
  simp only [growScope, List.mem_cons, List.not_mem_nil, or_false] at hx
  rcases hx with rfl | rfl | rfl
  · decide
  · rw [arrayName, startsLower_append hne]
    exact h
  · exact h

end Family

/-- A base record is called like the pointer to the container only if the group starts with a small
letter: otherwise the pointer is called like the type that it points at, and no base record is. -/
theorem Registry.Consistent.startsLower_group (h : r.Consistent) (hf : f ∈ r.families)
    (hbase : f.base.name = f.arrayName) : startsLower f.group := by
  rw [← Bool.not_eq_false]
  intro hlower
  have harray : f.arrayName = f.containerType := by
    rw [Family.containerType, containerType, titleCase_eq_self (h.group_names f hf) hlower,
      Family.arrayName]
  exact h.base_ne_container hf hf (hbase.trans harray)

/-! ### Hidden types -/

/-- **What the functions of a container pass to macros**, and what it stands for in a unit that
declares the base record. -/
structure Family.PassesElementType (f : Family) (unit : SourceUnit) : Prop where
  /-- Every type is that of the elements. It stands for a pointer to the base record exactly if no
  variable hides it. -/
  uses : ∀ g ∈ f.containerOps.functions, ∀ u ∈ g.typeUses,
    u.type = f.elementType ∧ (unit.Denotes u.scope u.type.base f.baseDecl ↔ ¬ u.Hidden)
  /-- Making a container empty passes no type. -/
  init : f.containerOps.init.typeUses = []
  /-- Appending passes one, and it is hidden exactly if the base record is called like the old
  capacity, like the pointer to the container or like the element. -/
  write : ∃ u, f.containerOps.write.typeUses = [u] ∧
    (u.Hidden ↔ f.base.name = "oldCapacity" ∨ f.base.name = f.arrayName ∨ f.base.name = f.group)
  /-- Releasing passes one, and it is hidden exactly if the base record is called like the pointer to
  the container. -/
  free : ∃ u, f.containerOps.free.typeUses = [u] ∧ (u.Hidden ↔ f.base.name = f.arrayName)
  /-- The base record is called like the pointer only if the group starts with a small letter. -/
  array : f.base.name = f.arrayName → startsLower f.group
  /-- Nothing is hidden if the group starts with a small letter and the base record does not. -/
  usual : startsLower f.group → startsLower f.base.name = false →
    ∀ g ∈ f.containerOps.functions, ∀ u ∈ g.typeUses, ¬ u.Hidden
  /-- Where a call of a function comes to a macro that takes a type, it is one of these, and the
  variables of the machine are those in scope. -/
  runs : ∀ g ∈ f.containerOps.functions, ∀ (α : Type) (env : Env α) (depth : ℕ)
    (args : List (Value α)) (m m' : Machine α) (type : TypeSpec), g.params.length = args.length →
      env.Meets (env.call depth) { m with scope := (g.params.map (·.name)).zip args } g.body type m' →
        ⟨type, m'.names⟩ ∈ g.typeUses

/-- **Where a variable hides the type of the elements** in the functions of a registry that is built. -/
theorem passesElementType_of_build {s : Source} (h : s.build = .ok r) (hf : f ∈ r.families)
    (o : Options) : f.PassesElementType (declarationsUnit r o) where
  uses g hg u hu := by
    have htype := (Family.of_mem_typeUses hg hu).1
    refine ⟨htype, ?_⟩
    rw [TypeUse.Hidden, htype]
    exact (Source.declares_of_build h).2.denotes_iff hf
  init := f.typeUses_init
  write := by
    refine ⟨_, f.typeUses_write, ?_⟩
    simp only [TypeUse.Hidden, Family.elementType, TypeSpec.pointer, Family.growScope, List.mem_cons,
      List.not_mem_nil, or_false]
  free := ⟨_, f.typeUses_free, List.mem_singleton⟩
  array := (Source.declares_of_build h).2.startsLower_group hf
  usual hgroup hbase g hg u hu hhidden := by
    obtain ⟨htype, hscope⟩ := Family.of_mem_typeUses hg hu
    rw [TypeUse.Hidden, htype] at hhidden
    have hlower := Family.startsLower_of_mem_growScope hgroup (hscope hhidden)
    rw [Family.elementType, TypeSpec.pointer, hbase] at hlower
    exact Bool.false_ne_true hlower
  runs _ _ _ _ _ _ _ _ _ hargs hmeets := hmeets.mem_function_typeUses hargs

/-- The type of the elements is seen in all functions of calls and names. -/
theorem passesElementType_of_build_call :
    callSource.build = .ok callRegistry ∧ callFamily ∈ callRegistry.families ∧
      ∀ g ∈ callFamily.containerOps.functions, ∀ u ∈ g.typeUses,
        (declarationsUnit callRegistry {}).Denotes u.scope u.type.base callFamily.baseDecl := by
  have hf : callFamily ∈ callRegistry.families := List.mem_cons_self
  have hpasses := passesElementType_of_build build_callSource hf {}
  refine ⟨build_callSource, hf, fun g hg u hu => (hpasses.uses g hg u hu).2.2 ?_⟩
  exact hpasses.usual (by decide) (by decide) g hg u hu

/-! ### One family for each variable -/

/-- The base records are called like the element, like the pointer to the container and like the old
capacity. -/
def hiddenSource : Source where
  enums := []
  families :=
    [ ⟨"Expr", [⟨"Expr : Node self", ⟨"hidden.schema", 2, 1⟩⟩], ⟨"hidden.schema", 1, 1⟩⟩
      , ⟨"stmt", [⟨"stmtArray : Node self", ⟨"hidden.schema", 4, 1⟩⟩], ⟨"hidden.schema", 3, 1⟩⟩
      , ⟨"type", [⟨"oldCapacity : Node self", ⟨"hidden.schema", 6, 1⟩⟩], ⟨"hidden.schema", 5, 1⟩⟩ ]

/-- Its registry. -/
def hiddenRegistry : Registry where
  enums := []
  families :=
    let header : List Field := [⟨.value nodeHeaderName, headerMember⟩]
    [ ⟨"Expr", ⟨"Expr", header, ⟨"hidden.schema", 2, 1⟩⟩, []⟩
      , ⟨"stmt", ⟨"stmtArray", header, ⟨"hidden.schema", 4, 1⟩⟩, []⟩
      , ⟨"type", ⟨"oldCapacity", header, ⟨"hidden.schema", 6, 1⟩⟩, []⟩ ]
  discriminators := []

/-- The registry is built, and each of the three variables hides the type of the elements where the
buffer grows. -/
theorem elementTypes_hidden :
    hiddenSource.build = .ok hiddenRegistry ∧
      ∀ f ∈ hiddenRegistry.families, ∃ u ∈ f.containerOps.write.typeUses,
        u.type = f.elementType ∧ u.Hidden ∧
          ¬ (declarationsUnit hiddenRegistry {}).Denotes u.scope u.type.base f.baseDecl := by
  have hhidden : hiddenSource.build = .ok hiddenRegistry ∧
      ∀ f ∈ hiddenRegistry.families, ∃ u ∈ f.containerOps.write.typeUses,
        u.type = f.elementType ∧ u.Hidden := by
    decide +kernel
  refine ⟨hhidden.1, fun f hf => ?_⟩
  obtain ⟨u, hu, htype, hin⟩ := hhidden.2 f hf
  exact ⟨u, hu, htype, hin, fun hdenotes => hdenotes.visible hin⟩

end NodeSchema
