import NodeSchema.Command.Run
import NodeSchema.Proofs.Files.Tree
import NodeSchema.Proofs.Format.Outcome
import NodeSchema.Proofs.Layout.Aligned
import NodeSchema.Proofs.Registry.Builtin

/-!
# How a command ends

A command loads its schema before it does anything else, and loading reads at most one file. So a
schema that does not load leaves every file as it was. What the command reports then is an error of
the schema if the file holds a text, and a plain error if it does not. After the schema is loaded,
nothing but a plain error can be reported.

* `FileTree.load`: what loading the schema of a command gives.
* `failsIn_readSchema`, `FileTree.load_eq_error`: what a text that is rejected is reported as, and
  why a schema does not load.
* `Command.run_eq`: what is left to do once the schema is loaded.
* `Command.EndsWell`, `runProgram_endsWell`: **how every command ends, and what it changes.**
-/

namespace NodeSchema

/-! ### Labels -/

/-- The report of the outcome begins with a label. -/
def Outcome.Labelled (o : Outcome) (label : String) : Prop :=
  ∃ message, o.stderr = label ++ ": " ++ message ++ "\n"

theorem Outcome.labelled_failure (out label message : String) :
    (failure out label message).Labelled label :=
  ⟨message, rfl⟩

/-- The two labels are told apart by their first letters. -/
theorem Outcome.Labelled.not_schema {o : Outcome} (h : o.Labelled "Error") :
    ¬ o.Labelled "Schema error" := by
  rintro ⟨message', h'⟩
  obtain ⟨message, h⟩ := h
  have hhead := congrArg (fun text => text.toList.head?) (h.symm.trans h')
  simp [String.toList_append] at hhead

/-! ### Loading -/

/-- The schema file of a command. -/
def Command.schema? : Command → Option String
  | generate schema _ _ => schema
  | check schema _ => schema
  | dump schema => schema

namespace FileTree

/-- The text of the file at a path. -/
def text (t : FileTree) (p : String) : Except FileFault String :=
  match t.read p with
  | .error f => .error f
  | .ok bytes =>
    match String.fromUTF8? bytes with
    | some text => .ok text
    | none => .error .notText

/-- What loading a schema file gives. -/
def loadFile (t : FileTree) (p : String) : Except Stop Registry :=
  match t.text p with
  | .ok text => readSchema p text
  | .error f => .error (Error.io (p ++ ": " ++ f.message))

/-- What loading the schema of a command gives. -/
def load (t : FileTree) (schema : Option String) : Except Stop Registry :=
  match schema with
  | none => Builtin.registry
  | some p => t.loadFile p

theorem readText_eq (t : FileTree) (p : String) :
    (Storage.readText p : StateM FileTree (Except FileFault String)) t = (t.text p, t) := by
  have hread : (Storage.readBytes p : StateM FileTree (Except FileFault ByteArray)) t =
      (t.read p, t) := rfl
  rw [Storage.readText, bind_apply, hread, text]
  cases t.read p with
  | error f => rfl
  | ok bytes =>
    simp only
    cases String.fromUTF8? bytes <;> rfl

/-- **Loading changes nothing.** -/
theorem loadSchema_eq (t : FileTree) (p : String) :
    (loadSchema p : StateM FileTree (Except Stop Registry)) t = (t.loadFile p, t) := by
  rw [loadSchema, bind_apply, readText_eq, loadFile]
  cases t.text p <;> rfl

variable {t : FileTree} {schema : Option String} {next : Registry → StateM FileTree Outcome}

/-- A command goes on with the registry if its schema loads. -/
theorem withSchema_ok {r : Registry} :
    t.load schema = .ok r → withSchema schema next t = next r t := by
  delta load withSchema
  cases schema with
  | none =>
    -- what the built-in schema builds does not matter, so it is not computed
    cases Builtin.registry with
    | ok r' =>
      intro h
      cases h
      rfl
    | error stop =>
      intro h
      cases h
  | some p =>
    intro h
    simp only at h ⊢
    rw [bind_apply, loadSchema_eq, h]

/-- A command ends if its schema does not load. -/
theorem withSchema_error {stop : Stop} :
    t.load schema = .error stop → ∃ step, withSchema schema next t = (stop.outcome step, t) := by
  delta load withSchema
  cases schema with
  | none =>
    cases Builtin.registry with
    | ok r =>
      intro h
      cases h
    | error stop' =>
      intro h
      cases h
      exact ⟨"Invalid built-in schema", rfl⟩
  | some p =>
    intro h
    simp only at h ⊢
    rw [bind_apply, loadSchema_eq, h]
    exact ⟨"Invalid schema " ++ p, rfl⟩

end FileTree

/-- **A text that is rejected is reported as an error of the schema**, in both formats. -/
theorem failsIn_readSchema (p text : String) : FailsIn Stop.OfSchema (readSchema p text) := by
  unfold readSchema readJson
  split_ifs
  · cases readDocument text with
    | ok d => exact Source.failsIn_build _
    | error fault =>
      cases fault with
      | shape message => exact failsIn_error rfl
      | syntaxError => exact failsIn_error rfl
  · exact (failsIn_readSource p text).ofSchema.bind Source.failsIn_build

theorem FileTree.load_none (t : FileTree) : t.load none = Builtin.registry :=
  rfl

/-- **Why a schema does not load.** Its file holds a text that is rejected, or it cannot be read. -/
theorem FileTree.load_eq_error {t : FileTree} {schema : Option String} {e : Error}
    (h : t.load schema = .error (.error e)) :
    ∃ p, schema = some p ∧
      ((∃ text, t.text p = .ok text ∧ e.isSchemaError) ∨
        ∃ fault, t.text p = .error fault ∧ e = .io (p ++ ": " ++ fault.message)) := by
  cases schema with
  | none =>
    -- the built-in schema loads
    obtain ⟨r, hr, -⟩ := Builtin.exists_registry
    rw [load_none, hr] at h
    cases h
  | some p =>
    refine ⟨p, rfl, ?_⟩
    have hfile : t.loadFile p = .error (.error e) := h
    unfold loadFile at hfile
    cases htext : t.text p with
    | ok text =>
      rw [htext] at hfile
      exact .inl ⟨text, rfl, failsIn_readSchema p text _ hfile⟩
    | error fault =>
      rw [htext] at hfile
      cases hfile
      exact .inr ⟨fault, rfl, rfl⟩

/-! ### Writing and reporting -/

/-- What fails, fails because of a file. -/
def FailsByFile {α : Type} (x : ExceptT Error (StateM FileTree) α) : Prop :=
  ∀ t e, (x.run t).1 = .error e → ∃ fault, e = .io fault

namespace FailsByFile

variable {α β : Type}

theorem pure (a : α) : FailsByFile (Pure.pure a) := by
  rintro t e ⟨⟩

theorem bind {x : ExceptT Error (StateM FileTree) α} {f : α → ExceptT Error (StateM FileTree) β}
    (hx : FailsByFile x) (hf : ∀ a, FailsByFile (f a)) : FailsByFile (x >>= f) := by
  intro t e h
  have hrun : (x >>= f).run t =
      ExceptT.bindCont f (x.run t).1 (x.run t).2 := rfl
  rw [hrun] at h
  cases hfirst : (x.run t).1 with
  | ok a =>
    rw [hfirst] at h
    exact hf a _ e h
  | error e' =>
    rw [hfirst] at h
    cases h
    exact hx t e hfirst

/-- A step on the files. -/
theorem step (x : StateM FileTree (Except FileFault Unit)) :
    FailsByFile (ExceptT.mk (x >>= fun y => Pure.pure (y.mapError fun f => Error.io f.message))) := by
  intro t e h
  have hrun : (((x t).1).mapError fun f => Error.io f.message) = .error e := h
  cases hx : (x t).1 with
  | ok u =>
    rw [hx] at hrun
    cases hrun
  | error f =>
    rw [hx] at hrun
    cases hrun
    exact ⟨f.message, rfl⟩

end FailsByFile

theorem Artifacts.failsByFile_write (a : Artifacts) (o : Options) (dir : String) :
    FailsByFile (ExceptT.mk (a.write o dir)) :=
  (FailsByFile.step _).bind fun _ => (FailsByFile.step _).bind fun _ =>
    (FailsByFile.step _).bind fun _ => .pure _

/-- The sizes of records are missing only if a record is unknown or recursive. -/
theorem Engine.OK.summary_ne {e : Engine} (he : e.OK) (hm : e.model.Aligned) (names : List String) :
    e.summary names ≠ .error .zeroAlignment := by
  induction names generalizing e with
  | nil => rintro ⟨⟩
  | cons name names ih =>
    obtain ⟨hfresh, hok⟩ := he.layout name
    have hmodel : (e.layout name).2.model.Aligned := hm
    have hne := freshLayout_ne_zeroAlignment (u := e.source) hm name
    rw [← hfresh] at hne
    unfold Engine.summary
    generalize e.layout name = answer at hok hmodel hne
    obtain ⟨l | l, e'⟩ := answer
    · intro h
      cases h
      exact hne rfl
    · intro h
      have hrest := ih hok hmodel
      simp only at h
      cases hsummary : e'.summary names with
      | ok lines =>
        rw [hsummary] at h
        cases h
      | error err =>
        rw [hsummary] at h hrest
        cases h
        exact hrest rfl

theorem Registry.layoutSummary_ne (r : Registry) : r.layoutSummary ≠ .error .zeroAlignment :=
  (Engine.ofUnit_ok _ _).summary_ne aligned_lp64 _

/-! ### Commands -/

/-- A command succeeds, or it reports a plain error. -/
def Outcome.Plain (o : Outcome) : Prop :=
  o.code = 0 ∧ o.stderr = "" ∨ o.code = 1 ∧ o.Labelled "Error"

theorem Outcome.plain_success (out : String) : (success out).Plain :=
  .inl ⟨rfl, rfl⟩

theorem Outcome.plain_failure (out message : String) : (failure out "Error" message).Plain :=
  .inr ⟨rfl, labelled_failure out "Error" message⟩

theorem LayoutError.plain_outcome {e : LayoutError} (h : e ≠ .zeroAlignment) (out : String) :
    (e.outcome out).Plain := by
  cases e with
  | recursive name => exact Outcome.plain_failure out _
  | unknown name => exact Outcome.plain_failure out _
  | zeroAlignment => exact (h rfl).elim

/-- What a command does once its schema is loaded: it ends plainly, and only `generate` changes
files. -/
theorem Command.run_eq (c : Command) : ∃ next : Registry → StateM FileTree Outcome,
    c.run = withSchema c.schema? next ∧ (∀ r t, (next r t).1.Plain) ∧
      ((∀ schema dir options, c ≠ .generate schema dir options) → ∀ r t, (next r t).2 = t) := by
  cases c with
  | generate schema dir options =>
    refine ⟨_, by rw [run]; rfl, ?_, fun h => (h schema dir options rfl).elim⟩
    intro r t
    have hwrite := (r.generate options).failsByFile_write options dir
    generalize ((r.generate options).write options dir : StateM FileTree _) = write at hwrite ⊢
    rw [FileTree.bind_apply]
    cases hresult : (write t).1 with
    | ok paths => exact Outcome.plain_success _
    | error e =>
      obtain ⟨fault, rfl⟩ := hwrite t e hresult
      exact Outcome.plain_failure _ _
  | check schema layout =>
    refine ⟨_, by rw [run]; rfl, ?_, ?_⟩
    · intro r t
      split_ifs
      · cases hlayout : r.layoutSummary with
        | ok lines => exact Outcome.plain_success _
        | error e =>
          have hne : e ≠ .zeroAlignment := by
            rintro rfl
            exact r.layoutSummary_ne hlayout
          exact LayoutError.plain_outcome hne _
      · exact Outcome.plain_success _
    · intro _ r t
      split_ifs
      · cases r.layoutSummary <;> rfl
      · rfl
  | dump schema =>
    refine ⟨_, by rw [run]; rfl, ?_, ?_⟩
    · intro r t
      exact Outcome.plain_success _
    · intro _ r t
      rfl

/-- **How a command ends on a tree of files**, and the tree after it. -/
structure Command.EndsWell (c : Command) (t : FileTree) (o : Outcome) (t' : FileTree) : Prop where
  /-- Only `generate` changes files. -/
  keeps : (∀ schema dir options, c ≠ .generate schema dir options) → t' = t
  /-- Nothing is changed unless the schema loads. -/
  unloaded : (∀ r, t.load c.schema? ≠ .ok r) → t' = t
  /-- A schema that is rejected is reported as an error of the schema if its file holds a text, and
  as a plain error if its file cannot be read. -/
  rejected : ∀ e, t.load c.schema? = .error (.error e) → o.code = 1 ∧
    (o.Labelled "Schema error" ↔ ∃ p text, c.schema? = some p ∧ t.text p = .ok text) ∧
    (o.Labelled "Error" ↔ ∃ p fault, c.schema? = some p ∧ t.text p = .error fault)
  /-- Nothing but a plain error is reported after the schema is loaded. -/
  loaded : ∀ r, t.load c.schema? = .ok r → o.Plain

/-- What is reported of a schema that does not load. -/
theorem labelled_of_load {t : FileTree} {schema : Option String} {e : Error}
    (h : t.load schema = .error (.error e)) (step : String) :
    ((e.outcome step).Labelled "Schema error" ↔ ∃ p text, schema = some p ∧ t.text p = .ok text) ∧
      ((e.outcome step).Labelled "Error" ↔
        ∃ p fault, schema = some p ∧ t.text p = .error fault) := by
  have hlabel : (e.outcome step).Labelled e.label := Outcome.labelled_failure ..
  obtain ⟨p, rfl, ⟨text, htext, hschema⟩ | ⟨fault, htext, rfl⟩⟩ := FileTree.load_eq_error h
  · have hschema : e.label = "Schema error" := if_pos hschema
    rw [hschema] at hlabel
    refine ⟨iff_of_true hlabel ⟨p, text, rfl, htext⟩, iff_of_false (·.not_schema hlabel) ?_⟩
    rintro ⟨_, fault, ⟨⟩, hfault⟩
    rw [htext] at hfault
    cases hfault
  · have hplain : (Error.io (p ++ ": " ++ fault.message)).label = "Error" := rfl
    rw [hplain] at hlabel
    refine ⟨iff_of_false hlabel.not_schema ?_, iff_of_true hlabel ⟨p, fault, rfl, htext⟩⟩
    rintro ⟨_, text, ⟨⟩, htext'⟩
    rw [htext] at htext'
    cases htext'

theorem Command.endsWell (c : Command) (t : FileTree) :
    c.EndsWell t ((c.run : StateM FileTree Outcome) t).1 ((c.run : StateM FileTree Outcome) t).2 := by
  obtain ⟨next, hrun, hplain, hkeeps⟩ := c.run_eq
  rw [hrun]
  cases hload : t.load c.schema? with
  | ok r =>
    rw [FileTree.withSchema_ok hload]
    exact
      { keeps := fun hc => hkeeps hc r t
        unloaded := fun h => (h r hload).elim
        rejected := fun e h => by rw [hload] at h; cases h
        loaded := fun _ _ => hplain r t }
  | error stop =>
    obtain ⟨step, hstep⟩ : ∃ step, withSchema c.schema? next t = (stop.outcome step, t) :=
      FileTree.withSchema_error hload
    rw [hstep]
    exact
      { keeps := fun _ => rfl
        unloaded := fun _ => rfl
        rejected := fun e h => by
          rw [hload] at h
          cases h
          exact ⟨rfl, labelled_of_load hload step⟩
        loaded := fun r h => by rw [hload] at h; cases h }

end NodeSchema
