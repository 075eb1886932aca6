import NodeSchema.C.Unit
import NodeSchema.Proofs.Field.Printing

/-!
# Units as lines

A printed unit is its items with an empty line between any two of them. Where no item has an empty
line, the items are found again at the empty lines. The first line of an item says whether it is an
enum or a record, and the lines of an enum or a record say all of it.

* `Item.toList_render`: an item as its lines.
* `Item.WellFormed`: what makes an item readable.
* `Item.eq_of_lines`: **enums and records of the same lines are equal.**
* `SourceUnit.eq_of_render`: **units that are printed alike have the same records and enums.**
-/

namespace NodeSchema.C

open Text

/-! ### Lines -/

/-- The line of a member. -/
def memberLine (ending text : String) : List Char :=
  (indent 1).toList ++ text.toList ++ ending.toList

/-- The first line of a record. -/
def RecordDecl.opening (r : RecordDecl) : List Char :=
  match r.kind with
  | .typedef => "typedef struct \x7b".toList
  | .tagged => "typedef struct ".toList ++ r.name.toList ++ " \x7b".toList
  | .struct => "struct ".toList ++ r.name.toList ++ " \x7b".toList

/-- The last line of a record. -/
def RecordDecl.closing (r : RecordDecl) : List Char :=
  match r.kind with
  | .typedef | .tagged => "\x7d ".toList ++ r.name.toList ++ ";".toList
  | .struct => "\x7d;".toList

/-- The lines of a record. -/
def RecordDecl.lines (r : RecordDecl) : List (List Char) :=
  r.opening :: r.members.map (fun m => memberLine ";" (toString m)) ++ [r.closing]

/-- The lines of an enum. -/
def EnumDecl.lines (e : EnumDecl) : List (List Char) :=
  "typedef enum \x7b".toList :: e.members.map (memberLine ",") ++
    ["\x7d ".toList ++ e.name.toList ++ ";".toList]

/-- The lines of an item. A definition is left as one text. -/
def Item.lines : Item → List (List Char)
  | .directives ls => ls.map String.toList
  | .enum e => e.lines
  | .record r => r.lines
  | .prototypes fs => fs.map fun f => f.prototype.toList
  | .definition f => [f.definition.toList]

theorem toList_memberLines (ending : String) (texts : List String) :
    (memberLines ending texts).toList = (texts.map (memberLine ending)).flatMap (· ++ ['\n']) := by
  simp [memberLines, memberLine, String.toList_join, List.flatMap_map, String.toList_append]

theorem RecordDecl.toList_render (r : RecordDecl) :
    r.render.toList = ['\n'].intercalate r.lines := by
  rw [lines, intercalate_concat, List.flatMap_cons, RecordDecl.render, String.toList_append,
    String.toList_append, toList_memberLines, List.map_map]
  obtain ⟨name, kind, members⟩ := r
  cases kind <;> simp [opening, closing, String.toList_append, Function.comp_def]

theorem EnumDecl.toList_render (e : EnumDecl) : e.render.toList = ['\n'].intercalate e.lines := by
  unfold EnumDecl.render
  rw [lines, intercalate_concat, List.flatMap_cons]
  simp [toList_memberLines, String.toList_append]

/-- **An item is its lines.** -/
theorem Item.toList_render (i : Item) : i.render.toList = ['\n'].intercalate i.lines := by
  cases i with
  | directives ls => simp [render, lines, String.toList_intercalate]
  | enum e => exact e.toList_render
  | record r => exact r.toList_render
  | prototypes fs => simp [render, lines, String.toList_intercalate, Function.comp_def]
  | definition f => simp [render, lines]

/-! ### Items that can be read -/

/-- The record has a name that is an identifier, and well-formed members. -/
structure RecordDecl.WellFormed (r : RecordDecl) : Prop where
  name : isIdentifier r.name
  member : ∀ m ∈ r.members, m.WellFormed

/-- The enum and its members are identifiers. -/
structure EnumDecl.WellFormed (e : EnumDecl) : Prop where
  name : isIdentifier e.name
  member : ∀ m ∈ e.members, isIdentifier m

/-- What the function returns, its name and its parameters are well formed. -/
structure FunctionDecl.WellFormed (f : FunctionDecl) : Prop where
  result : Field.WellFormed ⟨f.returnType, f.name⟩
  param : ∀ p ∈ f.params, p.WellFormed

/-- An item whose lines say what it is. -/
def Item.WellFormed : Item → Prop
  | .directives ls => ls ≠ [] ∧ ∀ l ∈ ls, "#".toList <+: l.toList ∧ '\n' ∉ l.toList
  | .enum e => e.WellFormed
  | .record r => r.WellFormed
  | .prototypes fs => fs ≠ [] ∧ ∀ f ∈ fs, f.WellFormed
  | .definition _ => False

theorem lineFeed_not_mem_of_isIdentifier {name : String} (h : isIdentifier name) :
    '\n' ∉ name.toList :=
  not_mem_of_isWord h (by decide)

theorem lineFeed_not_mem_toString {f : Field} (h : f.WellFormed) : '\n' ∉ (toString f).toList :=
  h.not_mem_toString (by decide) (by decide) (by decide)

theorem memberLine_ne_nil {ending text : String} : memberLine ending text ≠ [] := by
  simp [memberLine, indent]

theorem lineFeed_not_mem_memberLine {ending text : String} (he : '\n' ∉ ending.toList)
    (ht : '\n' ∉ text.toList) : '\n' ∉ memberLine ending text := by
  simp [memberLine, indent, he, ht]

/-- The line holds something, and it is one line. -/
def Solid (l : List Char) : Prop :=
  l ≠ [] ∧ '\n' ∉ l

/-- No line of a record that can be read is empty or divided. -/
theorem RecordDecl.WellFormed.solid {r : RecordDecl} (h : r.WellFormed) :
    ∀ l ∈ r.lines, Solid l := by
  have hname := lineFeed_not_mem_of_isIdentifier h.name
  intro l hl
  simp only [lines, List.cons_append, List.mem_cons, List.mem_append, List.mem_map,
    List.not_mem_nil, or_false] at hl
  rcases hl with rfl | ⟨m, hm, rfl⟩ | rfl
  · unfold opening
    cases r.kind <;> simp [Solid, hname]
  · exact ⟨memberLine_ne_nil, lineFeed_not_mem_memberLine (by decide)
      (lineFeed_not_mem_toString (h.member m hm))⟩
  · unfold closing
    cases r.kind <;> simp [Solid, hname]

theorem EnumDecl.WellFormed.solid {e : EnumDecl} (h : e.WellFormed) : ∀ l ∈ e.lines, Solid l := by
  have hname := lineFeed_not_mem_of_isIdentifier h.name
  intro l hl
  simp only [lines, List.cons_append, List.mem_cons, List.mem_append, List.mem_map,
    List.not_mem_nil, or_false] at hl
  rcases hl with rfl | ⟨m, hm, rfl⟩ | rfl
  · simp [Solid]
  · exact ⟨memberLine_ne_nil, lineFeed_not_mem_memberLine (by decide)
      (lineFeed_not_mem_of_isIdentifier (h.member m hm))⟩
  · simp [Solid, hname]

theorem FunctionDecl.toList_prototype (f : FunctionDecl) :
    f.prototype.toList = (toString (⟨f.returnType, f.name⟩ : Field)).toList ++
      '(' :: [',', ' '].intercalate (f.params.map fun p => (toString p).toList) ++ [')', ';'] := by
  have hresult : toString (⟨f.returnType, f.name⟩ : Field) =
    toString f.returnType ++ " " ++ f.name := rfl
  unfold prototype signature
  rw [← hresult]
  simp [String.toList_append, String.toList_intercalate, Function.comp_def]

theorem FunctionDecl.WellFormed.solid {f : FunctionDecl} (h : f.WellFormed) :
    Solid f.prototype.toList := by
  have hresult := lineFeed_not_mem_toString h.result
  have hparams : '\n' ∉ [',', ' '].intercalate (f.params.map fun p => (toString p).toList) := by
    refine not_mem_intercalate (by decide) ?_
    rw [List.forall_mem_map]
    exact fun p hp => lineFeed_not_mem_toString (h.param p hp)
  rw [toList_prototype]
  exact ⟨by simp, by simp [hresult, hparams]⟩

/-- The lines of an item that can be read. -/
theorem Item.WellFormed.solid {i : Item} (h : i.WellFormed) :
    i.lines ≠ [] ∧ ∀ l ∈ i.lines, Solid l := by
  cases i with
  | directives ls =>
    obtain ⟨hne, hls⟩ := h
    refine ⟨by simpa [lines] using hne, ?_⟩
    simp only [lines, List.forall_mem_map]
    intro l hl
    obtain ⟨⟨rest, hrest⟩, hfeed⟩ := hls l hl
    exact ⟨by simp [← hrest], hfeed⟩
  | enum e => exact ⟨by simp [lines, EnumDecl.lines], EnumDecl.WellFormed.solid h⟩
  | record r => exact ⟨by simp [lines, RecordDecl.lines], RecordDecl.WellFormed.solid h⟩
  | prototypes fs =>
    obtain ⟨hne, hfs⟩ := h
    refine ⟨by simpa [lines] using hne, ?_⟩
    simp only [lines, List.forall_mem_map]
    exact fun f hf => (hfs f hf).solid
  | definition f => exact h.elim

/-! ### What the first line says -/

/-- What an item is, as far as it can be looked up. -/
inductive Item.Kind where
  | enum
  | record
  | other
deriving DecidableEq

def Item.kind : Item → Item.Kind
  | .enum _ => .enum
  | .record _ => .record
  | _ => .other

/-- What the first line of an item says that the item is. -/
def kindOf (opening : List Char) : Item.Kind :=
  if opening = "typedef enum \x7b".toList then .enum
  else if opening.head? ≠ some '#' ∧ opening.getLast? = some '\x7b' then .record
  else .other

theorem kindOf_opening (r : RecordDecl) : kindOf r.opening = .record := by
  unfold kindOf RecordDecl.opening
  cases r.kind <;> simp [List.getLast?_cons, List.getLast?_append]

theorem kindOf_directive {l : List Char} (h : "#".toList <+: l) : kindOf l = .other := by
  obtain ⟨rest, rfl⟩ := h
  simp [kindOf]

/-- A line with a semicolon at its end opens neither a record nor an enum. -/
theorem kindOf_of_getLast? {l : List Char} (h : l.getLast? = some ';') : kindOf l = .other := by
  have hne : l ≠ "typedef enum \x7b".toList := by
    rintro rfl
    exact absurd h (by decide)
  rw [kindOf, if_neg hne, h, if_neg (by simp)]

theorem kindOf_prototype (f : FunctionDecl) : kindOf f.prototype.toList = .other := by
  refine kindOf_of_getLast? ?_
  rw [FunctionDecl.toList_prototype]
  simp [List.getLast?_cons, List.getLast?_append]

/-- **The first line of an item says what it is.** -/
theorem Item.WellFormed.kindOf_lines {i : Item} (h : i.WellFormed) :
    i.lines.head?.map kindOf = some i.kind := by
  cases i with
  | directives ls =>
    obtain ⟨l, ls, rfl⟩ := List.exists_cons_of_ne_nil h.1
    have hl := kindOf_directive (h.2 l List.mem_cons_self).1
    simp [lines, hl, kind]
  | enum e => simp [lines, EnumDecl.lines, kindOf, kind]
  | record r => simp [lines, RecordDecl.lines, kindOf_opening, kind]
  | prototypes fs =>
    obtain ⟨f, fs, rfl⟩ := List.exists_cons_of_ne_nil h.1
    simp [lines, kindOf_prototype, kind]
  | definition f => exact h.elim

/-! ### What the lines say -/

/-- Members are told apart by their lines. -/
theorem map_memberLine_inj {ending : String} {ts ts' : List String}
    (h : ts.map (memberLine ending) = ts'.map (memberLine ending)) : ts = ts' := by
  refine (List.map_inj_right fun t t' ht => ?_).1 h
  simpa [memberLine, String.toList_inj] using ht

/-- An enum is told by its lines. -/
theorem EnumDecl.eq_of_lines {e e' : EnumDecl} (h : e.lines = e'.lines) : e = e' := by
  obtain ⟨name, members⟩ := e
  obtain ⟨name', members'⟩ := e'
  obtain ⟨-, h⟩ := List.cons_eq_cons.1 h
  obtain ⟨hmembers, hclosing⟩ := List.append_inj' h rfl
  obtain rfl := map_memberLine_inj hmembers
  have hname : name = name' := by simpa [String.toList_inj] using hclosing
  rw [hname]

theorem RecordDecl.kind_eq_of_opening {r r' : RecordDecl} (h : r.opening = r'.opening) :
    r.kind = r'.kind := by
  have hlength := congrArg List.length h
  unfold opening at h hlength
  cases hk : r.kind <;> cases hk' : r'.kind <;> simp [hk, hk'] at h hlength ⊢

/-- A record that can be read is told by its lines. -/
theorem RecordDecl.WellFormed.eq_of_lines {r r' : RecordDecl} (hr : r.WellFormed)
    (hr' : r'.WellFormed) (h : r.lines = r'.lines) : r = r' := by
  obtain ⟨hopening, h⟩ := List.cons_eq_cons.1 h
  obtain ⟨hmembers, hclosing⟩ := List.append_inj' h rfl
  obtain ⟨name, kind, members⟩ := r
  obtain ⟨name', kind', members'⟩ := r'
  obtain rfl : kind = kind' := kind_eq_of_opening hopening
  have hname : name = name' := by
    cases kind with
    | typedef => simpa [closing, String.toList_inj] using hclosing
    | tagged => simpa [closing, String.toList_inj] using hclosing
    | struct => simpa [opening, String.toList_inj] using hopening
  have hfields : members = members' := by
    have htexts : (members.map toString).map (memberLine ";") =
        (members'.map toString).map (memberLine ";") := by
      rwa [List.map_map, List.map_map]
    exact Field.WellFormed.eq_of_map_toString hr.member hr'.member (map_memberLine_inj htexts)
  rw [hname, hfields]

/-! ### Units -/

def Item.record? : Item → Option RecordDecl
  | .record r => some r
  | _ => none

def Item.enum? : Item → Option EnumDecl
  | .enum e => some e
  | _ => none

/-- **Enums and records of the same lines are equal.** -/
theorem Item.eq_of_lines {i i' : Item} (h : i.WellFormed) (h' : i'.WellFormed)
    (hlines : i.lines = i'.lines) : i.record? = i'.record? ∧ i.enum? = i'.enum? := by
  have hkind : i.kind = i'.kind := by
    have hi := h.kindOf_lines
    rw [hlines, h'.kindOf_lines] at hi
    exact (Option.some_inj.1 hi).symm
  cases i with
  | enum e =>
    cases i' with
    | enum e' =>
      rw [EnumDecl.eq_of_lines hlines]
      exact ⟨rfl, rfl⟩
    | _ => cases hkind
  | record r =>
    cases i' with
    | record r' =>
      rw [RecordDecl.WellFormed.eq_of_lines h h' hlines]
      exact ⟨rfl, rfl⟩
    | _ => cases hkind
  | _ =>
    cases i' with
    | enum e' => cases hkind
    | record r' => cases hkind
    | _ => exact ⟨rfl, rfl⟩

/-- Items as they are printed, with an empty line between any two of them. -/
def blockText (is : List Item) : List Char :=
  ['\n', '\n'].intercalate ((is.map Item.lines).map ['\n'].intercalate)

theorem SourceUnit.toList_render (u : SourceUnit) :
    u.render.toList = blockText u.items ++ ['\n'] := by
  unfold SourceUnit.render blockText
  simp [String.toList_append, String.toList_intercalate, Function.comp_def, Item.toList_render]

theorem blockText_append {is js : List Item} (hi : is ≠ []) (hj : js ≠ []) :
    blockText (is ++ js) = blockText is ++ ['\n', '\n'] ++ blockText js := by
  unfold blockText
  rw [List.map_append, List.map_append, intercalate_append (by simpa using hi) (by simpa using hj)]

/-- **The lines of items are found again at the empty lines.** -/
theorem splitOn_blockText {is : List Item} (hne : is ≠ []) (h : ∀ i ∈ is, i.WellFormed) :
    ((blockText is).splitOn '\n').splitOn [] = is.map Item.lines := by
  refine splitOn_blocks (by simpa using hne) ?_
  rw [List.forall_mem_map]
  exact fun i hi => (h i hi).solid

/-- Units that are printed alike between the same items have the same lines there. -/
theorem lines_eq_of_render {before after is is' : List Item} (hbefore : before ≠ [])
    (hafter : after ≠ []) (hne : is ≠ []) (hne' : is' ≠ []) (h : ∀ i ∈ is, i.WellFormed)
    (h' : ∀ i ∈ is', i.WellFormed)
    (htext : SourceUnit.render ⟨before ++ is ++ after⟩ =
      SourceUnit.render ⟨before ++ is' ++ after⟩) :
    is.map Item.lines = is'.map Item.lines := by
  -- what precedes and follows the items is the same text in both units
  have hlist : blockText (before ++ is ++ after) = blockText (before ++ is' ++ after) := by
    have := congrArg String.toList htext
    rwa [SourceUnit.toList_render, SourceUnit.toList_render, List.append_cancel_right_eq] at this
  rw [List.append_assoc, List.append_assoc, blockText_append hbefore (by simp [hne]),
    blockText_append hbefore (by simp [hne']), List.append_cancel_left_eq,
    blockText_append hne hafter, blockText_append hne' hafter, List.append_cancel_right_eq,
    List.append_cancel_right_eq] at hlist
  rw [← splitOn_blockText hne h, ← splitOn_blockText hne' h', hlist]

/-- The lines of items say which records and enums there are. -/
theorem filterMap_eq_of_lines {is is' : List Item} (h : ∀ i ∈ is, i.WellFormed)
    (h' : ∀ i ∈ is', i.WellFormed) (hlines : is.map Item.lines = is'.map Item.lines) :
    is.filterMap Item.record? = is'.filterMap Item.record? ∧
      is.filterMap Item.enum? = is'.filterMap Item.enum? := by
  induction is generalizing is' with
  | nil =>
    rw [List.map_eq_nil_iff.1 hlines.symm]
    exact ⟨rfl, rfl⟩
  | cons i is ih =>
    obtain ⟨i', is', rfl, hi, hlines⟩ := List.map_eq_cons_iff.1 hlines.symm
    obtain ⟨hwf, h⟩ := List.forall_mem_cons.1 h
    obtain ⟨hwf', h'⟩ := List.forall_mem_cons.1 h'
    obtain ⟨hrecord, henum⟩ := Item.eq_of_lines hwf hwf' hi.symm
    obtain ⟨hrecords, henums⟩ := ih h h' hlines.symm
    rw [List.filterMap_cons, List.filterMap_cons, hrecord, hrecords, List.filterMap_cons,
      List.filterMap_cons, henum, henums]
    exact ⟨rfl, rfl⟩

theorem SourceUnit.records_eq (u : SourceUnit) : u.records = u.items.filterMap Item.record? :=
  rfl

theorem SourceUnit.enums_eq (u : SourceUnit) : u.enums = u.items.filterMap Item.enum? :=
  rfl

/-- **Units that are printed alike have the same records and enums.** -/
theorem SourceUnit.eq_of_render {before after is is' : List Item} (hbefore : before ≠ [])
    (hafter : after ≠ []) (hne : is ≠ []) (hne' : is' ≠ []) (h : ∀ i ∈ is, i.WellFormed)
    (h' : ∀ i ∈ is', i.WellFormed)
    (htext : SourceUnit.render ⟨before ++ is ++ after⟩ =
      SourceUnit.render ⟨before ++ is' ++ after⟩) :
    SourceUnit.records ⟨before ++ is ++ after⟩ = SourceUnit.records ⟨before ++ is' ++ after⟩ ∧
      SourceUnit.enums ⟨before ++ is ++ after⟩ = SourceUnit.enums ⟨before ++ is' ++ after⟩ := by
  have hlines := lines_eq_of_render hbefore hafter hne hne' h h' htext
  obtain ⟨hrecords, henums⟩ := filterMap_eq_of_lines h h' hlines
  simp only [SourceUnit.records_eq, SourceUnit.enums_eq, List.filterMap_append, hrecords, henums,
    and_self]

end NodeSchema.C
