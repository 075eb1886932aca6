import NodeSchema.Proofs.Except
import NodeSchema.Proofs.Registry.Consistent
import Mathlib.Data.List.Nodup
import Mathlib.Data.List.Perm.Basic
import Mathlib.Tactic.Tauto

/-!
# The passes over a source

`Source.build` makes three passes, and each of them adds to lists of names that are taken. A pass
succeeds exactly if its records are well formed and the names are distinct *after* it, so the clash
checks of one pass are a statement on the list with which it ends (`Names.Distinct`).

* `Names.declare_ok_iff`: a name can be taken exactly if the names are distinct after that.
* `addEnums_ok_iff`, `addBases_ok_iff`, `addAllVariants_ok_iff`: the three passes.
-/

namespace NodeSchema

section

variable {α β : Type}

theorem nodup_map_concat_iff {g : α → β} {l : List α} {a : α} :
    ((l ++ [a]).map g).Nodup ↔ (l.map g).Nodup ∧ g a ∉ l.map g := by
  rw [List.map_append, List.map_singleton, List.nodup_append_comm, List.singleton_append,
    List.nodup_cons, and_comm]

theorem nodup_map_of_append {g : α → β} {l₁ l₂ : List α} (h : ((l₁ ++ l₂).map g).Nodup) :
    (l₁.map g).Nodup := by
  rw [List.map_append] at h
  exact h.of_append_left

end

/-! ### Names -/

/-- Exactly the identifiers pass the check. -/
theorem expectIdentifier_ok_iff {loc : Location} {name : String} {u : Unit} :
    expectIdentifier loc name = .ok u ↔ isIdentifier name := by
  unfold expectIdentifier
  split <;> simp_all

namespace Names

/-- No name is taken twice. -/
def Distinct (names : Names) : Prop :=
  (names.map Prod.fst).Nodup

theorem distinct_initial : initial.Distinct := by
  unfold Distinct
  decide

theorem distinct_nil : Distinct [] :=
  List.nodup_nil

/-- Names that are distinct after new ones were taken were distinct before. -/
theorem Distinct.of_append {new names : Names} (h : Distinct (new ++ names)) : names.Distinct := by
  unfold Distinct at h ⊢
  rw [List.map_append] at h
  exact h.of_append_right

/-- A name is not found exactly if it is not taken. -/
theorem lookup_eq_none_iff {names : Names} {name : String} :
    names.lookup name = none ↔ name ∉ names.map Prod.fst := by
  rw [List.lookup_eq_none_iff, List.mem_map]
  constructor
  · rintro h ⟨p, hp, rfl⟩
    simpa using h p hp
  · intro h p hp
    simpa using fun e : name = p.1 => h ⟨p, hp, e.symm⟩

/-- **A name can be taken exactly if the names are distinct after that.** -/
theorem declare_ok_iff {names names' : Names} (hn : names.Distinct) {loc : Location} {name : String}
    {kind : NameKind} :
    names.declare loc name kind = .ok names' ↔
      names' = (name, kind) :: names ∧ Distinct ((name, kind) :: names) := by
  unfold Distinct at hn ⊢
  rw [List.map_cons, List.nodup_cons, ← lookup_eq_none_iff]
  unfold declare
  cases names.lookup name with
  | some taken => simp
  | none =>
    simp only [Except.ok.injEq, hn, and_true]
    exact eq_comm

end Names

open Names

/-! ### Records -/

/-- No member is repeated exactly if the members are distinct and none of them has been seen. -/
theorem firstRepeated_eq_none_iff {seen : List String} {fs : List Field} :
    firstRepeated seen fs = none ↔
      (fs.map (·.name)).Nodup ∧ ∀ name ∈ fs.map (·.name), name ∉ seen := by
  induction fs generalizing seen with
  | nil => simp [firstRepeated]
  | cons f fs ih =>
    unfold firstRepeated
    by_cases hf : f.name ∈ seen
    · simp [hf]
    · rw [if_neg hf, ih, List.map_cons, List.nodup_cons]
      simp only [List.mem_cons, forall_eq_or_imp, not_or]
      constructor
      · rintro ⟨h1, h2⟩
        exact ⟨⟨fun hm => (h2 _ hm).1 rfl, h1⟩, hf, fun name hm => (h2 name hm).2⟩
      · rintro ⟨⟨h1, h2⟩, -, h3⟩
        exact ⟨h2, fun name hm => ⟨fun e => h1 (e ▸ hm), h3 name hm⟩⟩

/-- A record passes exactly if its members are distinct, also from those it embeds. -/
theorem Record.expectDistinct_ok_iff {v : Record} {embedded : List String} {u : Unit} :
    v.expectDistinct embedded = .ok u ↔
      (v.fields.map (·.name)).Nodup ∧ ∀ name ∈ v.fields.map (·.name), name ∉ embedded := by
  rw [← firstRepeated_eq_none_iff]
  unfold Record.expectDistinct
  cases firstRepeated embedded v.fields <;> simp

/-- The header is the first member of a record, by type and by name. -/
theorem Record.hasHeader_iff {v : Record} :
    v.hasHeader ↔ ∃ rest, v.fields = ⟨.value nodeHeaderName, headerMember⟩ :: rest := by
  unfold Record.hasHeader
  cases v.fields with
  | nil => simp
  | cons f fs =>
    obtain ⟨type, name⟩ := f
    simp [and_comm]

/-! ### Enums -/

/-- The members of enums, each with what it stands for. -/
def enumeratorEntries (es : List EnumSource) : Names :=
  es.flatMap fun e => e.members.map fun m => (m, .enumerator e.name)

/-- One enum adds its members, which have to be identifiers that no enum has before. -/
theorem addEnumerators_ok_iff {loc : Location} {owner : String} {ms : List String}
    {enumerators enumerators' : Names} (hn : enumerators.Distinct) :
    addEnumerators loc owner ms enumerators = .ok enumerators' ↔
      (∀ m ∈ ms, isIdentifier m) ∧
      enumerators' = (ms.map fun m => (m, NameKind.enumerator owner)).reverse ++ enumerators ∧
      enumerators'.Distinct := by
  induction ms generalizing enumerators with
  | nil =>
    simp only [addEnumerators, Except.ok.injEq, List.map_nil, List.reverse_nil, List.nil_append]
    constructor
    · rintro rfl
      exact ⟨by simp, rfl, hn⟩
    · rintro ⟨-, rfl, -⟩
      rfl
  | cons m ms ih =>
    rw [addEnumerators]
    simp only [bind_eq_ok, expectIdentifier_ok_iff, declare_ok_iff hn, List.map_cons,
      List.reverse_cons, List.append_assoc, List.singleton_append, List.forall_mem_cons]
    constructor
    · rintro ⟨-, hm, _, ⟨rfl, hd⟩, h⟩
      obtain ⟨hms, rfl, hd'⟩ := (ih hd).1 h
      exact ⟨⟨hm, hms⟩, rfl, hd'⟩
    · rintro ⟨⟨hm, hms⟩, rfl, hd'⟩
      -- names that are distinct in the end were distinct all along
      have hd := hd'.of_append
      exact ⟨(), hm, _, ⟨rfl, hd⟩, (ih hd).2 ⟨hms, rfl, hd'⟩⟩

/-- **The first pass.** -/
theorem addEnums_ok_iff {es : List EnumSource} {names names' enumerators enumerators' : Names}
    (hn : names.Distinct) (hm : enumerators.Distinct) :
    addEnums es names enumerators = .ok (names', enumerators') ↔
      (∀ e ∈ es, isIdentifier e.name ∧ ∀ m ∈ e.members, isIdentifier m) ∧
      names' = (es.map fun e => (e.name, NameKind.preludeEnum)).reverse ++ names ∧
      names'.Distinct ∧
      enumerators' = (enumeratorEntries es).reverse ++ enumerators ∧ enumerators'.Distinct := by
  induction es generalizing names enumerators with
  | nil =>
    simp only [addEnums, enumeratorEntries, Except.ok.injEq, Prod.mk.injEq, List.map_nil,
      List.flatMap_nil, List.reverse_nil, List.nil_append]
    constructor
    · rintro ⟨rfl, rfl⟩
      exact ⟨by simp, rfl, hn, rfl, hm⟩
    · rintro ⟨-, rfl, -, rfl, -⟩
      exact ⟨rfl, rfl⟩
  | cons e es ih =>
    rw [addEnums]
    simp only [bind_eq_ok, expectIdentifier_ok_iff, declare_ok_iff hn, addEnumerators_ok_iff hm,
      enumeratorEntries, List.map_cons, List.flatMap_cons, List.reverse_cons, List.reverse_append,
      List.append_assoc, List.singleton_append, List.forall_mem_cons]
    constructor
    · rintro ⟨-, he, _, ⟨rfl, hd⟩, _, ⟨hms, rfl, hdm⟩, h⟩
      obtain ⟨hes, rfl, hd', rfl, hdm'⟩ := (ih hd hdm).1 h
      exact ⟨⟨⟨he, hms⟩, hes⟩, rfl, hd', rfl, hdm'⟩
    · rintro ⟨⟨⟨he, hms⟩, hes⟩, rfl, hd', rfl, hdm'⟩
      have hd := hd'.of_append
      have hdm := hdm'.of_append
      exact ⟨(), he, _, ⟨rfl, hd⟩, _, ⟨hms, rfl, hdm⟩, (ih hd hdm).2 ⟨hes, rfl, hd', rfl, hdm'⟩⟩

/-! ### Base records -/

/-- The family has the base record that the family source declares, and no variants. -/
structure FamilySource.DeclaresBase (s : FamilySource) (f : Family) : Prop where
  group_name : isIdentifier s.group
  group : f.group = s.group
  entry : ∃ e es, s.entries = e :: es ∧ e.Declares f.base
  header : ∃ rest, f.base.fields = ⟨.value nodeHeaderName, headerMember⟩ :: rest
  fields : (f.base.fields.map (·.name)).Nodup
  variants : f.variants = []

/-- The names that the base records and the containers take. -/
def baseEntries (fs : List Family) : Names :=
  fs.flatMap fun f => [(f.base.name, .baseRecord), (f.containerType, .container)]

theorem reverse_baseEntries_cons_append (f : Family) (fs : List Family) (names : Names) :
    (baseEntries (f :: fs)).reverse ++ names =
      (baseEntries fs).reverse ++ ((baseEntries [f]).reverse ++ names) := by
  simp [baseEntries]

/-- A group clashes with no family before it exactly if neither the group nor its container is
theirs. -/
theorem clashReason?_eq_none_iff {previous : List Family} {group : String} :
    clashReason? previous group = none ↔
      group ∉ previous.map (·.group) ∧ containerType group ∉ previous.map (·.containerType) := by
  unfold clashReason?
  simp only [List.any_eq_true, decide_eq_true_eq, List.mem_map]
  split_ifs <;> simp_all

/-- One step of the second pass: the family has its base record, its group and its container are
new, and the names of both types are taken. -/
theorem addBase_ok_iff {previous : List Family} {names names' : Names} (hn : names.Distinct)
    {s : FamilySource} {f : Family} :
    addBase previous names s = .ok (f, names') ↔
      s.DeclaresBase f ∧ f.group ∉ previous.map (·.group) ∧
      f.containerType ∉ previous.map (·.containerType) ∧
      names' = (baseEntries [f]).reverse ++ names ∧ names'.Distinct := by
  unfold addBase
  rw [bind_eq_ok]
  simp only [expectIdentifier_ok_iff, exists_const]
  constructor
  · rintro ⟨hid, h⟩
    cases he : s.entries with
    | nil => simp [he] at h
    | cons e es =>
      simp only [he] at h
      cases hc : clashReason? previous s.group with
      | some reason => simp [hc] at h
      | none =>
        simp only [hc] at h
        obtain ⟨base, hb, h⟩ := bind_eq_ok.1 h
        split at h
        · cases h
        · rename_i hh
          obtain ⟨_, hd, h⟩ := bind_eq_ok.1 h
          obtain ⟨_, h1, h⟩ := bind_eq_ok.1 h
          obtain ⟨rfl, hd1⟩ := (declare_ok_iff hn).1 h1
          obtain ⟨_, h2, h⟩ := bind_eq_ok.1 h
          obtain ⟨rfl, hd2⟩ := (declare_ok_iff hd1).1 h2
          cases h
          obtain ⟨hg, hk⟩ := clashReason?_eq_none_iff.1 hc
          exact ⟨⟨hid, rfl, ⟨e, es, he, hb⟩, Record.hasHeader_iff.1 (by simpa using hh),
            (Record.expectDistinct_ok_iff.1 hd).1, rfl⟩, hg, hk, rfl, hd2⟩
  · rintro ⟨⟨hid, hg, ⟨e, es, he, hb⟩, hh, hd, hv⟩, hgs, hks, rfl, hd2⟩
    obtain ⟨group, base, variants⟩ := f
    subst hg hv
    have hc := clashReason?_eq_none_iff.2 ⟨hgs, hks⟩
    have hd1 : Distinct ((base.name, .baseRecord) :: names) := (List.nodup_cons.1 hd2).2
    have hd : base.expectDistinct [] = .ok () := Record.expectDistinct_ok_iff.2 ⟨hd, by simp⟩
    refine ⟨hid, ?_⟩
    simp only [he, hc]
    refine bind_eq_ok.2 ⟨base, hb, ?_⟩
    rw [if_neg (by simpa using Record.hasHeader_iff.2 hh)]
    refine bind_eq_ok.2 ⟨(), hd, bind_eq_ok.2 ⟨_, (declare_ok_iff hn).2 ⟨rfl, hd1⟩, ?_⟩⟩
    exact bind_eq_ok.2 ⟨_, (declare_ok_iff hd1).2 ⟨rfl, hd2⟩, rfl⟩

/-- **The second pass.** -/
theorem addBases_ok_iff {ss : List FamilySource} {previous fs : List Family} {names names' : Names}
    (hn : names.Distinct) (hg : (previous.map (·.group)).Nodup)
    (hk : (previous.map (·.containerType)).Nodup) :
    addBases ss previous names = .ok (fs, names') ↔
      ∃ new, fs = previous ++ new ∧ List.Forall₂ FamilySource.DeclaresBase ss new ∧
        (fs.map (·.group)).Nodup ∧ (fs.map (·.containerType)).Nodup ∧
        names' = (baseEntries new).reverse ++ names ∧ names'.Distinct := by
  induction ss generalizing previous fs names names' with
  | nil =>
    simp only [addBases, Except.ok.injEq, Prod.mk.injEq, List.forall₂_nil_left_iff]
    constructor
    · rintro ⟨rfl, rfl⟩
      exact ⟨[], (List.append_nil _).symm, rfl, hg, hk, rfl, hn⟩
    · rintro ⟨_, rfl, rfl, -, -, rfl, -⟩
      exact ⟨(List.append_nil _).symm, rfl⟩
  | cons s ss ih =>
    rw [addBases, bind_eq_ok]
    constructor
    · rintro ⟨⟨f, names₁⟩, h1, h⟩
      obtain ⟨hs, hfg, hfk, rfl, hn1⟩ := (addBase_ok_iff hn).1 h1
      have hg1 := nodup_map_concat_iff.2 ⟨hg, hfg⟩
      have hk1 := nodup_map_concat_iff.2 ⟨hk, hfk⟩
      obtain ⟨new, rfl, hss, hg', hk', rfl, hn'⟩ := (ih hn1 hg1 hk1).1 h
      refine ⟨f :: new, List.append_assoc .., .cons hs hss, hg', hk', ?_, hn'⟩
      exact (reverse_baseEntries_cons_append ..).symm
    · rintro ⟨new, rfl, hss, hg', hk', rfl, hn'⟩
      obtain ⟨f, new, hs, hss', rfl⟩ := List.forall₂_cons_left_iff.1 hss
      rw [List.append_cons previous f new] at hg' hk' ⊢
      rw [reverse_baseEntries_cons_append] at hn' ⊢
      have hn1 := hn'.of_append
      -- the groups and containers of earlier families are among those of all families
      obtain ⟨-, hfg⟩ := nodup_map_concat_iff.1 (nodup_map_of_append hg')
      obtain ⟨-, hfk⟩ := nodup_map_concat_iff.1 (nodup_map_of_append hk')
      refine ⟨(f, _), (addBase_ok_iff hn).2 ⟨hs, hfg, hfk, rfl, hn1⟩, ?_⟩
      exact (ih hn1 (nodup_map_of_append hg') (nodup_map_of_append hk')).2
        ⟨new, rfl, hss', hg', hk', rfl, hn'⟩

/-! ### Variants -/

/-- No tag is taken twice. -/
def TagsDistinct (tags : List Discriminator) : Prop :=
  (tags.map (·.name)).Nodup

theorem tagsDistinct_nil : TagsDistinct [] :=
  List.nodup_nil

theorem TagsDistinct.of_append {tags new : List Discriminator} (h : TagsDistinct (tags ++ new)) :
    TagsDistinct tags := by
  exact nodup_map_of_append h

/-- A tag can be added to distinct tags exactly if it is not found among them. -/
theorem tagsDistinct_concat_iff {tags : List Discriminator} {d : Discriminator} :
    TagsDistinct (tags ++ [d]) ↔ TagsDistinct tags ∧ tags.find? (·.name = d.name) = none := by
  unfold TagsDistinct
  rw [nodup_map_concat_iff, List.find?_eq_none]
  simp

/-- The record can be a variant, if its tag is not taken and no enum has it. -/
structure Record.IsVariant (v : Record) (enumerators : Names) : Prop where
  fields : (v.fields.map (·.name)).Nodup
  embedded : headerMember ∉ v.fields.map (·.name)
  tag : discriminatorName v.name ∉ enumerators.map Prod.fst

/-- One step of the third pass: the record can be a variant, and its tag and its name are taken. -/
theorem addVariant_ok_iff {enumerators : Names} {family : Nat} {e : EntrySource}
    {tags tags' : List Discriminator} {names names' : Names} {v : Record} (hn : names.Distinct)
    (ht : TagsDistinct tags) :
    addVariant enumerators family e tags names = .ok (v, tags', names') ↔
      e.Declares v ∧ v.IsVariant enumerators ∧
      tags' = tags ++ [v.tag family] ∧ TagsDistinct tags' ∧
      names' = (v.name, .variant) :: names ∧ names'.Distinct := by
  unfold addVariant
  rw [bind_eq_ok]
  constructor
  · rintro ⟨v, hv, h⟩
    obtain ⟨_, hd, h⟩ := bind_eq_ok.1 h
    cases ht' : tags.find? (·.name = discriminatorName v.name) with
    | some d => simp [ht'] at h
    | none =>
      cases hm : enumerators.lookup (discriminatorName v.name) with
      | some taken => simp [ht', hm] at h
      | none =>
        simp only [ht', hm] at h
        obtain ⟨_, h1, h⟩ := bind_eq_ok.1 h
        obtain ⟨rfl, hn'⟩ := (declare_ok_iff hn).1 h1
        cases h
        obtain ⟨hf, hs⟩ := Record.expectDistinct_ok_iff.1 hd
        exact ⟨hv, ⟨hf, fun hmem => hs _ hmem (List.mem_singleton_self _),
          lookup_eq_none_iff.1 hm⟩, rfl, tagsDistinct_concat_iff.2 ⟨ht, ht'⟩, rfl, hn'⟩
  · rintro ⟨hv, ⟨hf, hs, hm⟩, rfl, ht', rfl, hn'⟩
    have hd : v.expectDistinct [headerMember] = .ok () :=
      Record.expectDistinct_ok_iff.2 ⟨hf, fun _ hmem e => hs (List.mem_singleton.1 e ▸ hmem)⟩
    have ht' : tags.find? (·.name = discriminatorName v.name) = none :=
      (tagsDistinct_concat_iff.1 ht').2
    refine ⟨v, hv, bind_eq_ok.2 ⟨(), hd, ?_⟩⟩
    simp only [ht', lookup_eq_none_iff.2 hm]
    exact bind_eq_ok.2 ⟨_, (declare_ok_iff hn).2 ⟨rfl, hn'⟩, rfl⟩

/-- The names that variants take. -/
def variantEntries (vs : List Record) : Names :=
  vs.map fun v => (v.name, .variant)

theorem reverse_variantEntries_cons_append (v : Record) (vs : List Record) (names : Names) :
    (variantEntries (v :: vs)).reverse ++ names =
      (variantEntries vs).reverse ++ ((v.name, .variant) :: names) := by
  simp [variantEntries]

/-- The variants of one family take their tags and their names in the order of its entries. -/
theorem addVariants_ok_iff {enumerators : Names} {family : Nat} {es : List EntrySource}
    {tags tags' : List Discriminator} {names names' : Names} {vs : List Record}
    (hn : names.Distinct) (ht : TagsDistinct tags) :
    addVariants enumerators family es tags names = .ok (vs, tags', names') ↔
      List.Forall₂ EntrySource.Declares es vs ∧ (∀ v ∈ vs, v.IsVariant enumerators) ∧
      tags' = tags ++ vs.map (·.tag family) ∧ TagsDistinct tags' ∧
      names' = (variantEntries vs).reverse ++ names ∧ names'.Distinct := by
  induction es generalizing tags tags' names names' vs with
  | nil =>
    simp only [addVariants, Except.ok.injEq, Prod.mk.injEq, List.forall₂_nil_left_iff]
    constructor
    · rintro ⟨rfl, rfl, rfl⟩
      exact ⟨rfl, by simp, by simp, ht, rfl, hn⟩
    · rintro ⟨rfl, -, rfl, -, rfl, -⟩
      exact ⟨rfl, by simp, rfl⟩
  | cons e es ih =>
    rw [addVariants, bind_eq_ok]
    constructor
    · rintro ⟨⟨v, tags₁, names₁⟩, h1, h⟩
      obtain ⟨⟨vs, tags₂, names₂⟩, h2, h⟩ := bind_eq_ok.1 h
      cases h
      obtain ⟨hv, hok, rfl, ht1, rfl, hn1⟩ := (addVariant_ok_iff hn ht).1 h1
      obtain ⟨hvs, hoks, rfl, ht', rfl, hn'⟩ := (ih hn1 ht1).1 h2
      refine ⟨.cons hv hvs, List.forall_mem_cons.2 ⟨hok, hoks⟩, ?_, ht', ?_, hn'⟩
      · exact (List.append_cons tags (v.tag family) _).symm
      · exact (reverse_variantEntries_cons_append ..).symm
    · rintro ⟨hvs, hoks, rfl, ht', rfl, hn'⟩
      obtain ⟨v, vs, hv, hvs', rfl⟩ := List.forall₂_cons_left_iff.1 hvs
      obtain ⟨hok, hoks⟩ := List.forall_mem_cons.1 hoks
      rw [List.map_cons, List.append_cons tags (v.tag family)] at ht' ⊢
      rw [reverse_variantEntries_cons_append] at hn' ⊢
      have ht1 := ht'.of_append
      have hn1 := hn'.of_append
      refine ⟨(v, _, _), (addVariant_ok_iff hn ht).2 ⟨hv, hok, rfl, ht1, rfl, hn1⟩, ?_⟩
      exact bind_eq_ok.2 ⟨(vs, _, _), (ih hn1 ht1).2 ⟨hvs', hoks, rfl, ht', rfl, hn'⟩, rfl⟩

/-- The family without its variants. -/
def Family.bare (f : Family) : Family :=
  { f with variants := [] }

/-- The family is the one that is read from the family source. -/
def FamilySource.Reads (s : FamilySource) (f : Family) : Prop :=
  s.DeclaresBase f.bare ∧ List.Forall₂ EntrySource.Declares s.entries.tail f.variants

/-- The tags of the first family come first. -/
theorem tagsFrom_cons (start : ℕ) (f : Family) (fs : List Family) :
    tagsFrom start (f :: fs) = f.variants.map (·.tag start) ++ tagsFrom (start + 1) fs := by
  simp [tagsFrom, List.zipIdx_cons]

theorem reverse_variantEntries_append (vs ws : List Record) (names : Names) :
    (variantEntries (vs ++ ws)).reverse ++ names =
      (variantEntries ws).reverse ++ ((variantEntries vs).reverse ++ names) := by
  simp [variantEntries]

/-- **The third pass.** -/
theorem addAllVariants_ok_iff {enumerators : Names} {start : ℕ} {ss : List FamilySource}
    {bases fs : List Family} (hb : List.Forall₂ FamilySource.DeclaresBase ss bases)
    {tags tags' : List Discriminator} {names : Names} (hn : names.Distinct)
    (ht : TagsDistinct tags) :
    addAllVariants enumerators start ss bases tags names = .ok (fs, tags') ↔
      fs.map Family.bare = bases ∧ List.Forall₂ FamilySource.Reads ss fs ∧
      (∀ f ∈ fs, ∀ v ∈ f.variants, v.IsVariant enumerators) ∧
      tags' = tags ++ tagsFrom start fs ∧ TagsDistinct tags' ∧
      Distinct ((variantEntries (fs.flatMap (·.variants))).reverse ++ names) := by
  induction hb generalizing start fs tags tags' names with
  | nil =>
    simp only [addAllVariants, Except.ok.injEq, Prod.mk.injEq, List.forall₂_nil_left_iff]
    constructor
    · rintro ⟨rfl, rfl⟩
      exact ⟨rfl, rfl, by simp, (List.append_nil _).symm, ht, hn⟩
    · rintro ⟨-, rfl, -, rfl, -, -⟩
      exact ⟨rfl, (List.append_nil _).symm⟩
  | @cons s b ss bases hs hss ih =>
    rw [addAllVariants, bind_eq_ok]
    constructor
    · rintro ⟨⟨vs, tags₁, names₁⟩, h1, h⟩
      obtain ⟨⟨fs, tags₂⟩, h2, h⟩ := bind_eq_ok.1 h
      cases h
      obtain ⟨hvs, hoks, rfl, ht1, rfl, hn1⟩ := (addVariants_ok_iff hn ht).1 h1
      obtain ⟨rfl, hfs, hall, rfl, ht', hn'⟩ := (ih hn1 ht1).1 h2
      -- the second pass has left the family without variants
      have hbare : Family.bare { b with variants := vs } = b := by
        obtain ⟨group, base, variants⟩ := b
        have hv : variants = [] := hs.variants
        rw [hv]
        rfl
      refine ⟨by rw [List.map_cons, hbare], .cons ⟨by rwa [hbare], hvs⟩ hfs,
        List.forall_mem_cons.2 ⟨hoks, hall⟩, ?_, ht', ?_⟩
      · rw [tagsFrom_cons, List.append_assoc]
      · rw [List.flatMap_cons, reverse_variantEntries_append]
        exact hn'
    · rintro ⟨hbs, hfs, hall, rfl, ht', hn'⟩
      obtain ⟨f, fs, ⟨-, hvs⟩, hfs', rfl⟩ := List.forall₂_cons_left_iff.1 hfs
      obtain ⟨rfl, rfl⟩ := List.cons_eq_cons.1 hbs
      obtain ⟨hoks, hall⟩ := List.forall_mem_cons.1 hall
      rw [tagsFrom_cons, ← List.append_assoc] at ht' ⊢
      rw [List.flatMap_cons, reverse_variantEntries_append] at hn'
      have ht1 := ht'.of_append
      have hn1 := hn'.of_append
      refine ⟨(f.variants, _, _), (addVariants_ok_iff hn ht).2 ⟨hvs, hoks, rfl, ht1, rfl, hn1⟩, ?_⟩
      exact bind_eq_ok.2 ⟨(fs, _), (ih hn1 ht1).2 ⟨rfl, hfs', hall, rfl, ht', hn'⟩, rfl⟩

end NodeSchema
