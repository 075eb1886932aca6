import NodeSchema.Naming
import NodeSchema.Proofs.Text.Pieces

/-!
# Derived names

The names that are derived from identifiers are identifiers again. Where two kinds of derived names
are never the same name, a small letter tells them apart: a discriminator has none, and the name of a
container has some but does not start with one.

* `isIdentifier_containerType`, `isIdentifier_discriminatorName`: derived names are identifiers.
* `hasLower_discriminatorName`, `startsLower_containerType`: where derived names have small letters.
-/

namespace NodeSchema

open Text

/-! ### Identifiers -/

/-- An identifier stays one with word characters behind it. -/
theorem isIdentifier_append {a b : String} (ha : isIdentifier a)
    (hb : ∀ c ∈ b.toList, isWordChar c) : isIdentifier (a ++ b) := by
  obtain ⟨c, s, hs, hc, hall⟩ := isIdentifier_iff.1 ha
  have hjoin : (a ++ b).toList = c :: (s ++ b.toList) := by
    rw [String.toList_append, hs, List.cons_append]
  refine isIdentifier_iff.2 ⟨c, s ++ b.toList, hjoin, hc, ?_⟩
  intro d hd
  rcases List.mem_append.1 hd with hd | hd
  · exact hall d hd
  · exact hb d hd

theorem toNat_toUpper (c : Char) :
    c.toUpper.toNat = if 97 ≤ c.toNat ∧ c.toNat ≤ 122 then c.toNat - 32 else c.toNat := by
  have hlower : ('a'.val ≤ c.val ∧ c.val ≤ 'z'.val) ↔ (97 ≤ c.toNat ∧ c.toNat ≤ 122) := by
    rw [UInt32.le_iff_toNat_le, UInt32.le_iff_toNat_le]
    rfl
  unfold Char.toUpper
  split_ifs with h h' h'
  · -- the difference of the cases is added in 32 bits
    have hshift : ('A'.val - 'a'.val).toNat = 4294967264 := rfl
    have hval : c.val.toNat = c.toNat := rfl
    change (c.val + ('A'.val - 'a'.val)).toNat = c.toNat - 32
    rw [UInt32.toNat_add, hshift]
    omega
  · exact (h' (hlower.1 h)).elim
  · exact (h (hlower.2 h')).elim
  · rfl

theorem isWordStart_toUpper {c : Char} (h : isWordStart c) : isWordStart c.toUpper := by
  rw [isWordStart_iff] at h ⊢
  rw [toNat_toUpper]
  split_ifs <;> omega

theorem isWordChar_toUpper {c : Char} (h : isWordChar c) : isWordChar c.toUpper := by
  rw [isWordChar_iff] at h ⊢
  rw [toNat_toUpper]
  split_ifs <;> omega

/-- The title of an identifier has its first character in upper case. -/
theorem exists_toList_titleCase {name : String} (h : isIdentifier name) :
    ∃ c s, name.toList = c :: s ∧ (titleCase name).toList = c.toUpper :: s := by
  obtain ⟨c, s, hs, hc, -⟩ := isIdentifier_iff.1 h
  have hlt : c.toNat < 128 := by
    have := isWordChar_iff.1 (isWordChar_of_isWordStart hc)
    omega
  refine ⟨c, s, hs, ?_⟩
  rw [titleCase, hs]
  simp [upper_of_lt hlt]

theorem length_titleCase {name : String} (h : isIdentifier name) :
    (titleCase name).length = name.length := by
  obtain ⟨c, s, hs, htitle⟩ := exists_toList_titleCase h
  rw [← String.length_toList, ← String.length_toList, hs, htitle, List.length_cons,
    List.length_cons]

/-- The title of an identifier is one. -/
theorem isIdentifier_titleCase {name : String} (h : isIdentifier name) :
    isIdentifier (titleCase name) := by
  obtain ⟨c, s, hs, htitle⟩ := exists_toList_titleCase h
  obtain ⟨d, t, ht, hd, hall⟩ := isIdentifier_iff.1 h
  obtain ⟨rfl, rfl⟩ := List.cons_eq_cons.1 (hs.symm.trans ht)
  exact isIdentifier_iff.2 ⟨_, s, htitle, isWordStart_toUpper hd, hall⟩

theorem isIdentifier_containerType {group : String} (h : isIdentifier group) :
    isIdentifier (containerType group) :=
  isIdentifier_append (isIdentifier_titleCase h) (List.all_eq_true.1 rfl)

theorem isIdentifier_discriminatorName {variant : String} (h : isIdentifier variant) :
    isIdentifier (discriminatorName variant) := by
  refine isIdentifier_append (by decide) ?_
  rw [String.toList_ofList, List.forall_mem_map]
  exact fun c hc => isWordChar_toUpper (isWordChar_of_isWord h c hc)

/-- The buffer member of a container ends in `s`. -/
theorem containerMember_ne {group name : String} (h : name.toList.getLast? ≠ some 's') :
    containerMember group ≠ name := by
  rintro rfl
  apply h
  rw [containerMember, String.toList_append]
  exact List.getLast?_concat

/-! ### Small letters -/

/-- Whether a name has a small letter. -/
def hasLower (name : String) : Bool :=
  name.toList.any Char.isLower

/-- Whether a name starts with a small letter. -/
def startsLower (name : String) : Bool :=
  name.toList.head?.any Char.isLower

theorem isLower_iff {c : Char} : c.isLower ↔ 97 ≤ c.toNat ∧ c.toNat ≤ 122 := by
  delta Char.isLower
  simp [UInt32.le_iff_toNat_le, ← Char.toNat_val]

theorem toUpper_eq_self {c : Char} (h : c.isLower = false) : c.toUpper = c := by
  rw [Bool.eq_false_iff, ne_eq, isLower_iff] at h
  rw [← Char.toNat_inj, toNat_toUpper, if_neg h]

/-- Nothing in upper case is a small letter. -/
theorem isLower_toUpper (c : Char) : c.toUpper.isLower = false := by
  rw [Bool.eq_false_iff, ne_eq, isLower_iff, toNat_toUpper]
  split_ifs <;> omega

theorem hasLower_append (a b : String) : hasLower (a ++ b) = (hasLower a || hasLower b) := by
  simp [hasLower, String.toList_append]

theorem hasLower_of_startsLower {name : String} (h : startsLower name) : hasLower name := by
  obtain ⟨c, hc, hlower⟩ := (Option.any_eq_true _ _).1 h
  exact List.any_eq_true.2 ⟨c, List.mem_of_mem_head? hc, hlower⟩

theorem startsLower_append {a : String} (h : a ≠ "") (b : String) :
    startsLower (a ++ b) = startsLower a := by
  have hne : a.toList ≠ [] := by simpa using h
  obtain ⟨c, s, hs⟩ := List.exists_cons_of_ne_nil hne
  rw [startsLower, startsLower, String.toList_append, hs, List.cons_append, List.head?_cons,
    List.head?_cons]

/-- A discriminator has no small letter. -/
theorem hasLower_discriminatorName (variant : String) :
    hasLower (discriminatorName variant) = false := by
  have hrest : hasLower (String.ofList (variant.toList.map Char.toUpper)) = false := by
    rw [hasLower, String.toList_ofList, List.any_eq_false]
    intro c hc
    obtain ⟨d, -, rfl⟩ := List.mem_map.1 hc
    rw [isLower_toUpper]
    exact Bool.false_ne_true
  rw [discriminatorName, hasLower_append, hrest]
  rfl

theorem hasLower_containerType (group : String) : hasLower (containerType group) := by
  have harray : hasLower "Array" := by decide
  rw [containerType, hasLower_append, harray, Bool.or_true]

/-- A name that does not start with a small letter is its own title. -/
theorem titleCase_eq_self {name : String} (h : isIdentifier name)
    (hlower : startsLower name = false) : titleCase name = name := by
  obtain ⟨c, s, hs, htitle⟩ := exists_toList_titleCase h
  rw [startsLower, hs] at hlower
  rw [← String.toList_inj, htitle, hs, toUpper_eq_self hlower]

/-- A container does not start with a small letter. -/
theorem startsLower_containerType {group : String} (h : isIdentifier group) :
    startsLower (containerType group) = false := by
  obtain ⟨c, s, hs, htitle⟩ := exists_toList_titleCase h
  have hne : titleCase group ≠ "" := by
    intro hnil
    rw [hnil] at htitle
    cases htitle
  rw [containerType, startsLower_append hne, startsLower, htitle]
  exact isLower_toUpper c

end NodeSchema
