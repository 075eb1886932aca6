import Mathlib.Data.List.Nodup

/-!
# Lists with distinct keys

When the elements of a list have keys of their own, a key leads to one element and to one position.

* `find?_key_eq_some_iff`, `findIdx?_key_eq_some_iff`: what is found by a key, and where.
* `getElem?_map_eq_some_iff`: an element keeps its position in every list that is made from this one
  and keeps the keys.
-/

namespace NodeSchema

variable {α β : Type} {key : α → String} {as : List α}

theorem find?_key_eq_some_iff (h : (as.map key).Nodup) {k : String} {a : α} :
    as.find? (key · = k) = some a ↔ a ∈ as ∧ key a = k := by
  induction as with
  | nil => simp
  | cons b as ih =>
    obtain ⟨hb, has⟩ := List.nodup_cons.1 h
    by_cases hbk : key b = k
    · subst hbk
      rw [List.find?_cons_of_pos (by simp), Option.some.injEq, List.mem_cons]
      constructor
      · rintro rfl
        exact ⟨.inl rfl, rfl⟩
      · rintro ⟨rfl | ha, hk⟩
        · rfl
        · exact (hb (hk ▸ List.mem_map_of_mem ha)).elim
    · rw [List.find?_cons_of_neg (by simpa using hbk), ih has, List.mem_cons]
      constructor
      · exact fun ⟨ha, hk⟩ => ⟨.inr ha, hk⟩
      · rintro ⟨rfl | ha, hk⟩
        · exact (hbk hk).elim
        · exact ⟨ha, hk⟩

theorem find?_key_eq_none_iff {k : String} :
    as.find? (key · = k) = none ↔ k ∉ as.map key := by
  simp

/-- A look-up by a name gives the one element of that name, and nothing if there is none. -/
structure FindsOne (as : List α) (key : α → String) (find : String → Option α) : Prop where
  nodup : (as.map key).Nodup
  some_iff : ∀ k a, find k = some a ↔ a ∈ as ∧ key a = k
  none_iff : ∀ k, find k = none ↔ k ∉ as.map key

theorem findsOne_find? (h : (as.map key).Nodup) :
    FindsOne as key fun k => as.find? (key · = k) :=
  ⟨h, fun _ _ => find?_key_eq_some_iff h, fun _ => find?_key_eq_none_iff⟩

/-- The position of a key. -/
theorem findIdx?_key_eq_some_iff (h : (as.map key).Nodup) {k : String} {i : ℕ} :
    as.findIdx? (key · = k) = some i ↔ (as.map key)[i]? = some k := by
  rw [List.findIdx?_eq_some_iff_getElem, List.getElem?_eq_some_iff]
  simp only [decide_eq_true_eq, List.getElem_map, List.length_map]
  constructor
  · rintro ⟨hi, hk, -⟩
    exact ⟨hi, hk⟩
  · rintro ⟨hi, hk⟩
    refine ⟨hi, hk, fun j hj hjk => ?_⟩
    -- the key is at one position only
    have hat {m : ℕ} (hm : m < as.length) (hmk : key as[m] = k) : (as.map key)[m]? = some k := by
      rw [List.getElem?_map, List.getElem?_eq_getElem hm, Option.map_some, hmk]
    have hjl := Nat.lt_trans hj hi
    have hij : j = i := (List.getElem?_inj (by simpa using hjl) h).1
      ((hat hjl hjk).trans (hat hi hk).symm)
    exact absurd hij (Nat.ne_of_lt hj)

/-- An element with a key of its own is at the same position in every list that keeps the keys. -/
theorem getElem?_map_eq_some_iff (h : (as.map key).Nodup) {a : α} (ha : a ∈ as) {g : α → β}
    (key' : β → String) (hg : ∀ x, key' (g x) = key x) {i : ℕ} :
    (as.map g)[i]? = some (g a) ↔ as[i]? = some a := by
  rw [List.getElem?_map]
  constructor
  · intro hi
    obtain ⟨x, hx, hxa⟩ := Option.map_eq_some_iff.1 hi
    have hkey : key x = key a := by rw [← hg, ← hg, hxa]
    rw [hx, List.inj_on_of_nodup_map h (List.mem_of_getElem? hx) ha hkey]
  · intro hi
    rw [hi, Option.map_some]

end NodeSchema
