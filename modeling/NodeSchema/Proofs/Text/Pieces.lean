import NodeSchema.Naming
import NodeSchema.Text.Blank
import Mathlib.Data.List.TakeWhile
import Mathlib.Tactic.Tauto

/-!
# Texts put together and taken apart

A text that is put together from pieces is taken apart into the same pieces, as long as no piece has
the character that divides them. The pieces here are lines, lists at commas, the two sides of a
colon, and words between blanks.

* `splitOn_flatMap_concat`: lines, each with its end, and what follows the last of them.
* `splitOn_blocks`: blocks of lines with empty lines between them.
* `cut_append_cons`, `words_intercalate`: the inverse of a cut, and words with single spaces between
  them.
* `trim_eq_self`, `exists_around_trim`: what trimming keeps, and what it takes away.
* `isWordChar_iff`: letters, digits and underscores as numbers. What divides texts is none of them.
-/

namespace NodeSchema

/-! ### Words -/

theorem eq_underscore_iff {c : Char} : c = '_' ↔ c.toNat = 95 := by
  constructor
  · rintro rfl
    rfl
  · exact fun h => Char.ext (UInt32.toNat_inj.1 h)

theorem isWordStart_iff {c : Char} :
    isWordStart c ↔ (65 ≤ c.toNat ∧ c.toNat ≤ 90) ∨ (97 ≤ c.toNat ∧ c.toNat ≤ 122) ∨
      c.toNat = 95 := by
  delta isWordStart Char.isAlpha Char.isUpper Char.isLower
  simp only [Bool.or_eq_true, Bool.and_eq_true, decide_eq_true_eq, beq_iff_eq, eq_underscore_iff]
  tauto

theorem isWordChar_iff {c : Char} :
    isWordChar c ↔ (65 ≤ c.toNat ∧ c.toNat ≤ 90) ∨ (97 ≤ c.toNat ∧ c.toNat ≤ 122) ∨
      (48 ≤ c.toNat ∧ c.toNat ≤ 57) ∨ c.toNat = 95 := by
  delta isWordChar Char.isAlphanum Char.isAlpha Char.isUpper Char.isLower Char.isDigit
  simp only [Bool.or_eq_true, Bool.and_eq_true, decide_eq_true_eq, beq_iff_eq, eq_underscore_iff]
  tauto

theorem isBlank_of_isWordChar {c : Char} (h : isWordChar c) : Text.isBlank c = false := by
  rw [isWordChar_iff] at h
  simp only [Text.isBlank, Bool.or_eq_false_iff, Bool.and_eq_false_iff, decide_eq_false_iff_not,
    beq_eq_false_iff_ne]
  omega

/-- A word is not empty. -/
theorem exists_cons_of_isWord {w : List Char} (h : isWord w) :
    ∃ c s, w = c :: s ∧ isWordStart c ∧ ∀ d ∈ s, isWordChar d := by
  cases w with
  | nil => cases h
  | cons c s =>
    simp only [isWord, Bool.and_eq_true, List.all_eq_true] at h
    exact ⟨c, s, rfl, h⟩

theorem isWordChar_of_isWord {w : List Char} (h : isWord w) : ∀ c ∈ w, isWordChar c := by
  obtain ⟨c, s, rfl, hc, hs⟩ := exists_cons_of_isWord h
  intro d hd
  rcases List.mem_cons.1 hd with rfl | hd
  · exact isWordChar_of_isWordStart hc
  · exact hs d hd

theorem exists_concat_of_isWord {w : List Char} (h : isWord w) :
    ∃ s c, w = s ++ [c] ∧ isWordChar c := by
  have hne : w ≠ [] := by
    rintro rfl
    cases h
  exact ⟨w.dropLast, w.getLast hne, (List.dropLast_concat_getLast hne).symm,
    isWordChar_of_isWord h _ (List.getLast_mem hne)⟩

/-- A character that cannot occur in a word does not occur in it. -/
theorem not_mem_of_isWord {w : List Char} (h : isWord w) {c : Char} (hc : isWordChar c = false) :
    c ∉ w := by
  intro hmem
  rw [isWordChar_of_isWord h c hmem] at hc
  cases hc

namespace Text

section

variable {α : Type} {x : α}

theorem intercalate_concat (ls : List (List α)) (last : List α) :
    [x].intercalate (ls ++ [last]) = ls.flatMap (· ++ [x]) ++ last := by
  induction ls with
  | nil => simp
  | cons l ls ih =>
    obtain ⟨l', ls', hls⟩ := List.exists_cons_of_ne_nil (l := ls ++ [last]) (by simp)
    rw [List.cons_append, hls, List.intercalate_cons_cons, ← hls, ih, List.flatMap_cons,
      List.append_assoc, List.append_assoc, List.append_assoc]

theorem intercalate_cons (sep a : List α) (as : List (List α)) :
    sep.intercalate (a :: as) = a ++ as.flatMap (sep ++ ·) := by
  induction as generalizing a with
  | nil => simp
  | cons b as ih =>
    rw [List.intercalate_cons_cons, ih, List.flatMap_cons]
    simp only [List.append_assoc]

theorem intercalate_append {sep : List α} {as bs : List (List α)} (ha : as ≠ []) (hb : bs ≠ []) :
    sep.intercalate (as ++ bs) = sep.intercalate as ++ sep ++ sep.intercalate bs := by
  obtain ⟨a, as, rfl⟩ := List.exists_cons_of_ne_nil ha
  obtain ⟨b, bs, rfl⟩ := List.exists_cons_of_ne_nil hb
  rw [List.cons_append, intercalate_cons, intercalate_cons, intercalate_cons, List.flatMap_append,
    List.flatMap_cons]
  simp only [List.append_assoc]

/-- Blocks of lines with an empty line between any two of them. -/
theorem intercalate_blocks {bs : List (List (List α))} (h : ∀ b ∈ bs, b ≠ []) :
    [x].intercalate ([[]].intercalate bs) = [x, x].intercalate (bs.map [x].intercalate) := by
  induction bs with
  | nil => rfl
  | cons b bs ih =>
    obtain ⟨hb, hbs⟩ := List.forall_mem_cons.1 h
    cases bs with
    | nil => simp
    | cons b' bs =>
      have hrest : [[]].intercalate (b' :: bs) ≠ [] := by
        rw [intercalate_cons]
        exact List.append_ne_nil_of_left_ne_nil (hbs b' List.mem_cons_self) _
      rw [List.intercalate_cons_cons, List.append_assoc, intercalate_append hb (by simp),
        intercalate_append (by simp) hrest, ih hbs]
      simp

theorem mem_intercalate {sep l : List α} {ls : List (List α)} (hl : l ∈ ls) (hx : x ∈ l) :
    x ∈ sep.intercalate ls := by
  obtain ⟨a, as, rfl⟩ := List.exists_cons_of_ne_nil (List.ne_nil_of_mem hl)
  rw [intercalate_cons, List.mem_append]
  rcases List.mem_cons.1 hl with rfl | hl
  · exact .inl hx
  · exact .inr (List.mem_flatMap.2 ⟨l, hl, List.mem_append_right sep hx⟩)

theorem not_mem_intercalate {sep : List α} {ls : List (List α)} (hsep : x ∉ sep)
    (hls : ∀ l ∈ ls, x ∉ l) : x ∉ sep.intercalate ls := by
  induction ls with
  | nil => simp
  | cons l ls ih =>
    obtain ⟨hl, hls⟩ := List.forall_mem_cons.1 hls
    cases ls with
    | nil => simpa using hl
    | cons l' ls =>
      rw [List.intercalate_cons_cons]
      simp only [List.mem_append, not_or]
      exact ⟨⟨hl, hsep⟩, ih hls⟩

/-- A separator of two characters, the second of which is seen as the start of the next piece. -/
theorem cons_intercalate {y : α} {ls : List (List α)} (h : ls ≠ []) :
    y :: [x, y].intercalate ls = [x].intercalate (ls.map (y :: ·)) := by
  induction ls with
  | nil => exact (h rfl).elim
  | cons l ls ih =>
    cases ls with
    | nil => simp
    | cons l' ls =>
      rw [List.map_cons, List.map_cons, List.intercalate_cons_cons, List.intercalate_cons_cons,
        ← List.map_cons, ← ih (by simp)]
      simp

variable [BEq α] [LawfulBEq α]

/-- Pieces that end in `x`, and a last one that does not, are found again at each `x`. -/
theorem splitOn_flatMap_concat {ls : List (List α)} {last : List α} (hls : ∀ l ∈ ls, x ∉ l)
    (hlast : x ∉ last) : (ls.flatMap (· ++ [x]) ++ last).splitOn x = ls ++ [last] := by
  rw [← intercalate_concat]
  refine List.splitOn_intercalate x ?_ (by simp)
  intro l hl
  rcases List.mem_append.1 hl with h | h
  · exact hls l h
  · rwa [List.mem_singleton.1 h]

/-- Blocks are found again at the empty lines between them, if they have none themselves. -/
theorem splitOn_blocks {bs : List (List (List α))} (hne : bs ≠ [])
    (h : ∀ b ∈ bs, b ≠ [] ∧ ∀ l ∈ b, l ≠ [] ∧ x ∉ l) :
    (([x, x].intercalate (bs.map [x].intercalate)).splitOn x).splitOn [] = bs := by
  have hlines : ∀ l ∈ [[]].intercalate bs, x ∉ l := by
    intro l hl hx
    have hl' : l ∉ ([[]] : List (List α)) := by
      rw [List.mem_singleton]
      rintro rfl
      cases hx
    exact not_mem_intercalate hl' (fun b hb hlb => ((h b hb).2 l hlb).2 hx) hl
  have hempty : ∀ b ∈ bs, [] ∉ b := fun b hb hmem => ((h b hb).2 [] hmem).1 rfl
  have hne' : [[]].intercalate bs ≠ [] := by
    obtain ⟨b, bs, rfl⟩ := List.exists_cons_of_ne_nil hne
    rw [intercalate_cons]
    exact List.append_ne_nil_of_left_ne_nil (h b List.mem_cons_self).1 _
  rw [← intercalate_blocks fun b hb => (h b hb).1, List.splitOn_intercalate x hlines hne',
    List.splitOn_intercalate [] hempty hne]

/-- No piece has the character that divides them. -/
theorem not_mem_of_mem_splitOn {s p : List α} (h : p ∈ s.splitOn x) : x ∉ p := by
  induction s generalizing p with
  | nil => simp_all
  | cons y s ih =>
    rw [List.splitOn_cons_eq_if_modifyHead] at h
    split_ifs at h with hy
    · rcases List.mem_cons.1 h with rfl | h
      · exact List.not_mem_nil
      · exact ih h
    · obtain ⟨q, qs, hq⟩ := List.exists_cons_of_ne_nil (List.splitOn_ne_nil x s)
      rw [hq, List.modifyHead_cons] at h
      rcases List.mem_cons.1 h with rfl | h
      · have hqx : x ∉ q := ih (hq ▸ List.mem_cons_self)
        have hyx : x ≠ y := fun e => hy (beq_iff_eq.2 e.symm)
        exact List.not_mem_cons_of_ne_of_not_mem hyx hqx
      · exact ih (hq ▸ List.mem_cons_of_mem q h)

/-- What is in a piece of a text is in the text. -/
theorem mem_of_mem_splitOn {y : α} {s p : List α} (hp : p ∈ s.splitOn x) (hy : y ∈ p) : y ∈ s := by
  have hs : [x].intercalate (s.splitOn x) = s := List.intercalate_splitOn x
  rw [← hs]
  exact mem_intercalate hp hy

end

/-! ### Cutting -/

/-- What is put together at the first `c` is cut there. -/
theorem cut_append_cons {c : Char} {a : List Char} (h : c ∉ a) (b : List Char) :
    cut c (a ++ c :: b) = some (a, b) := by
  induction a with
  | nil => simp [cut]
  | cons d a ih =>
    obtain ⟨hd, ha⟩ := List.ne_and_not_mem_of_not_mem_cons h
    rw [List.cons_append, cut, if_neg (Ne.symm hd), ih ha]
    rfl

theorem cut_eq_some_iff {c : Char} {s a b : List Char} :
    cut c s = some (a, b) ↔ s = a ++ c :: b ∧ c ∉ a := by
  constructor
  · exact eq_of_cut_eq_some
  · rintro ⟨rfl, ha⟩
    exact cut_append_cons ha b

/-- The first `c` is where a text was put together. -/
theorem append_cons_inj {c : Char} {a a' b b' : List Char} (ha : c ∉ a) (ha' : c ∉ a')
    (h : a ++ c :: b = a' ++ c :: b') : a = a' ∧ b = b' := by
  have hcut := cut_append_cons ha b
  rw [h, cut_append_cons ha'] at hcut
  cases hcut
  exact ⟨rfl, rfl⟩

/-! ### Trimming -/

theorem isBlank_of_mem_space : ∀ c ∈ [' '], isBlank c :=
  List.forall_mem_singleton.2 rfl

theorem trimStart_eq_self {s : List Char} (h : ∀ c ∈ s.head?, isBlank c = false) :
    trimStart s = s := by
  cases s with
  | nil => rfl
  | cons c s =>
    have hc : isBlank c = false := h c rfl
    simp [trimStart, hc]

theorem trimEnd_eq_self {s : List Char} (h : ∀ c ∈ s.getLast?, isBlank c = false) :
    trimEnd s = s := by
  have hrev : trimStart s.reverse = s.reverse := trimStart_eq_self (by simpa using h)
  rw [trimEnd, ← trimStart, hrev, List.reverse_reverse]

/-- A text without blanks at its ends is its own trimmed form. -/
theorem trim_eq_self {s : List Char} (hfirst : ∀ c ∈ s.head?, isBlank c = false)
    (hlast : ∀ c ∈ s.getLast?, isBlank c = false) : trim s = s := by
  rw [trim, trimStart_eq_self hfirst, trimEnd_eq_self hlast]

theorem trim_of_isWord {w : List Char} (h : isWord w) : trim w = w := by
  have hblank : ∀ c ∈ w, isBlank c = false := fun c hc =>
    isBlank_of_isWordChar (isWordChar_of_isWord h c hc)
  exact trim_eq_self (fun c hc => hblank c (List.mem_of_head? hc))
    fun c hc => hblank c (List.mem_of_getLast? hc)

theorem trimEnd_append {s : List Char} (h : ∀ c ∈ s.getLast?, isBlank c = false) (t : List Char) :
    trimEnd (s ++ t) = s ++ trimEnd t := by
  by_cases ht : ∀ c ∈ t, isBlank c
  · rw [trimEnd_append_of_blank ht, trimEnd_eq_self h, trimEnd_eq_nil_of_blank ht, List.append_nil]
  · have hex : ∃ c ∈ t.reverse, isBlank c = false := by simpa using ht
    rw [trimEnd, List.reverse_append, ← trimStart, trimStart_append hex, List.reverse_append,
      List.reverse_reverse]
    rfl

theorem exists_append_trimEnd (s : List Char) :
    ∃ b, (∀ c ∈ b, isBlank c) ∧ s = trimEnd s ++ b := by
  refine ⟨(s.reverse.takeWhile isBlank).reverse, ?_, ?_⟩
  · exact fun c hc => List.mem_takeWhile_imp (List.mem_reverse.1 hc)
  · rw [trimEnd, ← List.reverse_append, List.takeWhile_append_dropWhile, List.reverse_reverse]

/-- Trimming takes away blanks only. -/
theorem exists_around_trim (s : List Char) :
    ∃ a b, (∀ c ∈ a, isBlank c) ∧ (∀ c ∈ b, isBlank c) ∧ s = a ++ trim s ++ b := by
  obtain ⟨b, hb, hs⟩ := exists_append_trimEnd (trimStart s)
  refine ⟨s.takeWhile isBlank, b, fun c hc => List.mem_takeWhile_imp hc, hb, ?_⟩
  rw [List.append_assoc, trim, ← hs, trimStart, List.takeWhile_append_dropWhile]

theorem mem_of_mem_trim {s : List Char} {c : Char} (h : c ∈ trim s) : c ∈ s := by
  obtain ⟨a, b, -, -, hs⟩ := exists_around_trim s
  rw [hs]
  exact List.mem_append_left b (List.mem_append_right a h)

theorem count_trim_le (s : List Char) (c : Char) : (trim s).count c ≤ s.count c := by
  obtain ⟨a, b, -, -, hs⟩ := exists_around_trim s
  have hcount := congrArg (List.count c) hs
  rw [List.count_append, List.count_append] at hcount
  omega

/-- Nothing is left of a text exactly if it is blank. -/
theorem trim_eq_nil_iff {s : List Char} : trim s = [] ↔ ∀ c ∈ s, isBlank c := by
  constructor
  · intro h
    obtain ⟨a, b, ha, hb, hs⟩ := exists_around_trim s
    rw [h, List.append_nil] at hs
    intro c hc
    rw [hs] at hc
    rcases List.mem_append.1 hc with hc | hc
    · exact ha c hc
    · exact hb c hc
  · intro h
    rw [trim, trimStart_of_blank h, trimEnd_nil]

theorem trim_trim (s : List Char) : trim (trim s) = trim s := by
  obtain ⟨a, b, ha, hb, hs⟩ := exists_around_trim s
  calc trim (trim s) = trim (a ++ trim s ++ b) := (trim_append_of_blank ha hb).symm
    _ = trim s := by rw [← hs]

theorem toList_trimmed (text : String) : (trimmed text).toList = trim text.toList :=
  String.toList_ofList

theorem trimmed_trimmed (text : String) : trimmed (trimmed text) = trimmed text := by
  rw [trimmed, toList_trimmed, trim_trim, trimmed]

theorem trimmed_eq_empty_iff {text : String} : trimmed text = "" ↔ trim text.toList = [] := by
  rw [← String.toList_inj, toList_trimmed, String.toList_empty]

theorem trimmed_of_isIdentifier {name : String} (h : isIdentifier name) : trimmed name = name := by
  rw [trimmed, trim_of_isWord h, String.ofList_toList]

/-- Blanks behind a list at commas belong to its last piece, where trimming takes them away. -/
theorem map_trim_splitOn_append {s b : List Char} (hb : ∀ c ∈ b, isBlank c) :
    ((s ++ b).splitOn ',').map trim = (s.splitOn ',').map trim := by
  obtain ⟨ls, last, hs⟩ : ∃ ls last, s.splitOn ',' = ls ++ [last] :=
    ⟨_, _, (List.dropLast_concat_getLast (List.splitOn_ne_nil ',' s)).symm⟩
  have hls : ∀ l ∈ ls ++ [last], ',' ∉ l := fun l hl => not_mem_of_mem_splitOn (hs ▸ hl)
  have hlast : ',' ∉ last ++ b := by
    intro h
    rcases List.mem_append.1 h with h | h
    · exact hls last (by simp) h
    · exact absurd (hb _ h) (by decide)
  have hjoin : s ++ b = ls.flatMap (· ++ [',']) ++ (last ++ b) := by
    rw [← List.append_assoc, ← intercalate_concat, ← hs, List.intercalate_splitOn]
  rw [hjoin, splitOn_flatMap_concat (fun l hl => hls l (by simp [hl])) hlast, hs, List.map_append,
    List.map_append, List.map_singleton, List.map_singleton]
  congr 2
  exact trim_append_of_blank (a := []) (by simp) hb

/-! ### Words between blanks -/

/-- **A blank ends a word.** -/
theorem words_append_cons {c : Char} (hc : isBlank c) (a b : List Char) :
    words (a ++ c :: b) = words a ++ words b := by
  rw [words, List.splitOnP_append_cons a b hc, List.filter_append]
  rfl

theorem words_append_of_blank {a s : List Char} (h : ∀ c ∈ a, isBlank c) :
    words (a ++ s) = words s := by
  induction a with
  | nil => rfl
  | cons c a ih =>
    obtain ⟨hc, ha⟩ := List.forall_mem_cons.1 h
    have hsplit := words_append_cons hc [] (a ++ s)
    rw [List.nil_append] at hsplit
    rw [List.cons_append, hsplit, ih ha]
    rfl

theorem words_append_gap {gap : List Char} (hne : gap ≠ []) (h : ∀ c ∈ gap, isBlank c)
    (a b : List Char) : words (a ++ gap ++ b) = words a ++ words b := by
  obtain ⟨c, gap, rfl⟩ := List.exists_cons_of_ne_nil hne
  obtain ⟨hc, hgap⟩ := List.forall_mem_cons.1 h
  rw [List.append_assoc, List.cons_append, words_append_cons hc, words_append_of_blank hgap]

/-- What has no blanks is one word. -/
theorem words_of_not_blank {w : List Char} (hne : w ≠ []) (h : ∀ c ∈ w, isBlank c = false) :
    words w = [w] := by
  rw [words, List.splitOnP_eq_singleton h]
  simp [hne]

theorem words_of_isWord {w : List Char} (h : isWord w) : words w = [w] := by
  obtain ⟨c, s, rfl, -, -⟩ := exists_cons_of_isWord h
  exact words_of_not_blank (by simp) fun d hd => isBlank_of_isWordChar (isWordChar_of_isWord h d hd)

/-- Words with single spaces between them. -/
theorem words_intercalate {ws : List (List Char)} (h : ∀ w ∈ ws, isWord w) :
    words ([' '].intercalate ws) = ws := by
  induction ws with
  | nil => rfl
  | cons w ws ih =>
    obtain ⟨hw, hws⟩ := List.forall_mem_cons.1 h
    cases ws with
    | nil => simpa using words_of_isWord hw
    | cons w' ws =>
      rw [List.intercalate_cons_cons, words_append_gap (by simp) isBlank_of_mem_space,
        words_of_isWord hw, ih hws]
      rfl

end Text

end NodeSchema
