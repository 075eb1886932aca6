/-!
# Blank text

Texts are read as lists of characters. A character is blank when it has the Unicode property
White_Space.

* `trim_append_of_blank`: blanks around a text do not change its trimmed form.
* `words` are the maximal runs of characters that are not blank.
* `lines` ends a line at a line feed, and a carriage return right before it belongs to the end.
-/

namespace NodeSchema.Text

/-- The Unicode property White_Space. -/
def isBlank (c : Char) : Bool :=
  let n := c.toNat
  (0x9 ≤ n && n ≤ 0xD) || n == 0x20 || n == 0x85 || n == 0xA0 || n == 0x1680 ||
    (0x2000 ≤ n && n ≤ 0x200A) || n == 0x2028 || n == 0x2029 || n == 0x202F || n == 0x205F ||
    n == 0x3000

/-- The text without its leading blanks. -/
def trimStart (s : List Char) : List Char :=
  s.dropWhile isBlank

/-- The text without its trailing blanks. -/
def trimEnd (s : List Char) : List Char :=
  (s.reverse.dropWhile isBlank).reverse

/-- The text without the blanks around it. -/
def trim (s : List Char) : List Char :=
  trimEnd (trimStart s)

/-- `trim` on strings. -/
def trimmed (s : String) : String :=
  String.ofList (trim s.toList)

/-- The words of a text: its maximal runs of characters that are not blank. -/
def words (s : List Char) : List (List Char) :=
  (s.splitOnP isBlank).filter fun w => !w.isEmpty

/-- The parts of a text before and after the first `c`, if there is one. -/
def cut (c : Char) : List Char → Option (List Char × List Char)
  | [] => none
  | d :: s => if d = c then some ([], s) else (cut c s).map fun (a, b) => (d :: a, b)

/-- A line without the carriage return at its end, if it has one. -/
def dropReturn (s : List Char) : List Char :=
  if s.getLast? = some '\r' then s.dropLast else s

/-- The lines of a text. What follows the last line feed is a line unless it is empty. -/
def lines (s : List Char) : List (List Char) :=
  let pieces := s.splitOn '\n'
  pieces.dropLast.map dropReturn ++ pieces.getLast?.toList.filter fun l => !l.isEmpty

/-- The number of bytes of a text in UTF-8. -/
def byteCount (s : List Char) : Nat :=
  s.foldl (fun n c => n + c.utf8Size) 0

/-! ### Trimming -/

@[simp] theorem trimStart_nil : trimStart [] = [] := rfl

@[simp] theorem trimEnd_nil : trimEnd [] = [] := rfl

theorem trimStart_append_of_blank {a s : List Char} (h : ∀ c ∈ a, isBlank c) :
    trimStart (a ++ s) = trimStart s := by
  induction a with
  | nil => rfl
  | cons c a ih =>
    have hc : isBlank c = true := h c (by simp)
    simpa [trimStart, hc] using ih fun d hd => h d (by simp [hd])

theorem trimEnd_append_of_blank {b s : List Char} (h : ∀ c ∈ b, isBlank c) :
    trimEnd (s ++ b) = trimEnd s := by
  have := trimStart_append_of_blank (a := b.reverse) (s := s.reverse) (by simpa using h)
  simp only [trimStart] at this
  simp [trimEnd, this]

/-- A blank text trims to nothing. -/
theorem trimEnd_eq_nil_of_blank {s : List Char} (h : ∀ c ∈ s, isBlank c) : trimEnd s = [] := by
  simpa using trimEnd_append_of_blank (s := []) h

theorem trimStart_of_blank {s : List Char} (h : ∀ c ∈ s, isBlank c) : trimStart s = [] := by
  simpa using trimStart_append_of_blank (s := []) h

/-- Trimming at the start stops at the first character that is not blank. -/
theorem trimStart_append {s b : List Char} (h : ∃ c ∈ s, isBlank c = false) :
    trimStart (s ++ b) = trimStart s ++ b := by
  induction s with
  | nil => simp at h
  | cons c s ih =>
    cases hc : isBlank c with
    | false => simp [trimStart, hc]
    | true =>
      obtain ⟨d, hd, hb⟩ := h
      have : d ∈ s := by
        rcases List.mem_cons.1 hd with rfl | hs
        · simp [hb] at hc
        · exact hs
      simpa [trimStart, hc] using ih ⟨d, this, hb⟩

/-- **Trimming forgets the blanks around a text.** -/
theorem trim_append_of_blank {a s b : List Char} (ha : ∀ c ∈ a, isBlank c)
    (hb : ∀ c ∈ b, isBlank c) : trim (a ++ s ++ b) = trim s := by
  by_cases hs : ∀ c ∈ s, isBlank c
  · have hall : ∀ c ∈ s ++ b, isBlank c := by
      intro c hc
      rcases List.mem_append.1 hc with h | h
      · exact hs c h
      · exact hb c h
    rw [trim, trim, List.append_assoc, trimStart_append_of_blank ha, trimStart_of_blank hall,
      trimStart_of_blank hs]
  · have hex : ∃ c ∈ s, isBlank c = false := by simpa using hs
    rw [trim, trim, List.append_assoc, trimStart_append_of_blank ha, trimStart_append hex,
      trimEnd_append_of_blank hb]

/-- A cut names the first occurrence: the parts and the character make up the text again. -/
theorem eq_of_cut_eq_some {c : Char} {s a b : List Char} (h : cut c s = some (a, b)) :
    s = a ++ c :: b ∧ c ∉ a := by
  induction s generalizing a with
  | nil => simp [cut] at h
  | cons d s ih =>
    by_cases hd : d = c
    · simp only [cut, if_pos hd, Option.some.injEq, Prod.mk.injEq] at h
      obtain ⟨rfl, rfl⟩ := h
      simp [hd]
    · simp only [cut, if_neg hd, Option.map_eq_some_iff, Prod.mk.injEq] at h
      obtain ⟨⟨a', b'⟩, hs, rfl, rfl⟩ := h
      obtain ⟨rfl, hn⟩ := ih hs
      exact ⟨rfl, by simpa [hn] using fun e => hd e.symm⟩

/-- There is a cut exactly at a character that occurs. -/
theorem cut_eq_none_iff {c : Char} {s : List Char} : cut c s = none ↔ c ∉ s := by
  induction s with
  | nil => simp [cut]
  | cons d s ih =>
    by_cases hd : d = c
    · simp [cut, hd]
    · simpa [cut, hd, ih] using fun _ e => hd e.symm

end NodeSchema.Text
