import Recalc.Proofs.Text.Ascii

/-!
# Letter case

Texts with the same capital letters differ in letter case only. Formulas are compared with the
letters of their text literals kept as they are: a quote starts a literal and the next quote ends
it, so that a doubled quote inside ends the literal and starts it again.
-/

namespace Recalc.Text

section Letters

variable {c d : Char} {s t : List Char} {p : Char → Bool}

theorem toUpper_of_isAlpha_eq_false (h : c.isAlpha = false) : c.toUpper = c := by
  rcases Nat.lt_or_ge c.toNat 128 with hc | hc
  · exact of_ascii (P := fun c => c.isAlpha = false → c.toUpper = c) (by decide) hc h
  · exact toUpper_of_le hc

/-- What is no letter has no other case. -/
theorem toUpper_eq_iff (hd : d.isAlpha = false) : c.toUpper = d ↔ c = d := by
  constructor
  · rintro rfl
    rw [isAlpha_toUpper] at hd
    exact (toUpper_of_isAlpha_eq_false hd).symm
  · rintro rfl
    exact toUpper_of_isAlpha_eq_false hd

theorem map_toUpper_of_forall (h : ∀ c ∈ s, c.isAlpha = false) : s.map Char.toUpper = s :=
  (List.map_congr_left fun c hc => toUpper_of_isAlpha_eq_false (h c hc)).trans (List.map_id s)

theorem eq_of_map_toUpper_eq (h : s.map Char.toUpper = t.map Char.toUpper)
    (ht : ∀ c ∈ t, c.isAlpha = false) : s = t := by
  rw [map_toUpper_of_forall ht] at h
  have hs : ∀ c ∈ s, c.isAlpha = false := fun c hc => by
    rw [← isAlpha_toUpper]
    exact ht _ (h ▸ List.mem_map_of_mem hc)
  rw [← map_toUpper_of_forall hs, h]

theorem takeWhile_map_toUpper (hp : ∀ c : Char, p c.toUpper = p c) (s : List Char) :
    (s.map Char.toUpper).takeWhile p = (s.takeWhile p).map Char.toUpper := by
  rw [List.takeWhile_map, show p ∘ Char.toUpper = p from funext hp]

theorem dropWhile_map_toUpper (hp : ∀ c : Char, p c.toUpper = p c) (s : List Char) :
    (s.map Char.toUpper).dropWhile p = (s.dropWhile p).map Char.toUpper := by
  rw [List.dropWhile_map, show p ∘ Char.toUpper = p from funext hp]

theorem trim_map_toUpper (s : List Char) :
    trim (s.map Char.toUpper) = (trim s).map Char.toUpper := by
  simp only [trim, trimEnd, trimStart, ← List.map_reverse, dropWhile_map_toUpper isBlank_toUpper]

end Letters

/-- A text in capital letters outside its literals, where `quoted` tells whether it starts in one.
A literal that is not closed goes on to the end. -/
def folded : Bool → List Char → List Char
  | _, [] => []
  | quoted, c :: rest =>
      (if quoted then c else c.toUpper) :: folded (if c = '"' then !quoted else quoted) rest

section Folded

variable {p : Char → Bool} {quoted : Bool} {c : Char} {s : List Char}

@[simp] theorem folded_nil : folded quoted [] = [] := by
  cases quoted <;> rfl

@[simp] theorem folded_quote : folded quoted ('"' :: s) = '"' :: folded (!quoted) s := by
  cases quoted <;> rfl

theorem folded_true_cons (h : c ≠ '"') : folded true (c :: s) = c :: folded true s := by
  simp [folded, h]

theorem folded_false_cons (h : c ≠ '"') :
    folded false (c :: s) = c.toUpper :: folded false s := by
  simp [folded, h]

@[simp] theorem length_folded (quoted : Bool) (s : List Char) :
    (folded quoted s).length = s.length := by
  induction s generalizing quoted with
  | nil => simp
  | cons c s ih => rw [folded, List.length_cons, ih, List.length_cons]

theorem isEmpty_folded (quoted : Bool) (s : List Char) :
    (folded quoted s).isEmpty = s.isEmpty := by
  cases s with
  | nil => rw [folded_nil]
  | cons c s => rfl

theorem head?_folded (s : List Char) : (folded false s).head? = s.head?.map Char.toUpper := by
  cases s <;> rfl

/-- A class that neither has the quote nor tells the small letters from the capitals. -/
structure IsCaseless (p : Char → Bool) : Prop where
  quote : p '"' = false
  toUpper : ∀ c : Char, p c.toUpper = p c

theorem isCaseless_isDigit : IsCaseless Char.isDigit := ⟨by decide, isDigit_toUpper⟩

theorem isCaseless_isBlank : IsCaseless isBlank := ⟨by decide, isBlank_toUpper⟩

theorem IsCaseless.ne_quote (hp : IsCaseless p) (h : p c = true) : c ≠ '"' := by
  rintro rfl
  rw [hp.quote] at h
  cases h

theorem IsCaseless.takeWhile_folded (hp : IsCaseless p) (s : List Char) :
    (folded false s).takeWhile p = (s.takeWhile p).map Char.toUpper := by
  induction s with
  | nil => rfl
  | cons c s ih =>
      cases h : p c with
      | false =>
          rw [List.takeWhile_cons_of_neg (by simp [h]), folded,
            List.takeWhile_cons_of_neg (by simp [h, hp.toUpper]), List.map_nil]
      | true =>
          rw [folded_false_cons (hp.ne_quote h), List.takeWhile_cons_of_pos (by rw [hp.toUpper, h]),
            ih, List.takeWhile_cons_of_pos h, List.map_cons]

theorem IsCaseless.dropWhile_folded (hp : IsCaseless p) (s : List Char) :
    (folded false s).dropWhile p = folded false (s.dropWhile p) := by
  induction s with
  | nil => rfl
  | cons c s ih =>
      cases h : p c with
      | false =>
          rw [List.dropWhile_cons_of_neg (by simp [h]), folded,
            List.dropWhile_cons_of_neg (by simp [h, hp.toUpper])]
      | true =>
          rw [folded_false_cons (hp.ne_quote h), List.dropWhile_cons_of_pos (by rw [hp.toUpper, h]),
            ih, List.dropWhile_cons_of_pos h]

theorem trimStart_folded (s : List Char) :
    trimStart (folded false s) = folded false (trimStart s) :=
  isCaseless_isBlank.dropWhile_folded s

theorem trimEnd_cons (c : Char) (s : List Char) :
    trimEnd (c :: s) = if (trimEnd s).isEmpty && isBlank c then [] else c :: trimEnd s := by
  rw [trimEnd, List.reverse_cons, List.dropWhile_append, trimEnd]
  cases h : s.reverse.dropWhile isBlank with
  | nil => cases hc : isBlank c <;> simp [hc]
  | cons d more => simp

theorem trimEnd_folded (quoted : Bool) (s : List Char) :
    trimEnd (folded quoted s) = folded quoted (trimEnd s) := by
  induction s generalizing quoted with
  | nil => simp
  | cons c s ih =>
      have hblank : isBlank (if quoted then c else c.toUpper) = isBlank c := by
        split
        · rfl
        · exact isBlank_toUpper c
      rw [folded, trimEnd_cons, trimEnd_cons, ih, isEmpty_folded, hblank]
      split
      · rw [folded_nil]
      · rw [folded]

/-- The blanks at the ends are the same in either case. -/
theorem trim_folded (s : List Char) : trim (folded false s) = folded false (trim s) := by
  rw [trim, trimStart_folded, trimEnd_folded, trim]

end Folded

end Recalc.Text
