import Mathlib.Data.List.Basic
import Mathlib.Data.List.TakeWhile
import Recalc.Text.Blank
import Recalc.Text.Case

/-!
# Runs of characters

What is taken off the front of a text up to the first character outside a class; blanks at the ends;
capital letters below 128, where each letter has one of its own.
-/

namespace Recalc.Text

section Runs

variable {p : Char → Bool} {s rest : List Char}

/-- A text that does not go on with a character of a class. -/
def Stops (p : Char → Bool) (s : List Char) : Prop := ∀ c ∈ s.head?, p c = false

@[simp] theorem stops_nil : Stops p [] := by simp [Stops]

@[simp] theorem stops_cons {c : Char} : Stops p (c :: s) ↔ p c = false := by simp [Stops]

theorem stops_of_forall (h : ∀ c ∈ s, p c = false) : Stops p s :=
  fun c hc => h c (List.mem_of_mem_head? hc)

theorem Stops.append (h : Stops p s) (hs : s ≠ []) (rest : List Char) : Stops p (s ++ rest) := by
  intro c hc
  rw [List.head?_append_of_ne_nil _ hs] at hc
  exact h c hc

theorem of_mem_takeWhile {c : Char} (h : c ∈ s.takeWhile p) : p c = true :=
  List.all_eq_true.1 List.all_takeWhile c h

theorem takeWhile_eq_nil_of_stops (h : Stops p s) : s.takeWhile p = [] := by
  cases s <;> simp_all

theorem dropWhile_eq_self_of_stops (h : Stops p s) : s.dropWhile p = s := by
  cases s <;> simp_all

theorem stops_dropWhile (s : List Char) : Stops p (s.dropWhile p) := by
  intro c hc
  have hfirst := List.head?_dropWhile_not p s
  rwa [Option.mem_def.1 hc] at hfirst

theorem takeWhile_append_of_stops (hs : ∀ c ∈ s, p c = true) (h : Stops p rest) :
    (s ++ rest).takeWhile p = s := by
  rw [List.takeWhile_append_of_pos hs, takeWhile_eq_nil_of_stops h, List.append_nil]

theorem dropWhile_append_of_stops (hs : ∀ c ∈ s, p c = true) (h : Stops p rest) :
    (s ++ rest).dropWhile p = rest := by
  rw [List.dropWhile_append_of_pos hs, dropWhile_eq_self_of_stops h]

end Runs

/-! ## Characters below 128 -/

section Ascii

variable {c : Char}

/-- A property of the characters below 128 is checked one by one. -/
theorem of_ascii {P : Char → Prop} (h : ∀ n < 128, P (Char.ofNat n)) (hc : c.toNat < 128) :
    P c := by
  rw [← Char.ofNat_toNat c]
  exact h _ hc

theorem lt_of_isAlphanum (h : c.isAlphanum = true) : c.toNat < 128 := by
  have hc : c.toNat = c.val.toNat := rfl
  delta Char.isAlphanum Char.isAlpha Char.isUpper Char.isLower Char.isDigit at h
  simp only [Bool.or_eq_true, Bool.and_eq_true, decide_eq_true_eq, ge_iff_le,
    UInt32.le_iff_toNat_le, Char.reduceVal, UInt32.reduceToNat] at h
  omega

theorem isAlpha_of_isUpper (h : c.isUpper = true) : c.isAlpha = true :=
  Bool.or_eq_true_iff.2 (.inl h)

theorem isAlphanum_of_isAlpha (h : c.isAlpha = true) : c.isAlphanum = true := by
  simp [Char.isAlphanum, h]

theorem isAlphanum_of_isDigit (h : c.isDigit = true) : c.isAlphanum = true := by
  simp [Char.isAlphanum, h]

theorem lt_of_isAlpha (h : c.isAlpha = true) : c.toNat < 128 :=
  lt_of_isAlphanum (isAlphanum_of_isAlpha h)

theorem lt_of_isDigit (h : c.isDigit = true) : c.toNat < 128 :=
  lt_of_isAlphanum (isAlphanum_of_isDigit h)

theorem isAlpha_of_isDigit (h : c.isDigit = true) : c.isAlpha = false :=
  of_ascii (P := fun c => c.isDigit = true → c.isAlpha = false) (by decide) (lt_of_isDigit h) h

theorem isBlank_of_isAlphanum (h : c.isAlphanum = true) : isBlank c = false :=
  of_ascii (P := fun c => c.isAlphanum = true → isBlank c = false) (by decide)
    (lt_of_isAlphanum h) h

end Ascii

/-! ## Blanks around a text -/

section Blanks

variable {s : List Char}

theorem trimStart_of_stops (h : Stops isBlank s) : trimStart s = s := dropWhile_eq_self_of_stops h

/-- A text without blanks at its two ends is left as it is. -/
theorem trim_of_stops (hfirst : Stops isBlank s) (hlast : Stops isBlank s.reverse) :
    trim s = s := by
  rw [trim, trimStart_of_stops hfirst, trimEnd, dropWhile_eq_self_of_stops hlast,
    List.reverse_reverse]

theorem trim_of_forall (h : ∀ c ∈ s, isBlank c = false) : trim s = s :=
  trim_of_stops (stops_of_forall h) (stops_of_forall fun c hc => h c (List.mem_reverse.1 hc))

@[simp] theorem trimEnd_nil : trimEnd [] = [] := rfl

theorem trimStart_append {front : List Char} (hfront : ∀ c ∈ front, isBlank c = true) :
    trimStart (front ++ s) = trimStart s := List.dropWhile_append_of_pos hfront

theorem trimEnd_append {back : List Char} (hback : ∀ c ∈ back, isBlank c = true) :
    trimEnd (s ++ back) = trimEnd s := by
  have hreverse : ∀ c ∈ back.reverse, isBlank c = true := by simpa using hback
  rw [trimEnd, List.reverse_append, List.dropWhile_append_of_pos hreverse, trimEnd]

/-- The blanks around a word are dropped. -/
theorem trim_append {front back : List Char} (hfront : ∀ c ∈ front, isBlank c = true)
    (hback : ∀ c ∈ back, isBlank c = true) (h : ∀ c ∈ s, isBlank c = false) :
    trim (front ++ (s ++ back)) = s := by
  rw [trim, trimStart_append hfront]
  cases s with
  | nil => rw [List.nil_append, trimStart, List.dropWhile_eq_nil_iff.2 hback, trimEnd_nil]
  | cons c s =>
      have hfirst : Stops isBlank (c :: s ++ back) := stops_cons.2 (h c List.mem_cons_self)
      have hlast : Stops isBlank (c :: s).reverse :=
        stops_of_forall fun d hd => h d (List.mem_reverse.1 hd)
      rw [trimStart_of_stops hfirst, trimEnd_append hback, trimEnd,
        dropWhile_eq_self_of_stops hlast, List.reverse_reverse]

end Blanks

/-! ## Capital letters below 128 -/

section Capitals

variable {c : Char} {s : List Char}

theorem toUpper_of_le (hc : 128 ≤ c.toNat) : c.toUpper = c := by
  have hlarge : ¬ ('a'.val ≤ c.val ∧ c.val ≤ 'z'.val) := fun h => by
    have hz : c.val.toNat ≤ 122 := UInt32.le_iff_toNat_le.1 h.2
    have hval : c.toNat = c.val.toNat := rfl
    omega
  exact dif_neg hlarge

/-- What does not tell the small letters from the capitals is found out below 128. -/
theorem toUpper_congr {α : Type} {f : Char → α}
    (h : ∀ n < 128, f (Char.ofNat n).toUpper = f (Char.ofNat n)) (c : Char) :
    f c.toUpper = f c := by
  rcases Nat.lt_or_ge c.toNat 128 with hc | hc
  · exact of_ascii (P := fun c => f c.toUpper = f c) h hc
  · rw [toUpper_of_le hc]

theorem toUpper_toUpper (c : Char) : c.toUpper.toUpper = c.toUpper :=
  toUpper_congr (f := Char.toUpper) (by decide) c

theorem isAlpha_toUpper (c : Char) : c.toUpper.isAlpha = c.isAlpha := toUpper_congr (by decide) c

theorem isDigit_toUpper (c : Char) : c.toUpper.isDigit = c.isDigit := toUpper_congr (by decide) c

theorem isBlank_toUpper (c : Char) : isBlank c.toUpper = isBlank c := toUpper_congr (by decide) c

theorem capitals_ascii (h : ∀ c ∈ s, c.toNat < 128) : capitals s = s.map Char.toUpper := by
  induction s with
  | nil => rfl
  | cons c s ih =>
      rw [capitals, List.flatMap_cons, capitalOf_ascii (h c List.mem_cons_self), ← capitals,
        ih fun d hd => h d (List.mem_cons_of_mem c hd), List.map_cons, List.singleton_append]

theorem capitalOf_toUpper (c : Char) : capitalOf c.toUpper = capitalOf c :=
  toUpper_congr (by decide) c

theorem capitals_map_toUpper (s : List Char) : capitals (s.map Char.toUpper) = capitals s := by
  rw [capitals, List.flatMap_map, capitals]
  simp only [capitalOf_toUpper]

theorem capitals_capitals (h : ∀ c ∈ s, c.toNat < 128) : capitals (capitals s) = capitals s := by
  rw [capitals_ascii h, capitals_map_toUpper, capitals_ascii h]

end Capitals

end Recalc.Text
