import Recalc.Proofs.Text.Ascii
import Recalc.Token.Scan

/-!
# Numerals of formulas

The grammar of a number without a sign, and the longest numeral at the front of a text: a numeral
that the text behind it does not go on is split off whole, and what is split off and can be read is
a numeral.
-/

namespace Recalc

namespace Decimal

/-- A point with digits behind it, or nothing. -/
inductive IsFraction : List Char → Prop
  | none : IsFraction []
  | point {digits : List Char} (h : ∀ c ∈ digits, c.isDigit = true) : IsFraction ('.' :: digits)

/-- The mark of an exponent, an optional sign and at least one digit, or nothing. -/
inductive IsPower : List Char → Prop
  | none : IsPower []
  | unsigned {mark : Char} {digits : List Char} (hmark : mark = 'e' ∨ mark = 'E')
      (h : isDigits digits = true) : IsPower (mark :: digits)
  | signed {mark sign : Char} {digits : List Char} (hmark : mark = 'e' ∨ mark = 'E')
      (hsign : sign = '+' ∨ sign = '-') (h : isDigits digits = true) :
      IsPower (mark :: sign :: digits)

/-- A number without a sign: digits, a fraction and an exponent, with a digit before the point or
behind it. -/
inductive IsNumeral : List Char → Prop
  | of {whole fraction power : List Char} (hwhole : ∀ c ∈ whole, c.isDigit = true)
      (hfraction : IsFraction fraction) (hpower : IsPower power)
      (hdigit : whole ≠ [] ∨ 2 ≤ fraction.length) : IsNumeral (whole ++ fraction ++ power)

section Reading

variable {s : List Char}

theorem takeSign_spec (s : List Char) :
    (takeSign s).2 = s ∨ ∃ sign, (sign = '+' ∨ sign = '-') ∧ s = sign :: (takeSign s).2 := by
  unfold takeSign
  split <;> simp

theorem fractionPart_spec (s : List Char) :
    ∃ fraction, IsFraction fraction ∧ s = fraction ++ (fractionPart s).2
      ∧ ((fractionPart s).1 ≠ [] → 2 ≤ fraction.length) := by
  unfold fractionPart
  split
  case h_1 rest =>
    refine ⟨'.' :: rest.takeWhile Char.isDigit, .point fun c hc => Text.of_mem_takeWhile hc, ?_, ?_⟩
    · rw [List.cons_append, List.takeWhile_append_dropWhile]
    · intro hdigits
      have : 0 < (rest.takeWhile Char.isDigit).length := List.length_pos_iff.2 hdigits
      simp only [List.length_cons]
      omega
  case h_2 => exact ⟨[], .none, rfl, fun hdigits => absurd rfl hdigits⟩

theorem isPower_of_exponentPart? (h : (exponentPart? s).isSome = true) : IsPower s := by
  cases s with
  | nil => exact .none
  | cons mark rest =>
      rw [exponentPart?] at h
      split at h
      case isFalse => simp at h
      case isTrue hmark =>
        simp only [Bool.or_eq_true, decide_eq_true_eq] at hmark
        have hdigits : isDigits (takeSign rest).2 = true := by
          by_contra hdigits
          simp [Bool.eq_false_iff.2 hdigits] at h
        rcases takeSign_spec rest with hrest | ⟨sign, hsign, hrest⟩
        · exact .unsigned hmark (hrest ▸ hdigits)
        · rw [hrest]
          exact .signed hmark hsign hdigits

/-- What is read as a number without a sign is written as one. -/
theorem isNumeral_of_unsigned? (h : (unsigned? s).isSome = true) : IsNumeral s := by
  obtain ⟨fraction, hfraction, htail, hlength⟩ := fractionPart_spec (s.dropWhile Char.isDigit)
  simp only [unsigned?, Bool.and_eq_true, List.isEmpty_iff] at h
  split at h
  case isTrue => simp at h
  case isFalse hdigit =>
    have hpower := isPower_of_exponentPart? (Option.isSome_map ▸ h)
    rw [← List.takeWhile_append_dropWhile (p := Char.isDigit) (l := s), htail, ← List.append_assoc]
    exact .of (fun c hc => Text.of_mem_takeWhile hc) hfraction hpower
      ((not_and_or.1 hdigit).imp_right hlength)

/-- A numeral starts with a digit or a point, so it has no sign. -/
theorem isNumeral_of_read? {x : Float} (hfirst : ∀ c ∈ s.head?, c.isDigit = true ∨ c = '.')
    (h : read? s = some x) : IsNumeral s := by
  have hsign : takeSign s = (false, s) := by
    unfold takeSign
    split
    · exact absurd (hfirst '-' rfl) (by decide)
    · exact absurd (hfirst '+' rfl) (by decide)
    · rfl
  refine isNumeral_of_unsigned? ?_
  simp only [read?, numeral?, hsign, Option.map_map, Option.map_eq_some_iff] at h
  obtain ⟨parts, hparts, _⟩ := h
  rw [hparts]
  rfl

end Reading

end Decimal

namespace Token

open Decimal Text

/-- Characters that a numeral can go on with. -/
def goesOnNumeral (c : Char) : Bool := c.isDigit || c = '.' || c = 'e' || c = 'E'

/-- Split off a point and digits. -/
def fractionSpan : List Char → List Char × List Char
  | '.' :: rest => ('.' :: rest.takeWhile Char.isDigit, rest.dropWhile Char.isDigit)
  | rest => ([], rest)

/-- Split off the mark of an exponent, a sign and digits. -/
def powerSpan (s : List Char) : List Char × List Char :=
  match s with
  | c :: rest =>
      if c = 'e' || c = 'E' then
        match rest with
        | sign :: digits =>
            if sign = '+' || sign = '-' then
              (c :: sign :: digits.takeWhile Char.isDigit, digits.dropWhile Char.isDigit)
            else (c :: rest.takeWhile Char.isDigit, rest.dropWhile Char.isDigit)
        | [] => ([c], [])
      else ([], s)
  | [] => ([], [])

theorem numeralSpan_eq (s : List Char) :
    numeralSpan s =
      let (fraction, tail) := fractionSpan (s.dropWhile Char.isDigit)
      let (power, after) := powerSpan tail
      (s.takeWhile Char.isDigit ++ fraction ++ power, after) := by
  rfl

section Joining

variable (s : List Char)

theorem fractionSpan_join : (fractionSpan s).1 ++ (fractionSpan s).2 = s := by
  unfold fractionSpan
  split <;> simp

theorem powerSpan_join : (powerSpan s).1 ++ (powerSpan s).2 = s := by
  unfold powerSpan
  repeat' split
  all_goals simp

/-- Splitting a numeral off leaves no character out. -/
theorem numeralSpan_join : (numeralSpan s).1 ++ (numeralSpan s).2 = s := by
  rw [numeralSpan_eq]
  simp only [List.append_assoc, powerSpan_join, fractionSpan_join, List.takeWhile_append_dropWhile]

end Joining

section Span

variable {w rest : List Char}

theorem stops_isDigit (h : Stops goesOnNumeral rest) : Stops Char.isDigit rest := fun c hc => by
  have hgo := h c hc
  simp only [goesOnNumeral, Bool.or_eq_false_iff] at hgo
  exact hgo.1.1.1

theorem fractionSpan_append (h : IsFraction w) (hdigit : Stops Char.isDigit rest)
    (hpoint : Stops (· == '.') rest) : fractionSpan (w ++ rest) = (w, rest) := by
  cases h with
  | none =>
      rw [List.nil_append]
      unfold fractionSpan
      split <;> simp_all
  | point hdigits =>
      rw [List.cons_append, fractionSpan, takeWhile_append_of_stops hdigits hdigit,
        dropWhile_append_of_stops hdigits hdigit]

theorem powerSpan_append (h : IsPower w) (hrest : Stops goesOnNumeral rest) :
    powerSpan (w ++ rest) = (w, rest) := by
  have hstop := stops_isDigit hrest
  cases h with
  | none =>
      cases rest with
      | nil => rfl
      | cons c rest =>
          have hc : c ≠ 'e' ∧ c ≠ 'E' := by
            constructor <;> rintro rfl <;> simp [goesOnNumeral] at hrest
          simp [powerSpan, hc]
  | @unsigned mark digits hmark hdigits =>
      obtain ⟨hne, hdigits⟩ := isDigits_iff.1 hdigits
      obtain ⟨d, more, rfl⟩ := List.exists_cons_of_ne_nil hne
      have hd : d ≠ '+' ∧ d ≠ '-' := by
        constructor <;> rintro rfl <;> exact absurd (hdigits _ List.mem_cons_self) (by decide)
      rw [List.cons_append, List.cons_append, powerSpan, if_pos (by simpa using hmark)]
      simp only [hd, decide_false, Bool.or_self, Bool.false_eq_true, if_false]
      rw [← List.cons_append, takeWhile_append_of_stops hdigits hstop,
        dropWhile_append_of_stops hdigits hstop]
  | @signed mark sign digits hmark hsign hdigits =>
      have hdigits := (isDigits_iff.1 hdigits).2
      rw [List.cons_append, List.cons_append, powerSpan, if_pos (by simpa using hmark)]
      have hsign' : (decide (sign = '+') || decide (sign = '-')) = true := by simpa using hsign
      simp only [if_pos hsign']
      rw [takeWhile_append_of_stops hdigits hstop, dropWhile_append_of_stops hdigits hstop]

theorem stops_power (h : IsPower w) (hrest : Stops goesOnNumeral rest) :
    Stops Char.isDigit (w ++ rest) ∧ Stops (· == '.') (w ++ rest) := by
  have hmark : ∀ {mark more}, mark = 'e' ∨ mark = 'E' →
      Stops Char.isDigit (mark :: more) ∧ Stops (· == '.') (mark :: more) := by
    rintro mark more (rfl | rfl) <;> simp
  cases h with
  | none =>
      refine ⟨stops_isDigit hrest, fun c hc => ?_⟩
      have hgo := hrest c hc
      simp only [goesOnNumeral, Bool.or_eq_false_iff, decide_eq_false_iff_not] at hgo
      simpa using hgo.1.1.2
  | unsigned h => exact hmark h
  | signed h => exact hmark h

/-- A numeral is split off whole where the text behind it does not go on with it. -/
theorem numeralSpan_append (h : IsNumeral w) (hrest : Stops goesOnNumeral rest) :
    numeralSpan (w ++ rest) = (w, rest) := by
  cases h with
  | @of whole fraction power hwhole hfraction hpower hdigit =>
      obtain ⟨hstop, hpoint⟩ := stops_power hpower hrest
      have htail : Stops Char.isDigit (fraction ++ (power ++ rest)) := by
        cases hfraction with
        | none => exact hstop
        | point => simp
      rw [numeralSpan_eq, List.append_assoc, List.append_assoc,
        takeWhile_append_of_stops hwhole htail, dropWhile_append_of_stops hwhole htail,
        fractionSpan_append hfraction hstop hpoint]
      simp only [powerSpan_append hpower hrest, List.append_assoc]

end Span

section Ends

variable {c : Char} {w rest : List Char}

theorem isBlank_of_isDigit (h : c.isDigit = true) : isBlank c = false :=
  isBlank_of_isAlphanum (isAlphanum_of_isDigit h)

/-- A class with the digits and the signs of numerals has all of their characters. -/
theorem forall_mem_numeral {p : Char → Bool} (hdigit : ∀ c, c.isDigit = true → p c = true)
    (hsigns : ['.', 'e', 'E', '+', '-'].all p = true) (h : IsNumeral w) :
    ∀ c ∈ w, p c = true := by
  have hsign := List.all_eq_true.1 hsigns
  have hdigits : ∀ {digits}, isDigits digits = true → ∀ c ∈ digits, p c = true :=
    fun h c hc => hdigit c ((isDigits_iff.1 h).2 c hc)
  cases h with
  | of hwhole hfraction hpower _ =>
      refine List.forall_mem_append.2 ⟨List.forall_mem_append.2
        ⟨fun c hc => hdigit c (hwhole c hc), ?_⟩, ?_⟩
      · cases hfraction with
        | none => exact List.forall_mem_nil _
        | point h =>
            exact List.forall_mem_cons.2 ⟨hsign _ (by simp), fun c hc => hdigit c (h c hc)⟩
      · cases hpower with
        | none => exact List.forall_mem_nil _
        | unsigned hmark h =>
            refine List.forall_mem_cons.2 ⟨hsign _ ?_, hdigits h⟩
            rcases hmark with rfl | rfl <;> simp
        | signed hmark hplus h =>
            refine List.forall_mem_cons.2
              ⟨hsign _ ?_, List.forall_mem_cons.2 ⟨hsign _ ?_, hdigits h⟩⟩
            · rcases hmark with rfl | rfl <;> simp
            · rcases hplus with rfl | rfl <;> simp

theorem isBlank_of_mem_numeral (h : IsNumeral w) : ∀ c ∈ w, isBlank c = false := by
  have hdigit : ∀ c, c.isDigit = true → (!isBlank c) = true := fun c hc => by
    rw [isBlank_of_isDigit hc, Bool.not_false]
  simpa using forall_mem_numeral hdigit (by decide) h

theorem startsNumeral_of_isDigit (h : c.isDigit = true) : startsNumeral (c :: rest) = true := by
  unfold startsNumeral
  split <;> simp_all

theorem isDigit_or_eq_of_startsNumeral (h : startsNumeral (c :: rest) = true) :
    c.isDigit = true ∨ c = '.' := by
  unfold startsNumeral at h
  split at h <;> simp_all

/-- A numeral is told by its first characters. -/
theorem startsNumeral_append (h : IsNumeral w) (rest : List Char) :
    startsNumeral (w ++ rest) = true := by
  cases h with
  | of hwhole hfraction hpower hdigit =>
      rename_i whole fraction power
      cases whole with
      | cons d whole => exact startsNumeral_of_isDigit (hwhole d List.mem_cons_self)
      | nil =>
          cases hfraction with
          | none => simp at hdigit
          | @point digits h =>
              cases digits with
              | nil => simp at hdigit
              | cons d digits => exact h d List.mem_cons_self

theorem head?_numeralSpan (h : startsNumeral (c :: rest) = true) :
    (numeralSpan (c :: rest)).1.head? = some c := by
  rw [numeralSpan_eq]
  rcases isDigit_or_eq_of_startsNumeral h with hc | rfl
  · simp [hc]
  · simp [fractionSpan]

/-- What is split off as a numeral and can be read is one. -/
theorem isNumeral_numeralSpan {x : Float} (h : startsNumeral (c :: rest) = true)
    (hread : read? (numeralSpan (c :: rest)).1 = some x) :
    IsNumeral (numeralSpan (c :: rest)).1 := by
  refine isNumeral_of_read? (fun d hd => ?_) hread
  rw [head?_numeralSpan h, Option.mem_some_iff] at hd
  exact hd ▸ isDigit_or_eq_of_startsNumeral h

end Ends

end Token

end Recalc
