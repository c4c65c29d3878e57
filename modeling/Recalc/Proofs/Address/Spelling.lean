import Recalc.Proofs.Address.Column
import Recalc.Proofs.Outcome
import Recalc.Proofs.Text.Ascii
import Recalc.Address.Notation

/-!
# The spellings of an address

A text names an address within the limits of a sheet if it is letters worth its column and digits
worth its row, with a dollar sign at most before either. Nothing else is read as an address but the
same with a plus sign before the digits.
-/

namespace Recalc.Address

/-- Whether an address can be named: its column has letters and its row a number. -/
def IsNamed (a : Address) : Prop := a.col < maxColumns ∧ a.row < maxRows

instance (a : Address) : Decidable a.IsNamed :=
  inferInstanceAs (Decidable (a.col < maxColumns ∧ a.row < maxRows))

/-- At most a dollar sign. -/
def IsMark (mark : List Char) : Prop := mark = [] ∨ mark = ['$']

/-- At most a plus sign. -/
def IsPlus (sign : List Char) : Prop := sign = [] ∨ sign = ['+']

/-- The texts that name the column and the row of an address, with a sign before the row's digits.
In A1 notation there is none. -/
inductive IsSpelling (a : Address) (sign : List Char) : List Char → Prop
  | of {before letters between digits : List Char} (hbefore : IsMark before)
      (hne : letters ≠ []) (hletters : ∀ c ∈ letters, c.isAlpha = true)
      (hcol : Column.worth 0 letters = a.col + 1) (hbetween : IsMark between)
      (hdigits : Decimal.isDigits digits = true)
      (hrow : Decimal.digitsValue digits = a.row + 1) :
      IsSpelling a sign (before ++ (letters ++ (between ++ (sign ++ digits))))

section Parts

variable {mark sign letters digits s : List Char}

theorem exists_mark (s : List Char) : ∃ mark, IsMark mark ∧ s = mark ++ dropDollar s := by
  unfold dropDollar
  split
  · exact ⟨['$'], .inr rfl, rfl⟩
  · exact ⟨[], .inl rfl, rfl⟩

theorem dropDollar_append (hmark : IsMark mark) (hs : Text.Stops (· == '$') s) :
    dropDollar (mark ++ s) = s := by
  rcases hmark with rfl | rfl
  · rw [List.nil_append]
    unfold dropDollar
    split
    · exact absurd (hs '$' rfl) (by decide)
    · rfl
  · rfl

theorem stops_letters (hne : letters ≠ []) (hletters : ∀ c ∈ letters, c.isAlpha = true) :
    Text.Stops (· == '$') (letters ++ s) := by
  obtain ⟨c, letters, rfl⟩ := List.exists_cons_of_ne_nil hne
  rw [List.cons_append, Text.stops_cons, beq_eq_false_iff_ne]
  rintro rfl
  exact absurd (hletters '$' List.mem_cons_self) (by decide)

/-- A row number starts with neither a letter nor a dollar sign. -/
theorem stops_number (hsign : IsPlus sign) (hdigits : Decimal.isDigits digits = true) :
    Text.Stops Char.isAlpha (sign ++ digits) ∧ Text.Stops (· == '$') (sign ++ digits) := by
  obtain ⟨hne, hall⟩ := Decimal.isDigits_iff.1 hdigits
  obtain ⟨d, digits, rfl⟩ := List.exists_cons_of_ne_nil hne
  have hd : d.isDigit = true := hall d List.mem_cons_self
  rcases hsign with rfl | rfl
  · refine ⟨Text.stops_cons.2 (Text.isAlpha_of_isDigit hd), Text.stops_cons.2 ?_⟩
    rw [beq_eq_false_iff_ne]
    rintro rfl
    cases hd
  · exact ⟨Text.stops_cons.2 (by decide), Text.stops_cons.2 (by decide)⟩

/-- A class with the dollar sign, the letters, the digits and the sign has all characters of a
spelling. -/
theorem IsSpelling.forall_mem {a : Address} {p : Char → Prop} (h : IsSpelling a sign s)
    (hdollar : p '$') (hletter : ∀ c, c.isAlpha = true → p c)
    (hdigit : ∀ c, c.isDigit = true → p c) (hsign : ∀ c ∈ sign, p c) : ∀ c ∈ s, p c := by
  have hmark : ∀ {mark}, IsMark mark → ∀ c ∈ mark, p c := by
    rintro _ (rfl | rfl)
    · exact List.forall_mem_nil _
    · exact List.forall_mem_singleton.2 hdollar
  cases h with
  | of hbefore hne hletters hcol hbetween hdigits hrow =>
      simp only [List.forall_mem_append]
      exact ⟨hmark hbefore, fun c hc => hletter c (hletters c hc), hmark hbetween, hsign,
        fun c hc => hdigit c ((Decimal.isDigits_iff.1 hdigits).2 c hc)⟩

end Parts

section Reading

variable {a : Address} {sheet n : Nat} {s text : List Char}

/-- A row number is digits with at most a plus sign before them. -/
theorem rowNumber?_eq_some_iff :
    rowNumber? s = some n ↔
      ∃ sign digits, IsPlus sign ∧ s = sign ++ digits ∧ Decimal.isDigits digits = true
        ∧ Decimal.digitsValue digits = n ∧ n < coordinateLimit := by
  have hread : ∀ digits : List Char,
      (if Decimal.isDigits digits && Decimal.digitsValue digits < coordinateLimit then
        some (Decimal.digitsValue digits) else none) = some n ↔
      Decimal.isDigits digits = true ∧ Decimal.digitsValue digits = n ∧ n < coordinateLimit := by
    intro digits
    simp only [Bool.and_eq_true, decide_eq_true_eq, Option.ite_none_right_eq_some,
      Option.some.injEq]
    constructor
    · rintro ⟨⟨hdigits, hlt⟩, rfl⟩
      exact ⟨hdigits, rfl, hlt⟩
    · rintro ⟨hdigits, rfl, hlt⟩
      exact ⟨⟨hdigits, hlt⟩, rfl⟩
  constructor
  · intro h
    unfold rowNumber? at h
    split at h
    · exact ⟨['+'], _, .inr rfl, rfl, (hread _).1 h⟩
    · exact ⟨[], s, .inl rfl, rfl, (hread _).1 h⟩
  · rintro ⟨sign, digits, hsign, rfl, hdigits⟩
    rcases hsign with rfl | rfl
    · rw [List.nil_append]
      unfold rowNumber?
      split
      · exact absurd ((Decimal.isDigits_iff.1 hdigits.1).2 '+' List.mem_cons_self) (by decide)
      · exact (hread digits).2 hdigits
    · exact (hread digits).2 hdigits

theorem readRow_eq_ok_iff_rowNumber? :
    readRow text s = .ok n ↔ rowNumber? s = some (n + 1) ∧ n < maxRows := by
  cases s with
  | nil => exact iff_of_false nofun fun h => nomatch h.1
  | cons c s =>
      rw [readRow, if_neg (by simp)]
      cases rowNumber? (c :: s) with
      | none => exact iff_of_false nofun fun h => nomatch h.1
      | some m =>
          dsimp only
          rw [Option.some.injEq]
          split
          case isTrue hrange =>
            simp only [Bool.or_eq_true, decide_eq_true_eq] at hrange
            exact iff_of_false nofun (by omega)
          case isFalse hrange =>
            simp only [Bool.or_eq_true, decide_eq_true_eq] at hrange
            rw [Except.ok.injEq]
            omega

theorem readRow_eq_ok_iff :
    readRow text s = .ok n ↔
      ∃ sign digits, IsPlus sign ∧ s = sign ++ digits ∧ Decimal.isDigits digits = true
        ∧ Decimal.digitsValue digits = n + 1 ∧ n < maxRows := by
  rw [readRow_eq_ok_iff_rowNumber?, rowNumber?_eq_some_iff]
  constructor
  · rintro ⟨⟨sign, digits, hsign, hs, hdigits, hvalue, -⟩, hn⟩
    exact ⟨sign, digits, hsign, hs, hdigits, hvalue, hn⟩
  · rintro ⟨sign, digits, hsign, hs, hdigits, hvalue, hn⟩
    have hlimit : n + 1 < coordinateLimit := Nat.lt_of_le_of_lt hn (by decide)
    exact ⟨⟨sign, digits, hsign, hs, hdigits, hvalue, hlimit⟩, hn⟩

/-- What is read as an address spells it. -/
theorem exists_isSpelling_of_ofA1Chars (h : ofA1Chars sheet text = .ok a) :
    a.sheet = sheet ∧ a.IsNamed ∧ ∃ sign, IsPlus sign ∧ IsSpelling a sign text := by
  rw [ofA1Chars] at h
  split at h
  · cases h
  simp only at h
  split at h
  · cases h
  obtain ⟨col, hcol, hread⟩ := exists_of_bind_eq_ok h
  obtain ⟨row, hrow, hreturn⟩ := exists_of_bind_eq_ok hread
  cases hreturn
  obtain ⟨hne, hletters, hworth, hcols⟩ := Column.ofLetters_eq_ok_iff.1 hcol
  obtain ⟨sign, digits, hsign, hs, hdigits, hvalue, hrows⟩ := readRow_eq_ok_iff.1 hrow
  obtain ⟨before, hbefore, htext⟩ := exists_mark text
  obtain ⟨between, hbetween, htail⟩ := exists_mark ((dropDollar text).dropWhile Char.isAlpha)
  have hspelling := @IsSpelling.of ⟨sheet, col, row⟩ sign _ _ _ _ hbefore hne hletters hworth
    hbetween hdigits hvalue
  rw [← hs, ← htail, List.takeWhile_append_dropWhile, ← htext] at hspelling
  exact ⟨rfl, ⟨hcols, hrows⟩, sign, hsign, hspelling⟩

/-- A spelling of an address is read as that address. -/
theorem IsSpelling.ofA1Chars {sign : List Char} (h : IsSpelling a sign text) (hsign : IsPlus sign)
    (hnamed : a.IsNamed) : ofA1Chars a.sheet text = .ok a := by
  cases h with
  | @of before letters between digits hbefore hne hletters hworth hbetween hdigits hvalue =>
      obtain ⟨hstop, hdollar⟩ := stops_number hsign hdigits
      have hbody := dropDollar_append hbefore
        (stops_letters (s := between ++ (sign ++ digits)) hne hletters)
      have htail : Text.Stops Char.isAlpha (between ++ (sign ++ digits)) := by
        rcases hbetween with rfl | rfl
        · exact hstop
        · exact Text.stops_cons.2 (by decide)
      have hcol : Column.ofLetters letters = .ok a.col :=
        Column.ofLetters_eq_ok_iff.2 ⟨hne, hletters, hworth, hnamed.1⟩
      have hrow : ∀ text, readRow text (sign ++ digits) = .ok a.row := fun _ =>
        readRow_eq_ok_iff.2 ⟨sign, digits, hsign, rfl, hdigits, hvalue, hnamed.2⟩
      simp only [Address.ofA1Chars, hbody, Text.takeWhile_append_of_stops hletters htail,
        Text.dropWhile_append_of_stops hletters htail, dropDollar_append hbetween hdollar, hcol,
        hrow, List.isEmpty_iff, List.append_eq_nil_iff, hne, false_and, and_false, if_false]
      rfl

theorem ofA1Chars_eq_ok_iff :
    Address.ofA1Chars sheet text = .ok a ↔
      a.sheet = sheet ∧ a.IsNamed ∧ ∃ sign, IsPlus sign ∧ IsSpelling a sign text := by
  constructor
  · exact exists_isSpelling_of_ofA1Chars
  · rintro ⟨rfl, hnamed, sign, hsign, hspelling⟩
    exact hspelling.ofA1Chars hsign hnamed

end Reading

/-- A text is read as an address if and only if, without the blanks around it, it is the address in
A1 notation or would be without a plus sign before the digits of its row. -/
theorem ofA1_eq_ok_iff (sheet : Nat) (s : String) (a : Address) :
    ofA1 sheet s = .ok a ↔
      a.sheet = sheet ∧ a.IsNamed
        ∧ (IsSpelling a [] (Text.trim s.toList) ∨ IsSpelling a ['+'] (Text.trim s.toList)) := by
  rw [ofA1, ofA1Chars_eq_ok_iff]
  refine and_congr_right fun _ => and_congr_right fun _ => ?_
  constructor
  · rintro ⟨sign, rfl | rfl, h⟩
    · exact .inl h
    · exact .inr h
  · rintro (h | h)
    · exact ⟨[], .inl rfl, h⟩
    · exact ⟨['+'], .inr rfl, h⟩

/-- A plus sign before the row is no part of A1 notation, and is read. -/
theorem ofA1_plusSign :
    ofA1 0 "A+1" = .ok ⟨0, 0, 0⟩ ∧ ∀ a, ¬ IsSpelling a [] (Text.trim "A+1".toList) := by
  refine ⟨by decide +kernel, fun a h => ?_⟩
  have hplus : ∀ c ∈ Text.trim "A+1".toList, c ≠ '+' := by
    refine h.forall_mem (p := (· ≠ '+')) (by decide) ?_ ?_ (List.forall_mem_nil _)
    · rintro _ hletter rfl
      cases hletter
    · rintro _ hdigit rfl
      cases hdigit
  exact hplus '+' (by decide) rfl

end Recalc.Address
