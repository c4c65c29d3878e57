import Recalc.Proofs.Address.Notation
import Recalc.Proofs.Text.Casing

/-!
# Variants of a notation

An address is named by its own notation and by each variant of it: letters in either case, dollar
signs before the letters and the row, zeros before the row's digits, blanks around it all. The
notation tells apart what differs in column or row, also beyond the limits of sheets.
-/

namespace Recalc

namespace Column

theorem digit_toUpper (c : Char) : digit c.toUpper = digit c := by
  rw [digit, Text.toUpper_toUpper, digit]

/-- Letters are worth the same in either case. -/
theorem worth_map_toUpper (start : Nat) (word : List Char) :
    worth start (word.map Char.toUpper) = worth start word := by
  rw [worth, List.foldl_map, worth]
  simp only [digit_toUpper]

end Column

theorem Decimal.digitsValue_zeros_append {zeros : List Char} (hzeros : ∀ c ∈ zeros, c = '0')
    (digits : List Char) : digitsValue (zeros ++ digits) = digitsValue digits := by
  induction zeros with
  | nil => rfl
  | cons c zeros ih =>
      obtain ⟨rfl, hmore⟩ := List.forall_mem_cons.1 hzeros
      exact ih hmore

namespace Address

section Casing

variable {a : Address} {sheet : Nat} {sign text other : List Char}

/-- What spells an address spells it in either case. -/
theorem IsSpelling.of_map_toUpper_eq (h : IsSpelling a sign text)
    (hsign : ∀ c ∈ sign, c.isAlpha = false)
    (heq : other.map Char.toUpper = text.map Char.toUpper) : IsSpelling a sign other := by
  have hmark : ∀ {mark}, IsMark mark → ∀ c ∈ mark, c.isAlpha = false := by
    rintro _ (rfl | rfl)
    · exact List.forall_mem_nil _
    · exact List.forall_mem_singleton.2 (by decide)
  cases h with
  | @of before letters between digits hbefore hne hletters hcol hbetween hdigits hrow =>
      have hnumber : ∀ c ∈ digits, c.isAlpha = false := fun c hc =>
        Text.isAlpha_of_isDigit ((Decimal.isDigits_iff.1 hdigits).2 c hc)
      simp only [List.map_append] at heq
      -- Only the letters may be other ones.
      obtain ⟨before', _, rfl, hb, hbody⟩ := List.map_eq_append_iff.1 heq
      obtain rfl := Text.eq_of_map_toUpper_eq hb (hmark hbefore)
      obtain ⟨letters', _, rfl, hsame, htail⟩ := List.map_eq_append_iff.1 hbody
      obtain ⟨between', _, rfl, hm, hnum⟩ := List.map_eq_append_iff.1 htail
      obtain rfl := Text.eq_of_map_toUpper_eq hm (hmark hbetween)
      obtain ⟨sign', digits', rfl, hs, hd⟩ := List.map_eq_append_iff.1 hnum
      obtain rfl := Text.eq_of_map_toUpper_eq hs hsign
      obtain rfl := Text.eq_of_map_toUpper_eq hd hnumber
      have halpha : ∀ c ∈ letters', c.isAlpha = true := by
        have hmap : ∀ c ∈ letters.map Char.toUpper, c.isAlpha = true := by
          simpa [Text.isAlpha_toUpper] using hletters
        rw [← hsame] at hmap
        simpa [Text.isAlpha_toUpper] using hmap
      refine .of hbefore ?_ halpha ?_ hbetween hdigits hrow
      · rintro rfl
        exact hne (List.map_eq_nil_iff.1 hsame.symm)
      · rw [← Column.worth_map_toUpper, hsame, Column.worth_map_toUpper, hcol]

/-- Addresses are read in either case. -/
theorem ofA1_of_map_toUpper_eq {s t : String} (h : ofA1 sheet s = .ok a)
    (heq : t.toList.map Char.toUpper = s.toList.map Char.toUpper) : ofA1 sheet t = .ok a := by
  obtain ⟨hsheet, hnamed, sign, hsign, hspelling⟩ := ofA1Chars_eq_ok_iff.1 h
  refine ofA1Chars_eq_ok_iff.2
    ⟨hsheet, hnamed, sign, hsign, hspelling.of_map_toUpper_eq ?_ ?_⟩
  · rcases hsign with rfl | rfl
    · exact List.forall_mem_nil _
    · exact List.forall_mem_singleton.2 (by decide)
  · rw [← Text.trim_map_toUpper, heq, Text.trim_map_toUpper]

end Casing

/-- The ways to write the notation of an address. -/
inductive IsVariant (a : Address) : List Char → Prop
  | of {front before letters between zeros digits back : List Char}
      (hfront : ∀ c ∈ front, Text.isBlank c = true) (hbefore : IsMark before)
      (hletters : ∀ c ∈ letters, c.isAlpha = true) (hbetween : IsMark between)
      (hzeros : ∀ c ∈ zeros, c = '0') (hdigits : ∀ c ∈ digits, c.isDigit = true)
      (hback : ∀ c ∈ back, Text.isBlank c = true)
      (hsame : letters.map Char.toUpper ++ digits = a.toA1.toList) :
      IsVariant a (front ++ (before ++ (letters ++ (between ++ (zeros ++ digits))) ++ back))

variable {a b : Address} {letters digits text : List Char}

/-- The notation falls into its letters and its digits in one way only. -/
theorem parts_of_append_eq_toA1 (hletters : ∀ c ∈ letters, c.isAlpha = true)
    (hdigits : ∀ c ∈ digits, c.isDigit = true) (h : letters ++ digits = a.toA1.toList) :
    letters = Column.letters a.col ∧ digits = Nat.toDigits 10 (a.row + 1) := by
  have hstop : Text.Stops Char.isAlpha digits :=
    Text.stops_of_forall fun c hc => Text.isAlpha_of_isDigit (hdigits c hc)
  rw [← takeWhile_toA1, ← dropWhile_toA1, ← h, Text.takeWhile_append_of_stops hletters hstop,
    Text.dropWhile_append_of_stops hletters hstop]
  exact ⟨rfl, rfl⟩

/-- Without the blanks around it, a variant of an address's notation spells the address. -/
theorem IsVariant.isSpelling (h : IsVariant a text) : IsSpelling a [] (Text.trim text) := by
  cases h with
  | @of front before letters between zeros digits back hfront hbefore hletters hbetween hzeros
      hdigits hback hsame =>
      have hupper : ∀ c ∈ letters.map Char.toUpper, c.isAlpha = true := by
        simpa [Text.isAlpha_toUpper] using hletters
      obtain ⟨hcol, rfl⟩ := parts_of_append_eq_toA1 hupper hdigits hsame
      have hne : letters ≠ [] := by
        rintro rfl
        exact Column.letters_ne_nil _ hcol.symm
      have hworth : Column.worth 0 letters = a.col + 1 := by
        rw [← Column.worth_map_toUpper, hcol, Column.worth_letters]
      have hrow : Decimal.digitsValue (zeros ++ Nat.toDigits 10 (a.row + 1)) = a.row + 1 := by
        rw [Decimal.digitsValue_zeros_append hzeros, digitsValue_toDigits]
      have hnumber : Decimal.isDigits (zeros ++ Nat.toDigits 10 (a.row + 1)) = true := by
        refine Decimal.isDigits_iff.2 ⟨by simp [Nat.toDigits_ne_nil], ?_⟩
        refine List.forall_mem_append.2 ⟨?_, isDigit_of_mem_toDigits⟩
        intro c hc
        rw [hzeros c hc]
        rfl
      have hspelling : IsSpelling a []
          (before ++ (letters ++ (between ++ (zeros ++ Nat.toDigits 10 (a.row + 1))))) :=
        .of hbefore hne hletters hworth hbetween hnumber hrow
      have hblank := hspelling.forall_mem (p := (Text.isBlank · = false)) (by decide)
        (fun c hc => Text.isBlank_of_isAlphanum (Text.isAlphanum_of_isAlpha hc))
        (fun c hc => Text.isBlank_of_isAlphanum (Text.isAlphanum_of_isDigit hc))
        (List.forall_mem_nil _)
      rw [Text.trim_append hfront hback hblank]
      exact hspelling

/-- Every variant of the notation of an address that can be named is read as that address, and
addresses that differ in column or row differ in notation, whether they can be named or not. -/
theorem ofA1_variant (a : Address) :
    (a.IsNamed → ∀ s : String, IsVariant a s.toList → ofA1 a.sheet s = .ok a)
      ∧ ∀ b : Address, a.toA1 = b.toA1 ↔ a.col = b.col ∧ a.row = b.row := by
  constructor
  · intro hnamed s hs
    exact hs.isSpelling.ofA1Chars (.inl rfl) hnamed
  · intro b
    constructor
    · intro h
      have hletters : Column.letters a.col = Column.letters b.col := by
        rw [← takeWhile_toA1, h, takeWhile_toA1]
      have hdigits : Nat.toDigits 10 (a.row + 1) = Nat.toDigits 10 (b.row + 1) := by
        rw [← dropWhile_toA1, h, dropWhile_toA1]
      have hrow : a.row + 1 = b.row + 1 := by
        calc
          a.row + 1 = Decimal.digitsValue (Nat.toDigits 10 (a.row + 1)) := digitsValue_toDigits.symm
          _ = Decimal.digitsValue (Nat.toDigits 10 (b.row + 1)) := by rw [hdigits]
          _ = b.row + 1 := digitsValue_toDigits
      exact ⟨Column.letters_injective hletters, Nat.succ_inj.1 hrow⟩
    · rintro ⟨hcol, hrow⟩
      rw [toA1, toA1, hcol, hrow]

/-- The last cell of a sheet, with all that a variant may have. -/
theorem ofA1_variant_lastCell :
    IsVariant ⟨3, 16383, 1048575⟩ "\t$xFd$001048576 ".toList
      ∧ ofA1 3 "\t$xFd$001048576 " = .ok ⟨3, 16383, 1048575⟩ := by
  have hvariant : IsVariant ⟨3, 16383, 1048575⟩ "\t$xFd$001048576 ".toList :=
    @IsVariant.of ⟨3, 16383, 1048575⟩ ['\t'] ['$'] ['x', 'F', 'd'] ['$'] ['0', '0']
      ['1', '0', '4', '8', '5', '7', '6'] [' '] (List.all_eq_true.1 rfl) (.inr rfl)
      (List.all_eq_true.1 rfl) (.inr rfl) (by simp) (List.all_eq_true.1 rfl)
      (List.all_eq_true.1 rfl) (by decide +kernel)
  exact ⟨hvariant, (ofA1_variant ⟨3, 16383, 1048575⟩).1 (by decide) _ hvariant⟩

end Address

end Recalc
