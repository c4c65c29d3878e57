import Recalc.Expr
import Recalc.Proofs.Address.Spelling
import Recalc.Token.Scan

/-!
# Addresses in A1 notation

The notation of an address within the limits of a sheet is one word, which names that address; an
address that can be read is within the limits. A reference leads from the formula's cell to its
target and is found again from the two.
-/

namespace Recalc

namespace Address

section Writing

variable (a : Address) {n : Nat}

theorem toList_toA1 : a.toA1.toList = Column.letters a.col ++ Nat.toDigits 10 (a.row + 1) := by
  simp [toA1, ToString.toString, Nat.toList_repr]

theorem isDigit_of_mem_toDigits : ∀ c ∈ Nat.toDigits 10 n, c.isDigit = true :=
  fun _ hc => Nat.isDigit_of_mem_toDigits (by decide) (by decide) hc

theorem isDigits_toDigits : Decimal.isDigits (Nat.toDigits 10 n) = true :=
  Decimal.isDigits_iff.2 ⟨Nat.toDigits_ne_nil, isDigit_of_mem_toDigits⟩

theorem digitsValue_toDigits : Decimal.digitsValue (Nat.toDigits 10 n) = n := by
  rw [Decimal.digitsValue]
  simpa only [Nat.ofDigitChars, Nat.mul_comm] using Nat.ofDigitChars_ten_toDigits (n := n)

/-- The notation of an address spells it, with no mark and no sign. -/
theorem isSpelling_toA1 : IsSpelling a [] a.toA1.toList := by
  rw [toList_toA1]
  exact .of (.inl rfl) (Column.letters_ne_nil _) (Column.isAlpha_of_mem_letters _)
    (Column.worth_letters _) (.inl rfl) isDigits_toDigits digitsValue_toDigits

theorem isAlphanum_of_mem_toA1 : ∀ c ∈ a.toA1.toList, c.isAlphanum = true := by
  intro c hc
  rw [toList_toA1, List.mem_append] at hc
  rcases hc with hc | hc
  · exact Text.isAlphanum_of_isAlpha (Column.isAlpha_of_mem_letters _ c hc)
  · exact Text.isAlphanum_of_isDigit (isDigit_of_mem_toDigits c hc)

theorem stops_isAlpha_toDigits (n : Nat) : Text.Stops Char.isAlpha (Nat.toDigits 10 n) :=
  Text.stops_of_forall fun c hc => Text.isAlpha_of_isDigit (isDigit_of_mem_toDigits c hc)

theorem takeWhile_toA1 : a.toA1.toList.takeWhile Char.isAlpha = Column.letters a.col := by
  rw [toList_toA1]
  exact Text.takeWhile_append_of_stops (Column.isAlpha_of_mem_letters _) (stops_isAlpha_toDigits _)

theorem dropWhile_toA1 :
    a.toA1.toList.dropWhile Char.isAlpha = Nat.toDigits 10 (a.row + 1) := by
  rw [toList_toA1]
  exact Text.dropWhile_append_of_stops (Column.isAlpha_of_mem_letters _) (stops_isAlpha_toDigits _)

theorem dropDollar_toA1 : dropDollar a.toA1.toList = a.toA1.toList := by
  rw [toList_toA1]
  exact dropDollar_append (.inl rfl)
    (stops_letters (Column.letters_ne_nil _) (Column.isAlpha_of_mem_letters _))

theorem dropDollar_toDigits (n : Nat) : dropDollar (Nat.toDigits 10 n) = Nat.toDigits 10 n :=
  dropDollar_append (.inl rfl) (stops_number (.inl rfl) isDigits_toDigits).2

theorem isCellWord_toA1 : Token.isCellWord a.toA1.toList = true := by
  simp [Token.isCellWord, dropDollar_toA1, takeWhile_toA1, dropWhile_toA1, dropDollar_toDigits,
    Column.letters_ne_nil, isDigits_toDigits]

end Writing

section Reading

variable {a : Address} {sheet : Nat} {s : String}

/-- The notation of an address names that address. -/
theorem ofA1_toA1 (h : a.IsNamed) : ofA1 a.sheet a.toA1 = .ok a := by
  have hblank : ∀ c ∈ a.toA1.toList, Text.isBlank c = false :=
    fun c hc => Text.isBlank_of_isAlphanum (isAlphanum_of_mem_toA1 a c hc)
  rw [ofA1, Text.trim_of_forall hblank]
  exact a.isSpelling_toA1.ofA1Chars (.inl rfl) h

/-- What can be read is an address on the given sheet, within the limits of sheets. -/
theorem isNamed_of_ofA1 (h : ofA1 sheet s = .ok a) : a.IsNamed ∧ a.sheet = sheet := by
  obtain ⟨hsheet, hnamed, -⟩ := exists_isSpelling_of_ofA1Chars h
  exact ⟨hnamed, hsheet⟩

end Reading

end Address

namespace Reference

variable {home target : Address} {r : Reference}

/-- Whether a formula at `home` refers to an address that can be named. -/
def IsNamed (home : Address) (r : Reference) : Prop :=
  ∃ target, r.resolve? home = some target ∧ target.IsNamed

theorem shiftCoordinate?_between {m n : Nat} (h : n < Address.coordinateLimit) :
    Address.shiftCoordinate? m ((n : Int) - m) = some n := by
  have hmoved : (m : Int) + ((n : Int) - m) = n := by omega
  simp [Address.shiftCoordinate?, hmoved, h]

theorem between_of_shiftCoordinate? {m n : Nat} {delta : Int}
    (h : Address.shiftCoordinate? m delta = some n) : (n : Int) - m = delta := by
  simp only [Address.shiftCoordinate?, Bool.and_eq_true, decide_eq_true_eq] at h
  split at h
  · simp only [Option.some.injEq] at h
    omega
  · cases h

/-- A reference made from the formula's cell to a target leads to that target. -/
theorem resolve?_between (hsheet : target.sheet = home.sheet) (h : target.IsNamed) :
    (between home target).resolve? home = some target := by
  have hcol : target.col < Address.coordinateLimit := Nat.lt_trans h.1 (by decide)
  have hrow : target.row < Address.coordinateLimit := Nat.lt_trans h.2 (by decide)
  simp only [resolve?, between, Address.shift?, shiftCoordinate?_between hcol,
    shiftCoordinate?_between hrow, Option.bind_some, Option.map_some, Option.some.injEq]
  rw [← hsheet]

theorem between_of_resolve? (h : r.resolve? home = some target) :
    between home target = r ∧ target.sheet = home.sheet := by
  simp only [resolve?, Address.shift?, Option.bind_eq_some_iff, Option.map_eq_some_iff] at h
  obtain ⟨col, hcol, row, hrow, rfl⟩ := h
  simp [between, between_of_shiftCoordinate? hcol, between_of_shiftCoordinate? hrow]

theorem isNamed_between (hsheet : target.sheet = home.sheet) (h : target.IsNamed) :
    (between home target).IsNamed home :=
  ⟨target, resolve?_between hsheet h, h⟩

end Reference

end Recalc
