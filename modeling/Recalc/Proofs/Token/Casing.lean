import Recalc.Proofs.Text.Casing
import Recalc.Proofs.Token.Spelling

/-!
# Scanning in either case

Each class of characters that a scan goes by has its letters in both cases, and numerals, booleans
and error literals are read in either case. So the tokens of a text in capital letters outside its
literals are those of the text itself, with the words of names and cells in capital letters.
-/

namespace Recalc

open Text

/-! ## Numerals -/

namespace Decimal

variable (s : List Char)

theorem takeWhile_isDigit_map_toUpper :
    (s.map Char.toUpper).takeWhile Char.isDigit = s.takeWhile Char.isDigit := by
  rw [takeWhile_map_toUpper isDigit_toUpper]
  exact map_toUpper_of_forall fun c hc => isAlpha_of_isDigit (of_mem_takeWhile hc)

theorem isDigits_map_toUpper : isDigits (s.map Char.toUpper) = isDigits s := by
  simp [isDigits, Function.comp_def, isDigit_toUpper]

/-- The mark of an exponent is a letter in either case. -/
theorem exponentMark_toUpper (c : Char) :
    (decide (c.toUpper = 'e') || decide (c.toUpper = 'E'))
      = (decide (c = 'e') || decide (c = 'E')) :=
  toUpper_congr (f := fun c => decide (c = 'e') || decide (c = 'E')) (by decide) c

theorem takeSign_map_toUpper :
    takeSign (s.map Char.toUpper) = Prod.map id (List.map Char.toUpper) (takeSign s) := by
  rcases s with _ | ⟨c, rest⟩
  · rfl
  by_cases hminus : c = '-'
  · rw [hminus]
    rfl
  by_cases hplus : c = '+'
  · rw [hplus]
    rfl
  simp [takeSign, hminus, hplus, toUpper_eq_iff]

theorem exponentPart?_map_toUpper : exponentPart? (s.map Char.toUpper) = exponentPart? s := by
  cases s with
  | nil => rfl
  | cons c rest =>
      simp only [List.map_cons, exponentPart?, exponentMark_toUpper, takeSign_map_toUpper,
        Prod.map_fst, Prod.map_snd, id_eq, isDigits_map_toUpper]
      cases h : isDigits (takeSign rest).2 with
      | false => rfl
      | true =>
          have hdigits := (isDigits_iff.1 h).2
          rw [map_toUpper_of_forall fun d hd => isAlpha_of_isDigit (hdigits d hd)]

theorem fractionPart_map_toUpper :
    fractionPart (s.map Char.toUpper) = Prod.map id (List.map Char.toUpper) (fractionPart s) := by
  rcases s with _ | ⟨c, rest⟩
  · rfl
  by_cases hpoint : c = '.'
  · subst hpoint
    exact Prod.ext (takeWhile_isDigit_map_toUpper rest) (dropWhile_map_toUpper isDigit_toUpper rest)
  · simp [fractionPart, hpoint, toUpper_eq_iff]

/-- Numerals are read in either case. -/
theorem read?_map_toUpper : read? (s.map Char.toUpper) = read? s := by
  have hunsigned : ∀ s, unsigned? (s.map Char.toUpper) = unsigned? s := by
    intro s
    simp only [unsigned?, takeWhile_isDigit_map_toUpper, dropWhile_map_toUpper isDigit_toUpper,
      fractionPart_map_toUpper, Prod.map_fst, Prod.map_snd, id_eq, exponentPart?_map_toUpper]
  simp only [read?, numeral?, takeSign_map_toUpper, Prod.map_fst, Prod.map_snd, id_eq, hunsigned]

end Decimal

namespace Token

/-- A word in capital letters. -/
def foldedWord (s : String) : String := String.ofList (s.toList.map Char.toUpper)

/-- A token with its word, if it has one of its own, in capital letters. -/
def folded : Token → Token
  | name s => name (foldedWord s)
  | cell s => cell (foldedWord s)
  | invalid c => invalid c.toUpper
  | t => t

/-- What a scan takes, in capital letters. -/
def foldedScan (scan : Token × List Char) : Token × List Char :=
  (scan.1.folded, Text.folded false scan.2)

/-! ## Words -/

section Words

variable (w : List Char)

theorem foldedWord_ofList : foldedWord (String.ofList w) = String.ofList (w.map Char.toUpper) := by
  rw [foldedWord, String.toList_ofList]

theorem ofNumeral_map_toUpper (c : Char) :
    ofNumeral c.toUpper (w.map Char.toUpper) = (ofNumeral c w).folded := by
  rw [ofNumeral, Decimal.read?_map_toUpper, ofNumeral]
  cases Decimal.read? w <;> rfl

theorem ofErrorWord_map_toUpper : ofErrorWord (w.map Char.toUpper) = (ofErrorWord w).folded := by
  rw [ofErrorWord, ofSpelling?_map_toUpper, ofErrorWord]
  cases ErrorKind.ofSpelling? (String.ofList w) with
  | none => exact congrArg name (foldedWord_ofList w).symm
  | some e => rfl

theorem dropDollar_map_toUpper :
    Address.dropDollar (w.map Char.toUpper) = (Address.dropDollar w).map Char.toUpper := by
  rcases w with _ | ⟨c, rest⟩
  · rfl
  by_cases hdollar : c = '$'
  · subst hdollar
    rfl
  · simp [Address.dropDollar, hdollar, toUpper_eq_iff]

theorem isCellWord_map_toUpper : isCellWord (w.map Char.toUpper) = isCellWord w := by
  simp only [isCellWord, dropDollar_map_toUpper, takeWhile_map_toUpper isAlpha_toUpper,
    dropWhile_map_toUpper isAlpha_toUpper, List.isEmpty_map, Decimal.isDigits_map_toUpper]

theorem ofWord_map_toUpper (called : Bool) :
    ofWord called (w.map Char.toUpper) = (ofWord called w).folded := by
  simp only [ofWord, capitals_map_toUpper, isCellWord_map_toUpper, ← foldedWord_ofList]
  repeat' split
  all_goals rfl

end Words

/-! ## Spans -/

section Spans

theorem isCaseless_isWordChar : IsCaseless isWordChar := ⟨by decide, isWordChar_toUpper⟩

theorem isCaseless_isErrorChar : IsCaseless isErrorChar := ⟨by decide, isErrorChar_toUpper⟩

/-- The characters of a literal keep their case, and what is behind it starts outside of one. -/
theorem textBody_folded (s : List Char) :
    textBody (Text.folded true s) = ((textBody s).1, Text.folded false (textBody s).2) := by
  fun_induction textBody s with
  | case1 rest body after hbody ih =>
      rw [folded_quote, Bool.not_true, folded_quote, Bool.not_false, textBody, ih, hbody]
  | case2 rest hquote =>
      rw [folded_quote, Bool.not_true]
      cases rest with
      | nil => rfl
      | cons c rest =>
          have hc : c ≠ '"' := by
            rintro rfl
            exact hquote rest rfl
          rw [folded_false_cons hc]
          simp [textBody, hc, toUpper_eq_iff]
  | case3 c rest _ hquote body after hbody ih =>
      have hc : c ≠ '"' := hquote
      rw [folded_true_cons hc]
      simp [textBody, hc, ih, hbody]
  | case4 => rfl

theorem fractionSpan_folded (s : List Char) :
    fractionSpan (Text.folded false s)
      = ((fractionSpan s).1.map Char.toUpper, Text.folded false (fractionSpan s).2) := by
  rcases s with _ | ⟨c, rest⟩
  · rfl
  by_cases hpoint : c = '.'
  · subst hpoint
    rw [folded_false_cons (by decide)]
    exact Prod.ext (congrArg ('.' :: ·) (isCaseless_isDigit.takeWhile_folded rest))
      (isCaseless_isDigit.dropWhile_folded rest)
  · rw [Text.folded]
    simp [fractionSpan, hpoint, toUpper_eq_iff, Text.folded]

/-- A sign is no letter. -/
theorem sign_toUpper (c : Char) :
    (decide (c.toUpper = '+') || decide (c.toUpper = '-'))
      = (decide (c = '+') || decide (c = '-')) :=
  toUpper_congr (f := fun c => decide (c = '+') || decide (c = '-')) (by decide) c

theorem powerSpan_folded (s : List Char) :
    powerSpan (Text.folded false s)
      = ((powerSpan s).1.map Char.toUpper, Text.folded false (powerSpan s).2) := by
  rcases s with _ | ⟨c, rest⟩
  · rfl
  cases hmark : decide (c = 'e') || decide (c = 'E') with
  | false =>
      rw [Text.folded]
      simp only [powerSpan, Bool.false_eq_true, if_false, Decimal.exponentMark_toUpper, hmark]
      rfl
  | true =>
      have hc : c ≠ '"' := by
        rintro rfl
        cases hmark
      rw [folded_false_cons hc]
      rcases rest with _ | ⟨sign, digits⟩
      · simp [powerSpan, Decimal.exponentMark_toUpper, hmark]
      cases hsign : decide (sign = '+') || decide (sign = '-') with
      | false =>
          -- A quote may stand here, so what follows the mark is folded as a whole.
          have htake := isCaseless_isDigit.takeWhile_folded (sign :: digits)
          have hdrop := isCaseless_isDigit.dropWhile_folded (sign :: digits)
          rw [Text.folded, if_neg Bool.false_ne_true] at htake hdrop ⊢
          simp only [powerSpan, Decimal.exponentMark_toUpper, sign_toUpper, hmark, hsign, if_true,
            Bool.false_eq_true, if_false, htake, hdrop, List.map_cons]
      | true =>
          have hs : sign ≠ '"' := by
            rintro rfl
            cases hsign
          rw [folded_false_cons hs]
          simp only [powerSpan, Decimal.exponentMark_toUpper, sign_toUpper, hmark, hsign, if_true,
            isCaseless_isDigit.takeWhile_folded, isCaseless_isDigit.dropWhile_folded,
            List.map_cons]

theorem numeralSpan_folded (s : List Char) :
    numeralSpan (Text.folded false s)
      = ((numeralSpan s).1.map Char.toUpper, Text.folded false (numeralSpan s).2) := by
  simp only [numeralSpan_eq, isCaseless_isDigit.takeWhile_folded,
    isCaseless_isDigit.dropWhile_folded, fractionSpan_folded, powerSpan_folded, List.map_append]

theorem startsNumeral_folded (s : List Char) :
    startsNumeral (Text.folded false s) = startsNumeral s := by
  rcases s with _ | ⟨c, rest⟩
  · rfl
  by_cases hpoint : c = '.'
  · subst hpoint
    rw [folded_false_cons (by decide)]
    rcases rest with _ | ⟨d, rest⟩
    · rfl
    · exact isDigit_toUpper d
  · rw [Text.folded]
    simp [startsNumeral, hpoint, toUpper_eq_iff, isDigit_toUpper]

end Spans

/-! ## Whole texts -/

section Scans

variable {c : Char} {rest : List Char}

theorem symbol?_toUpper (c : Char) : symbol? c.toUpper = symbol? c := toUpper_congr (by decide) c

theorem isPlain_toUpper (c : Char) : isPlain c.toUpper = isPlain c := toUpper_congr (by decide) c

theorem folded_of_symbol? {t : Token} (h : symbol? c = some t) : t.folded = t := by
  have hall : ∀ p ∈ symbols, p.2.folded = p.2 := by decide
  exact hall _ (mem_symbols h)

theorem scanFrom_folded_plain (h : isPlain c = true) :
    scanFrom c.toUpper (Text.folded false rest) = foldedScan (scanFrom c rest) := by
  have hc : c ≠ '"' := by
    rintro rfl
    exact absurd h (by decide)
  have hhash : c.toUpper = '#' ↔ c = '#' := toUpper_eq_iff (by decide)
  have hstarts := startsNumeral_folded (c :: rest)
  have hspan := numeralSpan_folded (c :: rest)
  have hcalled : ((rest.dropWhile isWordChar).head?.map Char.toUpper == some '(')
      = ((rest.dropWhile isWordChar).head? == some '(') := by
    cases (rest.dropWhile isWordChar).head? with
    | none => rfl
    | some d => simp [toUpper_eq_iff]
  rw [folded_false_cons hc] at hstarts hspan
  rw [scanFrom_plain (by rw [isPlain_toUpper, h]), scanFrom_plain h]
  simp only [hstarts, hspan, hhash, startsWord_toUpper, isCaseless_isErrorChar.takeWhile_folded,
    isCaseless_isErrorChar.dropWhile_folded, isCaseless_isWordChar.takeWhile_folded,
    isCaseless_isWordChar.dropWhile_folded, head?_folded, ← List.map_cons]
  split
  · rw [ofNumeral_map_toUpper, foldedScan]
  split
  · rw [ofErrorWord_map_toUpper, foldedScan]
  split
  · rw [hcalled, ofWord_map_toUpper, foldedScan]
  · rfl

theorem scanFrom_folded_less :
    scanFrom '<' (Text.folded false rest) = foldedScan (scanFrom '<' rest) := by
  rcases rest with _ | ⟨d, more⟩
  · rfl
  by_cases hequal : d = '='
  · subst hequal
    rfl
  by_cases hgreater : d = '>'
  · subst hgreater
    rfl
  · rw [scanFrom_less, scanFrom_less, Text.folded]
    simp [hequal, hgreater, toUpper_eq_iff, foldedScan, folded, Text.folded]

theorem scanFrom_folded_greater :
    scanFrom '>' (Text.folded false rest) = foldedScan (scanFrom '>' rest) := by
  rcases rest with _ | ⟨d, more⟩
  · rfl
  by_cases hequal : d = '='
  · subst hequal
    rfl
  · rw [scanFrom_greater, scanFrom_greater, Text.folded]
    simp [hequal, toUpper_eq_iff, foldedScan, folded, Text.folded]

theorem scanFrom_folded_quote :
    scanFrom '"' (Text.folded true rest) = foldedScan (scanFrom '"' rest) := by
  rw [scanFrom_quote, textBody_folded, scanFrom_quote]
  rfl

theorem scanFrom_folded (h : c ≠ '"') :
    scanFrom c.toUpper (Text.folded false rest) = foldedScan (scanFrom c rest) := by
  cases hplain : isPlain c with
  | true => exact scanFrom_folded_plain hplain
  | false =>
      cases hsymbol : symbol? c with
      | some t =>
          rw [scanFrom_symbol (by rw [symbol?_toUpper, hsymbol]), scanFrom_symbol hsymbol,
            foldedScan, folded_of_symbol? hsymbol]
      | none =>
          rcases eq_of_isPlain_eq_false hplain hsymbol with rfl | rfl | rfl
          · exact scanFrom_folded_less
          · exact scanFrom_folded_greater
          · exact absurd rfl h

theorem scan?_folded (s : List Char) :
    scan? (Text.folded false s) = (scan? s).map foldedScan := by
  rw [scan?, trimStart_folded, scan?]
  rcases trimStart s with _ | ⟨c, rest⟩
  · rfl
  by_cases hc : c = '"'
  · subst hc
    exact congrArg some scanFrom_folded_quote
  · rw [folded_false_cons hc]
    exact congrArg some (scanFrom_folded hc)

theorem scanUpTo_folded (limit : Nat) (s : List Char) :
    scanUpTo limit (Text.folded false s) = (scanUpTo limit s).map folded := by
  induction limit generalizing s with
  | zero => rfl
  | succ limit ih =>
      rw [scanUpTo, scan?_folded, scanUpTo]
      cases scan? s with
      | none => rfl
      | some scan => exact congrArg (scan.1.folded :: ·) (ih scan.2)

/-- The tokens of a text in capital letters outside its literals. -/
theorem scanAll_folded (s : List Char) :
    scanAll (Text.folded false s) = (scanAll s).map folded := by
  rw [scanAll, length_folded, scanUpTo_folded, scanAll]

end Scans

end Token

end Recalc
