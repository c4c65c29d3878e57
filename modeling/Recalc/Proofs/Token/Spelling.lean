import Recalc.Proofs.Address.Notation
import Recalc.Proofs.Token.Numeral

/-!
# How tokens are written

Each token but the invalid characters has spellings. A spelling is scanned as its token where the
text behind it does not go on with it.
-/

namespace Recalc.Token

open Text

/-- The first character of a word that is no error literal. -/
def startsWord (c : Char) : Bool := c.isAlpha || c = '_' || c = '$'

/-- The words that are names where a parenthesis follows. -/
inductive IsName : List Char → Prop
  | word {c : Char} {rest : List Char} (hstart : startsWord c = true)
      (h : ∀ d ∈ rest, isWordChar d = true) : IsName (c :: rest)
  | hash {rest : List Char} (h : ∀ d ∈ rest, isErrorChar d = true)
      (hunknown : ErrorKind.ofSpelling? (String.ofList ('#' :: rest)) = none) :
      IsName ('#' :: rest)

/-- A character of a text literal, where quotes are doubled. -/
def doubled (c : Char) : List Char := if c = '"' then ['"', '"'] else [c]

/-- The ways to write a token. -/
inductive Spells : Token → List Char → Prop
  | number {x : Float} {w : List Char} (h : Decimal.IsNumeral w)
      (hx : Decimal.read? w = some x) : Spells (.number x) w
  | text (s : String) : Spells (.text s) ('"' :: (s.toList.flatMap doubled ++ ['"']))
  | boolean (b : Bool) :
      Spells (.boolean b) (if b then ['T', 'R', 'U', 'E'] else ['F', 'A', 'L', 'S', 'E'])
  | error (e : ErrorKind) : Spells (.error e) e.spelling.toList
  | name {s : String} (h : IsName s.toList) : Spells (.name s) s.toList
  | cell {s : String} (h : isCellWord s.toList = true) : Spells (.cell s) s.toList
  | symbol {t : Token} {c : Char} (h : symbol? c = some t) : Spells t [c]
  | lessThan : Spells .lessThan ['<']
  | lessEqual : Spells .lessEqual ['<', '=']
  | notEqual : Spells .notEqual ['<', '>']
  | greaterThan : Spells .greaterThan ['>']
  | greaterEqual : Spells .greaterEqual ['>', '=']

/-- Whether a token can be written. -/
def IsSpelled (t : Token) : Prop := ∃ w, t.Spells w

/-- Whether a token ends where `next` follows. A name is told by the parenthesis behind it. -/
def endsBefore : Token → Option Char → Bool
  | name _, next => next == some '('
  | number _, some c => !goesOnNumeral c
  | text _, some c => c != '"'
  | boolean _, some c => !isWordChar c && c != '('
  | cell _, some c => !isWordChar c && c != '('
  | error _, some c => !isErrorChar c
  | lessThan, some c => c != '=' && c != '>'
  | greaterThan, some c => c != '='
  | _, _ => true

/-! ## The branches of a scan -/

section Branches

variable {c : Char} {rest : List Char}

theorem scan?_cons (h : isBlank c = false) : scan? (c :: rest) = some (scanFrom c rest) := by
  rw [scan?, trimStart_of_stops (stops_cons.2 h)]

/-- The characters that start neither an operator nor a text literal. -/
def isPlain (c : Char) : Bool := (symbol? c).isNone && c != '<' && c != '>' && c != '"'

theorem eq_of_isPlain_eq_false (h : isPlain c = false) (hsymbol : symbol? c = none) :
    c = '<' ∨ c = '>' ∨ c = '"' := by
  simp only [isPlain, hsymbol, Option.isNone_none, Bool.true_and, Bool.and_eq_false_iff,
    bne_eq_false_iff_eq] at h
  exact or_assoc.1 h

/-- The characters that are tokens by themselves. -/
def symbols : List (Char × Token) :=
  [('+', plus), ('-', minus), ('*', star), ('/', slash), ('^', caret), ('%', percent),
    ('&', ampersand), (':', colon), (',', comma), ('(', leftParen), (')', rightParen), ('=', equal)]

theorem mem_symbols {t : Token} (h : symbol? c = some t) : (c, t) ∈ symbols := by
  unfold symbol? at h
  split at h <;> cases h <;> simp [symbols]

theorem isBlank_of_symbol? {t : Token} (h : symbol? c = some t) : isBlank c = false := by
  have hall : ∀ p ∈ symbols, isBlank p.1 = false := by decide
  exact hall _ (mem_symbols h)

theorem scanFrom_symbol {t : Token} (h : symbol? c = some t) : scanFrom c rest = (t, rest) := by
  simp [scanFrom, h]

theorem scanFrom_plain (h : isPlain c = true) :
    scanFrom c rest =
      if startsNumeral (c :: rest) then
        (ofNumeral c (numeralSpan (c :: rest)).1, (numeralSpan (c :: rest)).2)
      else if c = '#' then
        (ofErrorWord (c :: rest.takeWhile isErrorChar), rest.dropWhile isErrorChar)
      else if startsWord c then
        (ofWord ((rest.dropWhile isWordChar).head? == some '(') (c :: rest.takeWhile isWordChar),
          rest.dropWhile isWordChar)
      else (invalid c, rest) := by
  simp only [isPlain, Bool.and_eq_true, Option.isNone_iff_eq_none, bne_iff_ne] at h
  obtain ⟨⟨⟨hsymbol, hless⟩, hgreater⟩, hquote⟩ := h
  simp only [scanFrom, hsymbol, hless, hgreater, hquote, if_false, startsWord]
  rfl

theorem isPlain_of_startsNumeral (h : startsNumeral (c :: rest) = true) : isPlain c = true := by
  rcases isDigit_or_eq_of_startsNumeral h with hc | rfl
  · exact of_ascii (P := fun c => c.isDigit = true → isPlain c = true) (by decide)
      (lt_of_isDigit hc) hc
  · decide

theorem scanFrom_numeral (h : startsNumeral (c :: rest) = true) :
    scanFrom c rest = (ofNumeral c (numeralSpan (c :: rest)).1, (numeralSpan (c :: rest)).2) := by
  rw [scanFrom_plain (isPlain_of_startsNumeral h), if_pos h]

theorem scanFrom_hash :
    scanFrom '#' rest =
      (ofErrorWord ('#' :: rest.takeWhile isErrorChar), rest.dropWhile isErrorChar) := rfl

theorem scanFrom_quote :
    scanFrom '"' rest = (text (String.ofList (textBody rest).1), (textBody rest).2) := rfl

theorem scanFrom_less :
    scanFrom '<' rest =
      match rest with
      | '=' :: more => (lessEqual, more)
      | '>' :: more => (notEqual, more)
      | _ => (lessThan, rest) := rfl

theorem scanFrom_greater :
    scanFrom '>' rest =
      match rest with
      | '=' :: more => (greaterEqual, more)
      | _ => (greaterThan, rest) := rfl

theorem lt_of_isWordChar (h : isWordChar c = true) : c.toNat < 128 := by
  simp only [isWordChar, Bool.or_eq_true, decide_eq_true_eq] at h
  rcases h with ((h | rfl) | rfl) | rfl
  · exact lt_of_isAlphanum h
  all_goals decide

theorem isWordChar_of_isAlphanum (h : c.isAlphanum = true) : isWordChar c = true := by
  simp [isWordChar, h]

theorem isWordChar_of_startsWord (h : startsWord c = true) : isWordChar c = true := by
  simp only [startsWord, Bool.or_eq_true, decide_eq_true_eq] at h
  rcases h with (h | rfl) | rfl
  · exact isWordChar_of_isAlphanum (isAlphanum_of_isAlpha h)
  all_goals decide

theorem startsNumeral_of_startsWord (h : startsWord c = true) :
    startsNumeral (c :: rest) = false := by
  have hc : c.isDigit = false ∧ c ≠ '.' :=
    of_ascii (P := fun c => startsWord c = true → c.isDigit = false ∧ c ≠ '.') (by decide)
      (lt_of_isWordChar (isWordChar_of_startsWord h)) h
  unfold startsNumeral
  split <;> simp_all

theorem scanFrom_word (h : startsWord c = true) :
    scanFrom c rest =
      (ofWord ((rest.dropWhile isWordChar).head? == some '(') (c :: rest.takeWhile isWordChar),
        rest.dropWhile isWordChar) := by
  have hc : isPlain c = true ∧ c ≠ '#' :=
    of_ascii (P := fun c => startsWord c = true → isPlain c = true ∧ c ≠ '#') (by decide)
      (lt_of_isWordChar (isWordChar_of_startsWord h)) h
  rw [scanFrom_plain hc.1, startsNumeral_of_startsWord h, if_neg Bool.false_ne_true, if_neg hc.2,
    if_pos h]

end Branches

/-! ## Names -/

section Names

variable {c : Char} {w : List Char}

/-- The characters of all kinds of names. -/
def isNameChar (c : Char) : Bool := isWordChar c || isErrorChar c || c = '#'

theorem isNameChar_of_isWordChar (h : isWordChar c = true) : isNameChar c = true := by
  simp [isNameChar, h]

theorem IsName.isNameChar (h : IsName w) : ∀ c ∈ w, isNameChar c = true := by
  intro c hc
  cases h with
  | word hstart hmore =>
      rcases List.mem_cons.1 hc with rfl | hc
      · exact isNameChar_of_isWordChar (isWordChar_of_startsWord hstart)
      · exact isNameChar_of_isWordChar (hmore c hc)
  | hash hmore _ =>
      rcases List.mem_cons.1 hc with rfl | hc
      · decide
      · simp [Token.isNameChar, hmore c hc]

theorem lt_of_isNameChar (h : isNameChar c = true) : c.toNat < 128 := by
  simp only [isNameChar, isErrorChar, Bool.or_eq_true, decide_eq_true_eq] at h
  rcases h with (h | ((h | rfl) | rfl) | rfl) | rfl
  · exact lt_of_isWordChar h
  · exact lt_of_isAlphanum h
  all_goals decide

theorem isBlank_of_isNameChar (h : isNameChar c = true) : isBlank c = false :=
  of_ascii (P := fun c => isNameChar c = true → isBlank c = false) (by decide)
    (lt_of_isNameChar h) h

theorem isWordChar_toUpper (c : Char) : isWordChar c.toUpper = isWordChar c :=
  toUpper_congr (by decide) c

theorem isErrorChar_toUpper (c : Char) : isErrorChar c.toUpper = isErrorChar c :=
  toUpper_congr (by decide) c

theorem startsWord_toUpper (c : Char) : startsWord c.toUpper = startsWord c :=
  toUpper_congr (by decide) c

theorem ofSpelling?_map_toUpper (w : List Char) :
    ErrorKind.ofSpelling? (String.ofList (w.map Char.toUpper))
      = ErrorKind.ofSpelling? (String.ofList w) := by
  simp only [ErrorKind.ofSpelling?, toCapitals, String.toList_ofList, capitals_map_toUpper]

/-- A name in capital letters is a name. -/
theorem IsName.capitals (h : IsName w) : IsName (capitals w) := by
  have hascii : ∀ c ∈ w, c.toNat < 128 := fun c hc => lt_of_isNameChar (h.isNameChar c hc)
  have hmap := capitals_ascii hascii
  cases h with
  | @word c rest hstart hmore =>
      rw [hmap]
      exact .word (by rw [startsWord_toUpper, hstart])
        (by simpa [isWordChar_toUpper] using hmore)
  | @hash rest hmore hunknown =>
      have hname := ofSpelling?_map_toUpper ('#' :: rest)
      rw [hunknown] at hname
      rw [hmap]
      exact .hash (by simpa [isErrorChar_toUpper] using hmore) hname

theorem IsName.capitals_capitals (h : IsName w) :
    Text.capitals (Text.capitals w) = Text.capitals w :=
  Text.capitals_capitals fun c hc => lt_of_isNameChar (h.isNameChar c hc)

end Names

/-! ## Cell words -/

section CellWords

variable {s w : List Char}

/-- A cell word is made of letters and digits, each behind an optional dollar sign. -/
theorem exists_of_isCellWord (h : isCellWord w = true) :
    ∃ before letters between digits, w = before ++ letters ++ between ++ digits
      ∧ Address.IsMark before ∧ Address.IsMark between
      ∧ letters ≠ [] ∧ (∀ c ∈ letters, c.isAlpha = true) ∧ Decimal.isDigits digits = true := by
  obtain ⟨before, hbefore, hw⟩ := Address.exists_mark w
  obtain ⟨between, hbetween, htail⟩ :=
    Address.exists_mark ((Address.dropDollar w).dropWhile Char.isAlpha)
  simp only [isCellWord, Bool.and_eq_true, Bool.not_eq_true', List.isEmpty_eq_false_iff] at h
  refine ⟨before, _, between, _, ?_, hbefore, hbetween, h.1, fun c hc => of_mem_takeWhile hc, h.2⟩
  rw [List.append_assoc, List.append_assoc, ← htail, List.takeWhile_append_dropWhile, ← hw]

theorem isWordChar_of_isCellWord (h : isCellWord w = true) : ∀ c ∈ w, isWordChar c = true := by
  obtain ⟨before, letters, between, digits, rfl, hbefore, hbetween, -, hletters, hdigits⟩ :=
    exists_of_isCellWord h
  have hdollar : ∀ {dollar : List Char}, Address.IsMark dollar →
      ∀ c ∈ dollar, isWordChar c = true := by
    rintro _ (rfl | rfl) <;> simp [isWordChar]
  intro c hc
  simp only [List.mem_append] at hc
  rcases hc with ((hc | hc) | hc) | hc
  · exact hdollar hbefore c hc
  · exact isWordChar_of_isAlphanum (isAlphanum_of_isAlpha (hletters c hc))
  · exact hdollar hbetween c hc
  · exact isWordChar_of_isAlphanum
      (isAlphanum_of_isDigit ((Decimal.isDigits_iff.1 hdigits).2 c hc))

theorem startsWord_of_isCellWord (h : isCellWord w = true) :
    ∃ c more, w = c :: more ∧ startsWord c = true := by
  obtain ⟨before, letters, between, digits, rfl, hbefore, -, hne, hletters, -⟩ :=
    exists_of_isCellWord h
  rcases hbefore with rfl | rfl
  · obtain ⟨c, more, rfl⟩ := List.exists_cons_of_ne_nil hne
    exact ⟨c, more ++ between ++ digits, by simp,
      by simp [startsWord, hletters c List.mem_cons_self]⟩
  · exact ⟨'$', letters ++ between ++ digits, by simp, by decide⟩

/-- A cell word has a digit in it and so its capital form, which is neither of the booleans. -/
theorem ofWord_of_isCellWord (h : isCellWord w = true) :
    ofWord false w = cell (String.ofList w) := by
  have hboolean : ∀ letters : List Char, (∀ c ∈ letters, c.isDigit = false) →
      capitals w ≠ letters := by
    rintro _ hletters rfl
    obtain ⟨before, front, between, digits, rfl, -, -, -, -, hdigits⟩ := exists_of_isCellWord h
    obtain ⟨hne, hdigits⟩ := Decimal.isDigits_iff.1 hdigits
    obtain ⟨d, more, rfl⟩ := List.exists_cons_of_ne_nil hne
    have hd := hdigits d List.mem_cons_self
    have hcapital : capitalOf d = [d] :=
      of_ascii (P := fun d => d.isDigit = true → capitalOf d = [d]) (by decide)
        (lt_of_isDigit hd) hd
    have hmem : d ∈ capitals (before ++ front ++ between ++ d :: more) :=
      List.mem_flatMap.2 ⟨d, by simp, by simp [hcapital]⟩
    exact absurd hd (by simp [hletters d hmem])
  have htrue := hboolean ['T', 'R', 'U', 'E'] (by simp)
  have hfalse := hboolean ['F', 'A', 'L', 'S', 'E'] (by simp)
  simp only [ofWord, Bool.false_eq_true, htrue, hfalse, h, if_false, if_true]

end CellWords

/-! ## Spellings are scanned -/

section Scanning

variable {t : Token} {w rest : List Char}

theorem textBody_doubled (s : List Char) (hrest : rest.head? ≠ some '"') :
    textBody (s.flatMap doubled ++ '"' :: rest) = (s, rest) := by
  induction s with
  | nil =>
      cases rest with
      | nil => rfl
      | cons d rest => simp_all [textBody]
  | cons c s ih =>
      rw [List.flatMap_cons, List.append_assoc]
      by_cases hc : c = '"' <;> simp [doubled, hc, textBody, ih]

theorem scan?_number {x : Float} (h : Decimal.IsNumeral w) (hx : Decimal.read? w = some x)
    (hrest : Stops goesOnNumeral rest) : scan? (w ++ rest) = some (number x, rest) := by
  have hstarts := startsNumeral_append h rest
  have hspan := numeralSpan_append h hrest
  cases w with
  | nil => simpa [startsNumeral] using startsNumeral_append h []
  | cons c more =>
      rw [List.cons_append] at hstarts hspan ⊢
      rw [scan?_cons (isBlank_of_mem_numeral h c List.mem_cons_self), scanFrom_numeral hstarts,
        hspan, ofNumeral, hx]

theorem scan?_word {c : Char} {more : List Char} (hstart : startsWord c = true)
    (hmore : ∀ d ∈ more, isWordChar d = true) (hrest : Stops isWordChar rest) :
    scan? (c :: more ++ rest) = some (ofWord (rest.head? == some '(') (c :: more), rest) := by
  have hblank : isBlank c = false :=
    of_ascii (P := fun c => startsWord c = true → isBlank c = false) (by decide)
      (lt_of_isWordChar (isWordChar_of_startsWord hstart)) hstart
  rw [List.cons_append, scan?_cons hblank, scanFrom_word hstart,
    takeWhile_append_of_stops hmore hrest, dropWhile_append_of_stops hmore hrest]

theorem scan?_hash {more : List Char} (hmore : ∀ d ∈ more, isErrorChar d = true)
    (hrest : Stops isErrorChar rest) :
    scan? ('#' :: more ++ rest) = some (ofErrorWord ('#' :: more), rest) := by
  rw [List.cons_append, scan?_cons (by decide), scanFrom_hash,
    takeWhile_append_of_stops hmore hrest, dropWhile_append_of_stops hmore hrest]

theorem scan?_name (h : IsName w) (hrest : rest.head? = some '(') :
    scan? (w ++ rest) = some (name (String.ofList w), rest) := by
  obtain ⟨rest, rfl⟩ : ∃ more, rest = '(' :: more := by cases rest <;> simp_all
  cases h with
  | word hstart hmore =>
      rw [scan?_word hstart hmore (stops_cons.2 (by decide))]
      rfl
  | hash hmore hunknown =>
      rw [scan?_hash hmore (stops_cons.2 (by decide)), ofErrorWord, hunknown]

theorem scan?_boolean (b : Bool) (hword : Stops isWordChar rest) (hrest : rest.head? ≠ some '(') :
    scan? ((if b then ['T', 'R', 'U', 'E'] else ['F', 'A', 'L', 'S', 'E']) ++ rest)
      = some (boolean b, rest) := by
  have hcalled : (rest.head? == some '(') = false := beq_eq_false_iff_ne.2 hrest
  cases b
  · rw [if_neg (by decide), scan?_word (by decide) (List.all_eq_true.1 rfl) hword, hcalled]
    rfl
  · rw [if_pos rfl, scan?_word (by decide) (List.all_eq_true.1 rfl) hword, hcalled]
    rfl

theorem scan?_cell (h : isCellWord w = true) (hword : Stops isWordChar rest)
    (hrest : rest.head? ≠ some '(') :
    scan? (w ++ rest) = some (cell (String.ofList w), rest) := by
  have hcalled : (rest.head? == some '(') = false := beq_eq_false_iff_ne.2 hrest
  obtain ⟨c, more, rfl, hstart⟩ := startsWord_of_isCellWord h
  have hmore : ∀ d ∈ more, isWordChar d = true :=
    fun d hd => isWordChar_of_isCellWord h d (List.mem_cons_of_mem c hd)
  rw [scan?_word hstart hmore hword, hcalled, ofWord_of_isCellWord h]

theorem ofSpelling?_spelling (e : ErrorKind) : ErrorKind.ofSpelling? e.spelling = some e := by
  cases e <;> decide

theorem exists_of_spelling (e : ErrorKind) :
    ∃ more, e.spelling.toList = '#' :: more ∧ ∀ d ∈ more, isErrorChar d = true := by
  cases e <;> exact ⟨_, rfl, List.all_eq_true.1 rfl⟩

theorem scan?_error (e : ErrorKind) (hrest : Stops isErrorChar rest) :
    scan? (e.spelling.toList ++ rest) = some (error e, rest) := by
  obtain ⟨more, hspelling, hmore⟩ := exists_of_spelling e
  rw [hspelling, scan?_hash hmore hrest, ← hspelling, ofErrorWord, String.ofList_toList,
    ofSpelling?_spelling]

theorem scan?_symbol {c : Char} (h : symbol? c = some t) : scan? (c :: rest) = some (t, rest) := by
  rw [scan?_cons (isBlank_of_symbol? h), scanFrom_symbol h]

/-- A spelling is scanned as its token where the text behind it does not go on with it. -/
theorem scan?_append (h : t.Spells w) (hrest : t.endsBefore rest.head? = true) :
    scan? (w ++ rest) = some (t, rest) := by
  cases h with
  | number h hx => exact scan?_number h hx (by cases rest <;> simp_all [endsBefore])
  | text s =>
      have hquote : rest.head? ≠ some '"' := by cases rest <;> simp_all [endsBefore]
      rw [List.cons_append, List.append_assoc, List.singleton_append, scan?_cons (by decide),
        scanFrom_quote, textBody_doubled _ hquote, String.ofList_toList]
  | boolean b =>
      exact scan?_boolean b (by cases rest <;> simp_all [endsBefore])
        (by cases rest <;> simp_all [endsBefore])
  | error e => exact scan?_error e (by cases rest <;> simp_all [endsBefore])
  | @name s h =>
      have hcalled : rest.head? = some '(' := by simpa [endsBefore] using hrest
      simpa using scan?_name h hcalled
  | @cell s h =>
      have hstop : Stops isWordChar rest := by cases rest <;> simp_all [endsBefore]
      have hcalled : rest.head? ≠ some '(' := by cases rest <;> simp_all [endsBefore]
      simpa using scan?_cell h hstop hcalled
  | symbol h => exact scan?_symbol h
  | lessThan =>
      rw [List.singleton_append, scan?_cons (by decide), scanFrom_less]
      cases rest <;> simp_all [endsBefore]
  | lessEqual => exact scan?_cons (by decide)
  | notEqual => exact scan?_cons (by decide)
  | greaterThan =>
      rw [List.singleton_append, scan?_cons (by decide), scanFrom_greater]
      cases rest <;> simp_all [endsBefore]
  | greaterEqual => exact scan?_cons (by decide)

end Scanning

end Recalc.Token
