import Mathlib.Algebra.Group.Nat.Even
import Mathlib.Data.List.TakeWhile
import Recalc.Proofs.Token.Writing

/-!
# The words that are scanned

Each token of a scan stands in the text as a word of its own, with blanks at most between the words,
or is a character that starts none. Only the last token may be cut short: a text literal ends where
the formula does, with its closing quote or without it.
-/

namespace Recalc.Token

open Text

/-- The words for a token. Booleans and error literals are in capital or small letters. -/
inductive Lexeme : Token → List Char → Prop
  | spelling {t : Token} {w : List Char} (h : t.Spells w) : Lexeme t w
  | boolean {b : Bool} {w : List Char} (h : ∀ c ∈ w, isWordChar c = true)
      (hb : capitals w = if b then ['T', 'R', 'U', 'E'] else ['F', 'A', 'L', 'S', 'E']) :
      Lexeme (.boolean b) w
  | error {e : ErrorKind} {rest : List Char} (h : ∀ c ∈ rest, isErrorChar c = true)
      (he : ErrorKind.ofSpelling? (String.ofList ('#' :: rest)) = some e) :
      Lexeme (.error e) ('#' :: rest)

/-- A token at the front of a text, of which `rest` is left. A text literal at the end may lack its
closing quote. -/
def Takes (t : Token) (s rest : List Char) : Prop :=
  (∃ w, Lexeme t w ∧ s = w ++ rest) ∨ Lexeme t (s ++ ['"']) ∧ rest = []

section Lexemes

variable {t : Token} {w : List Char}

theorem Lexeme.isSpelled (h : Lexeme t w) : t.IsSpelled := by
  cases h with
  | spelling h => exact ⟨w, h⟩
  | @boolean b => exact ⟨_, .boolean b⟩
  | @error e => exact ⟨_, .error e⟩

theorem Lexeme.ne_nil (h : Lexeme t w) : w ≠ [] := by
  cases h with
  | spelling h => exact h.ne_nil
  | @boolean b w _ hb =>
      rintro rfl
      cases b <;> cases hb
  | error => exact List.cons_ne_nil _ _

theorem Takes.isSpelled {s rest : List Char} (h : Takes t s rest) : t.IsSpelled := by
  rcases h with ⟨w, hw, -⟩ | ⟨hw, -⟩ <;> exact hw.isSpelled

end Lexemes

/-! ## The branches of a scan -/

section Branches

variable {c : Char} {rest : List Char}

/-- The characters of a text literal, up to its closing quote or the end of the text. -/
theorem textBody_spec (s : List Char) :
    s = (textBody s).1.flatMap doubled ++ '"' :: (textBody s).2
      ∨ s = (textBody s).1.flatMap doubled ∧ (textBody s).2 = [] := by
  fun_induction textBody s with
  | case1 rest body after hbody ih =>
      rw [hbody] at ih
      simpa [doubled] using ih
  | case2 rest => exact .inl rfl
  | case3 c rest _ hquote body after hbody ih =>
      rw [hbody] at ih
      simpa [doubled, show c ≠ '"' from hquote] using ih
  | case4 => exact .inr ⟨rfl, rfl⟩

theorem scanFrom_quote_takes (rest : List Char) :
    Takes (scanFrom '"' rest).1 ('"' :: rest) (scanFrom '"' rest).2 := by
  rw [scanFrom_quote]
  have hspells : Spells (text (String.ofList (textBody rest).1))
      ('"' :: ((textBody rest).1.flatMap doubled ++ ['"'])) := by
    simpa using Spells.text (String.ofList (textBody rest).1)
  rcases textBody_spec rest with hrest | ⟨hrest, hnil⟩
  · exact .inl ⟨_, .spelling hspells, by simpa using hrest⟩
  · exact .inr ⟨.spelling (by simpa [← hrest] using hspells), hnil⟩

theorem ofNumeral_lexeme (h : startsNumeral (c :: rest) = true) :
    ofNumeral c (numeralSpan (c :: rest)).1 = invalid c
      ∨ Lexeme (ofNumeral c (numeralSpan (c :: rest)).1) (numeralSpan (c :: rest)).1 := by
  unfold ofNumeral
  split
  case h_1 x hx => exact .inr (.spelling (.number (isNumeral_numeralSpan h hx) hx))
  case h_2 => exact .inl rfl

theorem ofErrorWord_lexeme (h : ∀ d ∈ rest, isErrorChar d = true) :
    Lexeme (ofErrorWord ('#' :: rest)) ('#' :: rest) := by
  unfold ofErrorWord
  split
  case h_1 e he => exact .error h he
  case h_2 hunknown =>
    simpa using Lexeme.spelling (.name (s := String.ofList ('#' :: rest))
      (by simpa using .hash h hunknown))

theorem ofWord_lexeme (called : Bool) (hstart : startsWord c = true)
    (h : ∀ d ∈ rest, isWordChar d = true) :
    Lexeme (ofWord called (c :: rest)) (c :: rest) := by
  have hchars : ∀ d ∈ c :: rest, isWordChar d = true :=
    List.forall_mem_cons.2 ⟨isWordChar_of_startsWord hstart, h⟩
  have hname : Lexeme (name (String.ofList (c :: rest))) (c :: rest) := by
    simpa using Lexeme.spelling (.name (s := String.ofList (c :: rest))
      (by simpa using .word hstart h))
  simp only [ofWord]
  split
  · exact hname
  split
  case isTrue hb => exact .boolean hchars (b := true) hb
  split
  case isTrue hb => exact .boolean hchars (b := false) hb
  split
  case isTrue hcell =>
    simpa using Lexeme.spelling (.cell (s := String.ofList (c :: rest)) (by simpa using hcell))
  case isFalse => exact hname

theorem scanFrom_takes (c : Char) (rest : List Char) :
    (scanFrom c rest).1 = invalid c ∨ Takes (scanFrom c rest).1 (c :: rest) (scanFrom c rest).2 := by
  by_cases hplain : isPlain c = true
  · rw [scanFrom_plain hplain]
    split
    case isTrue h =>
      have hjoin := (numeralSpan_join (c :: rest)).symm
      exact (ofNumeral_lexeme h).imp_right fun hw => .inl ⟨_, hw, hjoin⟩
    split
    case isTrue h =>
      subst h
      dsimp only
      exact .inr (.inl ⟨_, ofErrorWord_lexeme fun d hd => of_mem_takeWhile hd, by simp⟩)
    split
    case isTrue h =>
      exact .inr (.inl ⟨_, ofWord_lexeme _ h fun d hd => of_mem_takeWhile hd, by simp⟩)
    case isFalse => exact .inl rfl
  · refine .inr ?_
    cases hsymbol : symbol? c with
    | some t =>
        rw [scanFrom_symbol hsymbol]
        exact .inl ⟨_, .spelling (.symbol hsymbol), rfl⟩
    | none =>
        rcases eq_of_isPlain_eq_false (Bool.eq_false_iff.2 hplain) hsymbol with rfl | rfl | rfl
        · rw [scanFrom_less]
          split
          · exact .inl ⟨_, .spelling .lessEqual, rfl⟩
          · exact .inl ⟨_, .spelling .notEqual, rfl⟩
          · exact .inl ⟨_, .spelling .lessThan, rfl⟩
        · rw [scanFrom_greater]
          split
          · exact .inl ⟨_, .spelling .greaterEqual, rfl⟩
          · exact .inl ⟨_, .spelling .greaterThan, rfl⟩
        · exact scanFrom_quote_takes rest

theorem scan?_takes {s : List Char} {t : Token} (h : scan? s = some (t, rest)) :
    (∃ c, t = invalid c)
      ∨ ∃ blanks word, (∀ c ∈ blanks, isBlank c = true) ∧ s = blanks ++ word
        ∧ Takes t word rest := by
  unfold scan? at h
  split at h
  · cases h
  case h_2 c more hfront =>
    simp only [Option.some.injEq] at h
    have htakes := scanFrom_takes c more
    rw [h, ← hfront] at htakes
    refine htakes.imp (fun hc => ⟨c, hc⟩) fun ht => ⟨s.takeWhile isBlank, trimStart s, ?_, ?_, ht⟩
    · exact fun d hd => of_mem_takeWhile hd
    · exact List.takeWhile_append_dropWhile.symm

end Branches

/-! ## Scanned tokens have spellings -/

section Scanned

/-- What a scan gives: a token that can be written, or a character that starts none. -/
def IsScanned (t : Token) : Prop := t.IsSpelled ∨ ∃ c, t = invalid c

theorem isScanned_of_mem_scanUpTo {t : Token} {limit : Nat} {s : List Char}
    (h : t ∈ scanUpTo limit s) : t.IsScanned := by
  fun_induction scanUpTo limit s with
  | case1 => cases h
  | case2 => cases h
  | case3 limit s token rest hscan ih =>
      rcases List.mem_cons.1 h with rfl | h
      · exact (scan?_takes hscan).symm.imp_left fun ⟨_, _, _, _, htakes⟩ => htakes.isSpelled
      · exact ih h

theorem IsScanned.of_number {x : Float} (h : (number x).IsScanned) :
    ∃ w, Decimal.IsNumeral w ∧ Decimal.read? w = some x := by
  rcases h with ⟨w, hw⟩ | ⟨c, hc⟩
  · cases hw with
    | number h hx => exact ⟨w, h, hx⟩
    | symbol h => simpa [symbols] using mem_symbols h
  · cases hc

theorem IsScanned.of_name {s : String} (h : (name s).IsScanned) : IsName s.toList := by
  rcases h with ⟨w, hw⟩ | ⟨c, hc⟩
  · cases hw with
    | name h => exact h
    | symbol h => simpa [symbols] using mem_symbols h
  · cases hc

end Scanned

/-! ## A whole text -/

/-- The texts that are words for tokens one after the other, with blanks around them. -/
inductive Laid : List Token → List Char → Prop
  | nil {blanks : List Char} (h : ∀ c ∈ blanks, isBlank c = true) : Laid [] blanks
  | cons {t : Token} {tokens : List Token} {blanks w rest : List Char}
      (h : ∀ c ∈ blanks, isBlank c = true) (hw : Lexeme t w) (hrest : Laid tokens rest) :
      Laid (t :: tokens) (blanks ++ (w ++ rest))

section Texts

variable {t : Token} {tokens : List Token} {s w : List Char}

/-- A text is laid out as the tokens that are scanned of it, perhaps with a closing quote added. -/
theorem laid_scanUpTo {limit : Nat} (hlimit : s.length ≤ limit)
    (hvalid : ∀ t ∈ scanUpTo limit s, ∀ c, t ≠ invalid c) :
    Laid (scanUpTo limit s) s ∨ Laid (scanUpTo limit s) (s ++ ['"']) := by
  fun_induction scanUpTo limit s with
  | case1 s =>
      rw [List.length_eq_zero_iff.1 (Nat.le_zero.1 hlimit)]
      exact .inl (.nil (List.forall_mem_nil _))
  | case2 limit s hscan =>
      refine .inl (.nil ?_)
      unfold scan? at hscan
      split at hscan
      case h_1 hnil => exact List.dropWhile_eq_nil_iff.1 hnil
      case h_2 => cases hscan
  | case3 limit s t rest hscan ih =>
      obtain ⟨hfirst, hvalid⟩ := List.forall_mem_cons.1 hvalid
      obtain ⟨c, hc⟩ | ⟨blanks, word, hblanks, rfl, htakes⟩ := scan?_takes hscan
      · exact absurd hc (hfirst c)
      obtain ⟨w, hw, rfl⟩ | ⟨hw, rfl⟩ := htakes
      · have hpos := List.length_pos_iff.2 hw.ne_nil
        simp only [List.length_append] at hlimit
        have hrest := ih (by omega) hvalid
        simp only [List.append_assoc]
        exact hrest.imp (.cons hblanks hw) (.cons hblanks hw)
      · -- Nothing is left behind a literal without its closing quote.
        refine .inr ?_
        rw [scanUpTo_nil, List.append_assoc, ← List.append_nil (word ++ _)]
        exact .cons hblanks hw (.nil (List.forall_mem_nil _))

theorem even_count_doubled (s : List Char) : Even ((s.flatMap doubled).count '"') := by
  induction s with
  | nil => exact .zero
  | cons c s ih =>
      rw [List.flatMap_cons, List.count_append]
      refine .add ?_ ih
      by_cases hc : c = '"'
      · rw [hc]
        decide
      · simp [doubled, hc]

/-- The characters of a class without the quote. -/
theorem even_count_of_class {p : Char → Bool} (hp : p '"' = false) (h : ∀ c ∈ s, p c = true) :
    Even (s.count '"') := by
  have hnone : '"' ∉ s := fun hmem => by simp [h _ hmem] at hp
  rw [List.count_eq_zero.2 hnone]
  exact .zero

theorem Spells.even_count (h : t.Spells w) : Even (w.count '"') := by
  cases h with
  | number h _ =>
      have hdigit : ∀ c, c.isDigit = true → (c != '"') = true := by
        intro c hc
        rw [bne_iff_ne]
        rintro rfl
        cases hc
      exact even_count_of_class rfl (forall_mem_numeral hdigit (by decide) h)
  | text s =>
      rw [List.count_cons_self, List.count_append, Nat.add_assoc]
      exact (even_count_doubled s.toList).add (by decide)
  | boolean b => cases b <;> decide
  | error e => cases e <;> decide
  | name h => exact even_count_of_class (by decide) h.isNameChar
  | cell h => exact even_count_of_class (by decide) (isWordChar_of_isCellWord h)
  | symbol h =>
      have hall : ∀ p ∈ symbols, Even ([p.1].count '"') := by decide
      exact hall _ (mem_symbols h)
  | _ => decide

theorem Lexeme.even_count (h : Lexeme t w) : Even (w.count '"') := by
  cases h with
  | spelling h => exact h.even_count
  | boolean h _ => exact even_count_of_class (by decide) h
  | error h _ =>
      rw [List.count_cons_of_ne (by decide)]
      exact even_count_of_class (by decide) h

/-- Every text literal has its two quotes, so the number of quotes is even. -/
theorem Laid.even_count (h : Laid tokens s) : Even (s.count '"') := by
  induction h with
  | nil h => exact even_count_of_class (by decide) h
  | cons h hw _ ih =>
      rw [List.count_append, List.count_append]
      exact (even_count_of_class (by decide) h).add (hw.even_count.add ih)

end Texts

end Recalc.Token
