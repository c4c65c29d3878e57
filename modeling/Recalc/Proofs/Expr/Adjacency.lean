import Recalc.Proofs.Expr.Roundtrip

/-!
# Formulas without blanks

In a sentence operands take turns with the operators, signs and commas around them, so tokens that
are written with nothing between them rarely run into each other. Only an error literal does: a
division sign is one of the characters that such a literal goes on with.
-/

namespace Recalc

namespace Token

open Text

/-- The tokens that can stand behind an operand. -/
def goesOn : Token → Bool
  | comma | rightParen => true
  | t => t.binds?.isSome

/-- The tokens that can stand where an operand is due. The arguments of a call may be missing. -/
def opens : Token → Bool
  | plus | minus | rightParen => true
  | t => t.startsOperand

/-- Whether a token can stand behind an operand, or else where one is due. -/
def fits (behind : Bool) (t : Token) : Bool := if behind then t.goesOn else t.opens

/-- The tokens that an operand can end with. -/
def endsOperand : Token → Bool
  | number _ | text _ | boolean _ | error _ | cell _ | percent | rightParen => true
  | _ => false

/-- Whether each token fits behind the one before it. The two flags tell whether the tokens stand
behind an operand and whether they end with one. -/
def Alternates : Bool → List Token → Bool → Prop
  | behind, [], last => behind = last
  | behind, t :: tokens, last => t.fits behind = true ∧ Alternates t.endsOperand tokens last

theorem Alternates.append {behind middle last : Bool} {tokens more : List Token}
    (h : Alternates behind tokens middle) (hmore : Alternates middle more last) :
    Alternates behind (tokens ++ more) last := by
  induction tokens generalizing behind with
  | nil => exact h ▸ hmore
  | cons t tokens ih => exact ⟨h.1, ih h.2⟩

theorem Alternates.commas {all : List (List Token)}
    (h : ∀ tokens ∈ all, Alternates false tokens true) :
    Alternates true (all.flatMap (comma :: ·)) true := by
  induction all with
  | nil => rfl
  | cons tokens all ih =>
      obtain ⟨htokens, hall⟩ := List.forall_mem_cons.1 h
      exact ⟨rfl, htokens.append (ih hall)⟩

/-- The characters with which no operand goes on, but an error literal goes on with a division
sign. -/
def isMark (c : Char) : Bool :=
  !goesOnNumeral c && c != '"' && !isWordChar c && c != '(' && (c == '/' || !isErrorChar c)

section Heads

variable {t : Token} {w : List Char} {c : Char}

theorem isMark_of_goesOn (ht : t.goesOn = true) (h : t.Spells w) :
    ∃ c ∈ w.head?, isMark c = true ∧ (c = '/' → t = slash) := by
  cases h with
  | number | text | boolean | error | name | cell => cases ht
  | symbol h =>
      have hall : ∀ p ∈ symbols, p.2.goesOn = true →
          isMark p.1 = true ∧ (p.1 = '/' → p.2 = slash) := by decide
      have hmark := hall _ (mem_symbols h) ht
      exact ⟨_, rfl, hmark⟩
  | _ =>
      simp only [List.head?_cons, Option.mem_some_iff, exists_eq_left']
      decide

theorem ne_of_opens (ht : t.opens = true) (h : t.Spells w) :
    ∃ c ∈ w.head?, c ≠ '=' ∧ c ≠ '>' := by
  have hclass : ∀ {p : Char → Bool} {c}, p '=' = false → p '>' = false → p c = true →
      c ≠ '=' ∧ c ≠ '>' := by
    intro p c hequal hgreater hc
    constructor <;> rintro rfl <;> simp_all
  cases h with
  | @number x w h _ =>
      have hstarts := startsNumeral_append h []
      cases w with
      | nil => cases hstarts
      | cons c w =>
          refine ⟨c, rfl, ?_⟩
          rcases isDigit_or_eq_of_startsNumeral hstarts with hc | rfl
          · exact hclass (by decide) (by decide) hc
          · decide
  | text s => exact ⟨'"', rfl, by decide⟩
  | boolean b => cases b <;> exact ⟨_, rfl, by decide⟩
  | error e => cases e <;> exact ⟨_, rfl, by decide⟩
  | @name s h =>
      generalize s.toList = w at h
      cases h with
      | word hstart _ => exact ⟨_, rfl, hclass (by decide) (by decide) hstart⟩
      | hash _ _ => exact ⟨_, rfl, by decide⟩
  | @cell s h =>
      obtain ⟨c, more, hw, hstart⟩ := startsWord_of_isCellWord h
      exact ⟨c, by simp [hw], hclass (by decide) (by decide) hstart⟩
  | symbol h =>
      have hall : ∀ p ∈ symbols, p.2.opens = true → p.1 ≠ '=' ∧ p.1 ≠ '>' := by decide
      exact ⟨_, rfl, hall _ (mem_symbols h) ht⟩
  | _ => cases ht

end Heads

/-! ## Tokens side by side -/

/-- A division sign behind an error literal. -/
def Clashes (t next : Token) : Prop := (∃ e, t = error e) ∧ next = slash

section Sides

variable {t next : Token} {tokens : List Token}

theorem apart_of_fits (hfits : next.fits t.endsOperand = true)
    (hname : t.isName = true → next = leftParen) (hclash : ¬ Clashes t next) :
    Apart [] t next := by
  intro w hw
  rw [separator_nil, List.nil_append]
  cases hends : t.endsOperand with
  | true =>
      rw [hends] at hfits
      obtain ⟨c, hc, hmark, hslash⟩ := isMark_of_goesOn hfits hw
      simp only [isMark, Bool.and_eq_true, Bool.or_eq_true, Bool.not_eq_true', bne_iff_ne,
        beq_iff_eq] at hmark
      obtain ⟨⟨⟨⟨hnumeral, hquote⟩, hword⟩, hcall⟩, herror⟩ := hmark
      rw [hc]
      cases t with
      | error e =>
          have hne : c ≠ '/' := fun hc => hclash ⟨⟨e, rfl⟩, hslash hc⟩
          simp [endsBefore, herror.resolve_left hne]
      | number | text | boolean | cell => simp [endsBefore, hnumeral, hquote, hword, hcall]
      | name | lessThan | greaterThan => cases hends
      | _ => rfl
  | false =>
      -- Here only the comparisons that are written as two characters could go on.
      rw [hends] at hfits
      obtain ⟨c, hc, hequal, hgreater⟩ := ne_of_opens hfits hw
      rw [hc]
      cases t with
      | name s =>
          cases hname rfl
          rw [eq_of_spells_symbol (c := '(') rfl hw] at hc
          cases hc
          rfl
      | lessThan | greaterThan => simp [endsBefore, hequal, hgreater]
      | number | text | boolean | error | cell => cases hends
      | _ => rfl

/-- Tokens of which each fits behind the one before it do not run into each other, apart from a
division sign behind an error literal. -/
theorem Alternates.apart {behind last : Bool} (h : Alternates behind tokens last)
    (hcalled : tokens.IsChain fun t next => t.isName = true → next = leftParen) :
    tokens.IsChain fun t next => Apart [] t next ∨ Clashes t next := by
  induction tokens generalizing behind with
  | nil => exact .nil
  | cons t tokens ih =>
      cases tokens with
      | nil => exact .singleton t
      | cons next tokens =>
          obtain ⟨hname, hcalled⟩ := List.isChain_cons_cons.1 hcalled
          refine List.isChain_cons_cons.2 ⟨?_, ih h.2 hcalled⟩
          by_cases hclash : Clashes t next
          · exact .inr hclash
          · exact .inl (apart_of_fits h.2.1 hname hclash)

theorem exists_clash_cons :
    (∃ e, [error e, slash] <:+: t :: next :: tokens)
      ↔ Clashes t next ∨ ∃ e, [error e, slash] <:+: next :: tokens := by
  have hfirst : Clashes t next ↔ ∃ e, [error e, slash] <+: t :: next :: tokens := by
    simp [Clashes, eq_comm]
  rw [hfirst, ← exists_or]
  exact exists_congr fun e => List.infix_cons_iff

theorem apart_of_no_clash
    (h : tokens.IsChain fun t next => Apart [] t next ∨ Clashes t next)
    (hclash : ¬ ∃ e, [error e, slash] <:+: tokens) : tokens.IsChain (Apart []) := by
  induction tokens with
  | nil => exact .nil
  | cons t tokens ih =>
      cases tokens with
      | nil => exact .singleton t
      | cons next tokens =>
          obtain ⟨hnext, hmore⟩ := List.isChain_cons_cons.1 h
          rw [exists_clash_cons, not_or] at hclash
          exact List.isChain_cons_cons.2 ⟨hnext.resolve_right hclash.1, ih hmore hclash.2⟩

end Sides

/-! ## What an error literal does to a division sign -/

/-- Whether a token is an error literal, of the tokens that may start with a hash sign. -/
def literal : Token → List Bool
  | error _ => [true]
  | name _ => [false]
  | _ => []

section Swallowing

variable {tokens : List Token} {text rest : List Char}

/-- No error literal starts with another one and a division sign. -/
theorem ofErrorWord_slash (e : ErrorKind) {more : List Char}
    (h : ∀ c ∈ more, isErrorChar c = true) :
    ofErrorWord (e.spelling.toList ++ '/' :: more)
      = name (String.ofList (e.spelling.toList ++ '/' :: more)) := by
  have hascii : ∀ c ∈ e.spelling.toList ++ '/' :: more, c.toNat < 128 := by
    obtain ⟨front, hfront, hchars⟩ := exists_of_spelling e
    have hclass : ∀ c, isErrorChar c = true → c.toNat < 128 := fun c hc =>
      lt_of_isNameChar (by simp [isNameChar, hc])
    rw [hfront, List.forall_mem_append, List.forall_mem_cons, List.forall_mem_cons]
    exact ⟨⟨by decide, fun c hc => hclass c (hchars c hc)⟩, by decide,
      fun c hc => hclass c (h c hc)⟩
  have hnone : ErrorKind.ofSpelling? (String.ofList (e.spelling.toList ++ '/' :: more)) = none := by
    refine List.find?_eq_none.2 fun f hf heq => ?_
    have hcapitals := congrArg String.toList (beq_iff_eq.1 heq)
    rw [toList_toCapitals, String.toList_ofList, capitals_ascii hascii, List.map_append,
      List.map_cons] at hcapitals
    have hall : ∀ e ∈ ErrorKind.all, ∀ f ∈ ErrorKind.all,
        ¬ e.spelling.toList.map Char.toUpper ++ ['/'] <+: f.spelling.toList := by decide
    exact hall e e.mem_all f hf ⟨more.map Char.toUpper, by simp [hcapitals]⟩
  rw [ofErrorWord, hnone]

theorem scan?_error_slash (e : ErrorKind) (rest : List Char) :
    ∃ s after, scan? (e.spelling.toList ++ '/' :: rest) = some (name s, after) := by
  obtain ⟨front, hfront, hchars⟩ := exists_of_spelling e
  have hsplit : '/' :: rest
      = '/' :: rest.takeWhile isErrorChar ++ rest.dropWhile isErrorChar := by simp
  have hmore : ∀ c ∈ rest.takeWhile isErrorChar, isErrorChar c = true :=
    fun c hc => of_mem_takeWhile hc
  have hword : ∀ c ∈ front ++ '/' :: rest.takeWhile isErrorChar, isErrorChar c = true :=
    List.forall_mem_append.2 ⟨hchars, List.forall_mem_cons.2 ⟨by decide, hmore⟩⟩
  have hscan := scan?_hash hword (stops_dropWhile rest)
  rw [← List.cons_append, ← hfront, List.append_assoc, ← hsplit, ofErrorWord_slash e hmore] at hscan
  exact ⟨_, _, hscan⟩

/-- The first division sign behind an error literal makes a name of it. -/
theorem literals_ne (h : Written [] tokens text)
    (hapart : tokens.IsChain fun t next => Apart [] t next ∨ Clashes t next)
    (hclash : ∃ e, [error e, slash] <:+: tokens) {limit : Nat} (hlimit : tokens.length ≤ limit) :
    (scanUpTo limit text).flatMap literal ≠ tokens.flatMap literal := by
  induction h generalizing limit with
  | one h =>
      obtain ⟨e, he⟩ := hclash
      exact absurd he.length_le (by simp)
  | @cons t next tokens w text h hrest ih =>
      obtain ⟨limit, rfl⟩ : ∃ n, limit = n + 1 := ⟨limit - 1, by simp at hlimit; omega⟩
      obtain ⟨hnext, hapart⟩ := List.isChain_cons_cons.1 hapart
      by_cases hc : Clashes t next
      · -- The literal is first among the words of the tokens, and a name is first in the scan.
        obtain ⟨⟨e, rfl⟩, rfl⟩ := hc
        obtain ⟨w', rest, hslash, rfl⟩ := hrest.starts
        obtain ⟨s, after, hscan⟩ := scan?_error_slash e rest
        rw [eq_of_spells_error h, eq_of_spells_symbol (c := '/') rfl hslash, separator_nil,
          List.nil_append, List.singleton_append, scanUpTo, hscan]
        simp [literal]
      · have hends := (hnext.resolve_right hc).endsBefore hrest
        rw [scanUpTo, scan?_append h hends, List.flatMap_cons, List.flatMap_cons]
        have hbehind := (exists_clash_cons.1 hclash).resolve_left hc
        have hne := ih hapart hbehind (by simpa using hlimit)
        rw [separator_nil, List.nil_append]
        exact fun heq => hne (List.append_cancel_left heq)

end Swallowing

end Token

/-! ## Sentences without blanks -/

section Sentences

open Token

variable {home : Address} {l : Level} {ts : List Token} {x : Expr}

theorem BinaryOp.alternates_token (op : BinaryOp) :
    op.token.goesOn = true ∧ op.token.endsOperand = false := by
  cases op <;> exact ⟨rfl, rfl⟩

theorem Token.alternates_separated {all : List (List Token)}
    (h : ∀ tokens ∈ all, Alternates false tokens true) :
    ∃ behind, Alternates false (separated all) behind := by
  cases all with
  | nil => exact ⟨false, rfl⟩
  | cons first more =>
      obtain ⟨hfirst, hmore⟩ := List.forall_mem_cons.1 h
      exact ⟨true, hfirst.append (.commas hmore)⟩

/-- In a sentence each token fits behind the one before it. -/
theorem Derives.alternates (h : Derives home l ts x) : Alternates false ts true := by
  induction h with
  | number | text | boolean | error | cell => exact ⟨rfl, rfl⟩
  | range => exact ⟨rfl, rfl, rfl, rfl⟩
  | paren _ ih => exact ⟨rfl, ih.append ⟨rfl, rfl⟩⟩
  | @call name arguments _ ih =>
      obtain ⟨behind, harguments⟩ := alternates_separated (List.forall_mem_map.2 ih)
      have hclose : Alternates behind [.rightParen] true := by cases behind <;> exact ⟨rfl, rfl⟩
      exact ⟨rfl, rfl, harguments.append hclose⟩
  | percent _ _ ih => exact ih.append ⟨rfl, rfl⟩
  | negate _ _ ih => exact ⟨rfl, ih⟩
  | plus _ _ ih => exact ⟨rfl, ih⟩
  | binary op _ _ _ _ ihl ihr =>
      obtain ⟨hgoes, hends⟩ := op.alternates_token
      exact ihl.append ⟨hgoes, hends ▸ ihr⟩

theorem Derives.apart (h : Derives home l ts x) :
    ts.IsChain fun t next => Apart [] t next ∨ Clashes t next :=
  h.alternates.apart h.namesCalled.1

theorem Reference.token_between {s : String} {target : Address}
    (h : Address.ofA1 home.sheet s = .ok target) :
    (Reference.between home target).token home = .cell target.toA1 := by
  obtain ⟨hnamed, hsheet⟩ := Address.isNamed_of_ofA1 h
  rw [Reference.token, Reference.resolve?_between hsheet hnamed]

theorem BinaryOp.literal_token (op : BinaryOp) : op.token.literal = [] := by
  cases op <;> rfl

theorem Token.flatMap_literal_separated (all : List (List Token)) :
    (separated all).flatMap literal = all.flatMap (·.flatMap literal) := by
  cases all with
  | nil => rfl
  | cons first more => simp [separated, literal, List.flatMap_assoc]

/-- All sentences that stand for an expression have the same error literals among their names. -/
theorem Derives.literals (h : Derives home l ts x) :
    ts.flatMap literal = (x.tokens home).flatMap literal := by
  induction h with
  | number | text | boolean | error => rfl
  | cell h => simp [Expr.tokens, Reference.token_between h, literal]
  | range ha hb => simp [Expr.tokens, Reference.token_between ha, Reference.token_between hb, literal]
  | paren _ ih => simp [Expr.tokens, literal, ih]
  | @call name arguments _ ih =>
      have harguments : arguments.flatMap (·.tokens.flatMap literal)
          = arguments.flatMap fun a => (a.expr.tokens home).flatMap literal :=
        List.flatMap_congr ih
      simp [Expr.tokens, literal, flatMap_literal_separated, List.flatMap_map, harguments]
  | percent _ _ ih => simp [Expr.tokens, ih]
  | negate _ _ ih => simp [Expr.tokens, ih, literal]
  | plus _ _ ih => simp [ih, literal]
  | binary op _ _ _ _ ihl ihr => simp [Expr.tokens, ihl, ihr, op.literal_token]

end Sentences

namespace Expr

open Token

variable {home : Address} {x : Expr}

/-- The tokens of an expression are read with nothing between them, unless a division sign stands
behind an error literal. -/
theorem ofFormula_tight_iff (hx : x.WellFormed home) {text : List Char}
    (h : Written [] (x.tokens home) text) :
    ofFormula home (String.ofList ('=' :: text)) = .ok x
      ↔ ¬ ∃ e, [.error e, .slash] <:+: x.tokens home := by
  have hread : ofFormula home (String.ofList ('=' :: text)) = ofTokens home (scanAll text) :=
    ofFormula_of_written h []
  rw [hread, ofTokens_eq_ok]
  constructor
  · rintro ⟨l, hl⟩ hclash
    exact literals_ne h hx.derives.apart hclash h.length_le hl.literals
  · intro hclash
    have happart := apart_of_no_clash hx.derives.apart hclash
    have hends := hx.derives.namesCalled.ends
    have hscan : scanUpTo text.length ([] ++ text) = x.tokens home :=
      scanUpTo_written (by simp) h happart hends (by simp) h.length_le
    exact ⟨_, hscan ▸ hx.derives⟩

end Expr

/-- The tokens of the expression that a formula stands for are read as this expression with a blank
between them, and also with nothing between them unless a division sign stands behind an error
literal. -/
theorem Expr.ofFormula_tight (home : Address) {formula : String} {x : Expr}
    (h : ofFormula home formula = .ok x) :
    (∃ spaced, Token.Written [' '] (x.tokens home) spaced)
      ∧ (∃ tight, Token.Written [] (x.tokens home) tight)
      ∧ (∀ spaced, Token.Written [' '] (x.tokens home) spaced →
          ofFormula home (String.ofList ('=' :: spaced)) = .ok x)
      ∧ ∀ tight, Token.Written [] (x.tokens home) tight →
          (ofFormula home (String.ofList ('=' :: tight)) = .ok x
            ↔ ¬ ∃ e, [.error e, .slash] <:+: x.tokens home) := by
  have hx := wellFormed_of_ofFormula h
  have hne : x.tokens home ≠ [] := List.length_pos_iff.1 hx.derives.length_pos
  refine ⟨Token.exists_written _ hne hx.spelled, Token.exists_written _ hne hx.spelled,
    fun spaced hspaced => ?_, fun tight htight => ofFormula_tight_iff hx htight⟩
  simpa only [List.nil_append] using ofFormula_written hx (List.forall_mem_nil _) hspaced

/-- A division, a join and a comparison with an error literal in `C3`. -/
theorem Expr.ofFormula_tight_comparison :
    ofFormula ⟨0, 2, 2⟩ "= - A1 / ( B2 & \"x\" ) <> #N/A" =
        .ok (.binary .notEqual
          (.binary .divide (.unary .negate (.cell ⟨-2, -2⟩))
            (.paren (.binary .concat (.cell ⟨-1, -1⟩) (.text "x"))))
          (.error .notAvailable))
      ∧ ofFormula ⟨0, 2, 2⟩ "=-A1/(B2&\"x\")<>#N/A" =
        ofFormula ⟨0, 2, 2⟩ "= - A1 / ( B2 & \"x\" ) <> #N/A" := by
  have hread : ofFormula ⟨0, 2, 2⟩ "= - A1 / ( B2 & \"x\" ) <> #N/A" =
      .ok (.binary .notEqual
        (.binary .divide (.unary .negate (.cell ⟨-2, -2⟩))
          (.paren (.binary .concat (.cell ⟨-1, -1⟩) (.text "x"))))
        (.error .notAvailable)) := rfl
  have hwritten : Token.Written [] [.minus, .cell "A1", .slash, .leftParen, .cell "B2", .ampersand,
      .text "x", .rightParen, .notEqual, .error .notAvailable] _ :=
    .cons (.symbol (c := '-') rfl) <| .cons (.cell (by decide)) <|
      .cons (.symbol (c := '/') rfl) <| .cons (.symbol (c := '(') rfl) <|
        .cons (.cell (by decide)) <| .cons (.symbol (c := '&') rfl) <| .cons (.text _) <|
          .cons (.symbol (c := ')') rfl) <| .cons .notEqual <| .one (.error _)
  have hclash : ¬ ∃ e, [Token.error e, .slash] <:+: [.minus, .cell "A1", .slash, .leftParen,
      .cell "B2", .ampersand, .text "x", .rightParen, .notEqual, .error .notAvailable] := by
    simp [List.infix_cons_iff]
  have htight := ((ofFormula_tight ⟨0, 2, 2⟩ hread).2.2.2 _ hwritten).2 hclash
  exact ⟨hread, htight.trans hread.symm⟩

/-- A division sign directly behind an error literal makes a name of it, which is refused. -/
theorem Expr.ofFormula_tight_errorLiteral :
    ∃ x, ofFormula ⟨0, 0, 0⟩ "=#N/A / 2" = .ok x
      ∧ (∃ spaced, Token.Written [' '] (x.tokens ⟨0, 0, 0⟩) spaced
          ∧ ofFormula ⟨0, 0, 0⟩ (String.ofList ('=' :: spaced)) = .ok x)
      ∧ Token.Written [] (x.tokens ⟨0, 0, 0⟩) "#N/A/2".toList
      ∧ ofFormula ⟨0, 0, 0⟩ "=#N/A/2" = .error (.unknownName "#N/A/2") := by
  have hnumeral : Decimal.IsNumeral ['2'] :=
    @Decimal.IsNumeral.of ['2'] [] [] (List.all_eq_true.1 rfl) .none .none (.inl (by decide))
  have hread : Decimal.read? ['2'] = some (Decimal.nearest 2 0) := rfl
  have hslash : Token.slash.Spells ['/'] := .symbol rfl
  exact ⟨.binary .divide (.error .notAvailable) (.number (Decimal.nearest 2 0)), rfl,
    ⟨_, .cons (.error _) (.cons hslash (.one (.number hnumeral hread))), rfl⟩,
    .cons (.error _) (.cons hslash (.one (.number hnumeral hread))), rfl⟩

end Recalc
