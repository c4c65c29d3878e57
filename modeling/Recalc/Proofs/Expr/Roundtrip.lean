import Recalc.Proofs.Expr.Completeness
import Recalc.Proofs.Expr.Soundness
import Recalc.Proofs.Expr.WellFormed

/-!
# Formulas and their expressions

A formula that can be read stands for a well-formed expression, and a well-formed expression is
what its tokens are read as when they are written behind an equals sign.
-/

namespace Recalc

namespace Expr

variable {home : Address} {x : Expr}

theorem ofTokens_eq_ok {tokens : List Token} :
    ofTokens home tokens = .ok x ↔ ∃ l, Derives home l tokens x := by
  constructor
  · intro h
    obtain ⟨⟨y, rest⟩, hread, hreturn⟩ := exists_of_bind_eq_ok h
    obtain ⟨l, taken, -, hy, rfl⟩ := Parser.expression_sound _ _ hread
    cases rest with
    | nil =>
        cases hreturn
        exact ⟨l, by rwa [List.append_nil]⟩
    | cons t rest => cases hreturn
  · rintro ⟨l, h⟩
    have hread := Parser.expression_complete (Nat.lt_succ_self _) le_rfl l.comparison_le h le_rfl
      closed_nil
    rw [List.append_nil] at hread
    rw [ofTokens, hread]
    rfl

/-- A formula stands for a well-formed expression. -/
theorem wellFormed_of_ofFormula {formula : String} (h : ofFormula home formula = .ok x) :
    x.WellFormed home := by
  unfold ofFormula at h
  split at h
  · obtain ⟨l, hx⟩ := ofTokens_eq_ok.1 h
    exact (hx.wellFormed fun t ht => Token.isScanned_of_mem_scanUpTo ht).1
  · cases h

theorem ofFormula_of_written {gap text : List Char} {tokens : List Token}
    (h : Token.Written gap tokens text) (lead : List Char) :
    ofFormula home (String.ofList ('=' :: (lead ++ text)))
      = ofTokens home (Token.scanAll (lead ++ text)) := by
  have htrim : Text.trim ('=' :: (lead ++ text)) = '=' :: (lead ++ text) :=
    Text.trim_of_stops (Text.stops_cons.2 (by decide)) (h.stops_reverse ('=' :: lead))
  rw [ofFormula, String.toList_ofList, htrim]
  rfl

/-- A well-formed expression is read from its tokens, with a blank between them. -/
theorem ofFormula_written (hx : x.WellFormed home) {lead text : List Char}
    (hlead : ∀ c ∈ lead, Text.isBlank c = true) (h : Token.Written [' '] (x.tokens home) text) :
    ofFormula home (String.ofList ('=' :: (lead ++ text))) = .ok x := by
  have hcalled := hx.derives.namesCalled
  have hscan : Token.scanAll (lead ++ text) = x.tokens home :=
    Token.scanUpTo_written (List.all_eq_true.1 rfl) h hcalled.apart hcalled.ends hlead
      (h.length_le.trans (by simp))
  rw [ofFormula_of_written h lead, hscan]
  exact ofTokens_eq_ok.2 ⟨_, hx.derives⟩

end Expr

/-- Reading undoes writing. -/
theorem Expr.ofFormula_roundtrip (home : Address) :
    (∀ formula x, ofFormula home formula = .ok x → x.WellFormed home)
      ∧ ∀ x : Expr, x.WellFormed home →
        (∃ text, Token.Written [' '] (x.tokens home) text)
        ∧ ∀ lead text, (∀ c ∈ lead, Text.isBlank c = true) →
            Token.Written [' '] (x.tokens home) text →
            ofFormula home (String.ofList ('=' :: (lead ++ text))) = .ok x := by
  refine ⟨fun formula x h => wellFormed_of_ofFormula h, fun x hx => ⟨?_, ?_⟩⟩
  · exact Token.exists_written _ (List.length_pos_iff.1 hx.derives.length_pos) hx.spelled
  · exact fun lead text hlead h => ofFormula_written hx hlead h

/-- A formula in `C3` with signs and marks, a call, a range, doubled quotes and a numeral. -/
theorem Expr.ofFormula_roundtrip_nested :
    ofFormula ⟨0, 2, 2⟩ "= - SUM( A1 : B2 , \"a\"\"b\" ) % ^ 1.50 >= TRUE" =
      .ok (.binary .greaterEqual
        (.binary .power
          (.unary .negate (.unary .percent
            (.call "SUM" [.range ⟨⟨-2, -2⟩, ⟨-1, -1⟩⟩, .text "a\"b"])))
          (.number (Decimal.nearest 150 (-2))))
        (.boolean true)) := by
  have hnumeral : Decimal.IsNumeral ['1', '.', '5', '0'] :=
    @Decimal.IsNumeral.of ['1'] ['.', '5', '0'] [] (List.all_eq_true.1 rfl)
      (.point (List.all_eq_true.1 rfl)) .none (.inl (by decide))
  have hread : Decimal.read? ['1', '.', '5', '0'] = some (Decimal.nearest 150 (-2)) := rfl
  have hsum : Token.IsName "SUM".toList := .word rfl (List.all_eq_true.1 rfl)
  have hrange : WellFormed ⟨0, 2, 2⟩ (.range ⟨⟨-2, -2⟩, ⟨-1, -1⟩⟩) :=
    .range ⟨⟨0, 0, 0⟩, by decide⟩ ⟨⟨0, 1, 1⟩, by decide⟩
  have hcall : WellFormed ⟨0, 2, 2⟩
      (.call "SUM" [.range ⟨⟨-2, -2⟩, ⟨-1, -1⟩⟩, .text "a\"b"]) :=
    .call hsum (by decide) (by simpa using ⟨hrange, .text _⟩)
  have hwritten : Token.Written [' '] [.minus, .name "SUM", .leftParen, .cell "A1", .colon,
      .cell "B2", .comma, .text "a\"b", .rightParen, .percent, .caret,
      .number (Decimal.nearest 150 (-2)), .greaterEqual, .boolean true] _ :=
    .cons (.symbol (c := '-') rfl) <| .cons (.name hsum) <| .cons (.symbol (c := '(') rfl) <|
      .cons (.cell (by decide)) <| .cons (.symbol (c := ':') rfl) <| .cons (.cell (by decide)) <|
        .cons (.symbol (c := ',') rfl) <| .cons (.text _) <| .cons (.symbol (c := ')') rfl) <|
          .cons (.symbol (c := '%') rfl) <| .cons (.symbol (c := '^') rfl) <|
            .cons (.number hnumeral hread) <| .cons .greaterEqual <| .one (.boolean true)
  exact ((ofFormula_roundtrip ⟨0, 2, 2⟩).2 _
    (.binary (by decide) (by decide) (.binary (by decide) (by decide)
      (.unary (by decide) (.unary (by decide) hcall)) (.number hnumeral hread)) (.boolean true))).2
    [' '] _ (List.all_eq_true.1 rfl) hwritten

end Recalc
