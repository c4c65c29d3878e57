import Recalc.Proofs.Expr.Roundtrip

/-!
# What is accepted as a formula

A formula that can be read is an equals sign with a sentence behind it, whose references are within
the limits of a sheet. The one exception is a text literal at the end without its closing quote, and
the number of quotes tells it apart: then the formula is read as if the quote were there.
-/

namespace Recalc

section Sentences

variable {home : Address} {l : Level} {ts : List Token} {x : Expr}

/-- The tokens of sentences: each is part of the grammar and each cell can be addressed. -/
def Token.IsAdmitted (home : Address) : Token → Prop
  | .invalid _ => False
  | .cell s => ∃ target, Address.ofA1 home.sheet s = .ok target ∧ target.IsNamed
  | _ => True

theorem Token.isAdmitted_cell {s : String} {target : Address}
    (h : Address.ofA1 home.sheet s = .ok target) : IsAdmitted home (.cell s) :=
  ⟨target, h, (Address.isNamed_of_ofA1 h).1⟩

theorem BinaryOp.isAdmitted_token (op : BinaryOp) : op.token.IsAdmitted home := by
  cases op <;> trivial

theorem Derives.isAdmitted (h : Derives home l ts x) : ∀ t ∈ ts, t.IsAdmitted home := by
  induction h with
  | number | text | boolean | error => exact List.forall_mem_singleton.2 trivial
  | cell h => exact List.forall_mem_singleton.2 (Token.isAdmitted_cell h)
  | range ha hb =>
      rw [List.forall_mem_cons, List.forall_mem_cons, List.forall_mem_singleton]
      exact ⟨Token.isAdmitted_cell ha, trivial, Token.isAdmitted_cell hb⟩
  | paren _ ih =>
      rw [List.forall_mem_cons, List.forall_mem_append, List.forall_mem_singleton]
      exact ⟨trivial, ih, trivial⟩
  | call name _ ih =>
      rw [List.forall_mem_cons, List.forall_mem_cons, List.forall_mem_append,
        List.forall_mem_singleton]
      exact ⟨trivial, trivial, Token.forall_mem_separated trivial (List.forall_mem_map.2 ih),
        trivial⟩
  | percent _ _ ih =>
      rw [List.forall_mem_append, List.forall_mem_singleton]
      exact ⟨ih, trivial⟩
  | negate _ _ ih => exact List.forall_mem_cons.2 ⟨trivial, ih⟩
  | plus _ _ ih => exact List.forall_mem_cons.2 ⟨trivial, ih⟩
  | binary op _ _ _ _ ihl ihr =>
      rw [List.forall_mem_append, List.forall_mem_cons]
      exact ⟨ihl, op.isAdmitted_token, ihr⟩

end Sentences

namespace Expr

variable {home : Address} {x : Expr}

/-- Whether a text is laid out as a sentence that stands for an expression, all of whose cells can
be addressed. -/
def IsSentence (home : Address) (text : List Char) (x : Expr) : Prop :=
  ∃ level tokens, Token.Laid tokens text ∧ Derives home level tokens x
    ∧ ∀ s, .cell s ∈ tokens →
        ∃ target, Address.ofA1 home.sheet s = .ok target ∧ target.IsNamed

theorem IsSentence.even_count {text : List Char} (h : IsSentence home text x) :
    Even (text.count '"') := by
  obtain ⟨_, _, hlaid, -⟩ := h
  exact hlaid.even_count

theorem isSentence_of_laid {text : List Char} {l : Level} {tokens : List Token}
    (hlaid : Token.Laid tokens text) (h : Derives home l tokens x) : IsSentence home text x :=
  ⟨l, tokens, hlaid, h, fun s hs => h.isAdmitted (.cell s) hs⟩

/-- What is read as tokens is a sentence, perhaps with a closing quote added. -/
theorem isSentence_of_ofTokens {text : List Char}
    (h : ofTokens home (Token.scanAll text) = .ok x) :
    IsSentence home text x ∨ IsSentence home (text ++ ['"']) x := by
  obtain ⟨l, hx⟩ := ofTokens_eq_ok.1 h
  have hvalid : ∀ t ∈ Token.scanAll text, ∀ c, t ≠ .invalid c := by
    rintro t ht c rfl
    exact hx.isAdmitted _ ht
  exact (Token.laid_scanUpTo le_rfl hvalid).imp (isSentence_of_laid · hx) (isSentence_of_laid · hx)

end Expr

/-- What a formula has behind its equals sign is a sentence where its quotes are even in number, and
otherwise one that lacks the closing quote of its last text literal. -/
theorem Expr.ofFormula_sentence (home : Address) {formula : String} {x : Expr}
    (h : ofFormula home formula = .ok x) :
    ∃ text, Text.trim formula.toList = '=' :: text
      ∧ (IsSentence home text x ↔ Even (text.count '"'))
      ∧ (¬ Even (text.count '"') → IsSentence home (text ++ ['"']) x) := by
  unfold ofFormula at h
  split at h
  case h_2 => cases h
  case h_1 text htrim =>
    refine ⟨text, htrim, ⟨IsSentence.even_count, fun heven => ?_⟩, fun hodd => ?_⟩
    · refine (isSentence_of_ofTokens h).resolve_right fun hquote => ?_
      have hboth := hquote.even_count
      rw [List.count_append, Nat.even_add] at hboth
      exact absurd (hboth.1 heven) (by decide)
    · exact (isSentence_of_ofTokens h).resolve_left fun hx => hodd hx.even_count

/-- A call of a name with a range and a text literal with quotes in it, in `C3`. -/
theorem Expr.ofFormula_sentence_quotes :
    ∃ x, ofFormula ⟨0, 2, 2⟩ "= -sum(A1:$B$2, \"a\"\"b\")% >= true" = .ok x
      ∧ IsSentence ⟨0, 2, 2⟩ " -sum(A1:$B$2, \"a\"\"b\")% >= true".toList x := by
  have hread : ofFormula ⟨0, 2, 2⟩ "= -sum(A1:$B$2, \"a\"\"b\")% >= true" =
      .ok (.binary .greaterEqual
        (.unary .negate (.unary .percent
          (.call "SUM" [.range ⟨⟨-2, -2⟩, ⟨-1, -1⟩⟩, .text "a\"b"])))
        (.boolean true)) := rfl
  have htrim : Text.trim "= -sum(A1:$B$2, \"a\"\"b\")% >= true".toList
      = '=' :: " -sum(A1:$B$2, \"a\"\"b\")% >= true".toList := by decide +kernel
  obtain ⟨text, htext, hiff, -⟩ := ofFormula_sentence ⟨0, 2, 2⟩ hread
  obtain ⟨-, rfl⟩ := List.cons.inj (htrim.symm.trans htext)
  exact ⟨_, hread, hiff.2 (by decide +kernel)⟩

/-- A text literal that is never closed is read, although it is no sentence. -/
theorem Expr.ofFormula_sentence_unclosed :
    ofFormula ⟨0, 0, 0⟩ "=\"abc" = .ok (.text "abc")
      ∧ Text.trim "=\"abc".toList = '=' :: "\"abc".toList
      ∧ ∀ x, ¬ IsSentence ⟨0, 0, 0⟩ "\"abc".toList x := by
  refine ⟨rfl, by decide, fun x hx => ?_⟩
  exact absurd hx.even_count (by decide)

end Recalc
