import Recalc.Evaluation
import Recalc.Expr.Dependency
import Recalc.Proofs.Address.Variants
import Recalc.Proofs.Expr.Roundtrip
import Recalc.Proofs.Token.Casing

/-!
# Formulas in either case

A sentence stays one, with the same expression, when the words of its names and cells are written in
another case: functions are called by their names in capital letters, and cells are read in either
case. So letters outside text literals may be capital or small.
-/

namespace Recalc

/-! ## Tokens in either case -/

namespace Token

variable {t u : Token} {tokens others : List Token} {s : String}

/-- The tokens with a word or a character of their own. -/
def hasWord : Token → Bool
  | name _ | cell _ | invalid _ => true
  | _ => false

theorem eq_of_folded_eq (h : u.folded = t.folded) (ht : t.hasWord = false) : u = t := by
  have hfixed : t.folded = t := by
    cases t <;> first | rfl | cases ht
  rw [hfixed] at h
  cases u <;> first | exact h | (subst h; cases ht)

theorem map_toUpper_eq_of_foldedWord_eq {r : String} (h : foldedWord r = foldedWord s) :
    r.toList.map Char.toUpper = s.toList.map Char.toUpper := by
  simpa [foldedWord] using congrArg String.toList h

theorem exists_name_of_folded_eq (h : u.folded = (name s).folded) :
    ∃ r, u = name r ∧ r.toList.map Char.toUpper = s.toList.map Char.toUpper := by
  cases u with
  | name r => exact ⟨r, rfl, map_toUpper_eq_of_foldedWord_eq (name.inj h)⟩
  | _ => cases h

theorem exists_cell_of_folded_eq (h : u.folded = (cell s).folded) :
    ∃ r, u = cell r ∧ r.toList.map Char.toUpper = s.toList.map Char.toUpper := by
  cases u with
  | cell r => exact ⟨r, rfl, map_toUpper_eq_of_foldedWord_eq (cell.inj h)⟩
  | _ => cases h

theorem exists_tail_of_map_folded_eq (h : others.map folded = (t :: tokens).map folded)
    (ht : t.hasWord = false) :
    ∃ tail, others = t :: tail ∧ tail.map folded = tokens.map folded := by
  obtain ⟨u, tail, rfl, hu, htail⟩ := List.map_eq_cons_iff.1 h
  exact ⟨tail, by rw [eq_of_folded_eq hu ht], htail⟩

theorem eq_singleton_of_map_folded_eq (h : others.map folded = [t].map folded)
    (ht : t.hasWord = false) : others = [t] := by
  obtain ⟨tail, rfl, htail⟩ := exists_tail_of_map_folded_eq h ht
  rw [List.map_eq_nil_iff.1 htail]

theorem exists_append_of_map_folded_eq {more : List Token}
    (h : others.map folded = (tokens ++ more).map folded) :
    ∃ front back, others = front ++ back ∧ front.map folded = tokens.map folded
      ∧ back.map folded = more.map folded := by
  rw [List.map_append] at h
  exact List.map_eq_append_iff.1 h

theorem exists_init_of_map_folded_eq (h : others.map folded = (tokens ++ [t]).map folded)
    (ht : t.hasWord = false) :
    ∃ init, others = init ++ [t] ∧ init.map folded = tokens.map folded := by
  obtain ⟨init, last, rfl, hinit, hlast⟩ := exists_append_of_map_folded_eq h
  exact ⟨init, by rw [eq_singleton_of_map_folded_eq hlast ht], hinit⟩

end Token

/-! ## Sentences in either case -/

section Sentences

open Token

variable {home : Address} {level : Level} {tokens others : List Token} {x : Expr}

/-- A sentence, however the words in it are cased. -/
def Sentence.IsCaseless (home : Address) (a : Sentence) : Prop :=
  ∀ others, others.map folded = a.tokens.map folded → Derives home a.level others a.expr

/-- Arguments behind commas fall into arguments in any case. -/
theorem exists_arguments_behind_commas {arguments : List Sentence}
    (h : ∀ a ∈ arguments, a.IsCaseless home)
    (ho : others.map folded
      = ((arguments.map (·.tokens)).flatMap (Token.comma :: ·)).map folded) :
    ∃ cased : List Sentence, others = (cased.map (·.tokens)).flatMap (Token.comma :: ·)
      ∧ cased.map (·.expr) = arguments.map (·.expr)
      ∧ ∀ a ∈ cased, Derives home a.level a.tokens a.expr := by
  induction arguments generalizing others with
  | nil => exact ⟨[], List.map_eq_nil_iff.1 ho, rfl, List.forall_mem_nil _⟩
  | cons a arguments ih =>
      obtain ⟨ha, harguments⟩ := List.forall_mem_cons.1 h
      obtain ⟨tail, rfl, htail⟩ := exists_tail_of_map_folded_eq ho rfl
      obtain ⟨front, back, rfl, hfront, hback⟩ := exists_append_of_map_folded_eq htail
      obtain ⟨cased, rfl, hexpr, hcased⟩ := ih harguments hback
      refine ⟨⟨a.level, front, a.expr⟩ :: cased, rfl, ?_, ?_⟩
      · rw [List.map_cons, hexpr, List.map_cons]
      · exact List.forall_mem_cons.2 ⟨ha front hfront, hcased⟩

theorem exists_arguments {arguments : List Sentence} (h : ∀ a ∈ arguments, a.IsCaseless home)
    (ho : others.map folded = (separated (arguments.map (·.tokens))).map folded) :
    ∃ cased : List Sentence, others = separated (cased.map (·.tokens))
      ∧ cased.map (·.expr) = arguments.map (·.expr)
      ∧ ∀ a ∈ cased, Derives home a.level a.tokens a.expr := by
  cases arguments with
  | nil => exact ⟨[], List.map_eq_nil_iff.1 ho, rfl, List.forall_mem_nil _⟩
  | cons a arguments =>
      obtain ⟨ha, harguments⟩ := List.forall_mem_cons.1 h
      obtain ⟨front, back, rfl, hfront, hback⟩ := exists_append_of_map_folded_eq ho
      obtain ⟨cased, rfl, hexpr, hcased⟩ := exists_arguments_behind_commas harguments hback
      refine ⟨⟨a.level, front, a.expr⟩ :: cased, rfl, ?_, ?_⟩
      · rw [List.map_cons, hexpr, List.map_cons]
      · exact List.forall_mem_cons.2 ⟨ha front hfront, hcased⟩

/-- The same sentence in any case stands for the same expression. -/
theorem Derives.of_map_folded_eq (h : Derives home level tokens x)
    (ho : others.map folded = tokens.map folded) : Derives home level others x := by
  -- Other tokens with the same capital letters fall apart at the same places as the sentence.
  induction h generalizing others with
  | number x =>
      rw [eq_singleton_of_map_folded_eq ho rfl]
      exact .number x
  | text s =>
      rw [eq_singleton_of_map_folded_eq ho rfl]
      exact .text s
  | boolean b =>
      rw [eq_singleton_of_map_folded_eq ho rfl]
      exact .boolean b
  | error e =>
      rw [eq_singleton_of_map_folded_eq ho rfl]
      exact .error e
  | cell h =>
      obtain ⟨u, rfl, hu⟩ := List.map_eq_singleton_iff.1 ho
      obtain ⟨r, rfl, hr⟩ := exists_cell_of_folded_eq hu
      exact .cell (Address.ofA1_of_map_toUpper_eq h hr)
  | range ha hb =>
      obtain ⟨u, tail, rfl, hu, htail⟩ := List.map_eq_cons_iff.1 ho
      obtain ⟨r, rfl, hr⟩ := exists_cell_of_folded_eq hu
      obtain ⟨last, rfl, hlast⟩ := exists_tail_of_map_folded_eq htail rfl
      obtain ⟨v, rfl, hv⟩ := List.map_eq_singleton_iff.1 hlast
      obtain ⟨q, rfl, hq⟩ := exists_cell_of_folded_eq hv
      exact .range (Address.ofA1_of_map_toUpper_eq ha hr) (Address.ofA1_of_map_toUpper_eq hb hq)
  | paren _ ih =>
      obtain ⟨tail, rfl, htail⟩ := exists_tail_of_map_folded_eq ho rfl
      obtain ⟨inner, rfl, hinner⟩ := exists_init_of_map_folded_eq htail rfl
      exact .paren (ih hinner)
  | call name _ ih =>
      obtain ⟨u, _, rfl, hu, hcall⟩ := List.map_eq_cons_iff.1 ho
      obtain ⟨r, rfl, hr⟩ := exists_name_of_folded_eq hu
      obtain ⟨tail, rfl, htail⟩ := exists_tail_of_map_folded_eq hcall rfl
      obtain ⟨inner, rfl, hinner⟩ := exists_init_of_map_folded_eq htail rfl
      obtain ⟨cased, rfl, hexpr, hcased⟩ :=
        exists_arguments (fun a ha others hothers => ih a ha hothers) hinner
      have hcapitals : Text.capitals name.toList = Text.capitals r.toList := by
        calc
          Text.capitals name.toList = Text.capitals (name.toList.map Char.toUpper) :=
            (Text.capitals_map_toUpper _).symm
          _ = Text.capitals (r.toList.map Char.toUpper) := by rw [hr]
          _ = Text.capitals r.toList := Text.capitals_map_toUpper _
      rw [Text.toCapitals, hcapitals, ← Text.toCapitals, ← hexpr]
      exact .call r hcased
  | percent hlevel _ ih =>
      obtain ⟨init, rfl, hinit⟩ := exists_init_of_map_folded_eq ho rfl
      exact .percent hlevel (ih hinit)
  | negate hlevel _ ih =>
      obtain ⟨tail, rfl, htail⟩ := exists_tail_of_map_folded_eq ho rfl
      exact .negate hlevel (ih htail)
  | plus hlevel _ ih =>
      obtain ⟨tail, rfl, htail⟩ := exists_tail_of_map_folded_eq ho rfl
      exact .plus hlevel (ih htail)
  | binary op hl hr _ _ ihl ihr =>
      have hop : op.token.hasWord = false := by
        cases op <;> rfl
      obtain ⟨front, back, rfl, hfront, hback⟩ := exists_append_of_map_folded_eq ho
      obtain ⟨tail, rfl, htail⟩ := exists_tail_of_map_folded_eq hback hop
      exact .binary op hl hr (ihl hfront) (ihr htail)

end Sentences

namespace Expr

variable {home : Address} {x : Expr} {s t : String}

theorem ofTokens_of_map_folded_eq {tokens others : List Token} (h : ofTokens home tokens = .ok x)
    (ho : others.map Token.folded = tokens.map Token.folded) : ofTokens home others = .ok x := by
  obtain ⟨l, hx⟩ := ofTokens_eq_ok.1 h
  exact ofTokens_eq_ok.2 ⟨l, hx.of_map_folded_eq ho⟩

/-- An equals sign has no other case. -/
theorem exists_of_folded_eq_equals {text rest : List Char}
    (h : Text.folded false text = '=' :: rest) :
    ∃ body, text = '=' :: body ∧ Text.folded false body = rest := by
  cases text with
  | nil => cases h
  | cons c body =>
      obtain ⟨hc, hbody⟩ := List.cons.inj h
      obtain rfl := (Text.toUpper_eq_iff (by decide)).1 hc
      exact ⟨body, rfl, hbody⟩

theorem ofFormula_of_folded_eq (h : ofFormula home s = .ok x)
    (hst : Text.folded false s.toList = Text.folded false t.toList) :
    ofFormula home t = .ok x := by
  unfold ofFormula at h
  split at h
  case h_1 rest hrest =>
    have htrim : Text.folded false (Text.trim t.toList) = '=' :: Text.folded false rest := by
      calc
        Text.folded false (Text.trim t.toList) = Text.trim (Text.folded false t.toList) :=
          (Text.trim_folded _).symm
        _ = Text.trim (Text.folded false s.toList) := by rw [hst]
        _ = Text.folded false (Text.trim s.toList) := Text.trim_folded _
        _ = '=' :: Text.folded false rest := by rw [hrest]; rfl
    obtain ⟨body, hbody, hfolded⟩ := exists_of_folded_eq_equals htrim
    have hscan : (Token.scanAll body).map Token.folded
        = (Token.scanAll rest).map Token.folded := by
      calc
        (Token.scanAll body).map Token.folded = Token.scanAll (Text.folded false body) :=
          (Token.scanAll_folded body).symm
        _ = Token.scanAll (Text.folded false rest) := by rw [hfolded]
        _ = (Token.scanAll rest).map Token.folded := Token.scanAll_folded rest
    rw [ofFormula, hbody]
    exact ofTokens_of_map_folded_eq h hscan
  case h_2 => cases h

end Expr

/-- Two texts that differ in letter case outside their text literals only are the same formula: both
or neither can be read, they stand for the same expression, and with any functions they name the
same cells and ranges and have the same value, whatever is on the sheet. -/
theorem Expr.ofFormula_casing {s t : String}
    (h : Text.folded false s.toList = Text.folded false t.toList) (home : Address) :
    (∀ x, ofFormula home s = .ok x ↔ ofFormula home t = .ok x)
      ∧ ∀ x y, ofFormula home s = .ok x → ofFormula home t = .ok y →
        ∀ functions : Registry,
          x.dependencies functions.shapeOnly home = y.dependencies functions.shapeOnly home
            ∧ x.evaluate functions home = y.evaluate functions home := by
  constructor
  · intro x
    constructor
    · exact fun hs => ofFormula_of_folded_eq hs h
    · exact fun ht => ofFormula_of_folded_eq ht h.symm
  · intro x y hs ht functions
    have hsame := ofFormula_of_folded_eq hs h
    rw [ht] at hsame
    cases hsame
    exact ⟨rfl, rfl⟩

/-- A call, a range, a text literal, an error literal, a boolean and an exponent. -/
theorem Expr.ofFormula_casing_joined :
    Text.folded false "=sum(a1:$b$2)&\"aB\"&#n/a&true&1e3".toList
        = Text.folded false "=Sum(A1:$B$2)&\"aB\"&#N/A&True&1E3".toList
      ∧ ofFormula ⟨0, 2, 2⟩ "=Sum(A1:$B$2)&\"aB\"&#N/A&True&1E3" =
        .ok (.binary .concat
          (.binary .concat
            (.binary .concat
              (.binary .concat (.call "SUM" [.range ⟨⟨-2, -2⟩, ⟨-1, -1⟩⟩]) (.text "aB"))
              (.error .notAvailable))
            (.boolean true))
          (.number (Decimal.nearest 1 3))) := by
  have h : Text.folded false "=sum(a1:$b$2)&\"aB\"&#n/a&true&1e3".toList
      = Text.folded false "=Sum(A1:$B$2)&\"aB\"&#N/A&True&1E3".toList := by decide +kernel
  exact ⟨h, ((ofFormula_casing h ⟨0, 2, 2⟩).1 _).1 rfl⟩

end Recalc
