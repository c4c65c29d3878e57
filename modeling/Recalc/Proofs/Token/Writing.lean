import Mathlib.Data.List.Chain
import Recalc.Proofs.Token.Spelling

/-!
# Written formulas

Tokens are written one after the other with a gap of blanks between them; only a name has its
parenthesis at once behind it. Where no token runs into the next one, the text is scanned as these
tokens.
-/

namespace Recalc.Token

open Text

/-- What stands behind a token that is not the last one. -/
def separator (gap : List Char) : Token → List Char
  | name _ => []
  | _ => gap

@[simp] theorem separator_nil (t : Token) : separator [] t = [] := by
  cases t <;> rfl

/-- The ways to write tokens with a gap between them. -/
inductive Written (gap : List Char) : List Token → List Char → Prop
  | one {t : Token} {w : List Char} (h : t.Spells w) : Written gap [t] w
  | cons {t next : Token} {tokens : List Token} {w text : List Char} (h : t.Spells w)
      (hrest : Written gap (next :: tokens) text) :
      Written gap (t :: next :: tokens) (w ++ (separator gap t ++ text))

/-- Whether a token ends where another is written behind it. -/
def Apart (gap : List Char) (t next : Token) : Prop :=
  ∀ w, next.Spells w → t.endsBefore (separator gap t ++ w).head? = true

section Spellings

variable {t : Token} {w : List Char}

theorem eq_of_spells_symbol {c : Char} (h : symbol? c = some t) (hw : t.Spells w) : w = [c] := by
  have ht := mem_symbols h
  cases hw with
  | symbol h' =>
      have hall : ∀ p ∈ symbols, ∀ q ∈ symbols, p.2 = q.2 → p.1 = q.1 := by decide
      exact congrArg (fun c => [c]) (hall _ (mem_symbols h') _ ht rfl)
  | _ => simp [symbols] at ht

theorem eq_of_spells_error {e : ErrorKind} (h : Spells (.error e) w) : w = e.spelling.toList := by
  cases h with
  | error => rfl
  | symbol h => simpa [symbols] using mem_symbols h

theorem IsName.ne_nil (h : IsName w) : w ≠ [] := by
  cases h <;> simp

theorem Spells.ne_nil (h : t.Spells w) : w ≠ [] := by
  cases h with
  | number h _ =>
      rintro rfl
      simpa [startsNumeral] using startsNumeral_append h []
  | boolean b => cases b <;> decide
  | error e => cases e <;> decide
  | name h => exact h.ne_nil
  | cell h =>
      obtain ⟨c, more, hw, -⟩ := startsWord_of_isCellWord h
      simp [hw]
  | _ => simp

/-- No spelling ends with a blank. -/
theorem Spells.stops_reverse (h : t.Spells w) : Stops isBlank w.reverse := by
  have hword : (∀ c ∈ w, isBlank c = false) → Stops isBlank w.reverse :=
    fun h c hc => h c (List.mem_reverse.1 (List.mem_of_mem_head? hc))
  cases h with
  | number h _ => exact hword (isBlank_of_mem_numeral h)
  | text s =>
      rw [List.reverse_cons, List.reverse_append]
      exact stops_cons.2 (by decide)
  | boolean b => cases b <;> exact stops_cons.2 rfl
  | error e => cases e <;> exact stops_cons.2 rfl
  | name h => exact hword fun c hc => isBlank_of_isNameChar (h.isNameChar c hc)
  | cell h =>
      exact hword fun c hc =>
        isBlank_of_isNameChar (isNameChar_of_isWordChar (isWordChar_of_isCellWord h c hc))
  | symbol h => exact stops_cons.2 (isBlank_of_symbol? h)
  | _ => exact stops_cons.2 rfl

end Spellings

section Written

variable {gap text lead : List Char} {tokens : List Token} {t : Token}

theorem scan?_lead (hlead : ∀ c ∈ lead, isBlank c = true) (s : List Char) :
    scan? (lead ++ s) = scan? s := by
  rw [scan?, scan?, trimStart, trimStart, List.dropWhile_append_of_pos hlead]

theorem scanUpTo_nil (limit : Nat) : scanUpTo limit [] = [] := by
  cases limit <;> rfl

theorem isBlank_of_mem_separator (hgap : ∀ c ∈ gap, isBlank c = true) (t : Token) :
    ∀ c ∈ separator gap t, isBlank c = true := by
  cases t <;> first | exact hgap | exact fun _ hc => nomatch hc

theorem Written.starts (h : Written gap (t :: tokens) text) :
    ∃ w rest, t.Spells w ∧ text = w ++ rest := by
  cases h with
  | one h => exact ⟨_, [], h, by simp⟩
  | cons h _ => exact ⟨_, _, h, rfl⟩

theorem Written.length_le (h : Written gap tokens text) : tokens.length ≤ text.length := by
  induction h with
  | one h => exact List.length_pos_iff.2 h.ne_nil
  | cons h _ ih =>
      have := List.length_pos_iff.2 h.ne_nil
      simp only [List.length_cons, List.length_append] at *
      omega

theorem Written.stops_reverse (h : Written gap tokens text) (more : List Char) :
    Stops isBlank (more ++ text).reverse := by
  induction h generalizing more with
  | one h =>
      rw [List.reverse_append]
      exact h.stops_reverse.append (by simpa using h.ne_nil) _
  | cons h hrest ih =>
      rw [← List.append_assoc, ← List.append_assoc]
      exact ih _

theorem Apart.endsBefore {next : Token} (h : Apart gap t next)
    (hrest : Written gap (next :: tokens) text) :
    t.endsBefore (separator gap t ++ text).head? = true := by
  obtain ⟨w, rest, hw, rfl⟩ := hrest.starts
  rw [← List.append_assoc, List.head?_append_of_ne_nil _ (by simp [hw.ne_nil])]
  exact h w hw

/-- Written tokens are scanned again, whatever blanks stand before them. -/
theorem scanUpTo_written (hgap : ∀ c ∈ gap, isBlank c = true) (h : Written gap tokens text)
    (hapart : tokens.IsChain (Apart gap)) (hlast : ∀ t ∈ tokens.getLast?, t.endsBefore none = true)
    (hlead : ∀ c ∈ lead, isBlank c = true) {limit : Nat} (hlimit : tokens.length ≤ limit) :
    scanUpTo limit (lead ++ text) = tokens := by
  induction h generalizing lead limit with
  | @one t w h =>
      obtain ⟨limit, rfl⟩ : ∃ n, limit = n + 1 := ⟨limit - 1, by simp at hlimit; omega⟩
      have hscan : scan? (w ++ []) = some (t, []) := scan?_append h (by simpa using hlast)
      rw [List.append_nil] at hscan
      rw [scanUpTo, scan?_lead hlead, hscan]
      simp only [scanUpTo_nil]
  | @cons t next tokens w text h hrest ih =>
      obtain ⟨limit, rfl⟩ : ∃ n, limit = n + 1 := ⟨limit - 1, by simp at hlimit; omega⟩
      obtain ⟨hnext, hapart⟩ := List.isChain_cons_cons.1 hapart
      rw [scanUpTo, scan?_lead hlead, scan?_append h (hnext.endsBefore hrest)]
      simp only [List.cons.injEq, true_and]
      -- The gap behind this token leads to the next one.
      exact ih hapart (by simpa using hlast) (isBlank_of_mem_separator hgap t)
        (by simpa using hlimit)

theorem exists_written (gap : List Char) (hne : tokens ≠ []) (h : ∀ t ∈ tokens, t.IsSpelled) :
    ∃ text, Written gap tokens text := by
  induction tokens with
  | nil => exact absurd rfl hne
  | cons t tokens ih =>
      obtain ⟨⟨w, hw⟩, htokens⟩ := List.forall_mem_cons.1 h
      cases tokens with
      | nil => exact ⟨w, .one hw⟩
      | cons next tokens =>
          obtain ⟨text, htext⟩ := ih (List.cons_ne_nil _ _) htokens
          exact ⟨_, .cons hw htext⟩

end Written

/-! ## Names before parentheses -/

/-- Whether a token is a name. -/
def isName : Token → Bool
  | name _ => true
  | _ => false

/-- Whether each name has a parenthesis behind it. -/
def NamesCalled (tokens : List Token) : Prop :=
  tokens.IsChain (fun t next => t.isName = true → next = .leftParen)
    ∧ ∀ t ∈ tokens.getLast?, t.isName = false

namespace NamesCalled

variable {t : Token} {tokens more : List Token}

theorem nil : NamesCalled [] := by simp [NamesCalled]

theorem singleton (ht : t.isName = false) : NamesCalled [t] := by simp [NamesCalled, ht]

theorem append (h : NamesCalled tokens) (hmore : NamesCalled more) :
    NamesCalled (tokens ++ more) := by
  refine ⟨List.isChain_append.2 ⟨h.1, hmore.1, fun t ht next _ hname => ?_⟩, fun t ht => ?_⟩
  · exact absurd hname (by simp [h.2 t ht])
  · rw [List.getLast?_append, Option.mem_def, Option.or_eq_some_iff] at ht
    rcases ht with ht | ⟨-, ht⟩
    · exact hmore.2 t ht
    · exact h.2 t ht

theorem cons (ht : t.isName = false) (h : NamesCalled tokens) : NamesCalled (t :: tokens) :=
  (singleton ht).append h

theorem call (s : String) (h : NamesCalled (.leftParen :: tokens)) :
    NamesCalled (.name s :: .leftParen :: tokens) :=
  ⟨List.isChain_cons_cons.2 ⟨fun _ => rfl, h.1⟩, by simpa using h.2⟩

theorem flatMap {all : List (List Token)} (ht : t.isName = false)
    (h : ∀ tokens ∈ all, NamesCalled tokens) : NamesCalled (all.flatMap (t :: ·)) := by
  induction all with
  | nil => exact nil
  | cons tokens all ih =>
      obtain ⟨htokens, hall⟩ := List.forall_mem_cons.1 h
      exact (cons ht htokens).append (ih hall)

/-- Tokens with blanks between them do not run into each other. -/
theorem apart (h : NamesCalled tokens) : tokens.IsChain (Apart [' ']) := by
  refine h.1.imp fun t next hnext w hw => ?_
  cases t with
  | name s =>
      cases hnext rfl
      rw [eq_of_spells_symbol (c := '(') rfl hw]
      rfl
  | _ => rfl

theorem ends (h : NamesCalled tokens) : ∀ t ∈ tokens.getLast?, t.endsBefore none = true := by
  intro t ht
  have hname := h.2 t ht
  cases t <;> first | rfl | cases hname

end NamesCalled

end Recalc.Token
