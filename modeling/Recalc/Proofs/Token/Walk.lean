import Recalc.Proofs.Text.Walk
import Recalc.Proofs.Token.Progress

/-!
# Scanning as a walk

A scan walks through a text that is held as bytes: it sees the characters in front of it, passes
them one by one, and takes out the words that it has passed. It comes to the token that is at the
front, and stops where the text behind the token starts.
-/

namespace Recalc.Token

open Text Walk

/-! ## How a token is passed -/

/-- Pass a text literal behind its opening quote. -/
def passBody : Nat → Walk (List Char)
  | 0 => nothing
  | limit + 1 => do
      match ← ahead with
      | [] => return []
      | c :: back =>
          step
          if c = '"' then
            if back.head? = some '"' then
              step
              let body ← passBody limit
              return '"' :: body
            else return []
          else
            let body ← passBody limit
            return c :: body

/-- Pass a point and the digits behind it, if there is a point. -/
def passFraction (limit : Nat) : Walk Unit := do
  if (← ahead).head? = some '.' then
    step
    stepWhile Char.isDigit limit

/-- Pass an exponent with its mark and sign, if there is a mark. -/
def passPower (limit : Nat) : Walk Unit := do
  if (← ahead).head?.any fun c => c = 'e' || c = 'E' then
    step
    stepIf fun c => c = '+' || c = '-'
    stepWhile Char.isDigit limit

def passNumeral (limit : Nat) : Walk Unit := do
  stepWhile Char.isDigit limit
  passFraction limit
  passPower limit

/-- Pass a character that makes another token, if it is next. -/
def passOr (d : Char) (longer : Token) (w : Walk Token) : Walk Token := do
  if (← ahead).head? = some d then
    step
    return longer
  else w

/-- Pass the token that starts with `c`. -/
def passFrom (limit : Nat) (c : Char) (back : List Char) : Walk Token :=
  match symbol? c with
  | some token => do step; return token
  | none =>
      if c = '<' then do
        step
        passOr '=' lessEqual (passOr '>' notEqual (return lessThan))
      else if c = '>' then do
        step
        passOr '=' greaterEqual (return greaterThan)
      else if c = '"' then do
        step
        let body ← passBody limit
        return text (String.ofList body)
      else if startsNumeral (c :: back) then do
        let span ← passing (passNumeral limit)
        return ofNumeral c span
      else if c = '#' then do
        let word ← passing do step; stepWhile isErrorChar limit
        return ofErrorWord word
      else if c.isAlpha || c = '_' || c = '$' then do
        let word ← passing (stepWhile isWordChar limit)
        return ofWord ((← ahead).head? == some '(') word
      else do step; return invalid c

/-- Pass blanks and the next token. There is none at the end. -/
def pass (limit : Nat) : Walk (Option Token) := do
  stepWhile isBlank limit
  match ← ahead with
  | [] => return none
  | c :: back => do
      let token ← passFrom limit c back
      return some token

/-! ## Where a walk leads -/

section Leading

variable {limit : Nat} {front back : List Char} {c : Char}

theorem textBody_quote (h : back.head? ≠ some '"') : textBody ('"' :: back) = ([], back) := by
  rw [textBody]
  rintro rest rfl
  exact h rfl

theorem textBody_cons (h : c ≠ '"') :
    textBody (c :: back) = (c :: (textBody back).1, (textBody back).2) := by
  rw [textBody]
  · exact fun _ hc _ => h hc
  · exact h

theorem leads_passBody (h : front.length < limit) :
    Leads (passBody limit) front (textBody front) := by
  induction limit generalizing front with
  | zero => exact absurd h (Nat.not_lt_zero _)
  | succ limit ih =>
      refine .ahead_bind ?_
      cases front with
      | nil => exact leads_pure _ _
      | cons c back =>
          rw [List.length_cons] at h
          refine (leads_step c back).bind ?_
          by_cases hc : c = '"'
          · subst hc
            rw [if_pos rfl]
            by_cases hquote : back.head? = some '"'
            · obtain ⟨more, rfl⟩ := List.head?_eq_some_iff.mp hquote
              rw [List.length_cons] at h
              rw [if_pos hquote]
              exact (leads_step _ _).bind ((ih (by omega)).bind (leads_pure _ _))
            · rw [if_neg hquote, textBody_quote hquote]
              exact leads_pure _ _
          · rw [if_neg hc, textBody_cons hc]
            exact (ih (by omega)).bind (leads_pure _ _)

theorem leads_passFraction (h : front.length < limit) :
    Leads (passFraction limit) front ((), (fractionSpan front).2) := by
  refine .ahead_bind ?_
  split
  case isTrue hpoint =>
    obtain ⟨back, rfl⟩ := List.head?_eq_some_iff.mp hpoint
    exact (leads_step _ _).bind (leads_stepWhile ((Nat.lt_succ_self _).trans h))
  case isFalse hpoint =>
    rw [fractionSpan]
    · exact leads_pure _ _
    · rintro back rfl
      exact hpoint rfl

theorem leads_passPower (h : front.length < limit) :
    Leads (passPower limit) front ((), (powerSpan front).2) := by
  refine .ahead_bind ?_
  cases front with
  | nil => exact leads_pure _ _
  | cons c back =>
      simp only [List.head?_cons, Option.any_some, powerSpan, decide_eq_true_eq, Bool.or_eq_true]
      split
      case isFalse => exact leads_pure _ _
      case isTrue =>
        refine (leads_step c back).bind ((leads_stepIf _ back).bind ?_)
        cases back with
        | nil => exact leads_stepWhile ((Nat.succ_pos _).trans h)
        | cons sign digits =>
            simp only [List.head?_cons, Option.any_some, decide_eq_true_eq, Bool.or_eq_true,
              List.tail_cons]
            simp only [List.length_cons] at h
            split
            · exact leads_stepWhile (by omega)
            · exact leads_stepWhile (by rw [List.length_cons]; omega)

theorem leads_passNumeral (h : front.length < limit) :
    Leads (passNumeral limit) front ((), (numeralSpan front).2) := by
  have hdigits : (front.dropWhile Char.isDigit).length ≤ front.length :=
    (List.dropWhile_suffix _).length_le
  have hfraction : (fractionSpan (front.dropWhile Char.isDigit)).2.length
      ≤ (front.dropWhile Char.isDigit).length :=
    List.IsSuffix.length_le ⟨_, fractionSpan_join _⟩
  exact (leads_stepWhile h).bind ((leads_passFraction (hdigits.trans_lt h)).bind
    (leads_passPower ((hfraction.trans hdigits).trans_lt h)))

theorem leads_passOr {d : Char} {longer : Token} {w : Walk Token} {found : Token × List Char}
    (hnext : ∀ more, front = d :: more → found = (longer, more))
    (h : front.head? ≠ some d → Leads w front found) : Leads (passOr d longer w) front found := by
  refine .ahead_bind ?_
  split
  case isTrue hd =>
    obtain ⟨more, rfl⟩ := List.head?_eq_some_iff.mp hd
    rw [hnext more rfl]
    exact (leads_step d more).bind (leads_pure _ _)
  case isFalse hd => exact h hd

theorem leads_passFrom (h : (c :: back).length < limit) :
    Leads (passFrom limit c back) (c :: back) (scanFrom c back) := by
  have hback : back.length < limit := (Nat.lt_succ_self _).trans h
  cases hsymbol : symbol? c with
  | some token =>
      simp only [passFrom, scanFrom, hsymbol]
      exact (leads_step c back).bind (leads_pure _ _)
  | none =>
      -- The walk and the scan branch on the same tests, and so are taken branch by branch.
      simp only [passFrom, scanFrom, hsymbol]
      refine .ite (fun _ => (leads_step c back).bind ?less) fun _ =>
        .ite (fun _ => (leads_step c back).bind ?greater) fun _ =>
        .ite (fun _ => (leads_step c back).bind ((leads_passBody hback).bind (leads_pure _ _)))
          fun _ => .ite (fun _ => ?numeral) fun _ => .ite (fun _ => ?hash) fun _ =>
        .ite (fun hword => ?word) fun _ => (leads_step c back).bind (leads_pure _ _)
      case less =>
        refine leads_passOr (by rintro _ rfl; rfl) fun hequal => leads_passOr (by rintro _ rfl; rfl)
          fun hgreater => ?_
        split
        · exact absurd rfl hequal
        · exact absurd rfl hgreater
        · exact leads_pure _ _
      case greater =>
        refine leads_passOr (by rintro _ rfl; rfl) fun hequal => ?_
        split
        · exact absurd rfl hequal
        · exact leads_pure _ _
      case numeral =>
        exact ((leads_passNumeral h).passing (numeralSpan_join _)).bind (leads_pure _ _)
      case hash =>
        have hpass : Leads (do step; stepWhile isErrorChar limit) (c :: back)
            ((), back.dropWhile isErrorChar) := (leads_step c back).bind (leads_stepWhile hback)
        exact (hpass.passing (congrArg (c :: ·) List.takeWhile_append_dropWhile)).bind
          (leads_pure _ _)
      case word =>
        have hstart : isWordChar c = true := isWordChar_of_startsWord hword
        have hpass := leads_stepWhile (p := isWordChar) h
        rw [List.dropWhile_cons_of_pos hstart] at hpass
        exact (hpass.passing (congrArg (c :: ·) List.takeWhile_append_dropWhile)).bind
          (.ahead_bind (leads_pure _ _))

theorem leads_pass (h : front.length < limit) :
    Leads (pass limit) front ((scan? front).map Prod.fst, (scan? front).elim [] Prod.snd) := by
  refine (leads_stepWhile h).bind (.ahead_bind ?_)
  have hlength : (front.dropWhile isBlank).length < limit :=
    (List.dropWhile_suffix _).length_le.trans_lt h
  rw [scan?, trimStart]
  cases hfront : front.dropWhile isBlank with
  | nil => exact leads_pure _ _
  | cons c back => exact (leads_passFrom (hfront ▸ hlength)).bind (leads_pure _ _)

/-- A scan leads from a position of a text to another, past at least one character if it finds a
token and to the end if it finds none. -/
theorem exists_pass {text : String} {pos : String.Pos.Raw} (hlimit : front.length < limit)
    (h : behind? text pos = some front) :
    ∃ next passed back, pass limit text pos = some (next, pos + String.ofList passed)
      ∧ front = passed ++ back ∧ scan? front = next.map (·, back)
      ∧ (next ≠ none → passed ≠ []) ∧ (next = none → back = []) := by
  obtain ⟨passed, hfront, hpass⟩ := leads_pass hlimit
  refine ⟨_, passed, _, hpass text pos h, hfront, ?_⟩
  cases hscan : scan? front with
  | none => exact ⟨rfl, fun hne => absurd rfl hne, fun _ => rfl⟩
  | some found =>
      refine ⟨rfl, fun _ hnil => ?_, nofun⟩
      rw [hscan, hnil] at hfront
      exact (length_lt_of_scan? hscan).ne (congrArg List.length hfront).symm

end Leading

end Recalc.Token
