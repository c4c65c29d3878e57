import Recalc.Proofs.Expr.Reading

/-!
# Reading comes to what parsing does

In front of some tokens, reading them one by one comes to the same value or the same error as
parsing the list of them, and leaves the same of them. So reading a formula comes to an end, having
scanned no more often than the formula has characters.
-/

namespace Recalc

namespace Reader.Action

variable {α β : Type} {tokens rest : List Token}

/-- Reading in front of some tokens comes to what parsing them does, and leaves the same of them. -/
def Follows (p : Action α) (tokens : List Token) (parsed : Except ParseError (α × List Token)) :
    Prop :=
  ∀ r, r.Before tokens → ∃ r' left, p.outcome? r = some (parsed.map Prod.fst, r')
    ∧ r.Passes tokens r' left ∧ ∀ x rest, parsed = .ok (x, rest) → left = rest

section Steps

theorem outcome?_bind (p : Action α) (f : α → Action β) (r : Reader) :
    (p >>= f).outcome? r = (p.outcome? r).bind fun found =>
      match found.1 with
      | .ok x => (f x).outcome? found.2
      | .error e => some (.error e, found.2) := by
  rw [outcome?, ExceptT.run_bind, StateT.run_bind, outcome?]
  cases StateT.run (ExceptT.run p) r with
  | none => rfl
  | some found => obtain ⟨_ | _, _⟩ := found <;> rfl

theorem follows_pure (x : α) (tokens : List Token) :
    Follows (pure x) tokens (.ok (x, tokens)) := fun r h =>
  ⟨r, tokens, rfl, .refl h, fun _ _ heq => (Prod.mk.inj (Except.ok.inj heq)).2⟩

theorem follows_throw (e : ParseError) (tokens : List Token) :
    Follows (throw e : Action α) tokens (.error e) := fun r h =>
  ⟨r, tokens, rfl, .refl h, nofun⟩

theorem Follows.bind {p : Action α} {f : α → Action β}
    {parsed : Except ParseError (α × List Token)}
    {g : α × List Token → Except ParseError (β × List Token)} (h : Follows p tokens parsed)
    (hf : ∀ x rest, rest.length ≤ tokens.length → Follows (f x) rest (g (x, rest))) :
    Follows (p >>= f) tokens (parsed >>= g) := by
  intro r hr
  obtain ⟨r', left, hp, passes, hleft⟩ := h r hr
  rw [outcome?_bind, hp]
  cases parsed with
  | error e => exact ⟨r', left, rfl, passes, nofun⟩
  | ok found =>
      obtain ⟨x, rest⟩ := found
      obtain rfl := hleft x rest rfl
      obtain ⟨r'', left', hf', passes', hleft'⟩ := hf x left passes.length_le r' passes.before
      exact ⟨r'', left', hf', passes.trans passes', hleft'⟩

theorem Follows.peek_bind {f : Option Token → Action β}
    {parsed : Except ParseError (β × List Token)} (h : Follows (f tokens.head?) tokens parsed) :
    Follows (peek >>= f) tokens parsed := by
  intro r hr
  have hnext : (peek >>= f).outcome? r = (f r.next).outcome? r := rfl
  rw [hnext, hr.next_eq]
  exact h r hr

theorem follows_take (t : Token) (rest : List Token) :
    Follows take (t :: rest) (.ok ((), rest)) := by
  intro r hr
  obtain ⟨r', hr', passes⟩ := hr.exists_advance
  have htake : take.outcome? r = r.advance.map (.ok (), ·) := rfl
  exact ⟨r', rest, by rw [htake, hr']; rfl, passes, fun _ _ heq =>
    (Prod.mk.inj (Except.ok.inj heq)).2⟩

/-- What follows a token that is taken may rely on fewer tokens. -/
theorem Follows.take_bind {t : Token} {f : Unit → Action β}
    {parsed : Except ParseError (β × List Token)} (h : Follows (f ()) rest parsed) :
    Follows (take >>= f) (t :: rest) parsed := by
  intro r hr
  obtain ⟨r', left, htake, passes, hleft⟩ := follows_take t rest r hr
  obtain rfl := hleft () rest rfl
  obtain ⟨r'', left', hf, passes', hleft'⟩ := h r' passes.before
  exact ⟨r'', left', by rw [outcome?_bind, htake]; exact hf, passes.trans passes', hleft'⟩

/-- Expecting the token that is next is taking it. -/
theorem Follows.expect_head_bind {t : Token} {f : Unit → Action β}
    {parsed : Except ParseError (β × List Token)} (h : Follows (f ()) rest parsed) :
    Follows (expect t >>= f) (t :: rest) parsed := by
  intro r hr
  have hexpect : (expect t).outcome? r
      = (if r.next = some t then take else throw (.expected t r.next)).outcome? r := rfl
  rw [hr.next_eq, if_pos List.head?_cons] at hexpect
  rw [outcome?_bind, hexpect, ← outcome?_bind]
  exact h.take_bind r hr

theorem Follows.expect_bind {token : Token} {f : Unit → Action β}
    {g : List Token → Except ParseError (β × List Token)}
    (h : ∀ rest, rest.length ≤ tokens.length → Follows (f ()) rest (g rest)) :
    Follows (expect token >>= f) tokens (Parser.expect token tokens >>= g) := by
  have hexpect : Follows (expect token) tokens ((Parser.expect token tokens).map ((), ·)) := by
    refine .peek_bind ?_
    cases tokens with
    | nil => exact follows_throw _ _
    | cons next rest =>
        rw [Parser.expect, List.head?_cons]
        by_cases hnext : next = token
        · rw [if_pos hnext, if_pos (congrArg some hnext)]
          exact follows_take _ _
        · rw [if_neg hnext, if_neg (fun heq => hnext (Option.some.inj heq))]
          exact follows_throw _ _
  have hbind := hexpect.bind (g := fun (_, rest) => g rest) fun _ rest hle => h rest hle
  cases hparsed : Parser.expect token tokens <;> rwa [hparsed] at hbind

end Steps

/-! ## Each level -/

/-- Reading follows a parser in front of up to `n` tokens. -/
def FollowsUpTo (n : Nat) (p : Action α)
    (parser : List Token → Except ParseError (α × List Token)) : Prop :=
  ∀ tokens, tokens.length ≤ n → Follows p tokens (parser tokens)

section Levels

variable {operand nested : Action Expr} {operand' nested' : Parser} {n limit limit' : Nat}

theorem chainFrom_follows (operator? : Token → Option BinaryOp)
    (h : FollowsUpTo n operand operand') (left : Expr) (hn : tokens.length ≤ n)
    (hlimit : tokens.length < limit) (hlimit' : tokens.length ≤ limit') :
    Follows (chainFrom operator? operand limit left) tokens
      (Parser.chainFrom operator? operand' limit' left tokens) := by
  induction limit generalizing tokens left limit' with
  | zero => exact absurd hlimit (Nat.not_lt_zero _)
  | succ limit ih =>
      rw [chainFrom]
      apply Follows.peek_bind
      cases tokens with
      | nil => cases limit' <;> exact follows_pure _ _
      | cons t rest =>
          obtain ⟨limit', rfl⟩ := Nat.exists_eq_add_one.mpr ((Nat.succ_pos _).trans_le hlimit')
          rw [Parser.chainFrom, List.head?_cons, Option.bind_some]
          cases operator? t with
          | none => exact follows_pure _ _
          | some op =>
              simp only [List.length_cons] at hn hlimit hlimit'
              refine .take_bind (.bind (h rest (by omega)) fun right rest' hle => ?_)
              exact ih _ (by omega) (by omega) (by omega)

theorem chain_follows (operator? : Token → Option BinaryOp) (h : FollowsUpTo n operand operand')
    (hlimit : n < limit) (hlimit' : n ≤ limit') :
    FollowsUpTo n (chain operator? limit operand) (Parser.chain operator? limit' operand') :=
  fun tokens hn => .bind (h tokens hn) fun left _ hle =>
    chainFrom_follows operator? h left (hle.trans hn) ((hle.trans hn).trans_lt hlimit)
      ((hle.trans hn).trans hlimit')

theorem powers_follows (h : FollowsUpTo n operand operand') (hn : tokens.length ≤ n)
    (hlimit : tokens.length < limit) (hlimit' : tokens.length ≤ limit') :
    Follows (powers operand limit) tokens (Parser.powers operand' limit' tokens) := by
  induction limit generalizing tokens limit' with
  | zero => exact absurd hlimit (Nat.not_lt_zero _)
  | succ limit ih =>
      cases limit' with
      | zero =>
          -- Where no tokens are left the parser does not look for a power sign.
          rw [powers, Parser.powers, ← bind_pure (operand' tokens)]
          refine .bind (h tokens hn) fun left rest hle => .peek_bind ?_
          rw [List.length_eq_zero_iff.mp (Nat.le_zero.mp (hle.trans hlimit'))]
          exact follows_pure _ _
      | succ limit' =>
          rw [powers, Parser.powers]
          refine .bind (h tokens hn) fun left rest hle => .peek_bind ?_
          split
          case isTrue hcaret =>
            obtain ⟨rest, rfl⟩ := List.head?_eq_some_iff.mp hcaret
            rw [List.length_cons] at hle
            exact .take_bind (.bind (ih (by omega) (by omega) (by omega)) fun _ _ _ =>
              follows_pure _ _)
          case isFalse hcaret =>
            dsimp only
            split
            · exact absurd rfl hcaret
            · exact follows_pure _ _

theorem percents_follows (x : Expr) (hlimit : tokens.length < limit) :
    Follows (percents limit x) tokens (.ok (Parser.percents x tokens)) := by
  induction limit generalizing tokens x with
  | zero => exact absurd hlimit (Nat.not_lt_zero _)
  | succ limit ih =>
      refine .peek_bind ?_
      split
      case isTrue hpercent =>
        obtain ⟨rest, rfl⟩ := List.head?_eq_some_iff.mp hpercent
        exact .take_bind (ih _ (Nat.lt_of_succ_lt_succ hlimit))
      case isFalse hpercent =>
        rw [Parser.percents]
        · exact follows_pure _ _
        · rintro rest rfl
          exact hpercent rfl

theorem signed_follows (h : FollowsUpTo n operand operand') (hn : tokens.length ≤ n)
    (hlimit : tokens.length < limit) :
    Follows (signed operand limit) tokens (Parser.signed operand' tokens) := by
  induction limit generalizing tokens with
  | zero => exact absurd hlimit (Nat.not_lt_zero _)
  | succ limit ih =>
      refine .peek_bind ?_
      split
      case isTrue hminus =>
        obtain ⟨rest, rfl⟩ := List.head?_eq_some_iff.mp hminus
        rw [List.length_cons] at hn hlimit
        exact .take_bind (.bind (ih (by omega) (by omega)) fun _ _ _ => follows_pure _ _)
      case isFalse hminus =>
        refine .peek_bind ?_
        split
        case isTrue hplus =>
          obtain ⟨rest, rfl⟩ := List.head?_eq_some_iff.mp hplus
          rw [List.length_cons] at hn hlimit
          exact .take_bind (ih (by omega) (by omega))
        case isFalse hplus =>
          rw [Parser.signed]
          · exact .bind (h tokens hn) fun x rest hle => percents_follows x (hle.trans_lt hlimit)
          · rintro rest rfl
            exact hminus rfl
          · rintro rest rfl
            exact hplus rfl

theorem ranged_follows (h : FollowsUpTo n operand operand') :
    FollowsUpTo n (ranged operand) (Parser.ranged operand') := by
  intro tokens hn
  refine .bind (h tokens hn) fun first rest hle => .peek_bind ?_
  split
  case isTrue hcolon =>
    obtain ⟨rest, rfl⟩ := List.head?_eq_some_iff.mp hcolon
    rw [List.length_cons] at hle
    refine .take_bind (.bind (h rest (by omega)) fun second rest' _ => ?_)
    cases first
    case cell a =>
      cases second
      case cell b => exact follows_pure _ _
      all_goals exact follows_throw _ _
    all_goals exact follows_throw _ _
  case isFalse hcolon =>
    dsimp only
    split
    · exact absurd rfl hcolon
    · exact follows_pure _ _

theorem argumentsFrom_follows (h : FollowsUpTo n nested nested') (hn : tokens.length ≤ n)
    (hlimit : tokens.length < limit) (hlimit' : tokens.length ≤ limit') :
    Follows (argumentsFrom nested limit) tokens (Parser.argumentsFrom nested' limit' tokens) := by
  induction limit generalizing tokens limit' with
  | zero => exact absurd hlimit (Nat.not_lt_zero _)
  | succ limit ih =>
      refine .peek_bind ?_
      split
      case isTrue hcomma =>
        obtain ⟨rest, rfl⟩ := List.head?_eq_some_iff.mp hcomma
        obtain ⟨limit', rfl⟩ := Nat.exists_eq_add_one.mpr ((Nat.succ_pos _).trans_le hlimit')
        rw [List.length_cons] at hn hlimit hlimit'
        exact .take_bind (.bind (h rest (by omega)) fun x rest' hle =>
          .bind (ih (by omega) (by omega) (by omega)) fun _ _ _ => follows_pure _ _)
      case isFalse hcomma =>
        cases limit' with
        | zero => exact follows_pure _ _
        | succ limit' =>
            rw [Parser.argumentsFrom]
            · exact follows_pure _ _
            · rintro rest rfl
              exact hcomma rfl

theorem arguments_follows (h : FollowsUpTo n nested nested') (hlimit : n < limit)
    (hlimit' : n ≤ limit') :
    FollowsUpTo n (arguments limit nested) (Parser.arguments limit' nested') := by
  refine fun tokens hn => .peek_bind ?_
  split
  case isTrue hparen =>
    obtain ⟨rest, rfl⟩ := List.head?_eq_some_iff.mp hparen
    exact follows_pure _ _
  case isFalse hparen =>
    rw [Parser.arguments]
    · exact .bind (h tokens hn) fun x rest hle =>
        .bind (argumentsFrom_follows h (hle.trans hn) ((hle.trans hn).trans_lt hlimit)
          ((hle.trans hn).trans hlimit')) fun _ _ _ => follows_pure _ _
    · rintro rest rfl
      exact hparen rfl

theorem primary_follows (home : Address) (h : ∀ m < n, FollowsUpTo m nested nested')
    (hlimit : n ≤ limit) (hlimit' : n ≤ limit') :
    FollowsUpTo n (primary home limit nested) (Parser.primary home limit' nested') := by
  intro tokens hn
  refine .peek_bind ?_
  cases tokens with
  | nil => exact follows_throw _ _
  | cons t rest =>
      -- A nested expression stands behind the token that is taken here.
      rw [List.length_cons] at hn
      cases t
      case number => exact .take_bind (follows_pure _ _)
      case text => exact .take_bind (follows_pure _ _)
      case boolean => exact .take_bind (follows_pure _ _)
      case error => exact .take_bind (follows_pure _ _)
      case cell s =>
        refine .take_bind ?_
        rw [Parser.primary]
        cases Address.ofA1 home.sheet s with
        | ok target => exact follows_pure _ _
        | error cause => exact follows_throw _ _
      case leftParen =>
        exact .take_bind (.bind (h rest.length (by omega) rest le_rfl) fun x rest' _ =>
          .expect_bind fun _ _ => follows_pure _ _)
      case name s =>
        refine .take_bind (.peek_bind ?_)
        split
        case isTrue hparen =>
          obtain ⟨rest, rfl⟩ := List.head?_eq_some_iff.mp hparen
          rw [List.length_cons] at hn
          exact .expect_head_bind (.bind (arguments_follows (h rest.length (by omega)) (by omega)
            (by omega) rest le_rfl) fun _ _ _ => .expect_bind fun _ _ => follows_pure _ _)
        case isFalse hparen =>
          rw [Parser.primary]
          · exact follows_throw _ _
          · rintro rest' rfl
            exact hparen rfl
      all_goals exact follows_throw _ _

theorem operators_follows (h : FollowsUpTo n operand operand') (hlimit : n < limit)
    (hlimit' : n ≤ limit') :
    FollowsUpTo n (operators limit operand) (Parser.operators limit' operand') := by
  have hsigned : FollowsUpTo n (signed (ranged operand) limit)
      (Parser.signed (Parser.ranged operand')) := fun tokens hn =>
    signed_follows (ranged_follows h) hn (hn.trans_lt hlimit)
  have hpowers : FollowsUpTo n (powers (signed (ranged operand) limit) limit)
      (Parser.powers (Parser.signed (Parser.ranged operand')) limit') := fun tokens hn =>
    powers_follows hsigned hn (hn.trans_lt hlimit) (hn.trans hlimit')
  exact chain_follows _ (chain_follows _ (chain_follows _ (chain_follows _ hpowers hlimit hlimit')
    hlimit hlimit') hlimit hlimit') hlimit hlimit'

theorem expression_follows (home : Address) {depth depth' : Nat} (hlimit : n < limit)
    (hlimit' : n ≤ limit') (hdepth : n < depth) (hdepth' : n < depth') :
    FollowsUpTo n (expression home limit depth) (Parser.expression home limit' depth') := by
  induction depth generalizing n depth' with
  | zero => exact absurd hdepth (Nat.not_lt_zero _)
  | succ depth ih =>
      obtain ⟨depth', rfl⟩ := Nat.exists_eq_add_one.mpr ((Nat.zero_le n).trans_lt hdepth')
      exact operators_follows (primary_follows home (fun m hm => ih (by omega) (by omega)
        (by omega) (by omega)) hlimit.le hlimit') hlimit hlimit'

end Levels

theorem whole_follows (home : Address) {limit : Nat} (hlimit : tokens.length < limit) :
    Follows (whole home limit) tokens (do
      let (x, rest) ← Parser.expression home tokens.length (tokens.length + 1) tokens
      if rest.isEmpty then return (x, rest) else throw (.leftOver rest.head?)) := by
  refine .bind (expression_follows home hlimit le_rfl hlimit (Nat.lt_succ_self _) tokens le_rfl)
    fun x rest _ => .peek_bind ?_
  cases rest with
  | nil => exact follows_pure _ _
  | cons t rest => exact follows_throw _ _

/-- Reading all of a text in front of some tokens scans once for each of them at most. -/
theorem exists_whole (home : Address) {limit : Nat} {r : Reader} (h : r.Before tokens)
    (hlimit : tokens.length < limit) :
    ∃ r', (whole home limit).outcome? r = some (Expr.ofTokens home tokens, r')
      ∧ r'.scans ≤ r.scans + tokens.length := by
  obtain ⟨r', left, houtcome, passes, -⟩ := whole_follows home hlimit r h
  refine ⟨r', ?_, by have := passes.scans; omega⟩
  rw [houtcome, Expr.ofTokens]
  cases Parser.expression home tokens.length (tokens.length + 1) tokens with
  | error e => rfl
  | ok found =>
      obtain ⟨x, _ | ⟨t, rest⟩⟩ := found <;> rfl

end Reader.Action

namespace Expr

theorem length_body_lt {formula : String} {body : List Char}
    (h : Text.trim formula.toList = '=' :: body) : body.length < formula.length := by
  have hstart : (Text.trimStart formula.toList).length ≤ formula.toList.length :=
    (List.dropWhile_suffix _).length_le
  have hend : (Text.trim formula.toList).length ≤ (Text.trimStart formula.toList).length := by
    rw [Text.trim, Text.trimEnd, List.length_reverse]
    exact (List.dropWhile_suffix _).length_le.trans_eq List.length_reverse
  rw [h, List.length_cons] at hend
  exact hend.trans hstart

/-- From any position of a text a scan leads to another, past whole characters, and past at least
one of them if it finds a token. So reading a formula comes to an expression or to an error, and it
scans at most once for each character behind the equals sign and once to find the end. -/
theorem readFormula_progress (limit : Nat) (home : Address) (formula : String) :
    (∀ text pos, pos.IsValid text → text.length < limit → ∃ next passed back stop,
      Token.pass limit text pos = some (next, stop) ∧ stop = pos + String.ofList passed
        ∧ Text.behind? text pos = some (passed ++ back) ∧ Text.behind? text stop = some back
        ∧ Token.scan? (passed ++ back) = next.map (·, back) ∧ (next ≠ none → passed ≠ []))
    ∧ (formula.length < limit → ∃ scans ≤ formula.length,
        readFormula limit home formula = some (ofFormula home formula, scans)) := by
  constructor
  · intro text pos hvalid hlimit
    obtain ⟨front, hfront⟩ := Text.isValid_iff_exists.mp hvalid
    obtain ⟨next, passed, back, hpass, rfl, hscan, hne, -⟩ :=
      Token.exists_pass ((Text.length_le_of_behind? hfront).trans_lt hlimit) hfront
    exact ⟨next, passed, back, _, hpass, rfl, hfront, Text.behind?_append hfront, hscan, hne⟩
  · intro hlimit
    by_cases hequals : ∃ body, Text.trim formula.toList = '=' :: body
    · obtain ⟨body, hbody⟩ := hequals
      simp only [readFormula, ofFormula, hbody]
      have hlength := length_body_lt hbody
      have htokens := Token.length_scanAll_le body
      have hstart : Text.behind? (String.ofList body) 0 = some body := by
        rw [Text.behind?_zero, String.toList_ofList]
      obtain ⟨r, hr, hbefore, (hscans : r.scans = 1)⟩ := Reader.exists_advance
        (r := ⟨String.ofList body, limit, 0, none, 0⟩) hstart (hlength.trans hlimit)
      obtain ⟨r', hwhole, hscans'⟩ := Reader.Action.exists_whole home hbefore
        ((htokens.trans_lt hlength).trans hlimit)
      refine ⟨r'.scans, by omega, ?_⟩
      rw [hr]
      simp only [Option.bind_eq_bind, Option.bind_some, hwhole]
      rfl
    · have hread : readFormula limit home formula = some (.error .noEqualsSign, 0) := by
        unfold readFormula
        split
        case h_1 body hbody => exact absurd ⟨body, hbody⟩ hequals
        case h_2 => rfl
      have hparse : ofFormula home formula = .error .noEqualsSign := by
        unfold ofFormula
        split
        case h_1 body hbody => exact absurd ⟨body, hbody⟩ hequals
        case h_2 => rfl
      exact ⟨0, Nat.zero_le _, by rw [hread, hparse]⟩

/-- The text literal is passed as three characters in four bytes. -/
theorem readFormula_progress_accented :
    Token.pass 7 "\"é\"&B1" 0 = some (some (.text "é"), ⟨4⟩)
      ∧ ∃ scans ≤ 7, readFormula 8 ⟨0, 0, 0⟩ "=\"é\"&B1"
          = some (.ok (.binary .concat (.text "é") (.cell ⟨1, 0⟩)), scans) := by
  constructor
  · obtain ⟨next, passed, back, stop, hpass, rfl, hstart, -, hscan, -⟩ :=
      (readFormula_progress 7 ⟨0, 0, 0⟩ "=\"é\"&B1").1 "\"é\"&B1" 0
        String.Pos.Raw.isValid_zero (by decide)
    have hback : passed ++ back = ['"', 'é', '"', '&', 'B', '1'] :=
      (Option.some.inj ((Text.behind?_zero _).symm.trans hstart)).symm
    have hfound : Token.scan? ['"', 'é', '"', '&', 'B', '1']
        = some (.text "é", ['&', 'B', '1']) := rfl
    rw [hback, hfound] at hscan
    obtain ⟨t, rfl, htoken⟩ := Option.map_eq_some_iff.mp hscan.symm
    obtain ⟨rfl, rfl⟩ := Prod.mk.inj htoken
    obtain rfl : passed = ['"', 'é', '"'] := List.append_cancel_right hback
    exact hpass
  · have hread : ofFormula ⟨0, 0, 0⟩ "=\"é\"&B1"
        = .ok (.binary .concat (.text "é") (.cell ⟨1, 0⟩)) := rfl
    rw [← hread]
    exact (readFormula_progress 8 ⟨0, 0, 0⟩ "=\"é\"&B1").2 (by decide +kernel)

end Expr

end Recalc
