import Recalc.Proofs.Expr.Grammar
import Recalc.Proofs.Outcome

/-!
# The parser takes sentences

What a parser of one level takes off the front of the tokens is a sentence of that level or a
tighter one, and the expression that it returns is the one that the sentence stands for.
-/

namespace Recalc

namespace Parser

/-- Whether a parser takes only sentences of a level or tighter off the front. -/
def Sound (home : Address) (level : Level) (p : Parser) : Prop :=
  ∀ ⦃tokens x rest⦄, p tokens = .ok (x, rest) →
    ∃ l taken, level ≤ l ∧ Derives home l taken x ∧ tokens = taken ++ rest

variable {home : Address} {level : Level} {operand nested : Parser} {tokens rest : List Token}
  {x : Expr}

theorem Sound.mono {k : Level} {p : Parser} (h : Sound home level p) (hk : k ≤ level) :
    Sound home k p := fun _ _ _ hp =>
  let ⟨l, taken, hl, hx, htokens⟩ := h hp
  ⟨l, taken, hk.trans hl, hx, htokens⟩

/-- Each operator of a chain joins what has been taken before it to its right operand. -/
theorem chainFrom_sound (hlevel : level < .power) (hoperand : Sound home level.tighter operand)
    {limit : Nat} {l : Level} {before : List Token} {left : Expr}
    (hl : level ≤ l) (hleft : Derives home l before left)
    (h : chainFrom (Token.operator? level) operand limit left tokens = .ok (x, rest)) :
    ∃ l' taken, level ≤ l' ∧ Derives home l' (before ++ taken) x ∧ tokens = taken ++ rest := by
  induction limit generalizing l before left tokens with
  | zero =>
      cases h
      exact ⟨l, [], hl, by rwa [List.append_nil], rfl⟩
  | succ limit ih =>
      cases tokens with
      | nil =>
          cases h
          exact ⟨l, [], hl, by rwa [List.append_nil], rfl⟩
      | cons t more =>
          rw [chainFrom] at h
          split at h
          · cases h
            exact ⟨l, [], hl, by rwa [List.append_nil], rfl⟩
          · next op hop =>
            obtain ⟨hopLevel, rfl⟩ := (Token.operator?_eq_some hlevel).1 hop
            obtain ⟨⟨right, behind⟩, hread, hgo⟩ := exists_of_bind_eq_ok h
            obtain ⟨r, rights, hr, hright, rfl⟩ := hoperand hread
            have hlt : op.level < .power := hopLevel ▸ hlevel
            have hjoined : Derives home op.level (before ++ op.token :: rights)
                (.binary op left right) :=
              .binary op (by rwa [BinaryOp.leftLevel_of_lt hlt, hopLevel])
                (by rwa [BinaryOp.rightLevel_of_lt hlt, hopLevel]) hleft hright
            obtain ⟨l', taken, hl', hx, rfl⟩ := ih (hopLevel ▸ le_rfl) hjoined hgo
            exact ⟨l', op.token :: rights ++ taken, hl', by simpa using hx, by simp⟩

theorem chain_sound (hlevel : level < .power) (hoperand : Sound home level.tighter operand)
    (limit : Nat) : Sound home level (chain (Token.operator? level) limit operand) := by
  intro tokens x rest h
  obtain ⟨⟨left, behind⟩, hread, hgo⟩ := exists_of_bind_eq_ok h
  obtain ⟨l, before, hl, hleft, rfl⟩ := hoperand hread
  obtain ⟨l', taken, hl', hx, rfl⟩ :=
    chainFrom_sound hlevel hoperand (level.le_tighter.trans hl) hleft hgo
  exact ⟨l', before ++ taken, hl', hx, by simp⟩

theorem powers_sound (hoperand : Sound home .sign operand) (limit : Nat) :
    Sound home .power (powers operand limit) := by
  induction limit with
  | zero => exact hoperand.mono (by decide)
  | succ limit ih =>
      intro tokens x rest h
      obtain ⟨⟨left, behind⟩, hread, hgo⟩ := exists_of_bind_eq_ok h
      obtain ⟨l, before, hl, hleft, rfl⟩ := hoperand hread
      simp only at hgo
      split at hgo
      · next more =>
        obtain ⟨⟨right, behind⟩, hread', hreturn⟩ := exists_of_bind_eq_ok hgo
        obtain ⟨r, rights, hr, hright, rfl⟩ := ih hread'
        cases hreturn
        exact ⟨_, _, le_rfl, .binary .power hl hr hleft hright, by simp [BinaryOp.token]⟩
      · cases hgo
        exact ⟨l, before, le_trans (by decide) hl, hleft, rfl⟩

theorem percents_sound {l : Level} {before : List Token} {y : Expr} (hl : .percent ≤ l)
    (hx : Derives home l before x) (h : percents x tokens = (y, rest)) :
    ∃ l' taken, .percent ≤ l' ∧ Derives home l' (before ++ taken) y ∧ tokens = taken ++ rest := by
  fun_induction percents x tokens generalizing l before with
  | case1 x tokens ih =>
      obtain ⟨l', taken, hl', hy, rfl⟩ := ih le_rfl (.percent hl hx) h
      exact ⟨l', .percent :: taken, hl', by simpa using hy, rfl⟩
  | case2 =>
      cases h
      exact ⟨l, [], hl, by rwa [List.append_nil], rfl⟩

theorem signed_sound (hoperand : Sound home .percent operand) :
    Sound home .sign (signed operand) := by
  intro tokens x rest h
  fun_induction signed operand tokens generalizing x rest with
  | case1 tokens ih =>
      obtain ⟨⟨y, behind⟩, hread, hreturn⟩ := exists_of_bind_eq_ok h
      cases hreturn
      obtain ⟨l, taken, hl, hy, rfl⟩ := ih hread
      exact ⟨_, _, le_rfl, .negate hl hy, rfl⟩
  | case2 tokens ih =>
      obtain ⟨l, taken, hl, hx, rfl⟩ := ih h
      exact ⟨_, _, le_rfl, .plus hl hx, rfl⟩
  | case3 tokens =>
      obtain ⟨⟨y, behind⟩, hread, hreturn⟩ := exists_of_bind_eq_ok h
      obtain ⟨l, before, hl, hy, rfl⟩ := hoperand hread
      obtain ⟨l', taken, hl', hx, rfl⟩ := percents_sound hl hy (Except.ok.inj hreturn)
      exact ⟨l', _, le_trans (by decide) hl', hx, by simp⟩

theorem ranged_sound (hoperand : Sound home .atom operand) :
    Sound home .range (ranged operand) := by
  intro tokens x rest h
  obtain ⟨⟨first, behind⟩, hread, hgo⟩ := exists_of_bind_eq_ok h
  obtain ⟨l, before, hl, hfirst, rfl⟩ := hoperand hread
  simp only at hgo
  split at hgo
  · next more =>
    obtain ⟨⟨second, behind⟩, hread', hends⟩ := exists_of_bind_eq_ok hgo
    obtain ⟨r, after, hr, hsecond, rfl⟩ := hoperand hread'
    simp only at hends
    split at hends
    · cases hends
      obtain ⟨s, a, rfl, ha, rfl⟩ := hfirst.of_cell hl
      obtain ⟨t, b, rfl, hb, rfl⟩ := hsecond.of_cell hr
      exact ⟨_, _, le_rfl, .range ha hb, rfl⟩
    · cases hends
  · cases hgo
    exact ⟨l, before, le_trans (by decide) hl, hfirst, rfl⟩

theorem expect_eq_ok {t : Token} (h : expect t tokens = .ok rest) : tokens = t :: rest := by
  unfold expect at h
  split at h
  · cases h
  · split at h
    · next ht => cases h; rw [ht]
    · cases h

/-- Arguments are sentences, each behind a comma. -/
theorem argumentsFrom_sound {k : Level} (hnested : Sound home k nested) {limit : Nat}
    {xs : List Expr} (h : argumentsFrom nested limit tokens = .ok (xs, rest)) :
    ∃ more : List Sentence, (∀ a ∈ more, Derives home a.level a.tokens a.expr)
      ∧ xs = more.map (·.expr)
      ∧ tokens = (more.map (·.tokens)).flatMap (Token.comma :: ·) ++ rest := by
  fun_induction argumentsFrom nested limit tokens generalizing xs rest with
  | case1 =>
      cases h
      exact ⟨[], by simp, rfl, rfl⟩
  | case2 limit tokens ih =>
      obtain ⟨⟨y, behind⟩, hread, hgo⟩ := exists_of_bind_eq_ok h
      obtain ⟨⟨ys, after⟩, hmore, hreturn⟩ := exists_of_bind_eq_ok hgo
      obtain ⟨l, taken, -, hy, rfl⟩ := hnested hread
      obtain ⟨more, hall, rfl, rfl⟩ := ih _ hmore
      cases hreturn
      exact ⟨⟨l, taken, y⟩ :: more, by simpa using ⟨hy, hall⟩, rfl, by simp⟩
  | case3 =>
      cases h
      exact ⟨[], by simp, rfl, rfl⟩

theorem arguments_sound {k : Level} (hnested : Sound home k nested) {limit : Nat}
    {xs : List Expr} (h : arguments limit nested tokens = .ok (xs, rest)) :
    ∃ all : List Sentence, (∀ a ∈ all, Derives home a.level a.tokens a.expr)
      ∧ xs = all.map (·.expr) ∧ tokens = Token.separated (all.map (·.tokens)) ++ rest := by
  unfold arguments at h
  split at h
  · cases h
    exact ⟨[], by simp, rfl, rfl⟩
  · obtain ⟨⟨y, behind⟩, hread, hgo⟩ := exists_of_bind_eq_ok h
    obtain ⟨⟨ys, after⟩, hmore, hreturn⟩ := exists_of_bind_eq_ok hgo
    obtain ⟨l, taken, -, hy, rfl⟩ := hnested hread
    obtain ⟨more, hall, rfl, rfl⟩ := argumentsFrom_sound hnested hmore
    cases hreturn
    exact ⟨⟨l, taken, y⟩ :: more, by simpa using ⟨hy, hall⟩, rfl,
      by simp [Token.separated]⟩

theorem primary_sound {k : Level} (hnested : Sound home k nested) (limit : Nat) :
    Sound home .atom (primary home limit nested) := by
  intro tokens x rest h
  unfold primary at h
  split at h
  · cases h; exact ⟨_, _, le_rfl, .number _, rfl⟩
  · cases h; exact ⟨_, _, le_rfl, .text _, rfl⟩
  · cases h; exact ⟨_, _, le_rfl, .boolean _, rfl⟩
  · cases h; exact ⟨_, _, le_rfl, .error _, rfl⟩
  · split at h
    · next htarget => cases h; exact ⟨_, _, le_rfl, .cell htarget, rfl⟩
    · cases h
  · obtain ⟨⟨y, behind⟩, hread, hgo⟩ := exists_of_bind_eq_ok h
    obtain ⟨after, hclose, hreturn⟩ := exists_of_bind_eq_ok hgo
    obtain ⟨l, taken, -, hy, rfl⟩ := hnested hread
    cases expect_eq_ok hclose
    cases hreturn
    exact ⟨_, _, le_rfl, .paren hy, by simp⟩
  · obtain ⟨⟨ys, behind⟩, hread, hgo⟩ := exists_of_bind_eq_ok h
    obtain ⟨after, hclose, hreturn⟩ := exists_of_bind_eq_ok hgo
    obtain ⟨all, hall, rfl, rfl⟩ := arguments_sound hnested hread
    cases expect_eq_ok hclose
    cases hreturn
    exact ⟨_, _, le_rfl, .call _ hall, by simp⟩
  · cases h
  · cases h

theorem operators_sound (hoperand : Sound home .atom operand) (limit : Nat) :
    Sound home .comparison (operators limit operand) := by
  have hpowers := powers_sound (signed_sound ((ranged_sound hoperand).mono (by decide))) limit
  exact chain_sound (by decide) (chain_sound (by decide) (chain_sound (by decide)
    (chain_sound (by decide) hpowers limit) limit) limit) limit

/-- What the parser takes off the front of the tokens is a sentence. -/
theorem expression_sound (limit depth : Nat) :
    Sound home .comparison (expression home limit depth) := by
  induction depth with
  | zero => exact fun _ _ _ h => nomatch h
  | succ depth ih => exact operators_sound (primary_sound ih limit) limit

end Parser

end Recalc
