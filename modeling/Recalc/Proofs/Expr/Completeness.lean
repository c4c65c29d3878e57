import Recalc.Proofs.Expr.Grammar

/-!
# The parser takes whole sentences

A parser of one level takes each sentence of that level or a tighter one off the front of the
tokens, up to where no operator of its levels follows. Its limits are not reached by sentences with
no more tokens than they allow.
-/

namespace Recalc

namespace Parser

/-- Whether a parser takes the sentences of at most `size` tokens, of a level or tighter, where no
operator of these levels follows. -/
def Complete (home : Address) (level : Level) (size : Nat) (p : Parser) : Prop :=
  ∀ ⦃l taken x⦄, level ≤ l → Derives home l taken x → taken.length ≤ size →
    ∀ ⦃rest⦄, Closed level rest → p (taken ++ rest) = .ok (x, rest)

variable {home : Address} {level l : Level} {operand nested : Parser} {taken rest : List Token}
  {x : Expr} {limit size : Nat}

/-- A sentence of a level that groups to the left is cut at its last operator. -/
theorem exists_of_derives (hlevel : level < .power) (h : Derives home level taken x) :
    ∃ op l r lefts rights left right, op.level = level ∧ taken = lefts ++ op.token :: rights
      ∧ x = .binary op left right ∧ level ≤ l ∧ level.tighter ≤ r
      ∧ Derives home l lefts left ∧ Derives home r rights right := by
  cases h with
  | binary op hl hr hleft hright =>
      rw [BinaryOp.leftLevel_of_lt hlevel] at hl
      rw [BinaryOp.rightLevel_of_lt hlevel] at hr
      exact ⟨op, _, _, _, _, _, _, rfl, rfl, rfl, hl, hr, hleft, hright⟩
  | _ => exact absurd hlevel (by decide)

/-- A chain goes on behind a sentence with the expression that it has so far. -/
theorem chain_append (hlevel : level < .power) (hsize : size ≤ limit)
    (hoperand : Complete home level.tighter size operand) (hl : level ≤ l)
    (h : Derives home l taken x) (htaken : taken.length ≤ size)
    (hrest : Closed level.tighter rest) :
    ∃ n, limit ≤ n + taken.length ∧
      chain (Token.operator? level) limit operand (taken ++ rest)
        = chainFrom (Token.operator? level) operand n x rest := by
  -- The parser reads from the left and a sentence is cut at its last operator, so the induction is
  -- on the length. Each operator takes one step of the limit and at least one token.
  induction hlength : taken.length using Nat.strongRecOn generalizing l taken x rest with
  | ind length ih =>
      rcases hl.eq_or_lt with rfl | hl
      · obtain ⟨op, l, r, lefts, rights, left, right, rfl, rfl, rfl, hl, hr, hleft, hright⟩ :=
          exists_of_derives hlevel h
        have hnext : Closed op.level.tighter (op.token :: (rights ++ rest)) :=
          closed_token (Level.lt_tighter (hlevel.trans (by decide)))
        simp only [List.length_append, List.length_cons] at hlength htaken
        obtain ⟨n, hn, hchain⟩ := ih lefts.length (by omega) hl hleft (by omega) hnext rfl
        obtain ⟨n, rfl⟩ : ∃ m, n = m + 1 := ⟨n - 1, by omega⟩
        refine ⟨n, by omega, ?_⟩
        rw [List.append_assoc, List.cons_append, hchain, chainFrom,
          (Token.operator?_eq_some hlevel).2 ⟨rfl, rfl⟩]
        simp only [hoperand hr hright (by omega) hrest]
        rfl
      · refine ⟨limit, by omega, ?_⟩
        rw [chain, hoperand (Level.tighter_le hl) h htaken hrest]
        rfl

theorem chainFrom_closed (hlevel : level < .power) (n : Nat) (hrest : Closed level rest) :
    chainFrom (Token.operator? level) operand n x rest = .ok (x, rest) := by
  cases n with
  | zero => rfl
  | succ n =>
      cases rest with
      | nil => rfl
      | cons t rest =>
          have hnone : Token.operator? level t = none := by
            by_contra hsome
            obtain ⟨op, hop⟩ := Option.ne_none_iff_exists'.1 hsome
            obtain ⟨rfl, rfl⟩ := (Token.operator?_eq_some hlevel).1 hop
            exact hrest.elim (Token.binds?_token op) le_rfl
          rw [chainFrom, hnone]

theorem chain_complete (hlevel : level < .power) (hsize : size ≤ limit)
    (hoperand : Complete home level.tighter size operand) :
    Complete home level size (chain (Token.operator? level) limit operand) := by
  intro l taken x hl h htaken rest hrest
  obtain ⟨n, -, hchain⟩ :=
    chain_append hlevel hsize hoperand hl h htaken (hrest.mono level.le_tighter)
  rw [hchain, chainFrom_closed hlevel n hrest]

theorem powers_complete (hsize : size ≤ limit) (hoperand : Complete home .sign size operand) :
    Complete home .power size (powers operand limit) := by
  intro l taken x hl h htaken rest hrest
  -- A power is cut at its first sign, where the parser goes on with a smaller limit.
  replace hsize := htaken.trans hsize
  induction limit generalizing l taken x with
  | zero => exact absurd h.length_pos (by omega)
  | succ limit ih =>
      rcases hl.eq_or_lt with hl | hl
      · cases h with
        | @binary op l r lefts rights left right hl' hr hleft hright =>
            cases BinaryOp.eq_power hl.symm
            simp only [List.length_append, List.length_cons] at hsize htaken
            have hcaret : Closed .sign (BinaryOp.power.token :: (rights ++ rest)) :=
              closed_token (by decide)
            have hright := ih hr hright (by omega) (by omega)
            rw [List.append_assoc, List.cons_append, powers,
              hoperand hl' hleft (by omega) hcaret]
            simp only [BinaryOp.token, bind, Except.bind, hright]
            rfl
        | _ => cases hl
      · rw [powers, hoperand (Level.tighter_le hl) h htaken (hrest.mono (by decide))]
        cases rest with
        | nil => rfl
        | cons t rest =>
            cases t with
            | caret => exact (hrest.elim rfl le_rfl).elim
            | _ => rfl

theorem signed_of_startsOperand {t : Token} (ht : t.startsOperand = true) :
    signed operand (t :: rest)
      = operand (t :: rest) >>= fun read => .ok (percents read.1 read.2) := by
  cases t <;> first | rfl | cases ht

/-- Percent marks are taken as far as there are any. -/
theorem signed_append (hoperand : Complete home .range size operand) (hl : .percent ≤ l)
    (h : Derives home l taken x) (htaken : taken.length ≤ size) (hrest : Closed .range rest) :
    signed operand (taken ++ rest) = .ok (percents x rest) := by
  -- As in a chain, the last mark is the outermost one and the first to be cut off.
  induction hlength : taken.length using Nat.strongRecOn generalizing l taken x rest with
  | ind length ih =>
      rcases hl.eq_or_lt with hl | hl
      · cases h with
        | percent hlevel h =>
            simp only [List.length_append, List.length_singleton] at hlength htaken
            rw [List.append_assoc, List.singleton_append,
              ih _ (by omega) hlevel h (by omega) closed_percent rfl, percents]
        | binary op => exact absurd (hl.le.trans op.level_le_power) (by decide)
        | _ => cases hl
      · obtain ⟨t, more, rfl, ht | ⟨-, hsign⟩⟩ := h.starts
        · rw [List.cons_append, signed_of_startsOperand ht, ← List.cons_append,
            hoperand (Level.tighter_le hl) h htaken hrest]
          rfl
        · exact absurd (hl.le.trans hsign) (by decide)

theorem signed_complete (hoperand : Complete home .range size operand) :
    Complete home .sign size (signed operand) := by
  intro l taken x hl h htaken rest hrest
  induction hlength : taken.length using Nat.strongRecOn generalizing l taken x with
  | ind length ih =>
      rcases hl.eq_or_lt with hl | hl
      · cases h with
        | negate hlevel h =>
            rw [List.length_cons] at hlength htaken
            rw [List.cons_append, signed, ih _ (by omega) hlevel h (by omega) rfl]
            rfl
        | plus hlevel h =>
            rw [List.length_cons] at hlength htaken
            rw [List.cons_append, signed, ih _ (by omega) hlevel h (by omega) rfl]
        | binary op => exact absurd (hl.le.trans op.level_le_power) (by decide)
        | _ => cases hl
      · rw [signed_append hoperand (Level.tighter_le hl) h htaken (hrest.mono (by decide))]
        cases rest with
        | nil => rfl
        | cons t rest =>
            cases t with
            | percent => exact (hrest.elim rfl (by decide)).elim
            | _ => rfl

theorem ranged_complete (hoperand : Complete home .atom size operand) :
    Complete home .range size (ranged operand) := by
  intro l taken x hl h htaken rest hrest
  rcases hl.eq_or_lt with hl | hl
  · cases h with
    | @range s t a b ha hb =>
        have hcolon : Closed .atom (.colon :: .cell t :: rest) := closed_colon
        have hfirst := hoperand le_rfl (.cell ha) (by simp at htaken ⊢; omega) hcolon
        have hsecond := hoperand le_rfl (.cell hb) (by simp at htaken ⊢; omega)
          (hrest.mono (by decide))
        simp only [List.singleton_append] at hfirst hsecond
        simp only [ranged, List.cons_append, List.nil_append, hfirst, bind, Except.bind, hsecond]
        rfl
    | binary op => exact absurd (hl.le.trans op.level_le_power) (by decide)
    | _ => cases hl
  · rw [ranged, hoperand (Level.tighter_le hl) h htaken (hrest.mono (by decide))]
    cases rest with
    | nil => rfl
    | cons t rest =>
        cases t with
        | colon => exact (hrest.elim rfl le_rfl).elim
        | _ => rfl

theorem length_le_flatMap (more : List (List Token)) :
    more.length ≤ (more.flatMap (Token.comma :: ·)).length := by
  induction more with
  | nil => rfl
  | cons a more ih =>
      simp only [List.flatMap_cons, List.length_append, List.length_cons]
      omega

theorem closed_arguments (more : List (List Token)) (rest : List Token) :
    Closed level (more.flatMap (Token.comma :: ·) ++ .rightParen :: rest) := by
  cases more <;> exact closed_of_none rfl

theorem argumentsFrom_complete (hnested : Complete home .comparison size nested)
    {more : List Sentence} (hmore : ∀ a ∈ more, Derives home a.level a.tokens a.expr)
    (hsize : ((more.map (·.tokens)).flatMap (Token.comma :: ·)).length ≤ size)
    (hlimit : more.length ≤ limit) (rest : List Token) :
    argumentsFrom nested limit
        ((more.map (·.tokens)).flatMap (Token.comma :: ·) ++ .rightParen :: rest)
      = .ok (more.map (·.expr), .rightParen :: rest) := by
  induction more generalizing limit with
  | nil => cases limit <;> rfl
  | cons a more ih =>
      obtain ⟨ha, hmore⟩ := List.forall_mem_cons.1 hmore
      obtain ⟨limit, rfl⟩ : ∃ n, limit = n + 1 := ⟨limit - 1, by simp at hlimit; omega⟩
      simp only [List.map_cons, List.flatMap_cons, List.length_append, List.length_cons]
        at hsize hlimit
      have hread := hnested a.level.comparison_le ha (by omega)
        (closed_arguments (more.map (·.tokens)) rest)
      have hmore := @ih limit hmore (by omega) (by omega)
      simp only [List.map_cons, List.flatMap_cons, List.cons_append, List.append_assoc,
        argumentsFrom, hread, hmore, bind, Except.bind]
      rfl

/-- No argument starts with the parenthesis that would end the list. -/
theorem arguments_of_derives (h : Derives home l taken x) :
    arguments limit nested (taken ++ rest)
      = nested (taken ++ rest) >>= fun read =>
          argumentsFrom nested limit read.2 >>= fun more => .ok (read.1 :: more.1, more.2) := by
  obtain ⟨t, front, rfl, ht⟩ := h.starts
  cases t <;> first | rfl | simp [Token.startsOperand] at ht

theorem arguments_complete (hnested : Complete home .comparison size nested)
    {all : List Sentence} (hall : ∀ a ∈ all, Derives home a.level a.tokens a.expr)
    (hsize : (Token.separated (all.map (·.tokens))).length ≤ size) (hlimit : size ≤ limit)
    (rest : List Token) :
    arguments limit nested (Token.separated (all.map (·.tokens)) ++ .rightParen :: rest)
      = .ok (all.map (·.expr), .rightParen :: rest) := by
  cases all with
  | nil => rfl
  | cons a more =>
      obtain ⟨ha, hmore⟩ := List.forall_mem_cons.1 hall
      simp only [List.map_cons, Token.separated, List.length_append] at hsize
      have hread := hnested a.level.comparison_le ha (by omega)
        (closed_arguments (more.map (·.tokens)) rest)
      have hcommas := length_le_flatMap (more.map (·.tokens))
      rw [List.length_map] at hcommas
      have hcount : more.length ≤ limit := by omega
      have hmore := argumentsFrom_complete hnested hmore (by omega) hcount rest
      simp only [List.map_cons, Token.separated, List.append_assoc]
      rw [arguments_of_derives ha, hread]
      simp only [bind, Except.bind, hmore]

theorem expect_cons (t : Token) : expect t (t :: rest) = .ok rest := if_pos rfl

theorem primary_complete (hsize : size ≤ limit)
    (hnested : ∀ m < size, Complete home .comparison m nested) :
    Complete home .atom size (primary home limit nested) := by
  intro l taken x hl h htaken rest hrest
  cases h with
  | number | text | boolean | error => rfl
  | cell h =>
      simp only [primary, List.cons_append, h]
      rfl
  | @paren level tokens x h =>
      simp only [List.length_cons, List.length_append] at htaken
      have hclose : Closed .comparison (.rightParen :: rest) := closed_of_none rfl
      have hread := hnested tokens.length (by omega) level.comparison_le h le_rfl hclose
      simp only [primary, List.cons_append, List.append_assoc, List.nil_append, hread, bind,
        Except.bind, expect_cons]
      rfl
  | @call name all h =>
      simp only [List.length_cons, List.length_append] at htaken
      have hcount : (Token.separated (all.map (·.tokens))).length ≤ limit := by omega
      have hread := arguments_complete (hnested _ (by omega)) h le_rfl hcount rest
      simp only [primary, List.cons_append, List.append_assoc, List.nil_append, hread, bind,
        Except.bind, expect_cons]
      rfl
  | binary op => exact absurd (hl.trans op.level_le_power) (by decide)
  | _ => exact absurd hl (by decide)

theorem operators_complete (hsize : size ≤ limit) (hoperand : Complete home .atom size operand) :
    Complete home .comparison size (operators limit operand) := by
  have hpowers := powers_complete hsize (signed_complete (ranged_complete hoperand))
  exact chain_complete (by decide) hsize (chain_complete (by decide) hsize
    (chain_complete (by decide) hsize (chain_complete (by decide) hsize hpowers)))

/-- The parser takes each sentence that fits its limits. -/
theorem expression_complete {depth : Nat} (hdepth : size < depth) (hsize : size ≤ limit) :
    Complete home .comparison size (expression home limit depth) := by
  induction depth generalizing size with
  | zero => exact absurd hdepth (Nat.not_lt_zero size)
  | succ depth ih =>
      exact operators_complete hsize
        (primary_complete hsize fun m hm => ih (by omega) (by omega))

end Parser

end Recalc
