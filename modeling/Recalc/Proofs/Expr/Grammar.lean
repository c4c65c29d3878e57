import Mathlib.Order.Nat
import Recalc.Expr.Parser

/-!
# The grammar of formulas

Sentences of the formula language with the expressions that they stand for. Each sentence has a
level, that of its outermost operator; operands are sentences of a level that holds together at
least as tightly as the operator asks for.
-/

namespace Recalc

/-- How tightly sentences hold together, from the loosest. -/
inductive Level where
  | comparison
  | joining
  | sum
  | product
  | power
  | sign
  | percent
  | range
  | atom
  deriving DecidableEq

namespace Level

def rank : Level → Nat
  | comparison => 0
  | joining => 1
  | sum => 2
  | product => 3
  | power => 4
  | sign => 5
  | percent => 6
  | range => 7
  | atom => 8

theorem rank_injective : Function.Injective rank := fun a b h => by
  cases a <;> cases b <;> first | rfl | cases h

instance : LE Level := ⟨fun a b => a.rank ≤ b.rank⟩

instance : LT Level := ⟨fun a b => a.rank < b.rank⟩

instance : LinearOrder Level where
  le_refl a := Nat.le_refl a.rank
  le_trans _ _ _ := Nat.le_trans
  le_antisymm _ _ h h' := rank_injective (Nat.le_antisymm h h')
  le_total a b := Nat.le_total a.rank b.rank
  lt_iff_le_not_ge _ _ := Nat.lt_iff_le_and_not_ge
  toDecidableLE a b := inferInstanceAs (Decidable (a.rank ≤ b.rank))

/-- The next tighter level. -/
def tighter : Level → Level
  | comparison => joining
  | joining => sum
  | sum => product
  | product => power
  | power => sign
  | sign => percent
  | percent => range
  | range => atom
  | atom => atom

theorem le_tighter (a : Level) : a ≤ a.tighter := by
  cases a <;> decide

theorem lt_tighter {a : Level} (h : a < atom) : a < a.tighter := by
  revert h
  cases a <;> decide

theorem comparison_le (a : Level) : comparison ≤ a := Nat.zero_le a.rank

theorem tighter_le {a b : Level} (h : a < b) : a.tighter ≤ b := by
  revert h
  cases a <;> cases b <;> decide

end Level

namespace BinaryOp

def level : BinaryOp → Level
  | equal | notEqual | lessThan | lessEqual | greaterThan | greaterEqual => .comparison
  | concat => .joining
  | add | subtract => .sum
  | multiply | divide => .product
  | power => .power

/-- The loosest level of a left operand. Powers group to the right. -/
def leftLevel (op : BinaryOp) : Level := if op = power then op.level.tighter else op.level

/-- The loosest level of a right operand. -/
def rightLevel (op : BinaryOp) : Level := if op = power then op.level else op.level.tighter

/-- The operator between its operands. -/
def token : BinaryOp → Token
  | add => .plus
  | subtract => .minus
  | multiply => .star
  | divide => .slash
  | power => .caret
  | equal => .equal
  | notEqual => .notEqual
  | lessThan => .lessThan
  | lessEqual => .lessEqual
  | greaterThan => .greaterThan
  | greaterEqual => .greaterEqual
  | concat => .ampersand

end BinaryOp

/-- The lists of tokens with commas between them. -/
def Token.separated : List (List Token) → List Token
  | [] => []
  | first :: more => first ++ more.flatMap (.comma :: ·)

theorem Token.mem_separated {all : List (List Token)} {tokens : List Token} {t : Token}
    (htokens : tokens ∈ all) (ht : t ∈ tokens) : t ∈ separated all := by
  cases all with
  | nil => cases htokens
  | cons first more =>
      rcases List.mem_cons.1 htokens with rfl | htokens
      · exact List.mem_append_left _ ht
      · exact List.mem_append_right _
          (List.mem_flatMap.2 ⟨tokens, htokens, List.mem_cons_of_mem _ ht⟩)

theorem Token.forall_mem_separated {all : List (List Token)} {p : Token → Prop}
    (hcomma : p .comma) (h : ∀ tokens ∈ all, ∀ t ∈ tokens, p t) : ∀ t ∈ separated all, p t := by
  cases all with
  | nil => exact fun _ ht => nomatch ht
  | cons first more =>
      obtain ⟨hfirst, hmore⟩ := List.forall_mem_cons.1 h
      refine List.forall_mem_append.2 ⟨hfirst, fun t ht => ?_⟩
      obtain ⟨tokens, htokens, ht⟩ := List.mem_flatMap.1 ht
      exact List.forall_mem_cons.2 ⟨hcomma, hmore tokens htokens⟩ t ht

/-- A sentence with what it stands for. -/
structure Sentence where
  level : Level
  tokens : List Token
  expr : Expr

/-- The sentences of a formula at `home`. A leading plus sign leaves no trace. -/
inductive Derives (home : Address) : Level → List Token → Expr → Prop
  | number (x : Float) : Derives home .atom [.number x] (.number x)
  | text (s : String) : Derives home .atom [.text s] (.text s)
  | boolean (b : Bool) : Derives home .atom [.boolean b] (.boolean b)
  | error (e : ErrorKind) : Derives home .atom [.error e] (.error e)
  | cell {s : String} {target : Address} (h : Address.ofA1 home.sheet s = .ok target) :
      Derives home .atom [.cell s] (.cell (.between home target))
  | range {s t : String} {a b : Address} (ha : Address.ofA1 home.sheet s = .ok a)
      (hb : Address.ofA1 home.sheet t = .ok b) :
      Derives home .range [.cell s, .colon, .cell t] (.range ⟨.between home a, .between home b⟩)
  | paren {level : Level} {tokens : List Token} {x : Expr} (h : Derives home level tokens x) :
      Derives home .atom (.leftParen :: (tokens ++ [.rightParen])) (.paren x)
  | call (name : String) {arguments : List Sentence}
      (h : ∀ a ∈ arguments, Derives home a.level a.tokens a.expr) :
      Derives home .atom
        (.name name :: .leftParen :: (Token.separated (arguments.map (·.tokens)) ++ [.rightParen]))
        (.call (Text.toCapitals name) (arguments.map (·.expr)))
  | percent {level : Level} {tokens : List Token} {x : Expr} (hlevel : .percent ≤ level)
      (h : Derives home level tokens x) :
      Derives home .percent (tokens ++ [.percent]) (.unary .percent x)
  | negate {level : Level} {tokens : List Token} {x : Expr} (hlevel : .sign ≤ level)
      (h : Derives home level tokens x) : Derives home .sign (.minus :: tokens) (.unary .negate x)
  | plus {level : Level} {tokens : List Token} {x : Expr} (hlevel : .sign ≤ level)
      (h : Derives home level tokens x) : Derives home .sign (.plus :: tokens) x
  | binary (op : BinaryOp) {l r : Level} {lefts rights : List Token} {left right : Expr}
      (hl : op.leftLevel ≤ l) (hr : op.rightLevel ≤ r) (hleft : Derives home l lefts left)
      (hright : Derives home r rights right) :
      Derives home op.level (lefts ++ op.token :: rights) (.binary op left right)

/-! ## Operators and what they hold together -/

namespace BinaryOp

variable {op : BinaryOp}

theorem leftLevel_of_lt (h : op.level < .power) : op.leftLevel = op.level := by
  cases op <;> first | rfl | exact absurd h (by decide)

theorem rightLevel_of_lt (h : op.level < .power) : op.rightLevel = op.level.tighter := by
  cases op <;> first | rfl | exact absurd h (by decide)

theorem eq_power (h : op.level = .power) : op = .power := by
  cases op <;> first | rfl | cases h

theorem level_le_power (op : BinaryOp) : op.level ≤ .power := by
  cases op <;> decide

end BinaryOp

namespace Token

variable {t : Token} {op : BinaryOp}

/-- The operators of one level that group to the left. -/
def operator? : Level → Token → Option BinaryOp
  | .comparison => comparison?
  | .joining => joining?
  | .sum => additive?
  | .product => multiplicative?
  | _ => fun _ => none

theorem operator?_eq_some {level : Level} (hlevel : level < .power) :
    operator? level t = some op ↔ op.level = level ∧ op.token = t := by
  constructor
  · intro h
    cases level with
    | comparison | joining | sum | product =>
        simp only [operator?, comparison?, joining?, additive?, multiplicative?] at h
        split at h <;> cases h <;> exact ⟨rfl, rfl⟩
    | _ => exact absurd hlevel (by decide)
  · rintro ⟨rfl, rfl⟩
    cases op <;> first | rfl | exact absurd hlevel (by decide)

/-- The level of an operator or mark that may stand behind an operand. -/
def binds? : Token → Option Level
  | equal | notEqual | lessThan | lessEqual | greaterThan | greaterEqual => some .comparison
  | ampersand => some .joining
  | plus | minus => some .sum
  | star | slash => some .product
  | caret => some .power
  | percent => some .percent
  | colon => some .range
  | _ => none

theorem binds?_token (op : BinaryOp) : op.token.binds? = some op.level := by
  cases op <;> rfl

/-- The tokens that a sentence can start with, apart from signs. -/
def startsOperand : Token → Bool
  | number _ | text _ | boolean _ | error _ | name _ | cell _ | leftParen => true
  | _ => false

end Token

/-- Whether tokens do not go on with an operator of a level or tighter. -/
def Closed (level : Level) (tokens : List Token) : Prop :=
  ∀ t ∈ tokens.head?, ∀ l, t.binds? = some l → l < level

section Closed

variable {k l : Level} {t : Token} {tokens : List Token}

@[simp] theorem closed_nil : Closed k [] := by simp [Closed]

theorem closed_cons : Closed k (t :: tokens) ↔ ∀ l, t.binds? = some l → l < k := by
  simp [Closed]

theorem closed_of_none (h : t.binds? = none) : Closed k (t :: tokens) :=
  closed_cons.2 fun l hl => by rw [h] at hl; cases hl

theorem closed_token {op : BinaryOp} (h : op.level < k) : Closed k (op.token :: tokens) :=
  closed_cons.2 fun l hl => by rw [Token.binds?_token, Option.some.injEq] at hl; exact hl ▸ h

theorem closed_percent : Closed .range (.percent :: tokens) := by
  rintro _ ⟨⟩ _ ⟨⟩
  decide

theorem closed_colon : Closed .atom (.colon :: tokens) := by
  rintro _ ⟨⟩ _ ⟨⟩
  decide

theorem Closed.mono (h : Closed k tokens) (hkl : k ≤ l) : Closed l tokens :=
  fun t ht m hm => lt_of_lt_of_le (h t ht m hm) hkl

/-- An operator that binds too tightly does not follow. -/
theorem Closed.elim (h : Closed k (t :: tokens)) (ht : t.binds? = some l) (hkl : k ≤ l) : False :=
  absurd (closed_cons.1 h l ht) (not_lt.2 hkl)

end Closed

section Derives

variable {home : Address} {level : Level} {tokens : List Token} {x : Expr}

/-- A sentence starts with an operand or with a sign, and only one no tighter than signs with a
sign. -/
theorem Derives.starts (h : Derives home level tokens x) :
    ∃ t more, tokens = t :: more
      ∧ (t.startsOperand = true ∨ (t = .minus ∨ t = .plus) ∧ level ≤ .sign) := by
  induction h with
  | number | text | boolean | error | cell _ | range _ _ | paren _ | call _ _ =>
      exact ⟨_, _, rfl, .inl rfl⟩
  | percent hlevel _ ih =>
      obtain ⟨t, more, rfl, ht | ⟨-, hsign⟩⟩ := ih
      · exact ⟨t, _, rfl, .inl ht⟩
      · exact absurd (hlevel.trans hsign) (by decide)
  | negate _ _ _ => exact ⟨_, _, rfl, .inr ⟨.inl rfl, le_rfl⟩⟩
  | plus _ _ _ => exact ⟨_, _, rfl, .inr ⟨.inr rfl, le_rfl⟩⟩
  | binary op _ _ _ _ ih _ =>
      obtain ⟨t, more, rfl, ht⟩ := ih
      exact ⟨t, _, rfl, ht.imp_right fun h => ⟨h.1, op.level_le_power.trans (by decide)⟩⟩

/-- A cell of its own is written as one word. -/
theorem Derives.of_cell {r : Reference} (h : Derives home level tokens (.cell r))
    (hlevel : .atom ≤ level) :
    ∃ s target, tokens = [.cell s] ∧ Address.ofA1 home.sheet s = .ok target
      ∧ r = .between home target := by
  cases h with
  | cell h => exact ⟨_, _, rfl, h, rfl⟩
  | plus => exact absurd hlevel (by decide)

theorem Derives.length_pos (h : Derives home level tokens x) : 0 < tokens.length := by
  obtain ⟨t, more, rfl, -⟩ := h.starts
  exact Nat.succ_pos _

end Derives

end Recalc
