import Recalc.Proofs.Expr.Grammar
import Recalc.Proofs.Token.Lexemes

/-!
# Well-formed expressions

The expressions that formulas stand for: operands hold together as tightly as their operators ask
for, references can be named, numbers have numerals and functions have names. Each has tokens of its
own, which are a sentence that stands for it.
-/

namespace Recalc

def UnaryOp.level : UnaryOp → Level
  | negate => .sign
  | percent => .percent

/-- The word for a reference of a formula at `home`. -/
def Reference.token (home : Address) (r : Reference) : Token :=
  match r.resolve? home with
  | some target => .cell target.toA1
  | none => .error .badReference

namespace Expr

/-- The level of an expression's outermost operator. -/
def level : Expr → Level
  | binary op _ _ => op.level
  | unary op _ => op.level
  | range _ => .range
  | _ => .atom

/-- The expressions that a formula at `home` can stand for. -/
inductive WellFormed (home : Address) : Expr → Prop
  | number {x : Float} {w : List Char} (h : Decimal.IsNumeral w)
      (hx : Decimal.read? w = some x) : WellFormed home (.number x)
  | text (s : String) : WellFormed home (.text s)
  | boolean (b : Bool) : WellFormed home (.boolean b)
  | error (e : ErrorKind) : WellFormed home (.error e)
  | cell {r : Reference} (h : r.IsNamed home) : WellFormed home (.cell r)
  | range {a b : Reference} (ha : a.IsNamed home) (hb : b.IsNamed home) :
      WellFormed home (.range ⟨a, b⟩)
  | binary {op : BinaryOp} {left right : Expr} (hl : op.leftLevel ≤ left.level)
      (hr : op.rightLevel ≤ right.level) (hleft : WellFormed home left)
      (hright : WellFormed home right) : WellFormed home (.binary op left right)
  | unary {op : UnaryOp} {x : Expr} (hlevel : op.level ≤ x.level) (h : WellFormed home x) :
      WellFormed home (.unary op x)
  | paren {x : Expr} (h : WellFormed home x) : WellFormed home (.paren x)
  | call {name : String} {arguments : List Expr} (hname : Token.IsName name.toList)
      (hcapitals : Text.toCapitals name = name) (h : ∀ x ∈ arguments, WellFormed home x) :
      WellFormed home (.call name arguments)

mutual

/-- The tokens of an expression at `home`, in the order in which they are written. -/
def tokens (home : Address) : Expr → List Token
  | number x => [.number x]
  | text s => [.text s]
  | boolean b => [.boolean b]
  | error e => [.error e]
  | cell r => [r.token home]
  | range r => [r.first.token home, .colon, r.second.token home]
  | binary op left right => left.tokens home ++ op.token :: right.tokens home
  | unary .negate x => .minus :: x.tokens home
  | unary .percent x => x.tokens home ++ [.percent]
  | paren x => .leftParen :: (x.tokens home ++ [.rightParen])
  | call name arguments =>
      .name name :: .leftParen :: (Token.separated (tokensOf home arguments) ++ [.rightParen])

/-- The tokens of each expression of a list. -/
def tokensOf (home : Address) : List Expr → List (List Token)
  | [] => []
  | x :: xs => x.tokens home :: tokensOf home xs

end

@[simp] theorem tokensOf_eq_map (home : Address) (xs : List Expr) :
    tokensOf home xs = xs.map (tokens home) := by
  induction xs with
  | nil => rfl
  | cons x xs ih => simp [tokensOf, ih]

end Expr

section Written

variable {home : Address} {x : Expr}

theorem Reference.IsNamed.token_eq {r : Reference} (h : r.IsNamed home) :
    ∃ target, r.token home = .cell target.toA1
      ∧ Address.ofA1 home.sheet target.toA1 = .ok target ∧ r = .between home target := by
  obtain ⟨target, hresolve, hnamed⟩ := h
  obtain ⟨hr, hsheet⟩ := between_of_resolve? hresolve
  exact ⟨target, by rw [token, hresolve], hsheet ▸ Address.ofA1_toA1 hnamed, hr.symm⟩

/-- The tokens of a well-formed expression are a sentence that stands for it. -/
theorem Expr.WellFormed.derives (h : x.WellFormed home) :
    Derives home x.level (x.tokens home) x := by
  induction h with
  | number | text | boolean | error => constructor
  | cell h =>
      obtain ⟨target, htoken, hread, rfl⟩ := h.token_eq
      rw [tokens, htoken]
      exact .cell hread
  | range ha hb =>
      obtain ⟨a, hatoken, haread, rfl⟩ := ha.token_eq
      obtain ⟨b, hbtoken, hbread, rfl⟩ := hb.token_eq
      rw [tokens, hatoken, hbtoken]
      exact .range haread hbread
  | binary hl hr _ _ ihl ihr =>
      rw [tokens]
      exact .binary _ hl hr ihl ihr
  | @unary op x hlevel _ ih =>
      cases op
      · rw [tokens]
        exact .negate hlevel ih
      · rw [tokens]
        exact .percent hlevel ih
  | paren _ ih =>
      rw [tokens]
      exact .paren ih
  | @call name arguments hname hcapitals _ ih =>
      have hcall := @Derives.call home name
        (arguments.map fun x => ⟨x.level, x.tokens home, x⟩) (by simpa using ih)
      simpa [tokens, level, hcapitals, Function.comp_def] using hcall

theorem BinaryOp.spelled_token : (op : BinaryOp) → op.token.IsSpelled
  | add => ⟨['+'], .symbol rfl⟩
  | subtract => ⟨['-'], .symbol rfl⟩
  | multiply => ⟨['*'], .symbol rfl⟩
  | divide => ⟨['/'], .symbol rfl⟩
  | power => ⟨['^'], .symbol rfl⟩
  | equal => ⟨['='], .symbol rfl⟩
  | notEqual => ⟨_, .notEqual⟩
  | lessThan => ⟨_, .lessThan⟩
  | lessEqual => ⟨_, .lessEqual⟩
  | greaterThan => ⟨_, .greaterThan⟩
  | greaterEqual => ⟨_, .greaterEqual⟩
  | concat => ⟨['&'], .symbol rfl⟩

theorem Reference.IsNamed.spelled_token {r : Reference} (h : r.IsNamed home) :
    (r.token home).IsSpelled := by
  obtain ⟨target, htoken, -⟩ := h.token_eq
  exact htoken ▸ ⟨_, .cell (Address.isCellWord_toA1 target)⟩

/-- The tokens of a well-formed expression can be written. -/
theorem Expr.WellFormed.spelled (h : x.WellFormed home) :
    ∀ t ∈ x.tokens home, t.IsSpelled := by
  have hleft : Token.leftParen.IsSpelled := ⟨['('], .symbol rfl⟩
  have hright : Token.rightParen.IsSpelled := ⟨[')'], .symbol rfl⟩
  induction h with
  | number h hx => simpa [tokens] using ⟨_, .number h hx⟩
  | text s => simpa [tokens] using ⟨_, .text s⟩
  | boolean b => simpa [tokens] using ⟨_, .boolean b⟩
  | error e => simpa [tokens] using ⟨_, .error e⟩
  | cell h => simpa [tokens] using h.spelled_token
  | range ha hb => simpa [tokens] using ⟨ha.spelled_token, ⟨[':'], .symbol rfl⟩, hb.spelled_token⟩
  | @binary op left right _ _ _ _ ihl ihr =>
      rw [tokens, List.forall_mem_append, List.forall_mem_cons]
      exact ⟨ihl, op.spelled_token, ihr⟩
  | @unary op x _ _ ih =>
      cases op
      · rw [tokens, List.forall_mem_cons]
        exact ⟨⟨['-'], .symbol rfl⟩, ih⟩
      · rw [tokens, List.forall_mem_append, List.forall_mem_singleton]
        exact ⟨ih, ⟨['%'], .symbol rfl⟩⟩
  | paren _ ih =>
      rw [tokens, List.forall_mem_cons, List.forall_mem_append, List.forall_mem_singleton]
      exact ⟨hleft, ih, hright⟩
  | @call name arguments hname _ _ ih =>
      rw [tokens, List.forall_mem_cons, List.forall_mem_cons, List.forall_mem_append,
        List.forall_mem_singleton]
      refine ⟨⟨_, .name hname⟩, hleft, Token.forall_mem_separated ⟨[','], .symbol rfl⟩ ?_, hright⟩
      simpa using ih

end Written

section Sentences

variable {home : Address} {l : Level} {ts : List Token} {x : Expr}

/-- What a sentence of scanned tokens stands for is well formed, and its level is no looser. -/
theorem Derives.wellFormed (h : Derives home l ts x) (hscanned : ∀ t ∈ ts, t.IsScanned) :
    x.WellFormed home ∧ l ≤ x.level := by
  induction h with
  | number x =>
      obtain ⟨w, hw, hx⟩ := (hscanned _ List.mem_cons_self).of_number
      exact ⟨.number hw hx, le_rfl⟩
  | text s => exact ⟨.text s, le_rfl⟩
  | boolean b => exact ⟨.boolean b, le_rfl⟩
  | error e => exact ⟨.error e, le_rfl⟩
  | cell h =>
      obtain ⟨hnamed, hsheet⟩ := Address.isNamed_of_ofA1 h
      exact ⟨.cell (Reference.isNamed_between hsheet hnamed), le_rfl⟩
  | range ha hb =>
      obtain ⟨hanamed, hasheet⟩ := Address.isNamed_of_ofA1 ha
      obtain ⟨hbnamed, hbsheet⟩ := Address.isNamed_of_ofA1 hb
      exact ⟨.range (Reference.isNamed_between hasheet hanamed)
        (Reference.isNamed_between hbsheet hbnamed), le_rfl⟩
  | paren _ ih =>
      rw [List.forall_mem_cons, List.forall_mem_append] at hscanned
      exact ⟨.paren (ih hscanned.2.1).1, le_rfl⟩
  | call name hall ih =>
      rw [List.forall_mem_cons, List.forall_mem_cons, List.forall_mem_append] at hscanned
      obtain ⟨hname, -, harguments, -⟩ := hscanned
      have hname := hname.of_name
      refine ⟨.call ?_ ?_ ?_, le_rfl⟩
      · rw [Text.toList_toCapitals]
        exact hname.capitals
      · rw [Text.toCapitals, Text.toList_toCapitals, hname.capitals_capitals, Text.toCapitals]
      · simp only [List.mem_map, forall_exists_index, and_imp, forall_apply_eq_imp_iff₂]
        exact fun a ha => (ih a ha fun t ht =>
          harguments t (Token.mem_separated (List.mem_map_of_mem ha) ht)).1
  | percent hlevel _ ih =>
      obtain ⟨hx, hle⟩ := ih (List.forall_mem_append.1 hscanned).1
      exact ⟨.unary (hlevel.trans hle) hx, le_rfl⟩
  | negate hlevel _ ih =>
      obtain ⟨hx, hle⟩ := ih (List.forall_mem_cons.1 hscanned).2
      exact ⟨.unary (hlevel.trans hle) hx, le_rfl⟩
  | plus hlevel _ ih =>
      obtain ⟨hx, hle⟩ := ih (List.forall_mem_cons.1 hscanned).2
      exact ⟨hx, hlevel.trans hle⟩
  | binary op hl hr _ _ ihl ihr =>
      rw [List.forall_mem_append, List.forall_mem_cons] at hscanned
      obtain ⟨hleft, hlle⟩ := ihl hscanned.1
      obtain ⟨hright, hrle⟩ := ihr hscanned.2.2
      exact ⟨.binary (hl.trans hlle) (hr.trans hrle) hleft hright, le_rfl⟩

theorem BinaryOp.isName_token (op : BinaryOp) : op.token.isName = false := by
  cases op <;> rfl

/-- In a sentence each name has its parenthesis behind it. -/
theorem Derives.namesCalled (h : Derives home l ts x) : Token.NamesCalled ts := by
  induction h with
  | number | text | boolean | error | cell => exact .singleton rfl
  | range => exact .cons rfl (.cons rfl (.singleton rfl))
  | paren _ ih => exact .cons rfl (ih.append (.singleton rfl))
  | @call name arguments _ ih =>
      refine .call name (.cons rfl (.append ?_ (.singleton rfl)))
      cases arguments with
      | nil => exact .nil
      | cons a more =>
          obtain ⟨ha, hmore⟩ := List.forall_mem_cons.1 ih
          exact ha.append (.flatMap rfl (by simpa using hmore))
  | percent _ _ ih => exact ih.append (.singleton rfl)
  | negate _ _ ih => exact .cons rfl ih
  | plus _ _ ih => exact .cons rfl ih
  | binary op _ _ _ _ ihl ihr => exact ihl.append (.cons op.isName_token ihr)

end Sentences

end Recalc
