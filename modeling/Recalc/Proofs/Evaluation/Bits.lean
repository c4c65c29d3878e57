import Mathlib.Data.Nat.Bitwise
import Recalc.Proofs.Double.Whole
import Recalc.Proofs.Evaluation.Repetition
import Recalc.Proofs.Sheet.Contents

/-!
# Bits of whole numbers

The functions of bits take whole numbers below `2 ^ 48` and give such numbers, exactly, whether the
numbers are typed, coerced or computed. What is no such number is refused, the first argument before
the second is looked at.
-/

namespace Recalc

namespace Function

/-- The names of the functions of bits, and what they compute. -/
def bitwiseNames : List (String × (Nat → Nat → Nat)) :=
  [("BITAND", Nat.land), ("BITOR", Nat.lor), ("BITXOR", Nat.xor)]

theorem lt_of_mem_bitwiseNames {name : String} {op : Nat → Nat → Nat}
    (h : (name, op) ∈ bitwiseNames) {a b n : Nat} (ha : a < 2 ^ n) (hb : b < 2 ^ n) :
    op a b < 2 ^ n := by
  simp only [bitwiseNames, List.mem_cons, Prod.mk.injEq, List.not_mem_nil, or_false] at h
  obtain ⟨-, rfl⟩ | ⟨-, rfl⟩ | ⟨-, rfl⟩ := h
  · exact Nat.and_lt_two_pow a hb
  · exact Nat.or_lt_two_pow ha hb
  · exact Nat.xor_lt_two_pow ha hb

theorem toCapitals_mem_bitwiseNames {name : String} {op : Nat → Nat → Nat}
    (h : (name, op) ∈ bitwiseNames) : (Text.toCapitals name, op) ∈ bitwiseNames := by
  have hcapitals : ∀ entry ∈ bitwiseNames, Text.toCapitals entry.1 = entry.1 := by decide +kernel
  rwa [hcapitals (name, op) h]

/-- The bits that both numbers have and those that either has are together the bits of both. -/
theorem land_add_lor (a b : Nat) : Nat.land a b + Nat.lor a b = a + b := by
  change (a &&& b) + (a ||| b) = a + b
  induction a using Nat.binaryRec generalizing b with
  | zero => rw [Nat.zero_and, Nat.zero_or]
  | bit first a ih =>
      obtain ⟨second, b, rfl⟩ : ∃ second b', b = Nat.bit second b' :=
        ⟨b.bodd, b.div2, (Nat.bit_bodd_div2 b).symm⟩
      have hab := ih b
      rw [Nat.land_bit, Nat.lor_bit, Nat.bit_val, Nat.bit_val, Nat.bit_val, Nat.bit_val]
      cases first <;> cases second <;> simp <;> omega

end Function

/-! ## Operands -/

namespace Double

variable {x : Float} {a : Nat} {e : ErrorKind}

/-- No number, or one that is negative, too large or has a fraction. -/
def LacksBits (x : Float) : Prop :=
  x.isNaN = true ∨ ∃ u, position? x = some u
    ∧ (u < .ofRat 0 ∨ .ofRat (2 ^ 48) ≤ u ∨ ∃ q : ℚ, u = .ofRat q ∧ q.den ≠ 1)

/-- A rational number that is not negative and has no fraction is a natural number. -/
theorem exists_natCast_eq {q : ℚ} (hnonneg : 0 ≤ q) (hden : q.den = 1) : ∃ a : ℕ, (a : ℚ) = q := by
  obtain ⟨a, ha⟩ := Int.eq_ofNat_of_zero_le (Rat.num_nonneg.mpr hnonneg)
  refine ⟨a, ?_⟩
  calc (a : ℚ) = ((q.num : ℤ) : ℚ) := by rw [ha, Int.cast_natCast]
    _ = q := Rat.den_eq_one_iff q |>.mp hden

/-- What is refused is none of the whole numbers below `2 ^ 48`. -/
theorem lacksBits_iff : LacksBits x ↔ ∀ a : ℕ, a < 2 ^ 48 → position? x ≠ some (.ofRat a) := by
  constructor
  · rintro (hnan | ⟨u, hu, hcases⟩) a ha hplace
    · rw [exists_position?_iff.mp ⟨_, hplace⟩] at hnan
      cases hnan
    · obtain rfl := Option.some.inj (hu.symm.trans hplace)
      have ha' : (a : ℚ) < 2 ^ 48 := by exact_mod_cast ha
      obtain hnegative | hlarge | ⟨q, hq, hden⟩ := hcases
      · exact (Extended.ofRat_lt_ofRat.mp hnegative).not_ge (Nat.cast_nonneg a)
      · exact (Extended.ofRat_lt_ofRat.mpr ha').not_ge hlarge
      · rw [← Extended.ofRat_inj.mp hq] at hden
        exact hden (Rat.den_natCast a)
  · intro h
    cases hnan : x.isNaN with
    | true => exact .inl hnan
    | false =>
        obtain ⟨u, hu⟩ := exists_position?_iff.mpr hnan
        refine .inr ⟨u, hu, ?_⟩
        by_contra! hnot
        obtain ⟨hnonneg, hlt, hden⟩ := hnot
        obtain ⟨-, rfl⟩ | ⟨-, rfl⟩ | ⟨q, -, rfl⟩ := placeOf_cases hu
        · exact not_top_lt (WithBot.coe_lt_coe.mp hlt)
        · exact WithBot.not_coe_le_bot _ hnonneg
        · have hnonneg' : 0 ≤ q := not_lt.mp fun hq =>
            (Extended.ofRat_lt_ofRat.mpr hq).not_ge hnonneg
          obtain ⟨a, rfl⟩ := exists_natCast_eq hnonneg' (hden q rfl)
          exact h a (by exact_mod_cast Extended.ofRat_lt_ofRat.mp hlt) hu

theorem bitOperand_eq_ok_iff :
    Function.bitOperand x = .ok a ↔ a < 2 ^ 48 ∧ position? x = some (.ofRat a) := by
  rw [Function.bitOperand, ← toNat?_eq_some_iff]
  cases toNat? x with
  | none => exact iff_of_false nofun nofun
  | some n =>
      simp only [Nat.pow_eq]
      by_cases hn : n < 2 ^ 48
      · rw [if_pos hn, Except.ok.injEq, Option.some_inj]
        exact ⟨fun h => ⟨h ▸ hn, h⟩, And.right⟩
      · rw [if_neg hn]
        exact iff_of_false nofun fun ⟨ha, heq⟩ => hn (Option.some.inj heq ▸ ha)

theorem bitOperand_eq_error_iff :
    Function.bitOperand x = .error e ↔ e = .badNumber ∧ LacksBits x := by
  rw [lacksBits_iff]
  cases h : Function.bitOperand x with
  | ok a =>
      obtain ⟨ha, hplace⟩ := bitOperand_eq_ok_iff.mp h
      exact iff_of_false nofun fun ⟨_, hnone⟩ => hnone a ha hplace
  | error e' =>
      have he' : e' = .badNumber := by
        rw [Function.bitOperand] at h
        split at h
        · split at h
          · cases h
          · exact (Except.error.inj h).symm
        · exact (Except.error.inj h).symm
      have hnone : ∀ a : ℕ, a < 2 ^ 48 → position? x ≠ some (.ofRat a) := fun a ha hplace => by
        cases h.symm.trans (bitOperand_eq_ok_iff.mpr ⟨ha, hplace⟩)
      rw [he', Except.error.injEq]
      exact ⟨fun heq => ⟨heq.symm, hnone⟩, fun ⟨heq, _⟩ => heq.symm⟩

end Double

namespace Value

variable {v : Value} {a : Nat} {e : ErrorKind}

/-- The value as an operand of a function of bits. -/
def bits (v : Value) : Except ErrorKind Nat := v.toNumber >>= Function.bitOperand

/-- The value counts as a whole number below `2 ^ 48`. -/
def IsBits (v : Value) (a : Nat) : Prop :=
  a < 2 ^ 48 ∧ ∃ x, v.toNumber = .ok x ∧ Double.position? x = some (.ofRat a)

/-- The error of a value that counts as no number, or as one that is refused. -/
def LacksBits (v : Value) (e : ErrorKind) : Prop :=
  v.toNumber = .error e ∨ e = .badNumber ∧ ∃ x, v.toNumber = .ok x ∧ Double.LacksBits x

theorem bits_eq_ok_iff : v.bits = .ok a ↔ v.IsBits a := by
  rw [bits, IsBits]
  cases v.toNumber with
  | error e => exact iff_of_false nofun fun ⟨_, x, hx, _⟩ => by cases hx
  | ok x =>
      refine Double.bitOperand_eq_ok_iff.trans (and_congr_right fun _ => ?_)
      exact ⟨fun h => ⟨x, rfl, h⟩, fun ⟨y, hy, h⟩ => Except.ok.inj hy ▸ h⟩

theorem bits_eq_error_iff : v.bits = .error e ↔ v.LacksBits e := by
  rw [bits, LacksBits]
  cases v.toNumber with
  | error e' =>
      refine ⟨fun h => .inl (congrArg Except.error (Except.error.inj h)), ?_⟩
      rintro (h | ⟨-, x, hx, -⟩)
      · exact congrArg Except.error (Except.error.inj h)
      · cases hx
  | ok x =>
      refine Double.bitOperand_eq_error_iff.trans ⟨fun ⟨he, h⟩ => .inr ⟨he, x, rfl, h⟩, ?_⟩
      rintro (h | ⟨he, y, hy, h⟩)
      · cases h
      · exact ⟨he, Except.ok.inj hy ▸ h⟩

/-- Every value is taken or refused. -/
theorem isBits_or_lacksBits (v : Value) : (∃ a, v.IsBits a) ∨ ∃ e, v.LacksBits e := by
  cases h : v.bits with
  | ok a => exact .inl ⟨a, bits_eq_ok_iff.mp h⟩
  | error e => exact .inr ⟨e, bits_eq_error_iff.mp h⟩

theorem isBits_ofNat (h : a < 2 ^ 48) : (number (Double.ofNat a)).IsBits a :=
  ⟨h, _, rfl, Double.position?_ofNat (h.trans (by decide))⟩

/-- Whole numbers are added exactly. -/
theorem add_ofNat {b : Nat} (h : a + b < 2 ^ 53) :
    BinaryOp.add.apply (number (Double.ofNat a)) (number (Double.ofNat b))
      = number (Double.ofNat (a + b)) := by
  have hsum : ofFinite (Double.ofNat a + Double.ofNat b) = .ok (number (Double.ofNat (a + b))) := by
    rw [Double.ofNat_add_ofNat h, ofFinite, if_pos (Double.isFinite_ofNat _)]
  exact congrArg ofExcept hsum

end Value

/-! ## Calls -/

theorem Eval.settle_fst (m : Attempt Value) (view : View) (c : Caches) :
    (settle m view c).1 = Value.ofExcept (m.run view c).1 := rfl

namespace Attempt

variable {α β : Type}

theorem run_bind (m : Attempt α) (k : α → Attempt β) (view : View) (c : Caches) :
    (m >>= k).run view c = match m.run view c with
      | (.ok x, c') => (k x).run view c'
      | (.error e, c') => (.error e, c') := by
  change ExceptT.bindCont k (m.run view c).1 view (m.run view c).2 = _
  obtain ⟨_ | x, c'⟩ := m.run view c <;> rfl

theorem run_except (x : Except ErrorKind α) (view : View) (c : Caches) :
    (liftM x : Attempt α).run view c = (x, c) := by
  cases x <;> rfl

theorem run_number (value : Eval Value) (view : View) (c : Caches) :
    (number value).run view c = ((value view c).1.toNumber, (value view c).2) := by
  have hread : (liftM value : Attempt Value).run view c
      = (.ok (value view c).1, (value view c).2) := rfl
  rw [number, run_bind, hread]
  dsimp only
  cases (value view c).1.toNumber <;> rfl

theorem run_bits (value : Eval Value) (view : View) (c : Caches) :
    (number value >>= fun x => liftM (Function.bitOperand x)).run view c
      = ((value view c).1.bits, (value view c).2) := by
  rw [run_bind, run_number, Value.bits]
  cases (value view c).1.toNumber with
  | error e => rfl
  | ok x => exact run_except _ _ _

end Attempt

namespace Function

/-- A call with two arguments looks at the second one if the first is taken. -/
theorem bitwise_pair (f : Nat → Nat → Nat) (home : Address) (a b : Argument) (registered : Nat)
    (view : View) (c : Caches) :
    (bitwise f ⟨home, [a, b], registered⟩ view c).1 = Value.ofExcept (do
      let m ← (a.value view c).1.bits
      let n ← (b.value view (a.value view c).2).1.bits
      return .number (Double.ofNat (f m n))) := by
  have hcall : bitwise f ⟨home, [a, b], registered⟩ = Eval.settle (
      (Attempt.number a.value >>= fun x => liftM (bitOperand x)) >>= fun m =>
        (Attempt.number b.value >>= fun y => liftM (bitOperand y)) >>= fun n =>
          pure (.number (Double.ofNat (f m n)))) := by
    simp only [bind_assoc]
    rfl
  rw [hcall, Eval.settle_fst, Attempt.run_bind, Attempt.run_bits]
  cases (a.value view c).1.bits with
  | error e => rfl
  | ok m =>
      dsimp only
      rw [Attempt.run_bind, Attempt.run_bits]
      cases (b.value view (a.value view c).2).1.bits <;> rfl

theorem bitwise_of_length_ne {f : Nat → Nat → Nat} {call : Call} (h : call.arguments.length ≠ 2)
    (view : View) (c : Caches) : (bitwise f call view c).1 = .error .notAvailable := by
  have harity : checkArity call.arguments.length 2 2 = .error .notAvailable :=
    if_pos (by simp; omega)
  rw [bitwise, harity]
  rfl

end Function

/-- The names of the functions of bits are those of the functions that are always there. -/
def Registry.HasBits (functions : Registry) : Prop :=
  ∀ name op, (Text.toCapitals name, op) ∈ Function.bitwiseNames →
    ∃ f, functions.find? name = some f ∧ f.run = Function.bitwise op

theorem Function.bitwise_mem_builtin {name : String} {op : Nat → Nat → Nat}
    (h : (name, op) ∈ bitwiseNames) : ⟨name, name, false, bitwise op⟩ ∈ builtin := by
  simp only [bitwiseNames, List.mem_cons, Prod.mk.injEq, List.not_mem_nil, or_false] at h
  obtain ⟨rfl, rfl⟩ | ⟨rfl, rfl⟩ | ⟨rfl, rfl⟩ := h <;> simp [builtin, binary]

theorem Registry.hasBits_builtin : builtin.HasBits := fun _ _ h =>
  ⟨_, find?_builtin_of_mem (Function.bitwise_mem_builtin h) rfl, rfl⟩

/-- The vertices of a sheet's ranges stand for those ranges. -/
theorem Sheet.Labelled.faithful {s : Sheet} (h : s.Labelled) : s.view.Faithful := by
  intro r id hid
  obtain ⟨hget, -⟩ := Option.filter_eq_some_iff.mp hid
  obtain ⟨v, hv, hfits⟩ := h.fits (.range r) id hget
  cases v with
  | range covered => exact hfits ▸ hv
  | _ => exact hfits.elim

namespace Sheet

variable {functions : Registry} {s : Sheet} {home : Address}

/-- Evaluating something else before does not change a value. -/
theorem evaluate_after (h : functions.Steady s.view) (x y : Expr) :
    ((s.evaluate (x.evaluate functions home)).2.evaluate (y.evaluate functions home)).1
      = (s.evaluate (y.evaluate functions home)).1 :=
  (y.steady_evaluate h home).result_eq (x.steady_evaluate h home) s.store.caches

section Calls

variable (hbits : functions.HasBits) {name : String} {op : Nat → Nat → Nat}
  (hname : (Text.toCapitals name, op) ∈ Function.bitwiseNames)
include hbits hname

theorem evaluate_bits (x y : Expr) :
    (s.evaluate ((Expr.call name [x, y]).evaluate functions home)).1 = Value.ofExcept (do
      let m ← (s.evaluate (x.evaluate functions home)).1.bits
      let n ← ((s.evaluate (x.evaluate functions home)).2.evaluate
        (y.evaluate functions home)).1.bits
      return .number (Double.ofNat (op m n))) := by
  obtain ⟨f, hf, hrun⟩ := hbits name op hname
  rw [Expr.evaluate, hf]
  dsimp only
  rw [hrun, Expr.argumentsOf_eq_map, List.map_cons, List.map_cons, List.map_nil]
  exact Function.bitwise_pair op home ⟨x.literalRange? home, x.evaluate functions home⟩
    ⟨y.literalRange? home, y.evaluate functions home⟩ functions.size s.view s.store.caches

theorem evaluate_bits_of_length_ne {arguments : List Expr} (h : arguments.length ≠ 2) :
    (s.evaluate ((Expr.call name arguments).evaluate functions home)).1
      = .error .notAvailable := by
  obtain ⟨f, hf, hrun⟩ := hbits name op hname
  rw [Expr.evaluate, hf]
  dsimp only
  rw [hrun]
  refine Function.bitwise_of_length_ne ?_ s.view s.store.caches
  rwa [Expr.argumentsOf_eq_map, List.length_map]

/-- Where functions are steady, it makes no difference that one argument is evaluated before the
other. -/
theorem evaluate_bits_of_steady (h : functions.Steady s.view) {x y : Expr} {a b : Nat}
    (hx : (s.evaluate (x.evaluate functions home)).1.IsBits a)
    (hy : (s.evaluate (y.evaluate functions home)).1.IsBits b) :
    (s.evaluate ((Expr.call name [x, y]).evaluate functions home)).1
      = .number (Double.ofNat (op a b)) := by
  rw [evaluate_bits hbits hname, evaluate_after h, Value.bits_eq_ok_iff.mpr hx,
    Value.bits_eq_ok_iff.mpr hy]
  rfl

end Calls

theorem evaluate_add_of_steady (h : functions.Steady s.view) {x y : Expr} {a b : Nat}
    (hx : (s.evaluate (x.evaluate functions home)).1 = .number (Double.ofNat a))
    (hy : (s.evaluate (y.evaluate functions home)).1 = .number (Double.ofNat b))
    (hlt : a + b < 2 ^ 53) :
    (s.evaluate ((Expr.binary .add x y).evaluate functions home)).1
      = .number (Double.ofNat (a + b)) := by
  calc (s.evaluate ((Expr.binary .add x y).evaluate functions home)).1
      = BinaryOp.add.apply (s.evaluate (x.evaluate functions home)).1
          ((s.evaluate (x.evaluate functions home)).2.evaluate
            (y.evaluate functions home)).1 := by
        rw [Expr.evaluate]
        rfl
    _ = .number (Double.ofNat (a + b)) := by
        rw [evaluate_after h, hx, hy, Value.add_ofNat hlt]

section Laws

variable (hbits : functions.HasBits) (h : functions.Steady s.view) {x y : Expr} {a b : Nat}
  (hx : (s.evaluate (x.evaluate functions home)).1.IsBits a)
  (hy : (s.evaluate (y.evaluate functions home)).1.IsBits b)
include hbits h hx hy

theorem evaluate_xor_xor :
    (s.evaluate ((Expr.call "BITXOR" [.call "BITXOR" [x, y], y]).evaluate functions home)).1
      = .number (Double.ofNat a) := by
  have hxor : (Text.toCapitals "BITXOR", Nat.xor) ∈ Function.bitwiseNames :=
    Function.toCapitals_mem_bitwiseNames
      (List.mem_cons_of_mem _ (List.mem_cons_of_mem _ List.mem_cons_self))
  have honce : (s.evaluate ((Expr.call "BITXOR" [x, y]).evaluate functions home)).1
      = .number (Double.ofNat (a ^^^ b)) := evaluate_bits_of_steady hbits hxor h hx hy
  have hagain : (s.evaluate ((Expr.call "BITXOR" [x, y]).evaluate functions home)).1.IsBits
      (a ^^^ b) := by
    rw [honce]
    exact Value.isBits_ofNat (Nat.xor_lt_two_pow hx.1 hy.1)
  calc (s.evaluate ((Expr.call "BITXOR" [.call "BITXOR" [x, y], y]).evaluate functions home)).1
      = .number (Double.ofNat (a ^^^ b ^^^ b)) := evaluate_bits_of_steady hbits hxor h hagain hy
    _ = .number (Double.ofNat a) := by rw [Nat.xor_xor_cancel_right]

theorem evaluate_and_add_or :
    (s.evaluate ((Expr.binary .add (.call "BITAND" [x, y]) (.call "BITOR" [x, y])).evaluate
      functions home)).1 = .number (Double.ofNat (a + b)) := by
  have hand : (Text.toCapitals "BITAND", Nat.land) ∈ Function.bitwiseNames :=
    Function.toCapitals_mem_bitwiseNames List.mem_cons_self
  have hor : (Text.toCapitals "BITOR", Nat.lor) ∈ Function.bitwiseNames :=
    Function.toCapitals_mem_bitwiseNames (List.mem_cons_of_mem _ List.mem_cons_self)
  have hsum := Function.land_add_lor a b
  have hlt : Nat.land a b + Nat.lor a b < 2 ^ 53 := by
    have := hx.1
    have := hy.1
    omega
  rw [← hsum]
  exact evaluate_add_of_steady h (evaluate_bits_of_steady hbits hand h hx hy)
    (evaluate_bits_of_steady hbits hor h hx hy) hlt

end Laws

/-- The functions of bits are exact on whole numbers below `2 ^ 48`, and their results are such
numbers. They refuse any other number of arguments than two, and any other argument by its own error
or as a bad number, the first one first. So a second exclusive "or" undoes the first, and what two
numbers have in common and what either has add up to their sum. -/
theorem bitwise_exact (hbits : functions.HasBits) (s : Sheet) (home : Address) :
    let run := fun (s : Sheet) (x : Expr) => s.evaluate (x.evaluate functions home)
    (∀ n : ℕ, n < 2 ^ 53 → Double.position? (Double.ofNat n) = some (.ofRat n))
      ∧ (∀ v : Value, (∃ a, v.IsBits a) ∨ ∃ e, v.LacksBits e)
      ∧ (∀ name op, (Text.toCapitals name, op) ∈ Function.bitwiseNames →
        (∀ arguments, arguments.length ≠ 2 →
          (run s (.call name arguments)).1 = .error .notAvailable)
        ∧ ∀ x y,
          let left := (run s x).1
          let right := (run (run s x).2 y).1
          let result := (run s (.call name [x, y])).1
          (∀ a b, left.IsBits a → right.IsBits b →
            result = .number (Double.ofNat (op a b)) ∧ result.IsBits (op a b))
          ∧ (∀ e, left.LacksBits e → result = .error e)
          ∧ ∀ a e, left.IsBits a → right.LacksBits e → result = .error e)
      ∧ (functions.Steady s.view → ∀ x y a b, (run s x).1.IsBits a → (run s y).1.IsBits b →
        (run s (.call "BITXOR" [.call "BITXOR" [x, y], y])).1 = .number (Double.ofNat a)
        ∧ (run s (.binary .add (.call "BITAND" [x, y]) (.call "BITOR" [x, y]))).1
          = .number (Double.ofNat (a + b)))
      ∧ Registry.builtin.HasBits ∧ (s.Labelled → Registry.builtin.Steady s.view) := by
  intro run
  refine ⟨fun n => Double.position?_ofNat, Value.isBits_or_lacksBits, fun name op hname =>
    ⟨fun arguments => evaluate_bits_of_length_ne hbits hname, fun x y => ?_⟩,
    fun hsteady x y a b hx hy => ?_, Registry.hasBits_builtin,
    fun hs => Registry.steady_builtin hs.faithful⟩
  · intro left right result
    have hresult : result = Value.ofExcept (do
        let m ← left.bits
        let n ← right.bits
        return .number (Double.ofNat (op m n))) := evaluate_bits hbits hname x y
    rw [hresult]
    refine ⟨fun a b ha hb => ?_, fun e he => ?_, fun a e ha he => ?_⟩
    · rw [Value.bits_eq_ok_iff.mpr ha, Value.bits_eq_ok_iff.mpr hb]
      exact ⟨rfl, Value.isBits_ofNat (Function.lt_of_mem_bitwiseNames hname ha.1 hb.1)⟩
    · rw [Value.bits_eq_error_iff.mpr he]
      rfl
    · rw [Value.bits_eq_ok_iff.mpr ha, Value.bits_eq_error_iff.mpr he]
      rfl
  · exact ⟨evaluate_xor_xor hbits hsteady hx hy, evaluate_and_add_or hbits hsteady hx hy⟩

/-- A text and a boolean that count as numbers, and a number with a fraction. -/
theorem bitwise_exact_coerced :
    let value := fun x : Expr => ((blank 0 1 1).evaluate (x.evaluate Registry.builtin ⟨0, 0, 0⟩)).1
    value (.call "BITXOR" [.call "BITXOR" [.text "6", .boolean true], .boolean true])
        = .number (Double.ofNat 6)
      ∧ value (.call "bitand" [.number 0.5, .text "x"]) = .error .badNumber := by
  intro value
  obtain ⟨-, -, hcall, hlaws, -, hsteady⟩ :=
    bitwise_exact Registry.hasBits_builtin (blank 0 1 1) ⟨0, 0, 0⟩
  have hsix : (Value.text "6").bits = .ok 6 := by decide +kernel
  have hone : (Value.boolean true).bits = .ok 1 := by decide +kernel
  have hhalf : (Value.number 0.5).bits = .error .badNumber := by decide +kernel
  constructor
  · exact (hlaws (hsteady (labelled_blank 0 1 1)) (.text "6") (.boolean true) 6 1
      (Value.bits_eq_ok_iff.mp hsix) (Value.bits_eq_ok_iff.mp hone)).1
  · have hand : (Text.toCapitals "bitand", Nat.land) ∈ Function.bitwiseNames := by
      rw [show Text.toCapitals "bitand" = "BITAND" by decide +kernel]
      exact List.mem_cons_self
    exact ((hcall "bitand" Nat.land hand).2 (.number 0.5) (.text "x")).2.1 .badNumber
      (Value.bits_eq_error_iff.mp hhalf)

end Sheet

end Recalc
