import Recalc.Proofs.Token.Numeral
import Recalc.Proofs.Token.Spelling

/-!
# A scan gets on

A scan that finds a token passes at least one character, and what it leaves is the end of the text
that it was given. So scanning comes to an end, with no more tokens than characters.
-/

namespace Recalc

namespace Token

open Text

/-! ## What a scan leaves -/

section Leaving

theorem numeralSpan_suffix {c : Char} {rest : List Char} (h : startsNumeral (c :: rest) = true) :
    (numeralSpan (c :: rest)).2 <:+ rest := by
  have hjoin := numeralSpan_join (s := c :: rest)
  obtain ⟨more, hspan⟩ := List.head?_eq_some_iff.mp (head?_numeralSpan h)
  rw [hspan, List.cons_append] at hjoin
  exact ⟨more, (List.cons.inj hjoin).2⟩

/-- A token takes the character it starts with, whatever else it takes. -/
theorem scanFrom_suffix (c : Char) (rest : List Char) : (scanFrom c rest).2 <:+ rest := by
  by_cases hplain : isPlain c = true
  · rw [scanFrom_plain hplain]
    split
    case isTrue h => exact numeralSpan_suffix h
    split
    · exact List.dropWhile_suffix _
    split
    · exact List.dropWhile_suffix _
    · exact List.suffix_rfl
  · cases hsymbol : symbol? c with
    | some t => exact ⟨[], congrArg Prod.snd (scanFrom_symbol hsymbol)⟩
    | none =>
        obtain rfl | rfl | rfl :=
          eq_of_isPlain_eq_false (Bool.eq_false_iff.mpr hplain) hsymbol
        · rw [scanFrom_less]
          split
          · exact List.suffix_cons _ _
          · exact List.suffix_cons _ _
          · exact List.suffix_rfl
        · rw [scanFrom_greater]
          split
          · exact List.suffix_cons _ _
          · exact List.suffix_rfl
        · exact textBody_suffix rest

/-- A scan that finds a token passes at least one character. -/
theorem length_lt_of_scan? {s rest : List Char} {t : Token} (h : scan? s = some (t, rest)) :
    rest.length < s.length := by
  have htrim : (trimStart s).length ≤ s.length := (List.dropWhile_suffix _).length_le
  unfold scan? at h
  split at h
  case h_1 => cases h
  case h_2 c more hfront =>
    have hrest := (scanFrom_suffix c more).length_le
    rw [Option.some.inj h] at hrest
    rw [hfront, List.length_cons] at htrim
    exact (Nat.lt_succ_of_le hrest).trans_le htrim

end Leaving

/-! ## Scanning a whole text -/

section Whole

variable {s rest : List Char} {t : Token}

/-- It does not matter how many tokens a text may have, if there may be one for each character. -/
theorem scanUpTo_eq_scanUpTo {limit limit' : Nat} (h : s.length ≤ limit)
    (h' : s.length ≤ limit') : scanUpTo limit s = scanUpTo limit' s := by
  induction limit generalizing s limit' with
  | zero =>
      rw [List.length_eq_zero_iff.mp (Nat.le_zero.mp h)]
      cases limit' <;> rfl
  | succ limit ih =>
      cases limit' with
      | zero =>
          rw [List.length_eq_zero_iff.mp (Nat.le_zero.mp h')]
          rfl
      | succ limit' =>
          rw [scanUpTo, scanUpTo]
          cases hscan : scan? s with
          | none => rfl
          | some found =>
              obtain ⟨t, rest⟩ := found
              have hlt := length_lt_of_scan? hscan
              exact congrArg (t :: ·) (ih (by omega) (by omega))

theorem scanAll_of_none (h : scan? s = none) : scanAll s = [] := by
  have hmore : scanAll s = scanUpTo (s.length + 1) s :=
    scanUpTo_eq_scanUpTo le_rfl (Nat.le_succ _)
  rw [hmore, scanUpTo, h]

theorem scanAll_of_some (h : scan? s = some (t, rest)) : scanAll s = t :: scanAll rest := by
  have hmore : scanAll s = scanUpTo (s.length + 1) s :=
    scanUpTo_eq_scanUpTo le_rfl (Nat.le_succ _)
  rw [hmore, scanUpTo, h]
  exact congrArg (t :: ·) (scanUpTo_eq_scanUpTo (length_lt_of_scan? h).le le_rfl)

theorem length_scanUpTo_le (limit : Nat) (s : List Char) : (scanUpTo limit s).length ≤ limit := by
  fun_induction scanUpTo limit s with
  | case1 => exact le_rfl
  | case2 => exact Nat.zero_le _
  | case3 limit s t rest hscan ih => exact Nat.succ_le_succ ih

theorem length_scanAll_le (s : List Char) : (scanAll s).length ≤ s.length :=
  length_scanUpTo_le s.length s

end Whole

end Token

end Recalc
