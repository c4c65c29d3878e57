import Mathlib.Data.Char
import Mathlib.Data.List.Induction
import Mathlib.Data.List.Lex
import Mathlib.Tactic.Ring
import Recalc.Address
import Recalc.Proofs.Address.Variants
import Recalc.Proofs.Address.Width

/-!
# Columns in the order of their letters

A word of capital letters is a numeral to base twenty-six with digits from one to twenty-six. A word
is worth more than all shorter ones, and words of one length are worth more the later they stand in
the alphabet. Every word is the letters of the column that stands before its value, so columns are
in the order of their letters.
-/

namespace Recalc.Column

/-- What capital letters are worth by their places: `A` counts one and `Z` twenty-six, in each place
twenty-six times as much as in the place behind it. -/
def placeValue : List Char → Nat
  | [] => 0
  | c :: rest => (c.toNat - 'A'.toNat + 1) * 26 ^ rest.length + placeValue rest

section Letters

variable {c : Char} {d e m n : Nat} {rest word : List Char}

theorem toNat_letter (h : d < 26) : (letter d).toNat = 'A'.toNat + d := by
  revert d
  decide

theorem letter_lt_letter_iff (hd : d < 26) (he : e < 26) : letter d < letter e ↔ d < e := by
  have hnumbers : letter d < letter e ↔ (letter d).toNat < (letter e).toNat := Iff.rfl
  rw [hnumbers, toNat_letter hd, toNat_letter he, Nat.add_lt_add_iff_left]

theorem exists_letter (hc : c.isUpper = true) : ∃ d < 26, letter d = c :=
  Text.of_ascii (P := fun c => c.isUpper = true → ∃ d < 26, letter d = c) (by decide)
    (Text.lt_of_isAlpha (Text.isAlpha_of_isUpper hc)) hc

theorem isUpper_toUpper (hc : c.isAlpha = true) : c.toUpper.isUpper = true :=
  Text.of_ascii (P := fun c => c.isAlpha = true → c.toUpper.isUpper = true) (by decide)
    (Text.lt_of_isAlpha hc) hc

theorem placeValue_letter_cons (h : d < 26) (rest : List Char) :
    placeValue (letter d :: rest) = (d + 1) * 26 ^ rest.length + placeValue rest := by
  rw [placeValue, toNat_letter h, Nat.add_sub_cancel_left]

/-- Letters read one after the other are worth what their places give. -/
theorem worth_eq_placeValue (start : Nat) (h : ∀ c ∈ word, c.isUpper = true) :
    worth start word = start * 26 ^ word.length + placeValue word := by
  induction word generalizing start with
  | nil => simp [worth, placeValue]
  | cons c rest ih =>
      obtain ⟨hc, hrest⟩ := List.forall_mem_cons.1 h
      obtain ⟨d, hd, rfl⟩ := exists_letter hc
      calc
        worth start (letter d :: rest) = worth (start * 26 + digit (letter d)) rest := rfl
        _ = (start * 26 + (d + 1)) * 26 ^ rest.length + placeValue rest := by
          rw [ih _ hrest, digit_letter hd]
        _ = start * 26 ^ (letter d :: rest).length + placeValue (letter d :: rest) := by
          rw [placeValue_letter_cons hd, List.length_cons]
          ring

/-- The letters of a column are worth one more than its number. -/
theorem placeValue_letters (n : Nat) : placeValue (letters n) = n + 1 := by
  have hworth := worth_eq_placeValue 0 (isUpper_of_mem_letters n)
  rw [worth_letters, Nat.zero_mul, Nat.zero_add] at hworth
  exact hworth.symm

end Letters

/-! ## Words in order -/

section Order

variable {c d : Char} {u v : List Char}

/-- Among the words of one length the first has `A` and the last `Z` in each place. -/
theorem placeValue_bounds (hu : ∀ c ∈ u, c.isUpper = true) :
    26 ^ u.length ≤ 25 * placeValue u + 1 ∧ 25 * placeValue u + 26 ≤ 26 ^ (u.length + 1) := by
  induction u with
  | nil => decide
  | cons c u ih =>
      obtain ⟨hc, hrest⟩ := List.forall_mem_cons.1 hu
      obtain ⟨d, hd, rfl⟩ := exists_letter hc
      obtain ⟨hlow, hhigh⟩ := ih hrest
      have hfirst : 26 ^ u.length ≤ (d + 1) * 26 ^ u.length := Nat.le_mul_of_pos_left _ (by omega)
      have hlast : (d + 1) * 26 ^ u.length ≤ 26 * 26 ^ u.length :=
        Nat.mul_le_mul_right _ (by omega)
      rw [placeValue_letter_cons hd, List.length_cons]
      simp only [pow_succ] at hhigh ⊢
      omega

/-- Shorter words are worth less. -/
theorem placeValue_lt_of_length_lt (hu : ∀ c ∈ u, c.isUpper = true)
    (hv : ∀ c ∈ v, c.isUpper = true) (hlength : u.length < v.length) :
    placeValue u < placeValue v := by
  have hbounds : 25 * placeValue u + 26 ≤ 25 * placeValue v + 1 := by
    calc
      25 * placeValue u + 26 ≤ 26 ^ (u.length + 1) := (placeValue_bounds hu).2
      _ ≤ 26 ^ v.length := Nat.pow_le_pow_right (by decide) hlength
      _ ≤ 25 * placeValue v + 1 := (placeValue_bounds hv).1
  omega

/-- Of two words of one length the first letter decides. -/
theorem placeValue_cons_lt (hu : ∀ x ∈ c :: u, x.isUpper = true)
    (hv : ∀ x ∈ d :: v, x.isUpper = true) (hlength : u.length = v.length) (h : c < d) :
    placeValue (c :: u) < placeValue (d :: v) := by
  obtain ⟨hc, hrest⟩ := List.forall_mem_cons.1 hu
  obtain ⟨hd, hrest'⟩ := List.forall_mem_cons.1 hv
  obtain ⟨i, hi, rfl⟩ := exists_letter hc
  obtain ⟨j, hj, rfl⟩ := exists_letter hd
  -- The places behind the first differ by less than one in the first.
  have hplace : (i + 1) * 26 ^ v.length + 26 ^ v.length ≤ (j + 1) * 26 ^ v.length := by
    rw [← Nat.succ_mul]
    exact Nat.mul_le_mul_right _ (Nat.succ_le_succ ((letter_lt_letter_iff hi hj).1 h))
  have hhigh := (placeValue_bounds hrest).2
  have hlow := (placeValue_bounds hrest').1
  rw [placeValue_letter_cons hi, placeValue_letter_cons hj]
  rw [hlength] at hhigh ⊢
  rw [pow_succ] at hhigh
  omega

/-- Words of one length are worth more the later they stand in the alphabet. -/
theorem placeValue_lt_iff_of_length_eq (hu : ∀ c ∈ u, c.isUpper = true)
    (hv : ∀ c ∈ v, c.isUpper = true) (hlength : u.length = v.length) :
    placeValue u < placeValue v ↔ u < v := by
  induction u generalizing v with
  | nil =>
      obtain rfl := List.eq_nil_of_length_eq_zero hlength.symm
      exact iff_of_false (Nat.lt_irrefl _) (List.lt_irrefl _)
  | cons c u ih =>
      obtain ⟨d, v, rfl⟩ := List.exists_cons_of_length_eq_add_one hlength.symm
      have hrest : u.length = v.length := Nat.succ.inj hlength
      rw [List.cons_lt_cons_iff]
      rcases lt_trichotomy c d with h | rfl | h
      · exact iff_of_true (placeValue_cons_lt hu hv hrest h) (.inl h)
      · rw [placeValue, placeValue, hrest, Nat.add_lt_add_iff_left,
          ih (List.forall_mem_cons.1 hu).2 (List.forall_mem_cons.1 hv).2 hrest]
        simp
      · have hless := placeValue_cons_lt hv hu hrest.symm h
        exact iff_of_false (Nat.lt_asymm hless) (by simp [h.not_gt, h.ne'])

/-- Words are in the order of their values, shorter words first. -/
theorem placeValue_lt_iff (hu : ∀ c ∈ u, c.isUpper = true) (hv : ∀ c ∈ v, c.isUpper = true) :
    placeValue u < placeValue v ↔ u.length < v.length ∨ u.length = v.length ∧ u < v := by
  rcases lt_trichotomy u.length v.length with h | h | h
  · exact iff_of_true (placeValue_lt_of_length_lt hu hv h) (.inl h)
  · simp [placeValue_lt_iff_of_length_eq hu hv h, h]
  · have hless := placeValue_lt_of_length_lt hv hu h
    exact iff_of_false (Nat.lt_asymm hless) (by omega)

/-- Columns are in the order of their letters. -/
theorem lt_iff_letters (m n : Nat) :
    m < n ↔ (letters m).length < (letters n).length
      ∨ (letters m).length = (letters n).length ∧ letters m < letters n := by
  rw [← placeValue_lt_iff (isUpper_of_mem_letters m) (isUpper_of_mem_letters n),
    placeValue_letters, placeValue_letters, Nat.add_lt_add_iff_right]

end Order

/-! ## Words as the letters of columns -/

section Naming

variable {d m n : Nat} {word : List Char}

theorem letters_append_letter (m : Nat) (h : d < 26) :
    letters ((m + 1) * 26 + d) = letters m ++ [letter d] := by
  have hfront : ((m + 1) * 26 + d) / 26 - 1 = m := by omega
  have hlast : ((m + 1) * 26 + d) % 26 = d := by omega
  rw [letters_of_le (by omega), hfront, hlast]

/-- Every word of capital letters is the letters of a column. -/
theorem exists_letters_eq (hne : word ≠ []) (h : ∀ c ∈ word, c.isUpper = true) :
    ∃ n, letters n = word := by
  -- By the last letter, which is the one that the column's remainder by twenty-six gives.
  induction word using List.reverseRecOn with
  | nil => exact absurd rfl hne
  | append_singleton front c ih =>
      obtain ⟨hfront, hc⟩ := List.forall_mem_append.1 h
      obtain ⟨d, hd, rfl⟩ := exists_letter (hc c List.mem_cons_self)
      rcases eq_or_ne front [] with rfl | hne
      · exact ⟨d, letters_of_lt hd⟩
      · obtain ⟨m, rfl⟩ := ih hne hfront
        exact ⟨(m + 1) * 26 + d, letters_append_letter m hd⟩

/-- A word whose value stays within the number of columns is the letters of exactly one of them. -/
theorem placeValue_le_iff (hne : word ≠ []) (h : ∀ c ∈ word, c.isUpper = true) (columns : Nat) :
    placeValue word ≤ columns ↔ ∃! n, n < columns ∧ letters n = word := by
  obtain ⟨n, rfl⟩ := exists_letters_eq hne h
  rw [placeValue_letters]
  constructor
  · exact fun hn => ⟨n, ⟨hn, rfl⟩, fun m hm => letters_injective hm.2⟩
  · rintro ⟨m, ⟨hm, heq⟩, -⟩
    exact letters_injective heq ▸ hm

/-- Letters in either case are read as the column that has them as capitals, if a sheet can have
it. -/
theorem ofLetters_of_letters (hletters : ∀ c ∈ word, c.isAlpha = true)
    (h : letters n = word.map Char.toUpper) :
    ofLetters word =
      if n < maxColumns then .ok n else .error (.columnOutOfRange (String.ofList word)) := by
  have hne : word ≠ [] := by
    rintro rfl
    exact letters_ne_nil n h
  have hworth : worth 0 word = n + 1 := by
    rw [← worth_map_toUpper, ← h, worth_letters]
  split
  case isTrue hn => exact ofLetters_eq_ok_iff.2 ⟨hne, hletters, hworth, hn⟩
  case isFalse hn =>
    have herror : valueFrom word 0 word = .error (.columnOutOfRange (String.ofList word)) :=
      valueFrom_of_lt_worth (Nat.zero_le _) hletters (by omega)
    rw [ofLetters, if_neg (by simp [hne]), herror]
    rfl

end Naming

/-- The letters of columns are in the columns' order, shorter words before longer ones and words of
one length by the alphabet. A word of capital letters whose value stays within the coordinates is
the letters of exactly one column. Letters in either case are read as the column that has them as
capitals where a sheet can have it, and else refused, and however long a word is, all numbers on the
way are below the limit of 64 bits. -/
theorem letters_ordered :
    (∀ m n : Nat, m < n ↔ (letters m).length < (letters n).length
        ∨ (letters m).length = (letters n).length ∧ letters m < letters n)
      ∧ (∀ word : List Char, word ≠ [] → (∀ c ∈ word, c.isUpper = true) →
        (placeValue word ≤ Address.coordinateLimit ↔
          ∃! n, n < Address.coordinateLimit ∧ letters n = word))
      ∧ (∀ word : List Char, word ≠ [] → (∀ c ∈ word, c.isAlpha = true) →
        ∃ n, letters n = word.map Char.toUpper
          ∧ ofLetters word =
            if n < maxColumns then .ok n else .error (.columnOutOfRange (String.ofList word)))
      ∧ ∀ word : List Char, ofLettersBelow? (Nat.pow 2 64) word = some (ofLetters word) := by
  refine ⟨lt_iff_letters, fun word hne h => placeValue_le_iff hne h _, ?_,
    ofLettersBelow?_eq (by decide)⟩
  intro word hne hletters
  have hcapitals : ∀ c ∈ word.map Char.toUpper, c.isUpper = true :=
    List.forall_mem_map.2 fun c hc => isUpper_toUpper (hletters c hc)
  obtain ⟨n, hn⟩ := exists_letters_eq (mt List.map_eq_nil_iff.1 hne) hcapitals
  exact ⟨n, hn, ofLetters_of_letters hletters hn⟩

/-- The last column within the coordinates, and the first that no sheet can have. -/
theorem letters_ordered_lastColumns :
    placeValue ['M', 'W', 'L', 'Q', 'K', 'W', 'V'] = Address.coordinateLimit
      ∧ (∃! n, n < Address.coordinateLimit ∧ letters n = ['M', 'W', 'L', 'Q', 'K', 'W', 'V'])
      ∧ ofLetters ['x', 'F', 'e'] = .error (.columnOutOfRange "xFe") := by
  obtain ⟨-, hnamed, hread, -⟩ := letters_ordered
  have hvalue : placeValue ['M', 'W', 'L', 'Q', 'K', 'W', 'V'] = Address.coordinateLimit := by
    decide +kernel
  obtain ⟨n, hn, hrefused⟩ := hread ['x', 'F', 'e'] (List.cons_ne_nil _ _) (List.all_eq_true.1 rfl)
  obtain rfl : n = 16384 := letters_injective (hn.trans (by decide +kernel))
  rw [if_neg (by decide)] at hrefused
  exact ⟨hvalue, (hnamed _ (List.cons_ne_nil _ _) (List.all_eq_true.1 rfl)).1 hvalue.le, hrefused⟩

end Recalc.Column
