import Mathlib.Data.List.Basic
import Recalc.Address.Column
import Recalc.Proofs.Text.Ascii

/-!
# Columns and their letters

The letters of a column are worth its number, and no two columns have the same. Letters are read as
the column whose number they are worth, if a sheet can have it.
-/

namespace Recalc.Column

theorem isUpper_letter {d : Nat} (h : d < 26) : (letter d).isUpper = true := by
  revert d
  decide

theorem digit_letter {d : Nat} (h : d < 26) : digit (letter d) = d + 1 := by
  revert d
  decide

theorem letters_ne_nil (n : Nat) : letters n ≠ [] := by
  simp [letters, lettersWithin]

/-- The letters of columns are capital letters. -/
theorem isUpper_of_mem_letters (n : Nat) : ∀ c ∈ letters n, c.isUpper = true := by
  induction n using Nat.strongRecOn with
  | ind n ih =>
      by_cases hn : n < 26
      · simp [letters_of_lt hn, isUpper_letter hn]
      · intro c hc
        rw [letters_of_le (by omega), List.mem_append, List.mem_singleton] at hc
        rcases hc with hc | rfl
        · exact ih _ (by omega) c hc
        · exact isUpper_letter (Nat.mod_lt n (by decide))

theorem isAlpha_of_mem_letters (n : Nat) : ∀ c ∈ letters n, c.isAlpha = true :=
  fun c hc => Text.isAlpha_of_isUpper (isUpper_of_mem_letters n c hc)

section Reading

variable {word rest : List Char} {value n : Nat}

/-- What letters are worth where they go on from others worth `start`. -/
def worth (start : Nat) (letters : List Char) : Nat :=
  letters.foldl (fun value c => value * 26 + digit c) start

theorem worth_append (start : Nat) (front back : List Char) :
    worth start (front ++ back) = worth (worth start front) back := List.foldl_append

theorem le_worth (start : Nat) (letters : List Char) : start ≤ worth start letters := by
  induction letters generalizing start with
  | nil => exact Nat.le_refl start
  | cons c letters ih =>
      calc
        start ≤ start * 26 + digit c := by omega
        _ ≤ worth start (c :: letters) := ih _

/-- The first letter is worth something already. -/
theorem worth_cons_pos (start : Nat) (c : Char) (letters : List Char) :
    0 < worth start (c :: letters) := by
  calc
    0 < start * 26 + digit c := Nat.add_pos_right _ (Nat.succ_pos _)
    _ ≤ worth start (c :: letters) := le_worth _ letters

/-- The letters of a column are worth its number, counted from one. -/
theorem worth_letters (n : Nat) : worth 0 (letters n) = n + 1 := by
  induction n using Nat.strongRecOn with
  | ind n ih =>
      by_cases hn : n < 26
      · rw [letters_of_lt hn, worth, List.foldl_cons, List.foldl_nil, digit_letter hn]
        omega
      · rw [letters_of_le (by omega), worth_append, ih _ (by omega), worth, List.foldl_cons,
          List.foldl_nil, digit_letter (Nat.mod_lt n (by decide))]
        omega

/-- No two columns have the same letters. -/
theorem letters_injective : Function.Injective letters := by
  intro m n h
  have hworth : m + 1 = n + 1 := by rw [← worth_letters m, h, worth_letters n]
  exact Nat.succ_inj.1 hworth

/-- Reading stops at the first letter that leads too far, for the letters behind it lead further. -/
theorem valueFrom_eq_ok_iff (hvalue : value ≤ maxColumns) :
    valueFrom word value rest = .ok n ↔
      (∀ c ∈ rest, c.isAlpha = true) ∧ worth value rest = n ∧ n ≤ maxColumns := by
  fun_induction valueFrom word value rest with
  | case1 value =>
      rw [Except.ok.injEq]
      constructor
      · rintro rfl
        exact ⟨List.forall_mem_nil _, rfl, hvalue⟩
      · exact fun h => h.2.1
  | case2 value c rest hc =>
      refine iff_of_false nofun fun h => ?_
      simp [h.1 c List.mem_cons_self] at hc
  | case3 value c rest _ hlarge =>
      refine iff_of_false nofun fun h => ?_
      have hworth : value * 26 + digit c ≤ n := h.2.1 ▸ le_worth _ rest
      omega
  | case4 value c rest hc hlarge ih =>
      rw [Bool.not_eq_true', Bool.not_eq_false] at hc
      rw [ih (by omega), List.forall_mem_cons, and_iff_right hc]
      rfl

/-- Letters that lead too far are told so, however many follow. -/
theorem valueFrom_of_lt_worth (hvalue : value ≤ maxColumns)
    (hletters : ∀ c ∈ rest, c.isAlpha = true) (hworth : maxColumns < worth value rest) :
    valueFrom word value rest = .error (.columnOutOfRange (String.ofList word)) := by
  fun_induction valueFrom word value rest with
  | case1 value => exact absurd hworth (Nat.not_lt_of_le hvalue)
  | case2 value c rest hc =>
      rw [hletters c List.mem_cons_self] at hc
      cases hc
  | case3 => rfl
  | case4 value c rest _ hlarge ih =>
      exact ih (Nat.le_of_not_lt hlarge) (List.forall_mem_cons.1 hletters).2 hworth

/-- Letters name a column if they are worth its number and a sheet can have it. -/
theorem ofLetters_eq_ok_iff :
    ofLetters word = .ok n ↔
      word ≠ [] ∧ (∀ c ∈ word, c.isAlpha = true) ∧ worth 0 word = n + 1 ∧ n < maxColumns := by
  cases word with
  | nil => exact iff_of_false nofun fun h => h.1 rfl
  | cons c word =>
      have hpos : 0 < worth 0 (c :: word) := worth_cons_pos 0 c word
      have hread : ofLetters (c :: word) = .ok n ↔
          ∃ m, valueFrom (c :: word) 0 (c :: word) = .ok m ∧ m - 1 = n := by
        rw [ofLetters, if_neg (by simp)]
        cases valueFrom (c :: word) 0 (c :: word) <;> simp [Except.map]
      rw [hread]
      simp only [valueFrom_eq_ok_iff (Nat.zero_le _)]
      constructor
      · rintro ⟨m, ⟨hletters, rfl, hm⟩, rfl⟩
        exact ⟨List.cons_ne_nil _ _, hletters, by omega, by omega⟩
      · rintro ⟨-, hletters, hworth, hn⟩
        exact ⟨n + 1, ⟨hletters, hworth, hn⟩, rfl⟩

end Reading

end Recalc.Column
