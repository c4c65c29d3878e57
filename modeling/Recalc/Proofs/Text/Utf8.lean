import Mathlib.Data.List.Basic
import Recalc.Text.Utf8

/-!
# The bytes of a text

A text is read back from its bytes, also by the reader that puts replacement characters for what is
not UTF-8. Below 128 a byte is a character of its own; no other character has such a byte.
-/

namespace Recalc.Text.Utf8

/-- The bytes of characters. -/
def ofChars (s : List Char) : List UInt8 := s.flatMap String.utf8EncodeChar

@[simp] theorem ofChars_nil : ofChars [] = [] := rfl

@[simp] theorem ofChars_append (s t : List Char) : ofChars (s ++ t) = ofChars s ++ ofChars t :=
  List.flatMap_append

theorem ofChars_cons (c : Char) (s : List Char) :
    ofChars (c :: s) = String.utf8EncodeChar c ++ ofChars s := rfl

theorem toList_loop (bytes : ByteArray) (i : Nat) (before : List UInt8) :
    ByteArray.toList.loop bytes i before = before.reverse ++ bytes.data.toList.drop i := by
  induction hleft : bytes.size - i generalizing i before with
  | zero =>
      have hi : ¬ i < bytes.size := by omega
      rw [ByteArray.toList.loop, if_neg hi, List.drop_eq_nil_of_le, List.append_nil]
      rw [Array.length_toList]
      exact Nat.le_of_not_lt hi
  | succ left ih =>
      have hi : i < bytes.size := by omega
      have hlt : i < bytes.data.toList.length := hi
      have hget : bytes.get! i = bytes.data.toList[i] := getElem!_pos bytes.data i hi
      rw [ByteArray.toList.loop, if_pos hi, ih (i + 1) _ (by omega), hget,
        List.drop_eq_getElem_cons hlt, List.reverse_cons, List.append_assoc]
      rfl

theorem toList_eq (bytes : ByteArray) : bytes.toList = bytes.data.toList := by
  rw [ByteArray.toList, toList_loop]
  rfl

theorem encode_ofList (s : List Char) : encode (String.ofList s) = ofChars s := by
  rw [encode, String.toUTF8, toList_eq, String.toByteArray_ofList, List.utf8Encode,
    List.toList_data_toByteArray, ofChars]

theorem encode_eq (s : String) : encode s = ofChars s.toList := by
  rw [← encode_ofList, String.ofList_toList]

@[simp] theorem decode?_encode (s : String) : decode? (encode s) = some s := by
  have hbytes : (⟨(encode s).toArray⟩ : ByteArray) = s.toByteArray := by
    rw [encode, String.toUTF8, toList_eq]
  rw [decode?, hbytes, String.fromUTF8?, dif_pos s.isValidUTF8]
  rfl

/-! ## Reading one character -/

section Bytes

variable {b low high : UInt8} {rest : List UInt8} {more code : Nat}

theorem continue?_cons (h : low ≤ b) (h' : b ≤ high) :
    continue? (more + 1) low high code (b :: rest)
      = (continue? more 0x80 0xBF (code * 0x40 + b.toNat % 0x40) rest).map id (· + 1) := by
  simp only [continue?, h, h', decide_true, Bool.and_self, if_true]
  rfl

/-- A byte with the six lowest bits of a number, which follows the first byte of a character. -/
def tailByte (n : Nat) : UInt8 := UInt8.ofNat (n % 64 + 128)

@[simp] theorem toNat_tailByte (n : Nat) : (tailByte n).toNat = n % 64 + 128 := by
  rw [tailByte, UInt8.toNat_ofNat', Nat.mod_eq_of_lt (by omega)]

/-- Tail bytes are taken, and their bits are put behind those that there are. -/
theorem continue?_tailByte (n : Nat) (hlow : low.toNat ≤ n % 64 + 128)
    (hhigh : n % 64 + 128 ≤ high.toNat) :
    continue? (more + 1) low high code (tailByte n :: rest)
      = (continue? more 0x80 0xBF (code * 64 + n % 64) rest).map id (· + 1) := by
  have hlow' : low ≤ tailByte n := by simpa [UInt8.le_iff_toNat_le] using hlow
  have hhigh' : tailByte n ≤ high := by simpa [UInt8.le_iff_toNat_le] using hhigh
  have hbits : (n % 64 + 128) % 0x40 = n % 64 := by omega
  rw [continue?_cons hlow' hhigh', toNat_tailByte, hbits]

theorem continue?_tailByte_any (n : Nat) :
    continue? (more + 1) 0x80 0xBF code (tailByte n :: rest)
      = (continue? more 0x80 0xBF (code * 64 + n % 64) rest).map id (· + 1) :=
  continue?_tailByte n (by simp) (by simp; omega)

end Bytes

/-! ### The first byte tells how many bytes follow, and which values the next one may have -/

section FirstByte

variable {b : UInt8}

theorem plan?_one (h : b.toNat < 0x80) : plan? b = some (0, 0, 0) := by
  simp [plan?, UInt8.lt_iff_toNat_lt, h]

theorem plan?_two (h : 0xC2 ≤ b.toNat) (h' : b.toNat ≤ 0xDF) :
    plan? b = some (1, 0x80, 0xBF) := by
  have : ¬ b.toNat < 0x80 := by omega
  simp [plan?, UInt8.lt_iff_toNat_lt, UInt8.le_iff_toNat_le, this, h, h']

theorem plan?_three (h : 0xE0 ≤ b.toNat) (h' : b.toNat ≤ 0xEF) :
    plan? b = some (2, if b.toNat = 0xE0 then 0xA0 else 0x80,
      if b.toNat = 0xED then 0x9F else 0xBF) := by
  simp only [plan?, UInt8.lt_iff_toNat_lt, UInt8.le_iff_toNat_le, ← UInt8.toNat_inj,
    UInt8.reduceToNat]
  grind

theorem plan?_four (h : 0xF0 ≤ b.toNat) (h' : b.toNat ≤ 0xF4) :
    plan? b = some (3, if b.toNat = 0xF0 then 0x90 else 0x80,
      if b.toNat = 0xF4 then 0x8F else 0xBF) := by
  simp only [plan?, UInt8.lt_iff_toNat_lt, UInt8.le_iff_toNat_le, ← UInt8.toNat_inj,
    UInt8.reduceToNat]
  grind

end FirstByte

theorem leadBits_one {b : UInt8} (h : b.toNat < 0x80) : leadBits b = b.toNat := by
  simp [leadBits, UInt8.lt_iff_toNat_lt, h]

theorem leadBits_two {b : UInt8} (h : 0x80 ≤ b.toNat) (h' : b.toNat < 0xE0) :
    leadBits b = b.toNat % 32 := by
  have h1 : ¬ b.toNat < 0x80 := by omega
  simp [leadBits, UInt8.lt_iff_toNat_lt, h1, h']

theorem leadBits_three {b : UInt8} (h : 0xE0 ≤ b.toNat) (h' : b.toNat < 0xF0) :
    leadBits b = b.toNat % 16 := by
  have h1 : ¬ b.toNat < 0x80 := by omega
  have h2 : ¬ b.toNat < 0xE0 := by omega
  simp [leadBits, UInt8.lt_iff_toNat_lt, h1, h2, h']

theorem leadBits_four {b : UInt8} (h : 0xF0 ≤ b.toNat) : leadBits b = b.toNat % 8 := by
  have h1 : ¬ b.toNat < 0x80 := by omega
  have h2 : ¬ b.toNat < 0xE0 := by omega
  have h3 : ¬ b.toNat < 0xF0 := by omega
  simp [leadBits, UInt8.lt_iff_toNat_lt, h1, h2, h3]

theorem toNat_ofNat_of_lt {n : Nat} (h : n < 256) : (UInt8.ofNat n).toNat = n := by
  rw [UInt8.toNat_ofNat', Nat.mod_eq_of_lt (by omega)]

/-- A character has one to four bytes, whose bits behind the marks make up its code point. -/
theorem utf8EncodeChar_cases (c : Char) :
    (c.toNat < 0x80 ∧ String.utf8EncodeChar c = [UInt8.ofNat c.toNat])
      ∨ (0x80 ≤ c.toNat ∧ c.toNat < 0x800 ∧ String.utf8EncodeChar c
          = [UInt8.ofNat (c.toNat / 64 % 32 + 0xC0), tailByte c.toNat])
      ∨ (0x800 ≤ c.toNat ∧ c.toNat < 0x10000 ∧ String.utf8EncodeChar c
          = [UInt8.ofNat (c.toNat / 4096 % 16 + 0xE0), tailByte (c.toNat / 64), tailByte c.toNat])
      ∨ (0x10000 ≤ c.toNat ∧ String.utf8EncodeChar c
          = [UInt8.ofNat (c.toNat / 262144 % 8 + 0xF0), tailByte (c.toNat / 4096),
              tailByte (c.toNat / 64), tailByte c.toNat]) := by
  have hval : c.val.toNat = c.toNat := rfl
  rw [String.utf8EncodeChar, hval]
  by_cases h1 : c.toNat ≤ 0x7F
  · exact Or.inl ⟨by omega, if_pos h1⟩
  by_cases h2 : c.toNat ≤ 0x7FF
  · refine Or.inr (Or.inl ⟨by omega, by omega, ?_⟩)
    simp only [if_neg h1, if_pos h2, tailByte]
  by_cases h3 : c.toNat ≤ 0xFFFF
  · refine Or.inr (Or.inr (Or.inl ⟨by omega, by omega, ?_⟩))
    simp only [if_neg h1, if_neg h2, if_pos h3, tailByte]
  · refine Or.inr (Or.inr (Or.inr ⟨by omega, ?_⟩))
    simp only [if_neg h1, if_neg h2, if_neg h3, tailByte]

/-- The bytes of a character are read as that character. -/
theorem first_utf8EncodeChar (c : Char) (rest : List UInt8) :
    ∃ b tail, String.utf8EncodeChar c = b :: tail
      ∧ first b (tail ++ rest) = (some c, tail.length + 1) := by
  have hvalid : c.toNat < 0xD800 ∨ 0xDFFF < c.toNat ∧ c.toNat < 0x110000 := c.valid
  have hcode : ∀ n, n = c.toNat → some (Char.ofNat n) = some c := by
    rintro n rfl
    rw [Char.ofNat_toNat]
  rcases utf8EncodeChar_cases c with ⟨hc, hbytes⟩ | ⟨hc, hc', hbytes⟩ | ⟨hc, hc', hbytes⟩ |
    ⟨hc, hbytes⟩
  · have hb := toNat_ofNat_of_lt (n := c.toNat) (by omega)
    refine ⟨_, _, hbytes, ?_⟩
    rw [first, plan?_one (by omega), leadBits_one (by omega), hb]
    exact congrArg (·, 1) (hcode _ rfl)
  · have hb := toNat_ofNat_of_lt (n := c.toNat / 64 % 32 + 0xC0) (by omega)
    refine ⟨_, _, hbytes, ?_⟩
    rw [first, plan?_two (by omega) (by omega), leadBits_two (by omega) (by omega), hb]
    simp only [List.cons_append, List.nil_append]
    rw [continue?_tailByte_any, continue?]
    exact congrArg (·, 2) (hcode _ (by omega))
  · have hb := toNat_ofNat_of_lt (n := c.toNat / 4096 % 16 + 0xE0) (by omega)
    refine ⟨_, _, hbytes, ?_⟩
    rw [first, plan?_three (by omega) (by omega), leadBits_three (by omega) (by omega), hb]
    simp only [List.cons_append, List.nil_append]
    rw [continue?_tailByte (c.toNat / 64) (by split <;> simp only [UInt8.reduceToNat] <;> omega)
      (by split <;> simp only [UInt8.reduceToNat] <;> omega)]
    rw [continue?_tailByte_any, continue?]
    exact congrArg (·, 3) (hcode _ (by omega))
  · have hb := toNat_ofNat_of_lt (n := c.toNat / 262144 % 8 + 0xF0) (by omega)
    refine ⟨_, _, hbytes, ?_⟩
    rw [first, plan?_four (by omega) (by omega), leadBits_four (by omega), hb]
    simp only [List.cons_append, List.nil_append]
    rw [continue?_tailByte (c.toNat / 4096) (by split <;> simp only [UInt8.reduceToNat] <;> omega)
      (by split <;> simp only [UInt8.reduceToNat] <;> omega)]
    rw [continue?_tailByte_any, continue?_tailByte_any, continue?]
    exact congrArg (·, 4) (hcode _ (by omega))

theorem lossyWithin_ofChars {s : List Char} {limit : Nat} (h : (ofChars s).length ≤ limit) :
    lossyWithin limit (ofChars s) = s := by
  induction s generalizing limit with
  | nil => cases limit <;> rfl
  | cons c s ih =>
      obtain ⟨b, tail, hbytes, hfirst⟩ := first_utf8EncodeChar c (ofChars s)
      rw [ofChars_cons, hbytes] at h ⊢
      simp only [List.cons_append, List.length_cons, List.length_append] at h
      cases limit with
      | zero => omega
      | succ limit =>
          rw [List.cons_append, lossyWithin, hfirst]
          simp only [Option.getD_some, Nat.add_sub_cancel, List.drop_left]
          rw [ih (by omega)]

/-- Reading with replacement characters reads a text back from its bytes. -/
theorem lossy_ofChars (s : List Char) : lossy (ofChars s) = String.ofList s := by
  rw [lossy, lossyWithin_ofChars (Nat.le_refl _)]

/-- The byte order mark is a character like any other. -/
theorem head?_of_mark {s : List Char} {rest : List UInt8}
    (h : ofChars s = 0xEF :: 0xBB :: 0xBF :: rest) : s.head? = some '\uFEFF' := by
  cases s with
  | nil => cases h
  | cons c s =>
      obtain ⟨b, tail, hbytes, hfirst⟩ := first_utf8EncodeChar c (ofChars s)
      rw [ofChars_cons, hbytes, List.cons_append] at h
      obtain ⟨rfl, htail⟩ := List.cons.inj h
      have hmark : first 0xEF (0xBB :: 0xBF :: rest) = (some '\uFEFF', 3) := rfl
      rw [htail, hmark] at hfirst
      exact (Prod.mk.inj hfirst).1.symm

/-! ## Single bytes -/

theorem utf8EncodeChar_of_lt {c : Char} (h : c.toNat < 0x80) :
    String.utf8EncodeChar c = [UInt8.ofNat c.toNat] := by
  rcases utf8EncodeChar_cases c with ⟨-, hbytes⟩ | ⟨hc, -⟩ | ⟨hc, -⟩ | ⟨hc, -⟩
  · exact hbytes
  all_goals omega

/-- Only characters that are single bytes have bytes below 128. -/
theorem le_of_mem_utf8EncodeChar {c : Char} (h : 0x80 ≤ c.toNat) {b : UInt8}
    (hb : b ∈ String.utf8EncodeChar c) : 0x80 ≤ b.toNat := by
  have htail : ∀ n, 0x80 ≤ (tailByte n).toNat := fun n => by simp
  rcases utf8EncodeChar_cases c with ⟨hc, -⟩ | ⟨-, -, hbytes⟩ | ⟨-, -, hbytes⟩ | ⟨-, hbytes⟩
  · omega
  all_goals
    rw [hbytes, List.mem_cons] at hb
    rcases hb with rfl | hb
    · rw [toNat_ofNat_of_lt (by omega)]
      omega
    · simp only [List.mem_cons, List.not_mem_nil, or_false] at hb
      grind

end Recalc.Text.Utf8
