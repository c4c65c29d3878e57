import Recalc.Proofs.Text.Ascii

/-!
# Walks through a text

A text is held as bytes, and a position in it counts bytes. What is behind a position can be seen
only if a character starts there. A walk sees characters, passes them and takes out what it has
passed; it comes to nothing where there is no such position, and where a loop goes round as often as
its limit says. Which characters a walk passes is all that has to be known of it: passing whole
characters leads from a position to a position.
-/

namespace Recalc.Text

/-! ## Positions in bytes -/

section Positions

variable {text : String} {pos : String.Pos.Raw} {front back : List Char}

/-- The characters of a text from a position on, unless the position is within a character or
outside the text. -/
def behind? (text : String) (pos : String.Pos.Raw) : Option (List Char) :=
  if h : pos.IsValid text then some (text.sliceFrom ⟨pos, h⟩).copy.toList else none

/-- The characters of a text from one position to another that is not before it. -/
def between? (text : String) (start stop : String.Pos.Raw) : Option (List Char) :=
  if h : start.IsValid text ∧ stop.IsValid text ∧ start ≤ stop then
    some (text.slice ⟨start, h.1⟩ ⟨stop, h.2.1⟩ (String.Pos.le_iff.mpr h.2.2)).copy.toList
  else none

theorem behind?_eq_some_iff : behind? text pos = some back ↔
    ∃ front, text = String.ofList (front ++ back) ∧ pos = (String.ofList front).rawEndPos := by
  constructor
  · intro h
    rw [behind?] at h
    split at h
    case isFalse => cases h
    case isTrue hvalid =>
      have hsplits := (⟨pos, hvalid⟩ : text.Pos).splits
      refine ⟨(text.sliceTo ⟨pos, hvalid⟩).copy.toList, ?_, ?_⟩
      · rw [← Option.some.inj h, String.ofList_append, String.ofList_toList, String.ofList_toList]
        exact hsplits.eq_append
      · rw [String.ofList_toList]
        exact hsplits.offset_eq_rawEndPos
  · rintro ⟨front, rfl, rfl⟩
    have hvalid : (String.ofList front).rawEndPos.IsValid (String.ofList (front ++ back)) :=
      String.Pos.Raw.isValid_iff_exists_append.mpr ⟨_, _, String.ofList_append, rfl⟩
    have hsplits := (⟨_, hvalid⟩ : (String.ofList (front ++ back)).Pos).splits
    have hback := hsplits.eq_right ⟨String.ofList_append, rfl⟩
    rw [behind?, dif_pos hvalid, hback, String.toList_ofList]

theorem isValid_iff_exists : pos.IsValid text ↔ ∃ back, behind? text pos = some back := by
  constructor
  · exact fun h => ⟨_, dif_pos h⟩
  · rintro ⟨back, h⟩
    rw [behind?] at h
    split at h
    case isFalse => cases h
    case isTrue hvalid => exact hvalid

/-- No more is behind a position than in the text. -/
theorem length_le_of_behind? (h : behind? text pos = some back) : back.length ≤ text.length := by
  obtain ⟨front, rfl, -⟩ := behind?_eq_some_iff.mp h
  rw [String.length_ofList, List.length_append]
  exact Nat.le_add_left _ _

theorem rawEndPos_append (front back : List Char) :
    (String.ofList (front ++ back)).rawEndPos
      = (String.ofList front).rawEndPos + String.ofList back := by
  rw [String.ofList_append]
  exact String.Pos.Raw.ext String.utf8ByteSize_append

theorem add_append (pos : String.Pos.Raw) (s t : String) : pos + (s ++ t) = pos + s + t :=
  String.Pos.Raw.ext <| by
    simp only [String.Pos.Raw.byteIdx_add_string, String.utf8ByteSize_append, Nat.add_assoc]

theorem behind?_zero (text : String) : behind? text 0 = some text.toList :=
  behind?_eq_some_iff.mpr ⟨[], by simp, rfl⟩

/-- Passing whole characters leads from a position to a position. -/
theorem behind?_append (h : behind? text pos = some (front ++ back)) :
    behind? text (pos + String.ofList front) = some back := by
  obtain ⟨before, rfl, rfl⟩ := behind?_eq_some_iff.mp h
  exact behind?_eq_some_iff.mpr
    ⟨before ++ front, by rw [List.append_assoc], (rawEndPos_append before front).symm⟩

theorem between?_append (h : behind? text pos = some (front ++ back)) :
    between? text pos (pos + String.ofList front) = some front := by
  have hstart := isValid_iff_exists.mpr ⟨_, h⟩
  have hstop := isValid_iff_exists.mpr ⟨_, behind?_append h⟩
  obtain ⟨before, rfl, rfl⟩ := behind?_eq_some_iff.mp h
  have hslice : ∃ hle, ((String.ofList (before ++ (front ++ back))).slice ⟨_, hstart⟩ ⟨_, hstop⟩
      hle).copy = String.ofList front :=
    String.copy_slice_eq_iff_splits.mpr ⟨String.ofList before, String.ofList back,
      ⟨by simp only [String.ofList_append], rfl⟩,
      ⟨by simp only [String.ofList_append, String.append_assoc], by
        rw [← String.ofList_append]
        exact (rawEndPos_append before front).symm⟩⟩
  obtain ⟨hle, hcopy⟩ := hslice
  rw [between?, dif_pos ⟨hstart, hstop, String.Pos.le_iff.mp hle⟩, hcopy, String.toList_ofList]

end Positions

/-! ## Walks -/

/-- A walk through a text comes to a value and a position, unless it comes to nothing. -/
abbrev Walk (α : Type) := ReaderT String (StateT String.Pos.Raw Option) α

namespace Walk

variable {α β : Type}

/-- A walk that comes to nothing. -/
def nothing : Walk α := fun _ _ => none

/-- See the characters from here on. -/
def ahead : Walk (List Char) := fun text pos => (behind? text pos).map (·, pos)

/-- Pass the next character, if there is one. -/
def step : Walk Unit := do
  match ← ahead with
  | [] => return
  | c :: _ => modify (· + c)

/-- Pass the next character if it is of a kind. -/
def stepIf (p : Char → Bool) : Walk Unit := do
  if (← ahead).head?.any p then step

/-- Pass characters as long as they are of a kind. -/
def stepWhile (p : Char → Bool) : Nat → Walk Unit
  | 0 => nothing
  | limit + 1 => do
      if (← ahead).head?.any p then
        step
        stepWhile p limit

/-- Take out what a walk passes. -/
def passing (w : Walk Unit) : Walk (List Char) := fun text pos => do
  let (_, stop) ← w text pos
  let word ← between? text pos stop
  return (word, stop)

/-- From some characters on, a walk comes to a value and to the last of the characters, whatever
text they are in and wherever they are in it. -/
def Leads (w : Walk α) (front : List Char) (found : α × List Char) : Prop :=
  ∃ passed, front = passed ++ found.2 ∧ ∀ text pos, behind? text pos = some front →
    w text pos = some (found.1, pos + String.ofList passed)

variable {w w' : Walk α} {f : α → Walk β} {p : Char → Bool}
variable {front back : List Char} {x : α} {found found' : α × List Char} {result : β × List Char}

theorem leads_pure (x : α) (front : List Char) : Leads (pure x) front (x, front) :=
  ⟨[], rfl, fun _ _ _ =>
    congrArg (fun stop => some (x, stop)) (String.Pos.Raw.ext (Nat.add_zero _).symm)⟩

theorem Leads.bind (h : Leads w front (x, back)) (hf : Leads (f x) back result) :
    Leads (w >>= f) front result := by
  obtain ⟨passed, hpassed, hw⟩ := h
  obtain ⟨passed', hpassed', hf⟩ := hf
  refine ⟨passed ++ passed', by rw [hpassed, hpassed', List.append_assoc], fun text pos hpos => ?_⟩
  have hbind : (w >>= f) text pos = (w text pos).bind fun (x, stop) => f x text stop := rfl
  rw [hbind, hw text pos hpos, Option.bind_some, String.ofList_append, add_append]
  exact hf text _ (behind?_append (hpassed ▸ hpos))

theorem Leads.ite {P : Prop} [Decidable P] (h : P → Leads w front found)
    (h' : ¬ P → Leads w' front found') :
    Leads (if P then w else w') front (if P then found else found') := by
  split
  case isTrue hP => exact h hP
  case isFalse hP => exact h' hP

theorem Leads.ahead_bind {f : List Char → Walk β} (h : Leads (f front) front result) :
    Leads (ahead >>= f) front result := by
  obtain ⟨passed, hfront, hf⟩ := h
  refine ⟨passed, hfront, fun text pos hpos => ?_⟩
  have hbind : (ahead >>= f) text pos
      = ((behind? text pos).map (·, pos)).bind fun (x, stop) => f x text stop := rfl
  rw [hbind, hpos]
  exact hf text pos hpos

theorem leads_step (c : Char) (back : List Char) : Leads step (c :: back) ((), back) := by
  refine .ahead_bind ⟨[c], rfl, fun text pos _ => ?_⟩
  have hstep : pos + c = pos + String.ofList [c] :=
    String.Pos.Raw.ext (congrArg (pos.byteIdx + ·) (by simp))
  exact congrArg (fun stop => some ((), stop)) hstep

theorem leads_stepIf (p : Char → Bool) (front : List Char) :
    Leads (stepIf p) front ((), if front.head?.any p then front.tail else front) := by
  refine .ahead_bind ?_
  split
  case isFalse => exact leads_pure () front
  case isTrue h =>
    cases front with
    | nil => cases h
    | cons c back => exact leads_step c back

theorem leads_stepWhile {limit : Nat} (h : front.length < limit) :
    Leads (stepWhile p limit) front ((), front.dropWhile p) := by
  induction limit generalizing front with
  | zero => exact absurd h (Nat.not_lt_zero _)
  | succ limit ih =>
      refine .ahead_bind ?_
      cases front with
      | nil => exact leads_pure () []
      | cons c back =>
          rw [List.head?_cons, Option.any_some, List.dropWhile_cons]
          split
          · exact (leads_step c back).bind (ih (Nat.lt_of_succ_lt_succ h))
          · exact leads_pure () _

theorem Leads.passing {w : Walk Unit} {word : List Char} (h : Leads w front ((), back))
    (hword : word ++ back = front) : Leads (passing w) front (word, back) := by
  subst hword
  obtain ⟨passed, hpassed, hw⟩ := h
  obtain rfl := List.append_cancel_right hpassed
  refine ⟨word, rfl, fun text pos hpos => ?_⟩
  have hpassing : Walk.passing w text pos = (between? text pos (pos + String.ofList word)).bind
      fun found => some (found, pos + String.ofList word) := by
    rw [Walk.passing, hw text pos hpos]
    rfl
  rw [hpassing, between?_append hpos, Option.bind_some]

end Walk

end Recalc.Text
