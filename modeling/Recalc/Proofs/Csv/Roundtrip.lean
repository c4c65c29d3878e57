import Recalc.Proofs.Csv.Fields
import Recalc.Proofs.Text.Utf8

/-!
# Reading undoes writing

What is written of a grid of values is read as the grid of their texts, whatever the texts hold, as
long as delimiter and quote are different single bytes apart from the line ends. Only a byte order
mark at the very start would be taken for something else.
-/

namespace Recalc.Csv

open Text.Utf8

/-! ## The bytes that are written are a text -/

/-- Bytes of a text. -/
def IsText (bytes : List UInt8) : Prop := ∃ s, ofChars s = bytes

namespace IsText

variable {s t : List UInt8} {b : UInt8}

theorem nil : IsText [] := ⟨[], rfl⟩

theorem append (hs : IsText s) (ht : IsText t) : IsText (s ++ t) := by
  obtain ⟨s, rfl⟩ := hs
  obtain ⟨t, rfl⟩ := ht
  exact ⟨s ++ t, ofChars_append s t⟩

theorem cons (hb : b < 0x80) (hs : IsText s) : IsText (b :: s) := by
  obtain ⟨s, rfl⟩ := hs
  have hlt : b.toNat < 0x80 := hb
  have hchar : (Char.ofNat b.toNat).toNat = b.toNat := by
    rw [Char.ofNat, dif_pos (Or.inl (by omega))]
    rfl
  refine ⟨Char.ofNat b.toNat :: s, ?_⟩
  rw [ofChars_cons, utf8EncodeChar_of_lt (by omega), hchar, UInt8.ofNat_toNat]
  rfl

theorem flatMap {α : Type} {f : α → List UInt8} {xs : List α} (h : ∀ x ∈ xs, IsText (f x)) :
    IsText (xs.flatMap f) := by
  induction xs with
  | nil => exact nil
  | cons x xs ih =>
      obtain ⟨hx, hxs⟩ := List.forall_mem_cons.mp h
      rw [List.flatMap_cons]
      exact hx.append (ih hxs)

end IsText

variable {o : WriteOptions}

/-- Doubling a quote that is a single byte keeps the bytes of a text together. -/
theorem isText_doubled (hquote : o.quote < 0x80) (s : List Char) :
    IsText (o.doubled (ofChars s)) := by
  rw [WriteOptions.doubled, ofChars, List.flatMap_assoc]
  refine IsText.flatMap fun c _ => ?_
  by_cases hc : c.toNat < 0x80
  · have hb : UInt8.ofNat c.toNat < 0x80 := by
      rw [UInt8.lt_iff_toNat_lt, toNat_ofNat_of_lt (by omega)]
      exact hc
    rw [utf8EncodeChar_of_lt hc, List.flatMap_singleton]
    split
    · exact (IsText.nil.cons hb).cons hb
    · exact IsText.nil.cons hb
  · have hsame : ∀ b ∈ String.utf8EncodeChar c,
        (if b = o.quote then [b, b] else [b]) = [b] := by
      intro b hb
      have hle : 0x80 ≤ b.toNat := le_of_mem_utf8EncodeChar (by omega) hb
      rw [if_neg]
      rintro rfl
      exact absurd (UInt8.lt_iff_toNat_lt.mp hquote) (Nat.not_lt.mpr hle)
    rw [List.flatMap_congr hsame, List.flatMap_singleton']
    exact ⟨[c], List.append_nil _⟩

theorem isText_writeField (hquote : o.quote < 0x80) (s : String) :
    IsText (o.writeField (encode s)) := by
  rw [encode_eq, WriteOptions.writeField]
  split
  · exact ((isText_doubled hquote _).append (IsText.nil.cons hquote)).cons hquote
  · exact ⟨_, rfl⟩

theorem isText_writeFields (hdelimiter : o.delimiter < 0x80) (hquote : o.quote < 0x80)
    (texts : List String) : IsText (o.writeFields (texts.map encode)) := by
  induction texts with
  | nil => exact IsText.nil
  | cons s texts ih =>
      have hs := isText_writeField hquote s
      cases texts with
      | nil => exact hs
      | cons t texts => exact hs.append (ih.cons hdelimiter)

theorem isText_terminator (terminator : Terminator) : IsText terminator.bytes := by
  cases terminator with
  | lineFeed => exact IsText.nil.cons (by decide)
  | carriageReturn => exact IsText.nil.cons (by decide)
  | returnLineFeed => exact (IsText.nil.cons (by decide)).cons (by decide)

theorem isText_writeTexts (hdelimiter : o.delimiter < 0x80) (hquote : o.quote < 0x80)
    (rows : List (List String)) : IsText (writeTexts o rows) := by
  refine IsText.flatMap fun row _ => ?_
  rw [WriteOptions.writeRecord]
  refine IsText.append ?_ (isText_terminator _)
  split
  · exact (IsText.nil.cons hquote).cons hquote
  · exact isText_writeFields hdelimiter hquote row

/-- Nothing is replaced in what is written with a delimiter and a quote that are single bytes. -/
theorem encode_write (hdelimiter : o.delimiter < 0x80) (hquote : o.quote < 0x80)
    (grid : List (List Value)) : encode (write o grid) = writeBytes o grid := by
  obtain ⟨s, hs⟩ := isText_writeTexts hdelimiter hquote (grid.map fun row => row.map Value.display)
  rw [write, writeBytes, ← hs, lossy_ofChars, encode_ofList]

/-! ## Reading it -/

section Reading

variable {o : ReadOptions}

theorem readField_encode (htrim : o.trim = false) (s : String) :
    readField o (encode s) = .ok s := by
  simp [readField, htrim]

theorem readFields_encode (htrim : o.trim = false) (start : Position) (n : Nat)
    (texts : List String) : readFields o start n (texts.map encode) = .ok texts := by
  induction texts generalizing n with
  | nil => rfl
  | cons s texts ih =>
      rw [List.map_cons, readFields, readField_encode htrim]
      dsimp only
      rw [ih]
      rfl

/-- Positions do not matter where every field is a text. -/
theorem mapM_readFields (htrim : o.trim = false) {rows : List (List String)}
    {read : List (Position × List Field)}
    (h : read.map Prod.snd = rows.map fun row => row.map encode) :
    (read.mapM fun (start, fields) => readFields o start 0 fields) = .ok rows := by
  induction rows generalizing read with
  | nil =>
      obtain rfl := List.map_eq_nil_iff.mp h
      rfl
  | cons row rows ih =>
      obtain ⟨⟨start, fields⟩, read, rfl, hfields, hrest⟩ := List.map_eq_cons_iff.mp h
      obtain rfl : fields = row.map encode := hfields
      rw [List.mapM_cons]
      simp only [readFields_encode htrim, ih hrest]
      rfl

theorem dropMark_of_head? {s : List Char} (h : s.head? ≠ some '\uFEFF') :
    dropMark (ofChars s) = (0, ofChars s) := by
  rw [dropMark.eq_def]
  split
  · next hmark => exact absurd (head?_of_mark hmark) h
  · rfl

/-- Reading without a header and without trimming gives back the rows that were written, unless
what was written starts with the byte order mark. -/
theorem read_writeTexts (ho : o.Distinct) (hheader : o.header = false) (htrim : o.trim = false)
    (terminator : Terminator) {rows : List (List String)} (hrows : ∀ row ∈ rows, row ≠ [])
    (hmark : dropMark (writeTexts (o.writing terminator) rows)
      = (0, writeTexts (o.writing terminator) rows)) :
    read o (writeTexts (o.writing terminator) rows) = .ok rows := by
  have hstart : (Reading.initial 0).Holds Place.Between [] [] [] := ⟨trivial, rfl, rfl, rfl⟩
  have hwritten : writeTexts (o.writing terminator) rows
      = (rows.map fun row => row.map encode).flatMap (o.writing terminator).writeRecord := by
    rw [writeTexts, List.flatMap_map]
  have hne : ∀ row ∈ rows.map fun row => row.map encode, row ≠ [] := by
    intro row hmem
    obtain ⟨texts, htexts, rfl⟩ := List.mem_map.mp hmem
    exact fun h => hrows texts htexts (List.map_eq_nil_iff.mp h)
  have hread := (hstart.writeRecords ho hne terminator).finish
  rw [← hwritten, List.append_nil, List.reverse_reverse] at hread
  rw [read, hheader, if_neg Bool.false_ne_true, records, hmark]
  exact mapM_readFields htrim hread

end Reading

/-- A grid of values that is written with single bytes as delimiter and quote is read, as a text or
as a file, as the grid of their texts. -/
theorem read_write (delimiter quote : UInt8) (terminator : Terminator) (grid : List (List Value))
    (hdelimiter : delimiter < 0x80 ∧ delimiter ≠ 13 ∧ delimiter ≠ 10)
    (hquote : quote < 0x80 ∧ quote ≠ 13 ∧ quote ≠ 10) (hne : delimiter ≠ quote)
    (hrows : ∀ row ∈ grid, row ≠ [])
    (hmark : (write ⟨delimiter, quote, terminator⟩ grid).toList.head? ≠ some '\uFEFF') :
    read ⟨delimiter, quote, false, false⟩ (encode (write ⟨delimiter, quote, terminator⟩ grid))
        = .ok (grid.map fun row => row.map Value.display)
      ∧ read ⟨delimiter, quote, false, false⟩ (writeBytes ⟨delimiter, quote, terminator⟩ grid)
        = .ok (grid.map fun row => row.map Value.display) := by
  have hbytes := encode_write (o := ⟨delimiter, quote, terminator⟩) hdelimiter.1 hquote.1 grid
  have ho : ReadOptions.Distinct ⟨delimiter, quote, false, false⟩ :=
    ⟨hne.symm, by simp [Reading.isLineEnd, hdelimiter.2], by simp [Reading.isLineEnd, hquote.2]⟩
  have hdrop := dropMark_of_head? hmark
  rw [← encode_eq, hbytes] at hdrop
  have hrows' : ∀ row ∈ grid.map fun row => row.map Value.display, row ≠ [] := by
    intro row hmem
    obtain ⟨values, hvalues, rfl⟩ := List.mem_map.mp hmem
    exact fun h => hrows values hvalues (List.map_eq_nil_iff.mp h)
  have hread := read_writeTexts ho rfl rfl terminator hrows' hdrop
  rw [hbytes]
  exact ⟨hread, hread⟩

/-- Texts with quotes, delimiters and line ends, empty fields and a row of one of them are written
with unusual bytes between the fields and around them. -/
theorem read_write_awkward :
    let grid : List (List Value) :=
      [[.text "a'b;c", .empty, .boolean true], [.empty], [.text "\r\n", .text "é'"], [.text ";"]]
    let written := "'a''b;c';;TRUE\r''\r'\r\n';'é'''\r';'\r"
    let rows := [["a'b;c", "", "TRUE"], [""], ["\r\n", "é'"], [";"]]
    write ⟨59, 39, .carriageReturn⟩ grid = written ∧ written.toList.head? ≠ some '\uFEFF'
      ∧ (∀ row ∈ grid, row ≠ [])
      ∧ read ⟨59, 39, false, false⟩ (encode (write ⟨59, 39, .carriageReturn⟩ grid)) = .ok rows
      ∧ read ⟨59, 39, false, false⟩ (writeBytes ⟨59, 39, .carriageReturn⟩ grid) = .ok rows := by
  intro grid written rows
  have hwritten : write ⟨59, 39, .carriageReturn⟩ grid = written := by decide +kernel
  have hmark : written.toList.head? ≠ some '\uFEFF' := by decide +kernel
  have hrows : ∀ row ∈ grid, row ≠ [] := by simp [grid]
  exact ⟨hwritten, hmark, hrows, read_write 59 39 .carriageReturn grid (by decide) (by decide)
    (by decide) hrows (hwritten ▸ hmark)⟩

end Recalc.Csv
