import Mathlib.Data.List.Basic
import Recalc.Csv.Reader
import Recalc.Csv.Writer

/-!
# Reading what was written, byte by byte

A reader that meets a written field, delimiter or line end keeps what the field holds, closes the
field or closes the record. Positions play no part in this.
-/

namespace Recalc.Csv

/-- Delimiter and quote can be told from each other and from line ends. -/
structure ReadOptions.Distinct (o : ReadOptions) : Prop where
  quote_ne : o.quote ≠ o.delimiter
  delimiter : Reading.isLineEnd o.delimiter = false
  quote : Reading.isLineEnd o.quote = false

/-- The options of a writer with the delimiter and the quote of a reader. -/
def ReadOptions.writing (o : ReadOptions) (terminator : Terminator) : WriteOptions :=
  ⟨o.delimiter, o.quote, terminator⟩

/-- A place where a field can start. -/
def Place.Opens : Place → Prop
  | .recordStart | .afterReturn | .fieldStart => True
  | .inField | .inQuotes | .afterQuote => False

/-- A place where a field that is not closed yet can end a record. -/
def Place.Closes : Place → Prop
  | .fieldStart | .inField | .afterQuote => True
  | .recordStart | .afterReturn | .inQuotes => False

/-- A place between records. -/
def Place.Between : Place → Prop
  | .recordStart | .afterReturn => True
  | .fieldStart | .inField | .inQuotes | .afterQuote => False

namespace Reading

/-- What a reader has read: its place satisfies `p`, and it has these bytes of a field, fields of a
record and records. Bytes, fields and records are held last first. -/
structure Holds (r : Reading) (p : Place → Prop) (field : Field) (fields : List Field)
    (rows : List (List Field)) : Prop where
  place : p r.place
  field : r.field = field
  fields : r.fields = fields
  rows : r.records.map Prod.snd = rows

variable {o : ReadOptions} {r : Reading} {p q : Place → Prop} {field : Field}
  {fields : List Field} {rows : List (List Field)} {b : UInt8} {terminator : Terminator}

theorem Holds.mono (h : r.Holds p field fields rows) (himp : ∀ place, p place → q place) :
    r.Holds q field fields rows :=
  { h with place := himp _ h.place }

/-! ### One byte -/

/-- A reader that has counted a byte, but not taken it. -/
def count (r : Reading) (b : UInt8) : Reading :=
  { r with byte := r.byte + 1, line := if b = 10 then r.line + 1 else r.line }

theorem Holds.count (h : r.Holds p field fields rows) (b : UInt8) :
    (r.count b).Holds p field fields rows :=
  ⟨h.place, h.field, h.fields, h.rows⟩

theorem step_of_opens (o : ReadOptions) (hplace : r.place.Opens) (hb : isLineEnd b = false) :
    r.step o b = (r.count b).takeFirst o b := by
  have hbefore : ∀ r : Reading, r.takeBefore o b = r.takeFirst o b := by
    intro r
    rw [takeBefore, if_neg (Bool.eq_false_iff.mp hb)]
  have hline : b ≠ 10 := by
    rintro rfl
    cases hb
  rw [step]
  cases hp : r.place with
  | recordStart => exact hbefore _
  | afterReturn => exact (if_neg hline).trans (hbefore _)
  | fieldStart => rfl
  | inField | inQuotes | afterQuote => rw [hp] at hplace; exact hplace.elim

theorem step_of_inField (o : ReadOptions) (hplace : r.place = .inField) (b : UInt8) :
    r.step o b = (r.count b).takeOpen o b := by
  rw [step, hplace]
  rfl

theorem step_of_inQuotes (o : ReadOptions) (hplace : r.place = .inQuotes) (b : UInt8) :
    r.step o b = if b = o.quote then { r.count b with place := .afterQuote }
      else (r.count b).copyQuoted b := by
  rw [step, hplace]
  rfl

theorem step_of_afterQuote (o : ReadOptions) (hplace : r.place = .afterQuote) (b : UInt8) :
    r.step o b = if b = o.quote then (r.count b).copyQuoted b else (r.count b).takeOpen o b := by
  rw [step, hplace]
  rfl

theorem Holds.endField (h : r.Holds p field fields rows) :
    r.endField.Holds (· = .fieldStart) [] (field.reverse :: fields) rows :=
  ⟨rfl, rfl, by rw [← h.field, ← h.fields]; rfl, h.rows⟩

theorem Holds.endRecord (h : r.Holds p field fields rows) {next : Place} (hnext : q next) :
    (r.endRecord next).Holds q [] [] ((field.reverse :: fields).reverse :: rows) :=
  ⟨hnext, rfl, rfl, by rw [← h.field, ← h.fields, ← h.rows]; rfl⟩

/-- A byte that needs no quotes belongs to its field. -/
theorem Holds.step_ordinary (h : r.Holds (fun p => p.Opens ∨ p = .inField) field fields rows)
    (hb : (o.writing terminator).needsQuotes b = false) :
    (r.step o b).Holds (· = .inField) (b :: field) fields rows := by
  rw [WriteOptions.needsQuotes, Bool.or_eq_false_iff, Bool.or_eq_false_iff,
    Bool.or_eq_false_iff] at hb
  have hdelimiter : b ≠ o.delimiter := of_decide_eq_false hb.1.1.1
  have hquote : b ≠ o.quote := of_decide_eq_false hb.1.1.2
  have hend : isLineEnd b = false := Bool.or_eq_false_iff.mpr ⟨hb.1.2, hb.2⟩
  have hstep : r.step o b = (r.count b).copy b := by
    rcases h.place with hplace | hplace
    · rw [step_of_opens o hplace hend, takeFirst, if_neg hquote, takeOpen, if_neg hdelimiter,
        if_neg (Bool.eq_false_iff.mp hend)]
    · rw [step_of_inField o hplace, takeOpen, if_neg hdelimiter,
        if_neg (Bool.eq_false_iff.mp hend)]
  rw [hstep]
  exact ⟨rfl, congrArg (b :: ·) h.field, h.fields, h.rows⟩

/-- The delimiter closes a field outside quotes. -/
theorem Holds.step_delimiter (ho : o.Distinct) (h : r.Holds (· ≠ .inQuotes) field fields rows) :
    (r.step o o.delimiter).Holds (· = .fieldStart) [] (field.reverse :: fields) rows := by
  have hopen : ∀ r : Reading, r.takeOpen o o.delimiter = r.endField := fun r => if_pos rfl
  have hfirst : ∀ r : Reading, r.takeFirst o o.delimiter = r.endField := by
    intro r
    rw [takeFirst, if_neg ho.quote_ne.symm, hopen]
  have hstep : r.step o o.delimiter = (r.count o.delimiter).endField := by
    cases hp : r.place with
    | recordStart | afterReturn | fieldStart =>
        rw [step_of_opens o (by rw [hp]; trivial) ho.delimiter, hfirst]
    | inField => rw [step_of_inField o hp, hopen]
    | inQuotes => exact absurd hp h.place
    | afterQuote => rw [step_of_afterQuote o hp, if_neg ho.quote_ne.symm, hopen]
  rw [hstep]
  exact (h.count _).endField

/-- A quote at the start of a field opens quotes. -/
theorem Holds.step_openQuote (ho : o.Distinct) (h : r.Holds Place.Opens field fields rows) :
    (r.step o o.quote).Holds (· = .inQuotes) field fields rows := by
  rw [step_of_opens o h.place ho.quote, takeFirst, if_pos rfl]
  exact { h.count o.quote with place := rfl }

/-- A quote inside quotes closes them, as it seems. -/
theorem Holds.step_closeQuote (h : r.Holds (· = .inQuotes) field fields rows) :
    (r.step o o.quote).Holds (· = .afterQuote) field fields rows := by
  rw [step_of_inQuotes o h.place, if_pos rfl]
  exact { h.count o.quote with place := rfl }

/-- Another quote behind it belongs to the field. -/
theorem Holds.step_quoteAgain (h : r.Holds (· = .afterQuote) field fields rows) :
    (r.step o o.quote).Holds (· = .inQuotes) (o.quote :: field) fields rows := by
  rw [step_of_afterQuote o h.place, if_pos rfl]
  exact ⟨rfl, congrArg (o.quote :: ·) h.field, h.fields, h.rows⟩

/-- Any other byte inside quotes belongs to the field. -/
theorem Holds.step_quoted (h : r.Holds (· = .inQuotes) field fields rows) (hb : b ≠ o.quote) :
    (r.step o b).Holds (· = .inQuotes) (b :: field) fields rows := by
  rw [step_of_inQuotes o h.place, if_neg hb]
  exact ⟨rfl, congrArg (b :: ·) h.field, h.fields, h.rows⟩

/-- A line end closes a record. -/
theorem Holds.step_lineEnd (ho : o.Distinct) (h : r.Holds Place.Closes field fields rows)
    (hb : isLineEnd b = true) :
    (r.step o b).Holds (· = if b = 13 then .afterReturn else .recordStart) [] []
      ((field.reverse :: fields).reverse :: rows) := by
  have hdelimiter : b ≠ o.delimiter := by
    rintro rfl
    cases hb.symm.trans ho.delimiter
  have hquote : b ≠ o.quote := by
    rintro rfl
    cases hb.symm.trans ho.quote
  have hopen : ∀ r : Reading, r.takeOpen o b
      = r.endRecord (if b = 13 then .afterReturn else .recordStart) := by
    intro r
    rw [takeOpen, if_neg hdelimiter, if_pos hb]
  have hplace := h.place
  have hstep : r.step o b
      = (r.count b).endRecord (if b = 13 then .afterReturn else .recordStart) := by
    cases hp : r.place with
    | fieldStart =>
        rw [step, hp]
        exact (if_neg hquote).trans (hopen _)
    | inField => rw [step_of_inField o hp, hopen]
    | afterQuote => rw [step_of_afterQuote o hp, if_neg hquote, hopen]
    | recordStart | afterReturn | inQuotes => rw [hp] at hplace; exact hplace.elim
  rw [hstep]
  exact (h.count b).endRecord rfl

/-! ### A record -/

theorem Holds.ordinary (h : r.Holds (· = .inField) field fields rows) {bytes : Field}
    (hbytes : bytes.any (o.writing terminator).needsQuotes = false) :
    (bytes.foldl (step o) r).Holds (· = .inField) (bytes.reverse ++ field) fields rows := by
  induction bytes generalizing r field with
  | nil => exact h
  | cons b bytes ih =>
      rw [List.any_cons, Bool.or_eq_false_iff] at hbytes
      rw [List.foldl_cons, List.reverse_cons, List.append_assoc]
      exact ih ((h.mono fun _ => Or.inr).step_ordinary hbytes.1) hbytes.2

theorem doubled_cons (o : ReadOptions) (terminator : Terminator) (b : UInt8) (bytes : Field) :
    (o.writing terminator).doubled (b :: bytes)
      = (if b = o.quote then [b, b] else [b]) ++ (o.writing terminator).doubled bytes := rfl

/-- Doubled quotes are taken as quotes. -/
theorem Holds.doubled (h : r.Holds (· = .inQuotes) field fields rows) (bytes : Field)
    (terminator : Terminator) :
    (((o.writing terminator).doubled bytes).foldl (step o) r).Holds (· = .inQuotes)
      (bytes.reverse ++ field) fields rows := by
  induction bytes generalizing r field with
  | nil => exact h
  | cons b bytes ih =>
      rw [doubled_cons, List.foldl_append, List.reverse_cons, List.append_assoc]
      refine ih ?_
      by_cases hb : b = o.quote
      · rw [if_pos hb, hb]
        exact h.step_closeQuote.step_quoteAgain
      · rw [if_neg hb]
        exact h.step_quoted hb

/-- A written field is read as that field. Only an empty field leaves the reader where it was. -/
theorem Holds.writeField (ho : o.Distinct) (h : r.Holds Place.Opens [] fields rows)
    (bytes : Field) (terminator : Terminator) :
    (((o.writing terminator).writeField bytes).foldl (step o) r).Holds
      (fun p => p = .inField ∨ p = .afterQuote
        ∨ (o.writing terminator).writeField bytes = [] ∧ p = r.place)
      bytes.reverse fields rows := by
  by_cases hquoted : bytes.any (o.writing terminator).needsQuotes = true
  · rw [WriteOptions.writeField, if_pos hquoted, List.cons_append, List.foldl_cons,
      List.foldl_append]
    have hbody := Holds.doubled (o := o) (h.step_openQuote ho) bytes terminator
    rw [List.append_nil] at hbody
    exact hbody.step_closeQuote.mono fun _ => Or.inr ∘ Or.inl
  · rw [WriteOptions.writeField, if_neg hquoted]
    rw [Bool.not_eq_true] at hquoted
    cases bytes with
    | nil => exact { h with place := Or.inr (Or.inr ⟨rfl, rfl⟩) }
    | cons b bytes =>
        rw [List.any_cons, Bool.or_eq_false_iff] at hquoted
        have hfirst := (h.mono fun _ => Or.inl).step_ordinary hquoted.1
        have hrest := hfirst.ordinary hquoted.2
        rw [List.foldl_cons, List.reverse_cons]
        exact hrest.mono fun _ => Or.inl

/-- Written fields are read one after the other; the last of them is not closed yet. -/
theorem Holds.writeFields (ho : o.Distinct) (h : r.Holds Place.Opens [] fields rows)
    {written : List Field} (hne : written ≠ []) (terminator : Terminator) :
    ∃ field fields', (((o.writing terminator).writeFields written).foldl (step o) r).Holds
        (fun p => p.Closes ∨ (o.writing terminator).writeFields written = [] ∧ p = r.place)
        field fields' rows
      ∧ (field.reverse :: fields').reverse = fields.reverse ++ written := by
  induction written generalizing r fields with
  | nil => exact absurd rfl hne
  | cons bytes written ih =>
      have hfield := h.writeField ho bytes terminator
      cases written with
      | nil =>
          refine ⟨bytes.reverse, fields, hfield.mono ?_, by simp⟩
          rintro p (rfl | rfl | hp)
          · exact Or.inl trivial
          · exact Or.inl trivial
          · exact Or.inr hp
      | cons next written =>
          have hplace := h.place
          have hclosed := (hfield.mono (q := (· ≠ .inQuotes)) (by
            rintro p (rfl | rfl | ⟨-, rfl⟩) hp
            · cases hp
            · cases hp
            · rw [hp] at hplace
              exact hplace)).step_delimiter ho
          have hopens := hclosed.mono (q := Place.Opens) (by rintro p rfl; trivial)
          obtain ⟨field, fields', hrest, hread⟩ := ih hopens nofun
          have hbytes : (o.writing terminator).writeFields (bytes :: next :: written)
              = (o.writing terminator).writeField bytes
                ++ o.delimiter :: (o.writing terminator).writeFields (next :: written) := rfl
          refine ⟨field, fields', ?_, ?_⟩
          · rw [hbytes, List.foldl_append, List.foldl_cons]
            refine hrest.mono ?_
            rintro p (hp | ⟨-, rfl⟩)
            · exact Or.inl hp
            · exact Or.inl (by rw [hclosed.place]; trivial)
          · rw [hread, List.reverse_reverse, List.reverse_cons, List.append_assoc]
            rfl

theorem Holds.terminate (ho : o.Distinct) (h : r.Holds Place.Closes field fields rows)
    (terminator : Terminator) :
    (terminator.bytes.foldl (step o) r).Holds Place.Between [] []
      ((field.reverse :: fields).reverse :: rows) := by
  cases terminator with
  | lineFeed => exact (h.step_lineEnd ho (b := 10) rfl).mono (by rintro p rfl; trivial)
  | carriageReturn => exact (h.step_lineEnd ho (b := 13) rfl).mono (by rintro p rfl; trivial)
  | returnLineFeed =>
      have hreturn := h.step_lineEnd ho (b := 13) rfl
      have hplace : (r.step o 13).place = .afterReturn := hreturn.place
      have hfeed : (r.step o 13).step o 10
          = { (r.step o 13).count 10 with place := .recordStart } := by
        rw [step, hplace]
        rfl
      rw [Terminator.bytes, List.foldl_cons, List.foldl_cons, List.foldl_nil, hfeed]
      exact { hreturn.count 10 with place := trivial }

/-- A written record is read as that record. -/
theorem Holds.writeRecord (ho : o.Distinct) (h : r.Holds Place.Between [] [] rows)
    {written : List Field} (hne : written ≠ []) (terminator : Terminator) :
    (((o.writing terminator).writeRecord written).foldl (step o) r).Holds Place.Between [] []
      (written :: rows) := by
  have hopens : r.Holds Place.Opens [] [] rows := h.mono fun p hp => by cases p <;> trivial
  obtain ⟨field, fields, hread, hwritten⟩ := hopens.writeFields ho hne terminator
  rw [List.reverse_nil, List.nil_append] at hwritten
  rw [WriteOptions.writeRecord, List.foldl_append]
  by_cases hempty : (o.writing terminator).writeFields written = []
  · -- The only record without bytes has one empty field.
    rw [hempty] at hread
    have hquotes := Holds.step_closeQuote (o := o) (hopens.step_openQuote ho)
    have hfield : field = [] := hread.field.symm.trans h.field
    have hfields : fields = [] := hread.fields.symm.trans h.fields
    subst hfield hfields
    have hrecord := (hquotes.mono (q := Place.Closes) (by rintro p rfl; trivial)).terminate ho
      terminator
    rw [hwritten] at hrecord
    rw [hempty]
    exact hrecord
  · have hcloses := hread.mono (q := Place.Closes) fun p hp => hp.resolve_right fun h => hempty h.1
    have hrecord := hcloses.terminate ho terminator
    rw [hwritten] at hrecord
    have hnot : ((o.writing terminator).writeFields written).isEmpty = false := by
      rwa [Bool.eq_false_iff, ne_eq, List.isEmpty_iff]
    rw [hnot]
    exact hrecord

/-- Written records are read one after the other. -/
theorem Holds.writeRecords (ho : o.Distinct) (h : r.Holds Place.Between [] [] rows)
    {written : List (List Field)} (hne : ∀ row ∈ written, row ≠ []) (terminator : Terminator) :
    ((written.flatMap (o.writing terminator).writeRecord).foldl (step o) r).Holds Place.Between
      [] [] (written.reverse ++ rows) := by
  induction written generalizing r rows with
  | nil => exact h
  | cons row written ih =>
      obtain ⟨hrow, hrest⟩ := List.forall_mem_cons.mp hne
      rw [List.flatMap_cons, List.foldl_append, List.reverse_cons, List.append_assoc]
      exact ih (h.writeRecord ho hrow terminator) hrest

theorem Holds.finish (h : r.Holds Place.Between [] [] rows) :
    r.finish.map Prod.snd = rows.reverse := by
  have hplace := h.place
  have hfinish : r.finish = r.records.reverse := by
    rw [Reading.finish]
    cases hp : r.place with
    | recordStart | afterReturn => rfl
    | fieldStart | inField | inQuotes | afterQuote => rw [hp] at hplace; exact hplace.elim
  rw [hfinish, List.map_reverse, h.rows]

end Reading

end Recalc.Csv
