import Recalc.Cli
import Recalc.Proofs.Cli.Files
import Recalc.Proofs.Csv.Roundtrip
import Recalc.Proofs.Engine.Solution

/-!
# Evaluating a file from the command line

What the `eval` command prints or writes is what an engine shows that loads the file and takes the
assignments one after the other. If anything on this way is refused, nothing is printed and no file
is written.
-/

namespace Recalc

namespace Engine

/-- Contents are typed into cells one after the other, and none is refused. -/
inductive SetsAll : Engine → List (String × String) → Engine → Prop
  | nil (e : Engine) : SetsAll e [] e
  | cons {e f g : Engine} {cell content : String} {rest : List (String × String)}
      (first : e.set cell content = (.ok (), f)) (others : SetsAll f rest g) :
      SetsAll e ((cell, content) :: rest) g

/-- An engine with a solved sheet. -/
structure Showing (e : Engine) : Prop extends e.Sound where
  isLoaded : ∃ l, e.sheet = some l

variable {e f : Engine}

theorem Showing.exists_values (h : e.Showing) : ∃ grid, e.values = .ok grid := by
  obtain ⟨l, hl⟩ := h.isLoaded
  exact ⟨_, (values_of_sheet hl).trans (h.sheet l hl).labelled.values_eq⟩

theorem Sound.showing_of_loadCsv (h : e.Sound) {bytes : List UInt8}
    (hload : e.loadCsv bytes = (.ok (), f)) : f.Showing := by
  have hsound : (e.loadCsv bytes).2.Sound := h.run [.loadCsv bytes]
  rw [hload] at hsound
  refine ⟨hsound, ?_⟩
  rw [loadCsv] at hload
  split at hload
  · cases hload
  · next rows _ =>
      obtain ⟨-, -, -, -, failure, hfail⟩ | ⟨l, hok, -⟩ := load_cases h.functions rows
      · rw [hfail] at hload
        cases hload
      · rw [hok] at hload
        obtain rfl := (Prod.mk.inj hload).2
        exact ⟨l, rfl⟩

theorem Showing.set (h : e.Showing) {cell content : String}
    (hset : e.set cell content = (.ok (), f)) : f.Showing := by
  have hsound : (e.set cell content).2.Sound := h.run [.set cell content]
  rw [hset] at hsound
  refine ⟨hsound, ?_⟩
  obtain ⟨l, hl⟩ := h.isLoaded
  rw [Engine.set] at hset
  split at hset
  · next a _ =>
      obtain ⟨-, l', hok, -⟩ | ⟨-, failure, hfail⟩ := h.setAt_cases hl a content
      · rw [hok] at hset
        obtain rfl := (Prod.mk.inj hset).2
        exact ⟨l', rfl⟩
      · rw [hfail] at hset
        cases hset
  · cases hset

theorem Showing.setsAll (h : e.Showing) {edits : List (String × String)}
    (hsets : e.SetsAll edits f) : f.Showing := by
  induction hsets with
  | nil => exact h
  | cons first _ ih => exact ih (h.set first)

end Engine

namespace Cli

variable {files : Files} {input : String} {assignments : List (String × String)}
  {output : Option String} {delimiter : Char} {byte : UInt8} {e f : Engine}

theorem assignAll_eq_ok_iff : assignAll e assignments = .ok f ↔ e.SetsAll assignments f := by
  constructor
  · intro h
    induction assignments generalizing e with
    | nil =>
        obtain rfl := Except.ok.inj h
        exact .nil e
    | cons assignment rest ih =>
        obtain ⟨cell, content⟩ := assignment
        rw [assignAll] at h
        split at h
        · next e' hset => exact .cons hset (ih h)
        · cases h
  · intro h
    induction h with
    | nil => rfl
    | cons first _ ih =>
        rw [assignAll, first]
        exact ih

theorem loadBytes_eq_ok_iff {bytes : Except Csv.Error (List UInt8)} :
    loadBytes input byte bytes = .ok e
      ↔ ∃ content, bytes = .ok content ∧ (engineFor byte).loadCsv content = (.ok (), e) := by
  cases bytes with
  | error cause => exact ⟨nofun, nofun⟩
  | ok content =>
      rw [loadBytes]
      constructor
      · intro h
        split at h
        · next e' hload => exact ⟨content, rfl, Except.ok.inj h ▸ hload⟩
        · cases h
      · rintro ⟨_, hcontent, hload⟩
        rw [Except.ok.inj hcontent, hload]

/-- The file loads, every assignment is accepted, and this is the engine after the last one. -/
def Evaluates (files : Files) (input : String) (byte : UInt8)
    (assignments : List (String × String)) (e : Engine) : Prop :=
  ∃ bytes loaded, files.read input = .ok bytes
    ∧ (engineFor byte).loadCsv bytes = (.ok (), loaded) ∧ loaded.SetsAll assignments e

theorem sound_engineFor (byte : UInt8) : (engineFor byte).Sound := Engine.sound_ofConfig _

theorem Evaluates.showing (h : Evaluates files input byte assignments e) : e.Showing := by
  obtain ⟨bytes, loaded, -, hload, hsets⟩ := h
  exact ((sound_engineFor byte).showing_of_loadCsv hload).setsAll hsets

theorem delimiterByte_of_lt (h : delimiter.toNat < 0x80) :
    delimiterByte delimiter = .ok delimiter.toNat.toUInt8 := if_pos h

theorem toUInt8_lt_of_lt (h : delimiter.toNat < 0x80) : delimiter.toNat.toUInt8 < 0x80 := by
  rw [UInt8.lt_iff_toNat_lt]
  exact (Text.Utf8.toNat_ofNat_of_lt (Nat.lt_trans h (by decide))).trans_lt h

/-- What comes of loading a file and typing contents into it. -/
def evaluated (files : Files) (input : String) (assignments : List (String × String))
    (delimiter : Char) : Except Trouble (Csv.WriteOptions × List (List Value)) :=
  (loadBytes input delimiter.toNat.toUInt8 (files.read input)).bind fun e =>
    finalValues e assignments delimiter

section

variable (hascii : delimiter.toNat < 0x80)
include hascii

theorem run_load : (load Files.host input delimiter).run files
    = pure (loadBytes input delimiter.toNat.toUInt8 (files.read input), files) := by
  rw [load, delimiterByte_of_lt hascii]
  rfl

theorem runEval_of_error {t : Trouble}
    (h : evaluated files input assignments delimiter = .error t) :
    (runEval Files.host input assignments output delimiter).run files
      = (Outcome.failure t, files) := by
  rw [evaluated] at h
  rw [runEval, StateT.run_bind, run_load hascii, pure_bind, h]
  rfl

theorem runEval_of_ok {options : Csv.WriteOptions} {values : List (List Value)}
    (h : evaluated files input assignments delimiter = .ok (options, values)) :
    (runEval Files.host input assignments none delimiter).run files
        = (Outcome.success [.text (Csv.write options values)], files)
      ∧ ∀ path after, files.write path (Csv.writeBytes options values) = .ok after →
        (runEval Files.host input assignments (some path) delimiter).run files
          = ({ Outcome.success [] with
              errors := s!"Wrote {values.length} rows to '{path}'\n" }, after) := by
  rw [evaluated] at h
  constructor
  · rw [runEval, StateT.run_bind, run_load hascii, pure_bind, h]
    rfl
  · intro path after hwrite
    have hhost : (Files.host.writeFile path (Csv.writeBytes options values)).run files
        = pure (.ok (), after) := by
      simp only [Files.host, StateT.run_bind, StateT.run_get, pure_bind, hwrite]
      rfl
    rw [runEval, StateT.run_bind, run_load hascii, pure_bind, h]
    dsimp only
    rw [StateT.run_bind, hhost, pure_bind]
    rfl

theorem exists_evaluated (h : Evaluates files input delimiter.toNat.toUInt8 assignments e) :
    ∃ values, e.values = .ok values ∧ evaluated files input assignments delimiter
      = .ok ({ Csv.WriteOptions.standard with delimiter := delimiter.toNat.toUInt8 }, values) := by
  obtain ⟨values, hvalues⟩ := h.showing.exists_values
  obtain ⟨bytes, loaded, hread, hload, hsets⟩ := h
  refine ⟨values, hvalues, ?_⟩
  rw [evaluated, loadBytes_eq_ok_iff.mpr ⟨bytes, hread, hload⟩, Except.bind, finalValues,
    assignAll_eq_ok_iff.mpr hsets, delimiterByte_of_lt hascii]
  simp only [bind, Except.bind, hvalues]
  rfl

omit hascii in
theorem exists_evaluated_error
    (h : ∀ e, ¬ Evaluates files input delimiter.toNat.toUInt8 assignments e) :
    ∃ t, evaluated files input assignments delimiter = .error t := by
  rw [evaluated]
  cases hload : loadBytes input delimiter.toNat.toUInt8 (files.read input) with
  | error t => exact ⟨t, rfl⟩
  | ok loaded =>
      obtain ⟨bytes, hread, hload⟩ := loadBytes_eq_ok_iff.mp hload
      cases hsets : assignAll loaded assignments with
      | error t => exact ⟨t, by rw [Except.bind, finalValues, hsets]; rfl⟩
      | ok e => exact absurd ⟨bytes, loaded, hread, hload, assignAll_eq_ok_iff.mp hsets⟩ (h e)

theorem isOk_evaluated_iff : (evaluated files input assignments delimiter).isOk = true
    ↔ ∃ e, Evaluates files input delimiter.toNat.toUInt8 assignments e := by
  constructor
  · intro hok
    by_contra hnone
    obtain ⟨t, ht⟩ := exists_evaluated_error (not_exists.mp hnone)
    rw [ht] at hok
    cases hok
  · rintro ⟨e, he⟩
    obtain ⟨values, -, hevaluated⟩ := exists_evaluated hascii he
    rw [hevaluated]
    rfl

end

/-- A command line that evaluates a file prints the values that an engine shows after loading the
file and taking all assignments, or writes them where it was told to; and if anything is refused, it
prints nothing and leaves all files as they are. -/
theorem run_eval_outcome (files : Files) {arguments : List String}
    (hcommand : Command.ofArguments arguments = .ok (.eval input assignments output delimiter))
    (hascii : delimiter.toNat < 0x80) :
    let byte := delimiter.toNat.toUInt8
    let options : Csv.WriteOptions := { Csv.WriteOptions.standard with delimiter := byte }
    let outcome := (run Files.host arguments).run files
    (∀ e, Evaluates files input byte assignments e → ∃ values, e.values = .ok values
        ∧ (output = none → outcome = (⟨0, [.text (Csv.write options values)], ""⟩, files))
        ∧ ∀ path after, output = some path →
          files.write path (Text.Utf8.encode (Csv.write options values)) = .ok after →
          files.Written path (Text.Utf8.encode (Csv.write options values)) after
            ∧ ∃ errors, outcome = (⟨0, [], errors⟩, after))
      ∧ ((¬ ∃ e, Evaluates files input byte assignments e) →
        ∃ errors, outcome = (⟨1, [], errors⟩, files)) := by
  intro byte options outcome
  have houtcome : outcome = (runEval Files.host input assignments output delimiter).run files := by
    simp only [outcome, run, hcommand]
    rfl
  refine ⟨fun e he => ?_, fun hnone => ?_⟩
  · obtain ⟨values, hvalues, hevaluated⟩ := exists_evaluated hascii he
    obtain ⟨hprinted, hwritten⟩ := runEval_of_ok hascii hevaluated
    have hbytes : Text.Utf8.encode (Csv.write options values) = Csv.writeBytes options values :=
      Csv.encode_write (toUInt8_lt_of_lt hascii) (show (34 : UInt8) < 0x80 by decide) values
    refine ⟨values, hvalues, ?_, ?_⟩
    · rintro rfl
      exact houtcome.trans hprinted
    · rintro path after rfl hwrite
      refine ⟨Files.written_of_write hwrite, _, houtcome.trans (hwritten path after ?_)⟩
      rwa [← hbytes]
  · obtain ⟨t, ht⟩ := exists_evaluated_error (not_exists.mp hnone)
    exact ⟨t.message, houtcome.trans (runEval_of_error hascii ht)⟩

/-- Two cells are typed into and the values written; when the second one holds a formula, nothing
is. -/
theorem run_eval_outcome_twoEdits :
    let files : Files := Std.TreeMap.empty.insert "in.csv" (Text.Utf8.encode "p;=A1&A1;\n")
    let options : Csv.WriteOptions := { Csv.WriteOptions.standard with delimiter := 59 }
    let command := ["eval", "in.csv", "-d;", "-o", "out.csv", "--set", "A1=q"]
    (∃ e values after errors, Evaluates files "in.csv" 59 [("A1", "q"), ("C1", "r")] e
        ∧ e.values = .ok values
        ∧ files.Written "out.csv" (Text.Utf8.encode (Csv.write options values)) after
        ∧ (run Files.host (command ++ ["--set", "C1=r"])).run files = (⟨0, [], errors⟩, after))
      ∧ ∃ errors, (run Files.host (command ++ ["--set", "B1=r"])).run files
        = (⟨1, [], errors⟩, files) := by
  intro files options command
  have haccepted : Command.ofArguments (command ++ ["--set", "C1=r"])
      = .ok (.eval "in.csv" [("A1", "q"), ("C1", "r")] (some "out.csv") ';') := by decide +kernel
  have hrefused : Command.ofArguments (command ++ ["--set", "B1=r"])
      = .ok (.eval "in.csv" [("A1", "q"), ("B1", "r")] (some "out.csv") ';') := by decide +kernel
  have hok : (evaluated files "in.csv" [("A1", "q"), ("C1", "r")] ';').isOk = true := by
    decide +kernel
  have hfail : ¬ (evaluated files "in.csv" [("A1", "q"), ("B1", "r")] ';').isOk = true := by
    decide +kernel
  have hascii : (';' : Char).toNat < 0x80 := by decide
  constructor
  · obtain ⟨e, he⟩ := (isOk_evaluated_iff hascii).mp hok
    obtain ⟨values, hvalues, -, hwritten⟩ := (run_eval_outcome files haccepted hascii).1 e he
    have hfollow : files.follow "out.csv" = .entry (.above 0) "out.csv" := by decide +kernel
    have hwrite : ∀ bytes, files.write "out.csv" bytes
        = .ok (files.insert ((Files.Place.above 0).wayTo "out.csv") bytes) := by
      intro bytes
      rw [Files.write, hfollow]
      dsimp only
      rw [if_neg (by decide +kernel), if_neg (by decide +kernel), if_neg (by decide +kernel)]
    obtain ⟨hafter, errors, hrun⟩ := hwritten "out.csv" _ rfl (hwrite _)
    exact ⟨e, values, _, errors, he, hvalues, hafter, hrun⟩
  · rw [isOk_evaluated_iff hascii] at hfail
    exact (run_eval_outcome files hrefused hascii).2 hfail

end Cli

end Recalc
