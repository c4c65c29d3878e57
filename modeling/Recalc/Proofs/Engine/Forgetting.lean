import Recalc.Proofs.Engine.Loading
import Recalc.Proofs.Engine.Solution

/-!
# Loading forgets

No request changes the configuration of an engine or its functions, and a load looks at nothing
else. So it does not matter what an engine has been asked before.
-/

namespace Recalc.Engine

variable {config : Config} {e : Engine} {rows : List (List String)}

/-- An engine that was made from a configuration and still has its functions. -/
structure Configured (config : Config) (e : Engine) : Prop where
  options : e.config = config
  registry : e.functions = (ofConfig config).functions

theorem configured_ofConfig (config : Config) : (ofConfig config).Configured config := ⟨rfl, rfl⟩

/-- Without its sheet an engine is as new. -/
theorem Configured.unload_eq (h : e.Configured config) : e.unload = ofConfig config := by
  rw [unload, h.options, h.registry]
  rfl

/-- A load is refused and leaves the engine as new, or it takes the rows in and counts a pass. -/
theorem Configured.load_cases (h : e.Configured config) (rows : List (List String)) :
    (∃ failure, e.load rows = (.error failure, ofConfig config))
      ∨ ∃ l, e.load rows = (.ok (), { ofConfig config with sheet := some l, passes := 1 }) := by
  obtain ⟨s, hs, hwired, -⟩ := Sheet.exists_ofRows e.functions 0 rows
  rcases e.load_built hs hwired with ⟨id, -, hfail⟩ | ⟨-, t, hok, -⟩
  · exact Or.inl ⟨_, h.unload_eq ▸ hfail⟩
  · refine Or.inr ⟨⟨t, s.order⟩, ?_⟩
    rw [hok, h.options, h.registry]
    rfl

theorem unload_load (e : Engine) (rows : List (List String)) : e.unload.load rows = e.load rows :=
  rfl

theorem Configured.load_eq (h : e.Configured config) (rows : List (List String)) :
    e.load rows = (ofConfig config).load rows := by
  rw [← unload_load, h.unload_eq]

theorem Configured.load (h : e.Configured config) (rows : List (List String)) :
    (e.load rows).2.Configured config := by
  rcases h.load_cases rows with ⟨failure, hfail⟩ | ⟨l, hok⟩
  · exact hfail ▸ ⟨rfl, rfl⟩
  · exact hok ▸ ⟨rfl, rfl⟩

theorem Configured.recompute (h : e.Configured config) : e.recompute.2.Configured config := by
  rw [Engine.recompute]
  split
  · exact h
  · dsimp only
    split
    · exact ⟨h.options, h.registry⟩
    · exact ⟨h.options, h.registry⟩

theorem Configured.setAt (h : e.Configured config) (a : Address) (content : String) :
    (e.setAt a content).2.Configured config := by
  rw [Engine.setAt]
  split
  · next l _ =>
      have htyped : ({ e with sheet := some l } : Engine).Configured config :=
        ⟨h.options, h.registry⟩
      exact htyped.recompute
  · exact h

theorem configured_run (config : Config) (requests : List Request) :
    ((ofConfig config).run requests).Configured config :=
  run_invariant (p := Configured config) (fun _ rows h => h.load rows)
    (fun _ a content h => h.setAt a content) (fun _ h => h.recompute) (configured_ofConfig config)
    requests

/-- A file is loaded as its rows are; one that cannot be read changes nothing. -/
theorem loadCsv_eq (e : Engine) (bytes : List UInt8) :
    e.loadCsv bytes = match Csv.read e.config.csv bytes with
      | .error cause => (.error (.csv (.notText cause)), e)
      | .ok rows => ((e.load rows).1.mapError .engine, (e.load rows).2) := by
  unfold loadCsv
  cases Csv.read e.config.csv bytes <;> rfl

/-- Whatever an engine has been asked, it loads a sheet as a new engine does. One pass is counted
then, and nothing is left of any sheet where the load is refused. The rows of a file are loaded in
the same way; a file that cannot be read leaves the engine as it is. -/
theorem run_load_eq_new (config : Config) (requests : List Request) :
    let e := (ofConfig config).run requests
    (∀ rows, e.load rows = (ofConfig config).load rows)
      ∧ (∀ rows, let loaded := (e.load rows).2
          ((e.load rows).1 = .ok () ∧ loaded.isLoaded = true ∧ loaded.passes = 1)
            ∨ (∃ failure, (e.load rows).1 = .error failure)
              ∧ loaded.isLoaded = false ∧ loaded.dimensions = (0, 0)
              ∧ ∀ spent, loaded.report spent = ⟨spent, 0, 0, 0, 0, 0⟩)
      ∧ ∀ bytes, e.loadCsv bytes = match Csv.read config.csv bytes with
          | .error cause => (.error (.csv (.notText cause)), e)
          | .ok rows => ((e.load rows).1.mapError .engine, (e.load rows).2) := by
  intro e
  have h : e.Configured config := configured_run config requests
  refine ⟨h.load_eq, fun rows => ?_, fun bytes => ?_⟩
  · rcases h.load_cases rows with ⟨failure, hfail⟩ | ⟨l, hok⟩
    · rw [hfail]
      exact Or.inr ⟨⟨failure, rfl⟩, rfl, rfl, fun _ => rfl⟩
    · rw [hok]
      exact Or.inl ⟨rfl, rfl, rfl⟩
  · rw [loadCsv_eq, h.options]

end Recalc.Engine
