/-!
# Steps that may fail

A composition that succeeds is taken apart into its steps, and folds and maps whose steps succeed
succeed. A step that always fails makes the whole fail.
-/

namespace Recalc

theorem eq_ok_of_toOption {ε α : Type} {outcome : Except ε α} {x : α}
    (h : outcome.toOption = some x) : outcome = .ok x := by
  cases outcome with
  | ok y => exact congrArg Except.ok (Option.some.inj h)
  | error _ => cases h

/-- A composition succeeds by its first part and then its second. -/
theorem exists_of_bind_eq_ok {α β ε : Type} {x : Except ε α} {f : α → Except ε β} {y : β}
    (h : x >>= f = .ok y) : ∃ a, x = .ok a ∧ f a = .ok y := by
  cases x with
  | error e => cases h
  | ok a => exact ⟨a, rfl, h⟩

/-- What every step of a fold keeps holds where the fold ends. -/
theorem of_foldlM {σ α ε : Type} {f : σ → α → Except ε σ} {xs : List α} (p : σ → Prop)
    (step : ∀ x ∈ xs, ∀ s t, p s → f s x = .ok t → p t) {s t : σ} (hs : p s)
    (h : xs.foldlM f s = .ok t) : p t := by
  induction xs generalizing s with
  | nil => exact Except.ok.inj h ▸ hs
  | cons x xs ih =>
      rw [List.foldlM_cons] at h
      obtain ⟨u, hu, h⟩ := exists_of_bind_eq_ok h
      exact ih (fun y hy => step y (List.mem_cons_of_mem x hy))
        (step x List.mem_cons_self s u hs hu) h

/-- A fold whose steps succeed and keep a property of what has been done succeeds and has the
property of the whole list. -/
theorem exists_foldlM {σ α ε : Type} {f : σ → α → Except ε σ} {p : List α → σ → Prop}
    (xs : List α)
    (step : ∀ done x rest s, done ++ x :: rest = xs → p done s →
      ∃ t, f s x = .ok t ∧ p (done ++ [x]) t) {s : σ}
    (h : p [] s) : ∃ t, xs.foldlM f s = .ok t ∧ p xs t := by
  suffices hall : ∀ rest done s, done ++ rest = xs → p done s →
      ∃ t, rest.foldlM f s = .ok t ∧ p xs t from hall xs [] s rfl h
  intro rest
  induction rest with
  | nil =>
      intro done s hxs h
      rw [List.append_nil] at hxs
      exact ⟨s, rfl, hxs ▸ h⟩
  | cons x rest ih =>
      intro done s hxs h
      obtain ⟨t, ht, hp⟩ := step done x rest s hxs h
      obtain ⟨u, hu, hp'⟩ := ih (done ++ [x]) t (by rw [List.append_assoc]; exact hxs) hp
      exact ⟨u, by rw [List.foldlM_cons, ht]; exact hu, hp'⟩

/-- A map whose steps succeed succeeds. -/
theorem mapM_eq_ok {α β ε : Type} {f : α → Except ε β} {g : α → β} {xs : List α}
    (h : ∀ x ∈ xs, f x = .ok (g x)) : xs.mapM f = .ok (xs.map g) := by
  induction xs with
  | nil => rfl
  | cons x xs ih =>
      rw [List.mapM_cons, h x List.mem_cons_self, ih fun y hy => h y (List.mem_cons_of_mem x hy)]
      rfl

/-! ## Failing -/

section Failing

variable {σ α β ε : Type}

theorem exists_error_bind {x : Except ε α} {f : α → Except ε β} (h : ∃ e, x = .error e) :
    ∃ e, x >>= f = .error e := by
  obtain ⟨e, rfl⟩ := h
  exact ⟨e, rfl⟩

/-- A composition fails if its second part always does. -/
theorem exists_error_of_forall {x : Except ε α} {f : α → Except ε β}
    (h : ∀ a, ∃ e, f a = .error e) : ∃ e, x >>= f = .error e := by
  cases x with
  | error e => exact ⟨e, rfl⟩
  | ok a => exact h a

/-- A fold fails if one of its steps always does. -/
theorem exists_error_foldlM {f : σ → α → Except ε σ} {xs : List α} {x : α} (hx : x ∈ xs)
    (h : ∀ s, ∃ e, f s x = .error e) (s : σ) : ∃ e, xs.foldlM f s = .error e := by
  induction xs generalizing s with
  | nil => cases hx
  | cons y xs ih =>
      rw [List.foldlM_cons]
      rcases List.mem_cons.mp hx with rfl | hrest
      · exact exists_error_bind (h s)
      · exact exists_error_of_forall (ih hrest)

end Failing

end Recalc
