import Recalc.Cli.Files

/-!
# Writing a file

Whether a path leads to the name of a file, and to which, does not depend on the files that there
are. So what is written to a path can be read from it, and the other files stay as they are.
-/

namespace Recalc.Cli.Files

variable {files after : Files} {path way : String} {bytes : List UInt8} {place start : Place}
  {name : String} {parts : List String}

theorem walk_eq_entry (h : files.walk start parts = .entry place name) (other : Files) :
    other.walk start parts = .entry place name := by
  induction parts generalizing start with
  | nil => cases h
  | cons part rest ih =>
      rw [walk] at h ⊢
      cases hnext : start.enter? part with
      | some next =>
          rw [hnext] at h
          exact ih h
      | none =>
          rw [hnext] at h
          dsimp only at h ⊢
          by_cases hrest : rest.isEmpty = true
          · rw [if_pos hrest] at h ⊢
            exact h
          · rw [if_neg hrest] at h
            cases h

theorem follow_eq_entry (h : files.follow path = .entry place name) (other : Files) :
    other.follow path = .entry place name := by
  rw [follow] at h ⊢
  split at h
  · cases h
  · next hempty =>
      rw [if_neg hempty]
      split at h
      · cases h
      · next hlong =>
          rw [if_neg hlong]
          exact walk_eq_entry h other

theorem bytes?_insert (files : Files) (hway : way ≠ nullDevice) (bytes : List UInt8)
    (other : String) : bytes? (files.insert way bytes) other
      = if other = way then some bytes else files.bytes? other := by
  rw [bytes?, bytes?]
  by_cases hother : other = way
  · rw [if_pos hother, if_neg (hother ▸ hway), hother, Std.TreeMap.getElem?_insert_self]
  · have hcompare : ¬ compare way other = .eq := fun heq =>
      hother (Std.LawfulEqOrd.eq_of_compare heq).symm
    rw [if_neg hother, Std.TreeMap.getElem?_insert, if_neg hcompare]

/-- A path that can be written to leads to a name that asks for no directory. -/
theorem exists_entry_of_write (h : files.write path bytes = .ok after) :
    ∃ place name, files.follow path = .entry place name ∧ ¬ path.endsWith "/" = true
      ∧ after = if place.wayTo name = nullDevice then files
        else files.insert (place.wayTo name) bytes := by
  rw [write] at h
  split at h
  · cases h
  · cases h
  · next place name hfollow =>
      dsimp only at h
      by_cases hslash : path.endsWith "/" = true
      · rw [if_pos hslash] at h
        cases h
      · rw [if_neg hslash] at h
        refine ⟨place, name, hfollow, hslash, ?_⟩
        by_cases hlong : longestName < name.utf8ByteSize
        · rw [if_pos hlong] at h
          cases h
        · rw [if_neg hlong, ← apply_ite Except.ok] at h
          exact (Except.ok.inj h).symm

/-- What a path leads to holds the bytes, unless it is the null device, and all else is as it
was. -/
def Written (files : Files) (path : String) (bytes : List UInt8) (after : Files) : Prop :=
  ∃ place name, files.follow path = .entry place name
    ∧ (place.wayTo name ≠ nullDevice → after.read path = .ok bytes)
    ∧ ∀ way, way ≠ place.wayTo name → after.bytes? way = files.bytes? way

/-- What is written to a path can be read from it. -/
theorem written_of_write (h : files.write path bytes = .ok after) :
    files.Written path bytes after := by
  obtain ⟨place, name, hfollow, hslash, rfl⟩ := exists_entry_of_write h
  refine ⟨place, name, hfollow, ?_⟩
  by_cases hnull : place.wayTo name = nullDevice
  · rw [if_pos hnull]
    exact ⟨fun hway => absurd hnull hway, fun _ _ => rfl⟩
  · rw [if_neg hnull]
    refine ⟨fun _ => ?_, fun way hway => ?_⟩
    · simp only [read, follow_eq_entry hfollow, bytes?_insert files hnull, if_true]
      exact if_neg hslash
    · rw [bytes?_insert files hnull, if_neg hway]

end Recalc.Cli.Files
