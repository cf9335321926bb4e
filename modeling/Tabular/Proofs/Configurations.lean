import Tabular.Config
import Tabular.Proofs.Filtering
/-!
# Configurations

A configuration that was read has passed its checks, and a different directory does not undo them.
-/

namespace Tabular.Config

/-- What the checks ask for. -/
structure Usable (config : Config) : Prop where
  delimiter : ∃ c, config.delimiterChar = .ok c
  extension : config.extension ≠ ""
  severity : ∃ severity, config.severity = .ok severity

variable {files : Files} {path dataDir : Option String} {config : Config}

theorem validate_iff : config.validate = .ok () ↔ config.Usable := by
  constructor
  · intro h
    obtain ⟨c, hc, h⟩ := exists_of_bind h
    split at h
    · cases h
    · rename_i hextension
      obtain ⟨severity, hseverity, -⟩ := exists_of_bind h
      exact ⟨⟨c, hc⟩, fun he => hextension (String.isEmpty_iff.2 he), severity, hseverity⟩
  · rintro ⟨⟨c, hc⟩, hextension, severity, hseverity⟩
    rw [validate, hc, hseverity]
    simp only [String.isEmpty_iff, hextension]
    rfl

theorem usable_default : default.Usable := ⟨⟨',', rfl⟩, by decide, .warn, rfl⟩

theorem Usable.tableFiles (h : config.Usable) : ∃ tables, config.tableFiles = .ok tables := by
  obtain ⟨c, hc⟩ := h.delimiter
  exact ⟨⟨config.dataDir, c, config.extension⟩, by rw [Config.tableFiles, hc]; rfl⟩

theorem usable_of_load {path : String} (h : load files path = .ok config) : config.Usable := by
  obtain ⟨bytes, -, h⟩ := exists_of_bind h
  obtain ⟨read, -, h⟩ := exists_of_bind h
  obtain ⟨⟨⟩, hvalid, h⟩ := exists_of_bind h
  cases h
  exact validate_iff.1 hvalid

/-- The configuration with the directory that replaces its own, if there is one. -/
def inDirectory (config : Config) : Option String → Config
  | none => config
  | some dataDir => { config with dataDir }

theorem Usable.inDirectory (h : config.Usable) : (config.inDirectory dataDir).Usable := by
  cases dataDir with
  | none => exact h
  | some dataDir => exact ⟨h.delimiter, h.extension, h.severity⟩

/-- What is resolved is what the file says, or the defaults without one, in the directory given. -/
theorem resolve_eq (files : Files) (path dataDir : Option String) :
    resolve files path dataDir =
      ((path.map (load files)).getD (.ok default)).map (·.inDirectory dataDir) := by
  cases path with
  | none => cases dataDir <;> rfl
  | some path =>
    simp only [resolve, Option.map_some, Option.getD_some]
    cases load files path <;> cases dataDir <;> rfl

/-- A configuration that resolves is usable. -/
theorem usable_of_resolve (h : resolve files path dataDir = .ok config) : config.Usable := by
  rw [resolve_eq] at h
  cases path with
  | none =>
    cases h
    exact usable_default.inDirectory
  | some path =>
    rw [Option.map_some, Option.getD_some] at h
    cases hload : load files path with
    | error error =>
      rw [hload] at h
      cases h
    | ok read =>
      rw [hload] at h
      cases h
      exact (usable_of_load hload).inDirectory

end Tabular.Config
