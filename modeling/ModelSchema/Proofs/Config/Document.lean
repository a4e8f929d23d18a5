import Mathlib
import ModelSchema.Config.Document
import ModelSchema.Proofs.Steps
import ModelSchema.Proofs.Toml.Documents

/-!
# Settings read back

The text of settings gives the settings back (`settings_read_back`), whatever is missing in them and
in whatever order it lists the overridden categories: settings make a document that is read back
(`parse?_textWith`), and each setting is found in it under its own name and decoded
(`ofEntries?_toEntries`). The categories are put in order again by `Catalog.ofList`.
-/

namespace ModelSchema.Config

open Toml (Value Entries Sheet IsInline Section)

/-! ## The document of settings

`Toml.parse?` reads back what is `arranged`: inline values first, then tables. So each setting is
shown to be the one or the other. -/

/-- Texts are written on one line, so all that matters is that no name occurs twice. -/
theorem sheet_of_strings {entries : Entries} (h : ∀ entry ∈ entries, ∃ s, entry.2 = .string s)
    (hnodup : (entries.map Prod.fst).Nodup) : Sheet entries := by
  refine ⟨fun entry hentry => ?_, hnodup⟩
  obtain ⟨s, hs⟩ := h entry hentry
  rw [hs]
  exact .string s

theorem sheet_modelFile (file : ModelFile) :
    Sheet (("path", .string file.path.text) ::
      optionalEntry "format" (file.format.map Interchange.Format.key)) := by
  apply sheet_of_strings
  · cases file.format <;> simp [optionalEntry]
  · cases file.format <;> simp [optionalEntry]

/-- An empty list of files is written as `[]`, since a list of tables without tables could not be
written. -/
theorem section_modelFiles (name : String) (files : List ModelFile) :
    IsInline (.array (files.map ModelFile.toValue)) ∨
      ∃ lines, Section name (.array (files.map ModelFile.toValue)) lines := by
  cases files with
  | nil => exact .inl (.strings [])
  | cons file files =>
      have hvalues : (file :: files).map ModelFile.toValue =
          ((file :: files).map fun file => ("path", .string file.path.text) ::
            optionalEntry "format" (file.format.map Interchange.Format.key)).map .table := by
        rw [List.map_map]
        rfl
      rw [hvalues]
      refine .inr ⟨_, .tables (by simp) ?_⟩
      intro entries hentries
      obtain ⟨other, -, rfl⟩ := List.mem_map.mp hentries
      exact sheet_modelFile other

/-- This and the next lemmas: each group of settings is a table with texts in it. -/
theorem section_suffixes (name : String) (suffixes : Naming.Suffixes) :
    ∃ lines, Section name (suffixValue suffixes) lines :=
  ⟨_, .table (sheet_of_strings (by simp) (by simp))⟩

theorem section_output (name : String) (output : Output) :
    ∃ lines, Section name output.toValue lines :=
  ⟨_, .table (sheet_of_strings (by simp) (by simp))⟩

theorem section_storage (name : String) (storage : Storage) :
    ∃ lines, Section name storage.toValue lines := by
  obtain ⟨data, index⟩ := storage
  refine ⟨_, .table (sheet_of_strings ?_ ?_)⟩
  · cases data <;> cases index <;> simp [optionalEntry]
  · cases data <;> cases index <;> simp [optionalEntry]

/-- A table of its own holds the overrides, whatever names they have. They need not be codes that
exist. -/
theorem section_severity (name : String) {overrides : List (String × Category)}
    (hnames : (overrides.map Prod.fst).Nodup) :
    ∃ lines, Section name (severityValue overrides) lines := by
  refine ⟨_, .group (sheet_of_strings ?_ ?_)⟩
  · intro entry hentry
    obtain ⟨other, -, rfl⟩ := List.mem_map.mp hentry
    exact ⟨_, rfl⟩
  · rw [List.map_map]
    exact hnames

theorem section_allowlist (name : String) (allowlist : Allowlist) :
    ∃ lines, Section name (allowlistValue allowlist) lines :=
  ⟨_, .table ⟨by simpa using .strings allowlist.patterns, by simp⟩⟩

section Entries

variable {config : Config} {overrides : List (String × Category)}

/-- The names of the settings are different, whatever their values are. -/
theorem nodup_allEntries (config : Config) (overrides : List (String × Category)) :
    ((config.allEntries overrides).map Prod.fst).Nodup := by
  cases hseed : config.seed <;> simp [allEntries, optionalEntry, hseed]

/-- Every setting is an inline value or has sections of its own. -/
theorem shape_allEntries (hnames : (overrides.map Prod.fst).Nodup) :
    ∀ entry ∈ config.allEntries overrides,
      IsInline entry.2 ∨ ∃ lines, Section entry.1 entry.2 lines := by
  have hseed : ∀ entry ∈ optionalEntry "init" (config.seed.map Path.text), IsInline entry.2 := by
    cases config.seed <;> simp [optionalEntry, IsInline.string]
  simp only [allEntries, List.forall_mem_append, List.forall_mem_cons, List.not_mem_nil,
    false_imp_iff, implies_true, and_true]
  refine ⟨⟨⟨?_, ?_, ?_, ?_, ?_⟩, ?_⟩, ?_, ?_, ?_, ?_, ?_, ?_⟩
  · exact .inl (.string _)
  · exact .inl (.string _)
  · exact section_modelFiles _ _
  · exact .inl (.string _)
  · exact section_modelFiles _ _
  · exact fun entry hentry => .inl (hseed entry hentry)
  · exact .inr (section_suffixes _ _)
  · exact .inr (section_output _ _)
  · exact .inr (section_storage _ _)
  · exact .inl (.string _)
  · exact .inr (section_severity _ hnames)
  · exact .inr (section_allowlist _ _)

/-- The text of settings is read as their document: `Toml.parse?` inverts `Toml.render` on
arranged entries. -/
theorem parse?_textWith (hnames : (overrides.map Prod.fst).Nodup) :
    Toml.parse? (config.textWith overrides) = some (config.toEntries overrides) := by
  have hperm := Toml.perm_arranged (config.allEntries overrides)
  rw [textWith, toEntries, Toml.parse?_render_arranged, Toml.arranged_arranged]
  · exact Toml.nodup_arranged (config.nodup_allEntries overrides)
  · exact fun entry hentry => shape_allEntries hnames entry (hperm.mem_iff.mp hentry)

end Entries

/-! ## Settings in their document

Decoding looks settings up by name. For each there is an encoder and a decoder. -/

/-- The decoders invert the encoders, setting by setting. -/
theorem engine?_key (engine : Sql.Engine) : engine? (.string engine.key) = some engine := by
  cases engine <;> rfl

theorem category?_key (category : Category) : category? (.string category.key) = some category := by
  cases category <;> rfl

theorem modelFile?_toValue (file : ModelFile) : modelFile? file.toValue = some file := by
  obtain ⟨path, format⟩ := file
  cases format with
  | none => rfl
  | some format => cases format <;> rfl

theorem suffixes?_suffixValue (suffixes : Naming.Suffixes) :
    suffixes? (suffixValue suffixes) = some suffixes :=
  rfl

theorem output?_toValue (output : Output) : output? output.toValue = some output :=
  rfl

theorem storage?_toValue (storage : Storage) : storage? storage.toValue = some storage := by
  obtain ⟨data, index⟩ := storage
  cases data <;> cases index <;> rfl

/-- In whatever order overrides are listed, they make the same catalog. -/
theorem asCatalog?_overrides {overrides : List (String × Category)} {catalog : Catalog Category}
    (h : overrides.Perm catalog.entries) :
    Value.asCatalog? category?
      (.table (overrides.map fun entry => (entry.1, .string entry.2.key))) = some catalog := by
  rw [Value.asCatalog?, mapM_map_self, Option.pure_def, Option.map_some, Catalog.ofList_of_perm h]
  intro entry _
  rw [category?_key]
  rfl

/-- An order of overrides is not a part of the settings: `Severity` holds a catalog. -/
theorem severity?_severityValue {overrides : List (String × Category)} {severity : Severity}
    (h : overrides.Perm severity.overrides.entries) :
    severity? (severityValue overrides) = some severity := by
  simp [severity?, severityValue, Value.fields?, Entries.required, asCatalog?_overrides h]

theorem allowlist?_allowlistValue (allowlist : Allowlist) :
    allowlist? (allowlistValue allowlist) = some allowlist := by
  have hread : (allowlist.patterns.map Value.string).mapM Value.asString? =
      some allowlist.patterns := by
    apply mapM_map_self
    intro pattern _
    rfl
  simp [allowlist?, allowlistValue, Value.fields?, Entries.defaulted, Value.asList?, hread]

theorem asList?_modelFiles (files : List ModelFile) :
    Value.asList? modelFile? (.array (files.map ModelFile.toValue)) = some files := by
  rw [Value.asList?, mapM_map_self]
  · rfl
  · intro file _
    exact modelFile?_toValue file

section Lookup

variable {config : Config} {overrides : List (String × Category)}

/-- Writing puts inline values before tables. The order does not matter for looking up names that
occur once. -/
theorem lookup_toEntries (config : Config) (overrides : List (String × Category)) (name : String) :
    (config.toEntries overrides).lookup name = (config.allEntries overrides).lookup name :=
  Toml.lookup_arranged (config.nodup_allEntries overrides) name

/-- A setting is found under its name. -/
theorem defaulted_toEntries {name : String} {value : Value}
    (h : (name, value) ∈ config.allEntries overrides) {α : Type} (decode : Value → Option α)
    (default : α) :
    Entries.defaulted (config.toEntries overrides) name decode default = decode value := by
  have hlookup := (Toml.lookup_eq_some_iff_mem (config.nodup_allEntries overrides)).mpr h
  rw [Entries.defaulted, lookup_toEntries, hlookup]

/-- The only setting that may be missing. -/
theorem optional_seed :
    Entries.optional (config.toEntries overrides) "init" path? = some config.seed := by
  rw [Entries.optional, lookup_toEntries, allEntries]
  cases config.seed <;> rfl

/-- All settings are found in their document. Defaults play no part: only `init` can be missing, and
it has none. -/
theorem ofEntries?_toEntries (h : overrides.Perm config.severity.overrides.entries) :
    ofEntries? (config.toEntries overrides) = some config := by
  have happlication : ("application", Value.string config.application) ∈
      config.allEntries overrides := by
    simp [allEntries]
  have hengine : ("dialect", Value.string config.engine.key) ∈ config.allEntries overrides := by
    simp [allEntries]
  have hmodels : ("models", Value.array (config.models.map ModelFile.toValue)) ∈
      config.allEntries overrides := by
    simp [allEntries]
  have hfolder : ("model_dir", Value.string config.modelFolder.text) ∈
      config.allEntries overrides := by
    simp [allEntries]
  have hdomains : ("domains", Value.array (config.domains.map ModelFile.toValue)) ∈
      config.allEntries overrides := by
    simp [allEntries]
  have hsuffixes : ("naming", suffixValue config.suffixes) ∈ config.allEntries overrides := by
    simp [allEntries]
  have houtput : ("output", config.output.toValue) ∈ config.allEntries overrides := by
    simp [allEntries]
  have hstorage : ("storage", config.storage.toValue) ∈ config.allEntries overrides := by
    simp [allEntries]
  have htable : ("translation_table", Value.string config.translationTable) ∈
      config.allEntries overrides := by
    simp [allEntries]
  have hseverity : ("severity", severityValue overrides) ∈ config.allEntries overrides := by
    simp [allEntries]
  have hallowlist : ("allowlist", allowlistValue config.allowlist) ∈
      config.allEntries overrides := by
    simp [allEntries]
  rw [ofEntries?, defaulted_toEntries happlication, defaulted_toEntries hengine,
    defaulted_toEntries hmodels, defaulted_toEntries hfolder, defaulted_toEntries hdomains,
    optional_seed, defaulted_toEntries hsuffixes, defaulted_toEntries houtput,
    defaulted_toEntries hstorage, defaulted_toEntries htable, defaulted_toEntries hseverity,
    defaulted_toEntries hallowlist, engine?_key, asList?_modelFiles, asList?_modelFiles,
    suffixes?_suffixValue, output?_toValue, storage?_toValue, severity?_severityValue h,
    allowlist?_allowlistValue]
  rfl

/-- Reading the text and decoding the document, one after the other. -/
theorem parse?_textWith_of_perm (h : overrides.Perm config.severity.overrides.entries) :
    parse? (config.textWith overrides) = some config := by
  have hnames : (overrides.map Prod.fst).Nodup :=
    (h.map Prod.fst).nodup_iff.mpr config.severity.overrides.nodup_names
  rw [parse?, parse?_textWith hnames]
  exact ofEntries?_toEntries h

end Lookup

/-- The text of settings gives the settings back, in whatever order it lists their overridden
categories. -/
theorem settings_read_back (config : Config) :
    parse? config.text = some config ∧
      ∀ overrides, overrides.Perm config.severity.overrides.entries →
        parse? (config.textWith overrides) = some config :=
  ⟨parse?_textWith_of_perm (.refl _), fun _ => parse?_textWith_of_perm⟩

/-- The standard settings but for two categories. -/
def overridden : Config :=
  { standard with
    severity := ⟨Catalog.ofList [("MISSING_LABEL", .fatal), ("MISSING_COMMENT", .doc)]⟩ }

/-- The two are listed against the order of their names. -/
theorem settings_read_back_overridden :
    let overrides := [("MISSING_LABEL", Category.fatal), ("MISSING_COMMENT", Category.doc)]
    overrides ≠ overridden.severity.overrides.entries ∧
      parse? (overridden.textWith overrides) = some overridden := by
  refine ⟨by decide +kernel, (settings_read_back overridden).2 _ (by decide +kernel)⟩

end ModelSchema.Config
