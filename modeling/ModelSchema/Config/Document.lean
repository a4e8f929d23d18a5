import ModelSchema.Config.Basic
import ModelSchema.Toml.Parser
import ModelSchema.Toml.Printer
import ModelSchema.Toml.Record

/-!
# Settings as a TOML document

`Config.ofEntries?` reads settings from a document and puts the default where one is missing;
`Config.toEntries` writes all settings that are there. Overridden categories have no order of their
own, so they are written in an order that is given (`Config.textWith`); `Config.text` takes that of
their names.
-/

namespace ModelSchema.Config

open Toml (Value Entries)

/-! ## Reading

One reader for each kind of setting. Most fields may be missing and have a default then; one that is
there and cannot be read makes the whole document unreadable. -/

def path? (value : Value) : Option Path :=
  value.asString?.map Path.mk

def engine? (value : Value) : Option Sql.Engine :=
  value.asCase?.bind Sql.Engine.ofKey?

def format? (value : Value) : Option Interchange.Format :=
  value.asCase?.bind Interchange.Format.ofKey?

def category? (value : Value) : Option Category :=
  value.asCase?.bind Category.ofKey?

def modelFile? (value : Value) : Option ModelFile := do
  let fields ← value.fields? ["path", "format"]
  return ⟨← Entries.required fields "path" path?, ← Entries.optional fields "format" format?⟩

def suffixes? (value : Value) : Option Naming.Suffixes := do
  let fields ← value.fields? ["persistent_suffix", "functional_suffix"]
  let text (name : String) (default : String) :=
    Entries.defaulted fields name Value.asString? default
  return ⟨← text "persistent_suffix" Naming.Suffixes.standard.persistent,
    ← text "functional_suffix" Naming.Suffixes.standard.functional⟩

def output? (value : Value) : Option Output := do
  let fields ← value.fields?
    ["directory", "create_script", "unique_key_script", "index_script", "type_script",
      "init_script", "translation_script"]
  let text (name : String) (default : String) :=
    Entries.defaulted fields name Value.asString? default
  return {
    folder := ← Entries.defaulted fields "directory" path? Output.standard.folder
    create := ← text "create_script" Output.standard.create
    uniqueKeys := ← text "unique_key_script" Output.standard.uniqueKeys
    indexes := ← text "index_script" Output.standard.indexes
    types := ← text "type_script" Output.standard.types
    data := ← text "init_script" Output.standard.data
    translations := ← text "translation_script" Output.standard.translations }

def storage? (value : Value) : Option Storage := do
  let fields ← value.fields? ["data", "index"]
  return ⟨← Entries.optional fields "data" Value.asString?,
    ← Entries.optional fields "index" Value.asString?⟩

def severity? (value : Value) : Option Severity := do
  let fields ← value.fields? ["overrides"]
  return ⟨← Entries.required fields "overrides" (Value.asCatalog? category?)⟩

def allowlist? (value : Value) : Option Allowlist := do
  let fields ← value.fields? ["skip_classes"]
  return ⟨← Entries.defaulted fields "skip_classes" (Value.asList? Value.asString?) []⟩

def ofEntries? (fields : Entries) : Option Config := do
  return {
    application := ← Entries.defaulted fields "application" Value.asString? standard.application
    engine := ← Entries.defaulted fields "dialect" engine? standard.engine
    models := ← Entries.defaulted fields "models" (Value.asList? modelFile?) standard.models
    modelFolder := ← Entries.defaulted fields "model_dir" path? standard.modelFolder
    domains := ← Entries.defaulted fields "domains" (Value.asList? modelFile?) standard.domains
    seed := ← Entries.optional fields "init" path?
    suffixes := ← Entries.defaulted fields "naming" suffixes? standard.suffixes
    output := ← Entries.defaulted fields "output" output? standard.output
    storage := ← Entries.defaulted fields "storage" storage? standard.storage
    translationTable :=
      ← Entries.defaulted fields "translation_table" Value.asString? standard.translationTable
    severity := ← Entries.defaulted fields "severity" severity? standard.severity
    allowlist := ← Entries.defaulted fields "allowlist" allowlist? standard.allowlist }

/-- Read settings from a text. -/
def parse? (text : String) : Option Config :=
  (Toml.parse? text).bind ofEntries?

/-! ## Writing

The same names again. An optional setting that is not there leaves no entry. -/

def optionalEntry (name : String) (value : Option String) : Entries :=
  (value.map fun value => (name, Value.string value)).toList

def ModelFile.toValue (file : ModelFile) : Value :=
  .table (("path", .string file.path.text)
    :: optionalEntry "format" (file.format.map Interchange.Format.key))

def suffixValue (suffixes : Naming.Suffixes) : Value :=
  .table
    [("persistent_suffix", .string suffixes.persistent),
      ("functional_suffix", .string suffixes.functional)]

def Output.toValue (output : Output) : Value :=
  .table
    [("directory", .string output.folder.text), ("create_script", .string output.create),
      ("unique_key_script", .string output.uniqueKeys), ("index_script", .string output.indexes),
      ("type_script", .string output.types), ("init_script", .string output.data),
      ("translation_script", .string output.translations)]

def Storage.toValue (storage : Storage) : Value :=
  .table (optionalEntry "data" storage.data ++ optionalEntry "index" storage.index)

def severityValue (overrides : List (String × Category)) : Value :=
  .table [("overrides", .table (overrides.map fun entry => (entry.1, .string entry.2.key)))]

def allowlistValue (allowlist : Allowlist) : Value :=
  .table [("skip_classes", .array (allowlist.patterns.map .string))]

/-- All settings, in the order in which they are declared, with the overridden categories as they
are listed. -/
def allEntries (config : Config) (overrides : List (String × Category)) : Entries :=
  [("application", .string config.application), ("dialect", .string config.engine.key),
    ("models", .array (config.models.map ModelFile.toValue)),
    ("model_dir", .string config.modelFolder.text),
    ("domains", .array (config.domains.map ModelFile.toValue))]
  ++ optionalEntry "init" (config.seed.map Path.text)
  ++ [("naming", suffixValue config.suffixes), ("output", config.output.toValue),
    ("storage", config.storage.toValue),
    ("translation_table", .string config.translationTable),
    ("severity", severityValue overrides),
    ("allowlist", allowlistValue config.allowlist)]

def toEntries (config : Config) (overrides : List (String × Category)) : Entries :=
  Toml.arranged (config.allEntries overrides)

/-- The text of settings that list their overridden categories in a certain order. -/
def textWith (config : Config) (overrides : List (String × Category)) : String :=
  Toml.render (config.toEntries overrides)

def text (config : Config) : String :=
  config.textWith config.severity.overrides.entries

end ModelSchema.Config
