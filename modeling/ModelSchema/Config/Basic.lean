import ModelSchema.Allowlist
import ModelSchema.Diagnostic.Sink
import ModelSchema.Interchange.Format
import ModelSchema.Naming.Suffix
import ModelSchema.Sql.Script

/-!
# Project settings

What a project decides: its model files, the engine of its scripts, its naming conventions, where
scripts go, and how findings are rated. Every setting has a default.
-/

namespace ModelSchema

namespace Config

/-- A model file, with its format if that differs from what the extension tells. -/
structure ModelFile where
  path : Path
  format : Option Interchange.Format
deriving DecidableEq, Repr

def ModelFile.format? (file : ModelFile) : Option Interchange.Format :=
  file.format.or (Interchange.Format.ofPath? file.path)

/-- The folder and the names of the scripts. -/
structure Output where
  folder : Path
  create : String
  uniqueKeys : String
  indexes : String
  types : String
  data : String
  translations : String
deriving DecidableEq, Repr

namespace Output

/-- The names that scripts have unless a project chooses others. -/
def standard : Output where
  folder := ⟨"sql"⟩
  create := "01_tables.sql"
  uniqueKeys := "02_unique_keys.sql"
  indexes := "03_fk_indexes.sql"
  types := "04_types.sql"
  data := "05_init_data.sql"
  translations := "06_init_translations.sql"

/-- The names of the schema scripts, each with what its banner says. -/
def schemaScripts (output : Output) : List (String × String) :=
  [(output.create, "Tables creation"), (output.uniqueKeys, "Unique keys creation"),
    (output.indexes, "Indexes and foreign keys creation"), (output.types, "Types creation")]

def seedScripts (output : Output) : List (String × String) :=
  [(output.data, "Static and reference lists content"),
    (output.translations, "Reference lists translations")]

end Output

/-- Where tables and indexes are kept that say nothing about it. -/
structure Storage where
  data : Option String
  index : Option String
deriving DecidableEq, Repr

end Config

structure Config where
  application : String
  engine : Sql.Engine
  /-- The model files in reading order; if there are none, those in `modelFolder` are read. -/
  models : List Config.ModelFile
  modelFolder : Path
  /-- Model files of which only the domains are read. -/
  domains : List Config.ModelFile
  /-- The file with the rows of lists. -/
  seed : Option Path
  suffixes : Naming.Suffixes
  output : Config.Output
  storage : Config.Storage
  translationTable : String
  severity : Severity
  allowlist : Allowlist
deriving DecidableEq

namespace Config

/-- The settings of a project that decides nothing. -/
def standard : Config where
  application := "Application"
  engine := .sqlServer
  models := []
  modelFolder := ⟨"model"⟩
  domains := []
  seed := none
  suffixes := .standard
  output := .standard
  storage := ⟨none, none⟩
  translationTable := "TRANSLATION_REFERENCE"
  severity := .standard
  allowlist := ⟨[]⟩

def sqlSettings (config : Config) : Sql.Settings where
  application := config.application
  dataStorage := config.storage.data
  indexStorage := config.storage.index
  translationTable := config.translationTable

end Config

end ModelSchema
