import ModelSchema.Project.Basic

/-!
# Finding model files

A project that lists no model files reads all those below its model folder, except the ones that it
names for their domains only.
-/

namespace ModelSchema.Project

variable {m : Type → Type} [Monad m] (host : Host m)

/-- How deep folders are searched; paths of more segments are longer than a host allows. -/
def depthLimit : Nat := 4096

/-- The files at or below a path, each folder in the order of the names in it. -/
def filesBelow (folder : Path) : Nat → Path → ExceptT Error m (List Path)
  | 0, _ => return []
  | fuel + 1, path => do
    match ← attempt (host.look path) (.scan folder path) with
    | .file => return [path]
    | .folder names =>
      let inner ← (NameSet.ofList names).names.mapM fun name =>
        filesBelow folder fuel (path.join ⟨name⟩)
      return inner.flatten
    | .other => return []

/-- The project with its model files listed. -/
def discover (project : Project) : ExceptT Error m Project := do
  if !project.config.models.isEmpty then return project
  let folder := project.resolve project.config.modelFolder
  let excluded := project.config.domains.map fun file => (project.resolve file.path).components
  let found ← filesBelow host folder depthLimit folder
  let models := found.filter fun path =>
    (Interchange.Format.ofPath? path).isSome && !excluded.contains path.components
  let listed := models.map fun path => ⟨(path.below? project.root).getD path, none⟩
  return { project with config := { project.config with models := listed } }

end ModelSchema.Project
