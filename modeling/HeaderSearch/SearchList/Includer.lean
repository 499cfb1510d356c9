import HeaderSearch.SearchList.Lookup

/-!
# The including file

The including file is given by its path, or by the path of its directory. Whether the path is that of
a directory is for the file system to say; the directory itself is then asked of the file store.
-/

namespace HeaderSearch.Includer

/-- The directory of the including file: the path itself if it is a directory, and otherwise what it
    lies in, which is the working directory for a bare name. -/
def directoryOf (path : Path) (isDirectory : Bool) : Path :=
  if isDirectory then path
  else
    match path.parent? with
    | some parent => if parent.isEmpty then Path.here else parent
    | none => Path.here

/-- The including file of a path, or the path of its directory if that is not there. -/
def ofPath {m : Type → Type} [Monad m] [FileStore m] (path : Path) (isDirectory : Bool)
    (isSystem : Bool) : m (Except Path Includer) := do
  let directory := directoryOf path isDirectory
  match ← FileStore.directory? directory with
  | none => return .error directory
  | some handle => return .ok ⟨handle, if isSystem then .system else .user⟩

/-- The message about a directory that is not there. -/
def missingMessage (directory : Path) : String :=
  "Includer directory not found: " ++ directory.text

end HeaderSearch.Includer
