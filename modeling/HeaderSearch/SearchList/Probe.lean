import HeaderSearch.SearchList.Basic

/-!
# Looking into one place

A directory is asked for the name as it is. A directory of frameworks takes `Framework/Rest` and asks
the public headers of the bundle `Framework.framework` for `Rest`, and then the private ones. A header
map gives a path for the name and that file is asked for; an index map that does not answer the
whole name is asked for `Rest`. How a bundle is found is left open, so that it can be remembered.
-/

namespace HeaderSearch

/-- The header directories of a framework bundle. -/
structure Bundle where
  /-- The directory of the public headers. -/
  headers : Option DirHandle
  /-- The directory of the private headers. -/
  privateHeaders : Option DirHandle
deriving DecidableEq, Repr, Inhabited

/-- A file found in a place. -/
structure PlaceHit where
  /-- The file. -/
  file : FileHandle
  /-- The directory that holds it; none if a header map named it. -/
  searchDirectory : Option DirHandle
  /-- The offset in bytes at which the part of the name below that directory starts. -/
  relativeStart : Nat
  /-- Whether it belongs to a framework declared as a system framework. -/
  isSystemFramework : Bool
deriving DecidableEq, Repr

namespace Framework

/-- The framework and the rest of a name, which are before and after its first `/`. Both have to have
    a character. -/
def splitName? (name : String) : Option (String × String) :=
  match Text.splitFirst '/' name.toList with
  | some (framework, rest) =>
    if framework = [] ∨ rest = [] then none
    else some (String.ofList framework, String.ofList rest)
  | none => none

/-- The name of the directory that holds a framework. -/
def bundleName (framework : String) : String := framework ++ ".framework"

/-- The offset at which the rest of a name starts after its framework. -/
def restStart (framework : String) : Nat := framework.utf8ByteSize + 1

section Asking

variable {m : Type → Type} [Monad m] [FileStore m]

/-- The header directories of a framework below a directory. If the bundle itself is not there, they
    are not asked for. -/
def findBundle (directory : DirHandle) (framework : String) : m Bundle := do
  let above ← FileStore.directoryPath directory
  let root := above.join (bundleName framework)
  match ← FileStore.directory? root with
  | none => return ⟨none, none⟩
  | some _ =>
    let headers ← FileStore.directory? (root.join "Headers")
    let privateHeaders ← FileStore.directory? (root.join "PrivateHeaders")
    return ⟨headers, privateHeaders⟩

/-- The first of some directories that holds a name, with the file. -/
def firstHolding (name : String) : List DirHandle → m (Option (DirHandle × FileHandle))
  | [] => return none
  | directory :: others => do
    match ← FileStore.file? directory name with
    | some file => return some (directory, file)
    | none => firstHolding name others

/-- Looks for the rest of a name in the bundle of a framework below a directory. -/
def probe (bundleOf : DirHandle → String → m Bundle) (frameworks : List String)
    (directory : DirHandle) (framework rest : String) : m (Option PlaceHit) := do
  let bundle ← bundleOf directory framework
  let found ← firstHolding rest (bundle.headers.toList ++ bundle.privateHeaders.toList)
  return found.map fun (headers, file) =>
    { file, searchDirectory := some headers, relativeStart := restStart framework,
      isSystemFramework := frameworks.contains framework }

end Asking

end Framework

namespace HeaderMap

variable {m : Type → Type} [Monad m] [FileStore m]

/-- The file whose path a header map gives for a name, if it is there. A path without a directory is
    looked up in the working directory. -/
def fileFor (map : HeaderMap) (name : String) : m (Option FileHandle) := do
  match (map.lookup? name).bind fun target => (Path.mk target).splitFile? with
  | none => return none
  | some (parent, file) =>
    match ← FileStore.directory? (if parent.isEmpty then Path.here else parent) with
    | none => return none
    | some directory => FileStore.file? directory file

/-- Looks for a name in a header map. The rest after the framework is tried only in an index map, and
    only if the whole name leads nowhere. -/
def probe (map : HeaderMap) (frameworks : List String) (isIndex : Bool) (name : String) :
    m (Option PlaceHit) := do
  let split := Framework.splitName? name
  let isSystemFramework := isIndex && split.any fun (framework, _) => frameworks.contains framework
  match ← fileFor map name with
  | some file =>
    return some { file, searchDirectory := none, relativeStart := 0, isSystemFramework }
  | none =>
    match isIndex, split with
    | true, some (framework, rest) =>
      let found ← fileFor map rest
      return found.map fun file =>
        { file, searchDirectory := none, relativeStart := Framework.restStart framework,
          isSystemFramework }
    | _, _ => return none

end HeaderMap

namespace SearchPlace

variable {m : Type → Type} [Monad m] [FileStore m]

/-- Looks for a name in a place, with the given way to find the bundle of a framework. -/
def probe (bundleOf : DirHandle → String → m Bundle) (frameworks : List String)
    (place : SearchPlace) (name : String) : m (Option PlaceHit) :=
  match place with
  | .directory handle _ => do
    let found ← FileStore.file? handle name
    return found.map fun file =>
      { file, searchDirectory := some handle, relativeStart := 0, isSystemFramework := false }
  | .framework handle _ =>
    match Framework.splitName? name with
    | none => return none
    | some (owner, rest) => Framework.probe bundleOf frameworks handle owner rest
  | .headerMap map isIndex => map.probe frameworks isIndex name

/-- The search path reported for a file found in a place: the header directory for a framework, and
    the name of the place otherwise. -/
def searchPath (place : SearchPlace) (searchDirectory : Option DirHandle) : m String :=
  match place, searchDirectory with
  | .framework _ _, some headers => do
    let path ← FileStore.directoryPath headers
    return path.shown
  | _, _ => return place.name

end SearchPlace

end HeaderSearch
