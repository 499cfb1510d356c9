import HeaderSearch.Numeral.Decimal
import HeaderSearch.Path

/-!
# File stores

A search asks only four things of the files around it: whether a path is a directory, whether a
directory holds a file under a relative name, and which path a directory or a file has. A file store
answers these. Directories and files are passed around as handles, which are meaningful only to the
store that gave them out.
-/

namespace HeaderSearch

/-- A directory known to a file store. -/
structure DirHandle where
  /-- The number under which the store knows it. -/
  number : Nat
deriving DecidableEq, Repr, Inhabited

/-- A regular file known to a file store. -/
structure FileHandle where
  /-- The number under which the store knows it. -/
  number : Nat
deriving DecidableEq, Repr, Inhabited

/-- The label of a directory in messages. -/
def DirHandle.label (directory : DirHandle) : String :=
  "dir#" ++ Decimal.text directory.number

/-- The label of a file in messages. -/
def FileHandle.label (file : FileHandle) : String :=
  "file#" ++ Decimal.text file.number

/-- What a search may ask about files, in a monad `m` that may keep a record of the answers. -/
class FileStore (m : Type → Type) where
  /-- The directory that a path names, if it names one. -/
  directory? : Path → m (Option DirHandle)
  /-- The file that a directory holds under a relative name, whose parts are separated by `/`. -/
  file? : DirHandle → String → m (Option FileHandle)
  /-- The path of a directory. -/
  directoryPath : DirHandle → m Path
  /-- The path of a file. -/
  filePath : FileHandle → m Path

end HeaderSearch
