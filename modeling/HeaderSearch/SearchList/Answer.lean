import HeaderSearch.Characteristic
import HeaderSearch.FileStore.Basic

/-!
# Answers to lookups

A lookup that finds a header answers with the file, what led to it and how it is classified. The
location that it was found relative to and its path below that are texts, made only if they are wanted.
-/

namespace HeaderSearch

/-- What led to an answer. -/
inductive Origin where
  /-- The directory of the including file. -/
  | includer
  /-- The entry at a position of the list. -/
  | entry (index : Nat)
deriving DecidableEq, Repr

/-- The file that an include stands in. -/
structure Includer where
  /-- The directory of the file. -/
  directory : DirHandle
  /-- What the file is classified as. -/
  characteristic : Characteristic
deriving DecidableEq, Repr

/-- Which texts an answer is to have. -/
structure PathRequest where
  /-- Whether the search path is wanted. -/
  searchPath : Bool
  /-- Whether the path below the search path is wanted. -/
  relativePath : Bool
deriving DecidableEq, Repr

namespace PathRequest

/-- Both texts. -/
def all : PathRequest := ⟨true, true⟩

/-- Neither text. -/
def none : PathRequest := ⟨false, false⟩

end PathRequest

/-- A header found by a search list. -/
structure FoundHeader where
  /-- The file. -/
  file : FileHandle
  /-- The location that it was found relative to, if that was wanted. -/
  searchPath : Option String
  /-- Its path below that location, if that was wanted. -/
  relativePath : Option String
  /-- Whether it belongs to a framework declared as a system framework. -/
  isSystemFramework : Bool
  /-- What the file is classified as. -/
  characteristic : Characteristic
  /-- What led to it. -/
  origin : Origin
deriving DecidableEq, Repr

/-- A file found by one entry alone. -/
structure EntryMatch where
  /-- The file. -/
  file : FileHandle
  /-- The location that it was found relative to, if that was wanted. -/
  searchPath : Option String
  /-- Its path below that location, if that was wanted. -/
  relativePath : Option String
  /-- Whether it belongs to a framework declared as a system framework. -/
  isSystemFramework : Bool
deriving DecidableEq, Repr

end HeaderSearch
