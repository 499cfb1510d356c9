import HeaderSearch.Path

/-!
# File systems

A file system tells what a path names, which canonical path that has, and the text of a file. All of
these follow links. `FileFacts` is a file system that does not change: its answers are functions of
the path, and `Given facts` is the monad of computations over it.
-/

namespace HeaderSearch

/-- What a path can name. -/
inductive FileKind where
  /-- A directory. -/
  | directory
  /-- A regular file. -/
  | regular
  /-- Anything else. -/
  | other
deriving DecidableEq, Repr

/-- Why a text cannot be read. -/
inductive ReadError where
  /-- Nothing is there. -/
  | notFound
  /-- A file stands where a directory is needed. -/
  | notADirectory
  /-- A directory stands where a file is needed. -/
  | isADirectory
  /-- Too many links follow each other. -/
  | linkLoop
  /-- The path holds the null character. -/
  | nullInPath
  /-- The path or a part of it is too long. -/
  | nameTooLong
  /-- The content is not text. -/
  | notText
  /-- Any other cause, in the words of the system. -/
  | other (words : String)
deriving DecidableEq, Repr

/-- What is asked of a file system, in a monad `m`. -/
class FileSystem (m : Type → Type) where
  /-- What a path names; nothing if nothing can be found under it. -/
  kind? : Path → m (Option FileKind)
  /-- The absolute path, without links, of what a path names. -/
  canonical? : Path → m (Option Path)
  /-- The text of the file that a path names. -/
  read : Path → m (Except ReadError String)

/-- The answers of a file system that does not change. -/
structure FileFacts where
  /-- What a path names. -/
  kind? : Path → Option FileKind
  /-- The canonical path of what a path names. -/
  canonical? : Path → Option Path
  /-- The text of the file that a path names. -/
  read : Path → Except ReadError String

namespace FileFacts

/-- The file system on which there is nothing. -/
def nothing : FileFacts where
  kind? _ := none
  canonical? _ := none
  read _ := .error .notFound

/-- A computation over a file system that does not change. -/
def Given (_ : FileFacts) (α : Type) : Type := α

namespace Given

variable {facts : FileFacts} {α β : Type}

/-- The result of a computation. -/
def result (computation : Given facts α) : α := computation

instance : Monad (Given facts) where
  pure value := value
  bind computation next := next computation

instance : LawfulMonad (Given facts) := LawfulMonad.mk' _
  (fun _ => rfl) (fun _ _ => rfl) (fun _ _ _ => rfl)

@[simp] theorem result_pure (value : α) : (pure value : Given facts α).result = value := rfl

@[simp] theorem result_bind (computation : Given facts α) (next : α → Given facts β) :
    (computation >>= next).result = (next computation.result).result := rfl

@[simp] theorem result_map (change : α → β) (computation : Given facts α) :
    (change <$> computation).result = change computation.result := rfl

instance : FileSystem (Given facts) where
  kind? path := facts.kind? path
  canonical? path := facts.canonical? path
  read path := facts.read path

end Given

end FileFacts

end HeaderSearch
