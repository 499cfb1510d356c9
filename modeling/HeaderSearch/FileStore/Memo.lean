import HeaderSearch.FileStore.Basic
import HeaderSearch.FileSystem
import HeaderSearch.Table

/-!
# A file store that remembers a file system

The memo asks the file system once about each question and remembers the answer, misses included:
what a session sees does not change while it runs. Directories and files are known by their canonical
paths and numbered in the order in which they were first seen, so two handles are equal exactly when
they stand for the same directory or file. Spellings of the same path are one question.

The numbers of handles have no bound here. Where they are kept in 32 bits, that makes no difference as long
as a store has seen at most `UInt32.size` directories and at most as many files.
-/

namespace HeaderSearch

/-- How often a file store was asked, and how often it asked the file system. -/
structure QueryCounts where
  /-- Questions about directories. -/
  directories : Nat := 0
  /-- Questions about files. -/
  files : Nat := 0
  /-- Questions that went on to the file system. -/
  asked : Nat := 0
deriving DecidableEq, Repr, Inhabited

/-- What a file store has learnt from a file system. -/
structure FileMemo where
  /-- The canonical paths of the directories, by the numbers of their handles. -/
  directories : List Path := []
  /-- The canonical paths of the files, by the numbers of their handles. -/
  files : List Path := []
  /-- The answers about directories, by the components of the path asked for. -/
  directoryAnswers : Table (List Component) (Option DirHandle) := .empty
  /-- The answers about files, by directory and name. -/
  fileAnswers : Table (DirHandle × String) (Option FileHandle) := .empty
  /-- The number of questions so far. -/
  counts : QueryCounts := {}

namespace FileMemo

/-- The memo before the first question. -/
def fresh : FileMemo := {}

instance : Inhabited FileMemo := ⟨fresh⟩

/-- The paths with a path added at the end unless it is among them, and its position. -/
def intern (paths : List Path) (path : Path) : List Path × Nat :=
  match paths.findIdx? (·.same path) with
  | some position => (paths, position)
  | none => (paths ++ [path], paths.length)

/-- The path of a directory; the empty path for a handle that was not given out. -/
def directoryPath (memo : FileMemo) (directory : DirHandle) : Path :=
  memo.directories.getD directory.number ⟨""⟩

/-- The path of a file; the empty path for a handle that was not given out. -/
def filePath (memo : FileMemo) (file : FileHandle) : Path :=
  memo.files.getD file.number ⟨""⟩

/-- The memo with the answer to a question about a directory: its canonical path if there is one. The
    number of a new directory fits into 32 bits if fewer than `UInt32.size` were seen before. -/
def learnDirectory (memo : FileMemo) (path : Path) (found : Option Path) :
    Option DirHandle × FileMemo :=
  match found with
  | none =>
    (none, { memo with directoryAnswers := memo.directoryAnswers.insert path.components none })
  | some canonical =>
    let (directories, number) := intern memo.directories canonical
    let answer := some (DirHandle.mk number)
    (answer, { memo with
      directories
      directoryAnswers := memo.directoryAnswers.insert path.components answer })

/-- The memo with the answer to a question about a file: its canonical path if there is one. The number of
    a new file fits into 32 bits if fewer than `UInt32.size` were seen before. -/
def learnFile (memo : FileMemo) (directory : DirHandle) (name : String) (found : Option Path) :
    Option FileHandle × FileMemo :=
  match found with
  | none => (none, { memo with fileAnswers := memo.fileAnswers.insert (directory, name) none })
  | some canonical =>
    let (files, number) := intern memo.files canonical
    let answer := some (FileHandle.mk number)
    (answer, { memo with files, fileAnswers := memo.fileAnswers.insert (directory, name) answer })

/-- The memo with one more question about a directory counted. -/
def countDirectory (memo : FileMemo) : FileMemo :=
  { memo with counts := { memo.counts with directories := memo.counts.directories + 1 } }

/-- The memo with one more question about a file counted. -/
def countFile (memo : FileMemo) : FileMemo :=
  { memo with counts := { memo.counts with files := memo.counts.files + 1 } }

/-- The memo with one more question to the file system counted. -/
def countAsked (memo : FileMemo) : FileMemo :=
  { memo with counts := { memo.counts with asked := memo.counts.asked + 1 } }

section Asking

variable {m : Type → Type} [Monad m] [FileSystem m]

/-- The canonical path of what a path names, if that is of the wanted kind. Should the file system
    have no canonical path for it, the path itself stands in. -/
def probe (path : Path) (wanted : FileKind) : m (Option Path) := do
  let kind ← FileSystem.kind? path
  if kind = some wanted then
    let canonical ← FileSystem.canonical? path
    return some (canonical.getD path)
  else return none

/-- Answers a question about a directory, from memory if it was asked before. -/
def askDirectory (path : Path) (memo : FileMemo) : m (Option DirHandle × FileMemo) :=
  let memo := memo.countDirectory
  match memo.directoryAnswers.get? path.components with
  | some answer => pure (answer, memo)
  | none => do
    let found ← probe path .directory
    return memo.countAsked.learnDirectory path found

/-- Answers a question about a file, from memory if it was asked before. A handle that was not given
    out holds no file. -/
def askFile (directory : DirHandle) (name : String) (memo : FileMemo) :
    m (Option FileHandle × FileMemo) :=
  let memo := memo.countFile
  match memo.fileAnswers.get? (directory, name) with
  | some answer => pure (answer, memo)
  | none =>
    match memo.directories[directory.number]? with
    | none => pure (memo.learnFile directory name none)
    | some base => do
      let found ← probe (base.join name) .regular
      return memo.countAsked.learnFile directory name found

instance : FileStore (StateT FileMemo m) where
  directory? path := fun memo => askDirectory path memo
  file? directory name := fun memo => askFile directory name memo
  directoryPath directory := fun memo => pure (memo.directoryPath directory, memo)
  filePath file := fun memo => pure (memo.filePath file, memo)

end Asking

end FileMemo

end HeaderSearch
