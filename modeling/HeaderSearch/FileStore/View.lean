import HeaderSearch.FileStore.Basic

/-!
# File stores with fixed answers

A view is a file store whose answers depend on the question alone. `Observed view` is the monad of
computations that ask a view: beside its result, a computation carries the questions about existence
that it asked, in order. Asking for the path of a handle is not recorded.
-/

namespace HeaderSearch

/-- The answers of a file store, as functions of the questions. -/
structure FileView where
  /-- The directory that a path names. -/
  directory? : Path → Option DirHandle
  /-- The file that a directory holds under a relative name. -/
  file? : DirHandle → String → Option FileHandle
  /-- The path of a directory. -/
  directoryPath : DirHandle → Path
  /-- The path of a file. -/
  filePath : FileHandle → Path

/-- A question about existence. -/
inductive Query where
  /-- Whether a path names a directory. -/
  | directory (path : Path)
  /-- Whether a directory holds a file under a name. -/
  | file (directory : DirHandle) (name : String)
deriving DecidableEq, Repr

/-- A result with the questions that were asked of a view to get it. -/
structure Observed (view : FileView) (α : Type) where
  /-- The result. -/
  value : α
  /-- The questions, in the order in which they were asked. -/
  queries : List Query

namespace Observed

variable {view : FileView} {α β : Type}

instance : Monad (Observed view) where
  pure value := ⟨value, []⟩
  bind first next :=
    let second := next first.value
    ⟨second.value, first.queries ++ second.queries⟩

@[ext] theorem ext {first second : Observed view α} (value : first.value = second.value)
    (queries : first.queries = second.queries) : first = second := by
  cases first; cases second; simp_all

@[simp] theorem value_pure (value : α) : (pure value : Observed view α).value = value := rfl

@[simp] theorem queries_pure (value : α) : (pure value : Observed view α).queries = [] := rfl

@[simp] theorem value_bind (first : Observed view α) (next : α → Observed view β) :
    (first >>= next).value = (next first.value).value := rfl

@[simp] theorem queries_bind (first : Observed view α) (next : α → Observed view β) :
    (first >>= next).queries = first.queries ++ (next first.value).queries := rfl

@[simp] theorem value_map (change : α → β) (first : Observed view α) :
    (change <$> first).value = change first.value := rfl

@[simp] theorem queries_map (change : α → β) (first : Observed view α) :
    (change <$> first).queries = first.queries := List.append_nil first.queries

instance : LawfulMonad (Observed view) := LawfulMonad.mk' _
  (fun _ => by apply Observed.ext <;> simp)
  (fun _ _ => by apply Observed.ext <;> simp)
  (fun _ _ _ => by apply Observed.ext <;> simp)

instance : FileStore (Observed view) where
  directory? path := ⟨view.directory? path, [.directory path]⟩
  file? directory name := ⟨view.file? directory name, [.file directory name]⟩
  directoryPath directory := ⟨view.directoryPath directory, []⟩
  filePath file := ⟨view.filePath file, []⟩

@[simp] theorem value_directory? (path : Path) :
    (FileStore.directory? path : Observed view _).value = view.directory? path := rfl

@[simp] theorem value_file? (directory : DirHandle) (name : String) :
    (FileStore.file? directory name : Observed view _).value = view.file? directory name := rfl

@[simp] theorem value_directoryPath (directory : DirHandle) :
    (FileStore.directoryPath directory : Observed view _).value = view.directoryPath directory := rfl

@[simp] theorem value_filePath (file : FileHandle) :
    (FileStore.filePath file : Observed view _).value = view.filePath file := rfl

end Observed

end HeaderSearch
