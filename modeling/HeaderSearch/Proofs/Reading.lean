import HeaderSearch.Proofs.Runs

/-!
# Reading a running store as a view

A store may number its handles as it likes, and number more of them as it runs. A `Reading` says of
each state which handle of a fixed view a handle of the store stands for. `Yields` is the contract of
a computation under a reading: it ends in a sound state in which every handle still stands for what
it stood for, with a result that may speak about the handles of that state. A store reads a view
faithfully if its four questions are answered as the view answers them.
-/

namespace HeaderSearch

/-- What the handles of a store mean in a view. -/
structure Naming where
  /-- The directory of the view that a handle stands for; none for a handle that was not given out. -/
  directory : DirHandle → Option DirHandle
  /-- The file of the view that a handle stands for; none for a handle that was not given out. -/
  file : FileHandle → Option FileHandle

namespace Naming

/-- A directory stands for one of the view. -/
abbrev DirectoryAs (naming : Naming) (handle meaning : DirHandle) : Prop :=
  naming.directory handle = some meaning

/-- A file stands for one of the view. -/
abbrev FileAs (naming : Naming) (handle meaning : FileHandle) : Prop :=
  naming.file handle = some meaning

end Naming

/-- What the handles of a running store mean in a view, state by state. -/
structure Reading (ω : Type) where
  /-- Whether what the store holds in a state agrees with the view. -/
  sound : ω → Prop
  /-- What the handles mean in a state. -/
  naming : ω → Naming

/-- Related contents stay related when the relation grows. -/
theorem related_grow {α β : Type} {smaller larger : α → β → Prop} {first : Option α}
    {second : Option β} (related : Option.Rel smaller first second)
    (grows : ∀ one other, smaller one other → larger one other) :
    Option.Rel larger first second := by
  cases related with
  | some here => exact .some (grows _ _ here)
  | none => exact .none

/-- Related contents are both there or both not. -/
theorem related_cases {α β : Type} {related : α → β → Prop} {first : Option α} {second : Option β}
    (same : Option.Rel related first second) :
    (first = none ∧ second = none) ∨
      ∃ one other, first = some one ∧ second = some other ∧ related one other := by
  cases same with
  | some here => exact .inr ⟨_, _, rfl, rfl, here⟩
  | none => exact .inl ⟨rfl, rfl⟩

/-- Related contents have related images. -/
theorem related_map {α β γ δ : Type} {before : α → β → Prop} {after : γ → δ → Prop}
    {first : Option α} {second : Option β} {change : α → γ} {changeMeant : β → δ}
    (related : Option.Rel before first second)
    (each : ∀ one other, before one other → after (change one) (changeMeant other)) :
    Option.Rel after (first.map change) (second.map changeMeant) := by
  cases related with
  | some here => exact .some (each _ _ here)
  | none => exact .none

/-- Contents related by equality are equal. -/
theorem related_eq {α : Type} {related : α → α → Prop} {first second : Option α}
    (same : Option.Rel related first second)
    (equal : ∀ one other, related one other → one = other) : first = second := by
  cases same with
  | some here => rw [equal _ _ here]
  | none => rfl

/-- A content is related to itself when every value is. -/
theorem related_self {α : Type} {related : α → α → Prop} (self : ∀ value, related value value)
    (content : Option α) : Option.Rel related content content := by
  cases content with
  | none => exact .none
  | some value => exact .some (self value)

/-- Every handle that stood for something before stands for the same afterwards. -/
structure Naming.Keeps (before after : Naming) : Prop where
  directory {handle meaning : DirHandle} :
    before.DirectoryAs handle meaning → after.DirectoryAs handle meaning
  file {handle meaning : FileHandle} :
    before.FileAs handle meaning → after.FileAs handle meaning

namespace Naming.Keeps

theorem refl (naming : Naming) : naming.Keeps naming := ⟨id, id⟩

theorem trans {before between after : Naming} (first : before.Keeps between)
    (second : between.Keeps after) : before.Keeps after :=
  ⟨second.directory ∘ first.directory, second.file ∘ first.file⟩

end Naming.Keeps

namespace Reading

variable {α β ω : Type} {reading : Reading ω}
variable {m : Type → Type} [Monad m] [Runs m ω]

/-- A computation run from a state ends soundly, keeps all handles, and has an expected result. -/
structure Yields (reading : Reading ω) (computation : m α) (state : ω)
    (expected : ω → α → Prop) : Prop where
  sound : reading.sound (Runs.run computation state).2
  keeps : (reading.naming state).Keeps (reading.naming (Runs.run computation state).2)
  result : expected (Runs.run computation state).2 (Runs.run computation state).1

namespace Yields

variable {state : ω}

/-- Returning a value that is expected already. -/
theorem of_pure {value : α} {expected : ω → α → Prop} (sound : reading.sound state)
    (result : expected state value) : reading.Yields (pure value : m α) state expected := by
  constructor <;> rw [Runs.run_pure]
  · exact sound
  · exact Naming.Keeps.refl _
  · exact result

/-- The continuation may use whatever the first computation yields, in any later state. -/
theorem bind {first : m α} {next : α → m β} {between : ω → α → Prop} {expected : ω → β → Prop}
    (yielded : reading.Yields first state between)
    (continued : ∀ value after, reading.sound after →
      (reading.naming state).Keeps (reading.naming after) → between after value →
        reading.Yields (next value) after expected) :
    reading.Yields (first >>= next) state expected := by
  have rest := continued _ _ yielded.sound yielded.keeps yielded.result
  constructor <;> rw [Runs.run_bind]
  · exact rest.sound
  · exact yielded.keeps.trans rest.keeps
  · exact rest.result

/-- A weaker expectation is met too. -/
theorem weaken {computation : m α} {stronger weaker : ω → α → Prop}
    (yielded : reading.Yields computation state stronger)
    (implied : ∀ value after, (reading.naming state).Keeps (reading.naming after) →
      stronger after value → weaker after value) :
    reading.Yields computation state weaker :=
  ⟨yielded.sound, yielded.keeps, implied _ _ yielded.keeps yielded.result⟩

/-- A result changed afterwards is expected if the result is expected to change so. -/
theorem map [LawfulMonad m] {computation : m α} {change : α → β} {expected : ω → β → Prop}
    (yielded : reading.Yields computation state fun after value => expected after (change value)) :
    reading.Yields (change <$> computation) state expected := by
  constructor <;> rw [Runs.run_map]
  · exact yielded.sound
  · exact yielded.keeps
  · exact yielded.result

end Yields

/-- A store answers its questions as a view does, for handles that stand for something. -/
structure Faithful (m : Type → Type) [Monad m] [Runs m ω] [FileStore m] (reading : Reading ω)
    (view : FileView) : Prop where
  /-- A path is that of a directory exactly when the view has it. -/
  directory? {state : ω} (path : Path) : reading.sound state →
    reading.Yields (FileStore.directory? path : m _) state fun after answer =>
      Option.Rel (reading.naming after).DirectoryAs answer (view.directory? path)
  /-- A directory holds a name exactly when the directory that it stands for does. -/
  file? {state : ω} {handle meaning : DirHandle} (name : String) : reading.sound state →
    (reading.naming state).DirectoryAs handle meaning →
    reading.Yields (FileStore.file? handle name : m _) state fun after answer =>
      Option.Rel (reading.naming after).FileAs answer (view.file? meaning name)
  /-- The path of a directory is that of the directory that it stands for. -/
  directoryPath {state : ω} {handle meaning : DirHandle} : reading.sound state →
    (reading.naming state).DirectoryAs handle meaning →
    reading.Yields (FileStore.directoryPath handle : m _) state fun _ path =>
      path = view.directoryPath meaning
  /-- The path of a file is that of the file that it stands for. -/
  filePath {state : ω} {handle meaning : FileHandle} : reading.sound state →
    (reading.naming state).FileAs handle meaning →
    reading.Yields (FileStore.filePath handle : m _) state fun _ path =>
      path = view.filePath meaning

end Reading

end HeaderSearch
