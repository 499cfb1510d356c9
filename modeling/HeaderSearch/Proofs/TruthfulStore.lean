import HeaderSearch.Proofs.CanonicalStore

/-!
# The remembering store never makes up a file

A handle that was never given out may be asked about too. The store then remembers that it holds
nothing, and keeps saying so when the same handle is given out later. What the store says is there is
there nevertheless: every directory and every file that it answers with stands for the canonical path
that the file system has for the question, whatever was asked before. `Truthful` is the contract of such
a store, which says nothing about misses.
-/

namespace HeaderSearch

/-- Paths with one number are one path. -/
theorem Path.code_inj {first second : Path} (same : first.code = second.code) : first = second := by
  rw [← Path.ofCode_code first, same, Path.ofCode_code]

namespace Naming

/-- A handle stands for the directory with a canonical path. -/
def DirectoryAt (naming : Naming) (handle : DirHandle) (path : Path) : Prop :=
  naming.DirectoryAs handle ⟨path.code⟩

/-- A handle stands for the file with a canonical path. -/
def FileAt (naming : Naming) (handle : FileHandle) (path : Path) : Prop :=
  naming.FileAs handle ⟨path.code⟩

/-- A handle stands for the directory that a path names. -/
def Locates (naming : Naming) (facts : FileFacts) (path : Path) (handle : DirHandle) : Prop :=
  ∃ canonical, naming.DirectoryAt handle canonical ∧
    facts.located? path .directory = some canonical

/-- A handle stands for the file that a name leads to from a directory. -/
def Holds (naming : Naming) (facts : FileFacts) (directory : DirHandle) (name : String)
    (file : FileHandle) : Prop :=
  ∃ base canonical, naming.DirectoryAt directory base ∧ naming.FileAt file canonical ∧
    facts.located? (base.join name) .regular = some canonical

variable {naming before after : Naming} {facts : FileFacts}

/-- A handle stands for one directory. -/
theorem DirectoryAt.unique {handle : DirHandle} {one other : Path}
    (first : naming.DirectoryAt handle one) (second : naming.DirectoryAt handle other) :
    one = other := by
  have same := Option.some.inj (first.symm.trans second)
  exact Path.code_inj (DirHandle.mk.inj same)

theorem DirectoryAt.keep {handle : DirHandle} {path : Path} (here : before.DirectoryAt handle path)
    (keeps : before.Keeps after) : after.DirectoryAt handle path := keeps.directory here

theorem Locates.keep {path : Path} {handle : DirHandle} (here : before.Locates facts path handle)
    (keeps : before.Keeps after) : after.Locates facts path handle := by
  obtain ⟨canonical, stands, located⟩ := here
  exact ⟨canonical, keeps.directory stands, located⟩

theorem Holds.keep {directory : DirHandle} {name : String} {file : FileHandle}
    (here : before.Holds facts directory name file) (keeps : before.Keeps after) :
    after.Holds facts directory name file := by
  obtain ⟨base, canonical, stands, standsFile, located⟩ := here
  exact ⟨base, canonical, keeps.directory stands, keeps.file standsFile, located⟩

end Naming

namespace Reading

/-- What a store says is there is there: the handles that it answers with stand for what the file system
    has. A handle that stands for something has its path. -/
structure Truthful {ω : Type} (m : Type → Type) [Monad m] [Runs m ω] [FileStore m]
    (reading : Reading ω) (facts : FileFacts) : Prop where
  directory? {state : ω} (path : Path) : reading.sound state →
    reading.Yields (FileStore.directory? path : m _) state fun after answer =>
      ∀ handle ∈ answer, (reading.naming after).Locates facts path handle
  file? {state : ω} (directory : DirHandle) (name : String) : reading.sound state →
    reading.Yields (FileStore.file? directory name : m _) state fun after answer =>
      ∀ file ∈ answer, (reading.naming after).Holds facts directory name file
  directoryPath {state : ω} (handle : DirHandle) : reading.sound state →
    reading.Yields (FileStore.directoryPath handle : m _) state fun after path =>
      ∀ stands, (reading.naming after).DirectoryAt handle stands → path = stands

end Reading

namespace FileMemo

/-- What the store holds is true: its paths are canonical, those of directories belong to directories,
    and the handles that it remembers as answers stand for what the file system has. -/
structure Truthful (memo : FileMemo) (facts : FileFacts) : Prop where
  directories : ∀ path ∈ memo.directories, ∃ origin, facts.located? origin .directory = some path
  files : ∀ path ∈ memo.files, facts.IsCanonical path
  directoryAnswers {path : Path} {handle : DirHandle} :
    memo.directoryAnswers.get? path.components = some (some handle) →
      memo.naming.Locates facts path handle
  fileAnswers {directory : DirHandle} {name : String} {file : FileHandle} :
    memo.fileAnswers.get? (directory, name) = some (some file) →
      memo.naming.Holds facts directory name file

variable {memo : FileMemo} {facts : FileFacts}

/-- A handle stands for the path that is listed under its number. -/
theorem directoryAt_iff {handle : DirHandle} {path : Path} :
    memo.naming.DirectoryAt handle path ↔ memo.directories[handle.number]? = some path := by
  rw [Naming.DirectoryAt, Naming.DirectoryAs, naming, Option.map_eq_some_iff]
  constructor
  · rintro ⟨other, here, same⟩
    rw [here, Path.code_inj (DirHandle.mk.inj same)]
  · exact fun here => ⟨path, here, rfl⟩

/-- A handle stands for the path that is listed under its number. -/
theorem fileAt_iff {handle : FileHandle} {path : Path} :
    memo.naming.FileAt handle path ↔ memo.files[handle.number]? = some path := by
  rw [Naming.FileAt, Naming.FileAs, naming, Option.map_eq_some_iff]
  constructor
  · rintro ⟨other, here, same⟩
    rw [here, Path.code_inj (FileHandle.mk.inj same)]
  · exact fun here => ⟨path, here, rfl⟩

/-- The path of a handle is the one that it stands for. -/
theorem directoryPath_of_stands {handle : DirHandle} {path : Path}
    (stands : memo.naming.DirectoryAt handle path) : memo.directoryPath handle = path := by
  rw [directoryPath, List.getD_eq_getElem?_getD, directoryAt_iff.1 stands, Option.getD_some]

/-- The path of a handle is the one that it stands for. -/
theorem filePath_of_stands {handle : FileHandle} {path : Path}
    (stands : memo.naming.FileAt handle path) : memo.filePath handle = path := by
  rw [filePath, List.getD_eq_getElem?_getD, fileAt_iff.1 stands, Option.getD_some]

namespace Truthful

/-- Before the first question nothing is held. -/
theorem fresh : FileMemo.fresh.Truthful facts where
  directories _ member := by simp [FileMemo.fresh] at member
  files _ member := by simp [FileMemo.fresh] at member
  directoryAnswers remembered := by simp [FileMemo.fresh] at remembered
  fileAnswers remembered := by simp [FileMemo.fresh] at remembered

/-- Listing more canonical paths changes no answer. -/
theorem grow (truthful : memo.Truthful facts) {after : FileMemo}
    {moreDirectories moreFiles : List Path}
    (directories : after.directories = memo.directories ++ moreDirectories)
    (located : ∀ path ∈ moreDirectories, ∃ origin, facts.located? origin .directory = some path)
    (files : after.files = memo.files ++ moreFiles)
    (canonicalFiles : ∀ path ∈ moreFiles, facts.IsCanonical path)
    (directoryAnswers : after.directoryAnswers = memo.directoryAnswers)
    (fileAnswers : after.fileAnswers = memo.fileAnswers) : after.Truthful facts := by
  have keeps : memo.naming.Keeps after.naming := naming_keeps directories files
  constructor
  · intro path member
    rw [directories] at member
    rcases List.mem_append.mp member with old | new
    · exact truthful.directories path old
    · exact located path new
  · intro path member
    rw [files] at member
    rcases List.mem_append.mp member with old | new
    · exact truthful.files path old
    · exact canonicalFiles path new
  · intro path handle remembered
    rw [directoryAnswers] at remembered
    exact (truthful.directoryAnswers remembered).keep keeps
  · intro directory name file remembered
    rw [fileAnswers] at remembered
    exact (truthful.fileAnswers remembered).keep keeps

/-- The counts of questions do not matter. -/
theorem of_counts (truthful : memo.Truthful facts) (counts : QueryCounts) :
    FileMemo.Truthful { memo with counts } facts :=
  ⟨truthful.directories, truthful.files, truthful.directoryAnswers, truthful.fileAnswers⟩

/-- Remembering a true answer about a path, which answers every spelling of it. -/
theorem insertDirectory (truthful : memo.Truthful facts) (coherent : facts.Coherent) {path : Path}
    {answer : Option DirHandle} (locates : ∀ handle ∈ answer, memo.naming.Locates facts path handle) :
    FileMemo.Truthful { memo with
      directoryAnswers := memo.directoryAnswers.insert path.components answer } facts where
  directories := truthful.directories
  files := truthful.files
  directoryAnswers {other handle} remembered := by
    rw [Table.get?_insert] at remembered
    split at remembered
    · next spelled =>
      obtain ⟨canonical, stands, located⟩ := locates handle (Option.some.inj remembered)
      exact ⟨canonical, stands, (coherent.located_alike spelled).trans located⟩
    · exact truthful.directoryAnswers remembered
  fileAnswers := truthful.fileAnswers

/-- Remembering a true answer about a name in a directory. -/
theorem insertFile (truthful : memo.Truthful facts) {directory : DirHandle} {name : String}
    {answer : Option FileHandle}
    (holds : ∀ file ∈ answer, memo.naming.Holds facts directory name file) :
    FileMemo.Truthful { memo with
      fileAnswers := memo.fileAnswers.insert (directory, name) answer } facts where
  directories := truthful.directories
  files := truthful.files
  directoryAnswers := truthful.directoryAnswers
  fileAnswers {other asked file} remembered := by
    rw [Table.get?_insert] at remembered
    split at remembered
    · next question =>
      obtain ⟨rfl, rfl⟩ := Prod.mk.inj question
      exact holds file (Option.some.inj remembered)
    · exact truthful.fileAnswers remembered

/-- Learning what the file system says about a directory. -/
theorem learn_directory (truthful : memo.Truthful facts) (coherent : facts.Coherent) {path : Path}
    {found : Option Path} (located : facts.located? path .directory = found) :
    (memo.learnDirectory path found).2.Truthful facts ∧
      memo.naming.Keeps (memo.learnDirectory path found).2.naming ∧
      ∀ handle ∈ (memo.learnDirectory path found).1,
        (memo.learnDirectory path found).2.naming.Locates facts path handle := by
  cases found with
  | none => exact ⟨truthful.insertDirectory coherent (by simp), .refl _, by simp [learnDirectory]⟩
  | some canonical =>
    have isCanonical := coherent.located_canonical located
    have known : ∀ other ∈ memo.directories, facts.IsCanonical other := by
      intro other member
      obtain ⟨origin, there⟩ := truthful.directories other member
      exact coherent.located_canonical there
    obtain ⟨placed, added, longer, only⟩ := intern_exact coherent known isCanonical
    have grown : FileMemo.Truthful
        { memo with directories := (intern memo.directories canonical).1 } facts :=
      truthful.grow longer (fun other member => ⟨path, by rw [only other member, located]⟩)
        (List.append_nil _).symm (by simp) rfl rfl
    have keeps : memo.naming.Keeps
        (FileMemo.naming { memo with directories := (intern memo.directories canonical).1 }) :=
      naming_keeps longer (List.append_nil _).symm
    have locates : ∀ handle ∈ some (DirHandle.mk (intern memo.directories canonical).2),
        (FileMemo.naming { memo with directories := (intern memo.directories canonical).1 }).Locates
          facts path handle := by
      rintro handle ⟨rfl⟩
      exact ⟨canonical, directoryAt_iff.mpr placed, located⟩
    exact ⟨grown.insertDirectory coherent locates, keeps, locates⟩

/-- Learning what the file system says about a name in a listed directory. -/
theorem learn_file (truthful : memo.Truthful facts) (coherent : facts.Coherent)
    {directory : DirHandle} {base : Path} {name : String} {found : Option Path}
    (stands : memo.naming.DirectoryAt directory base)
    (located : facts.located? (base.join name) .regular = found) :
    (memo.learnFile directory name found).2.Truthful facts ∧
      memo.naming.Keeps (memo.learnFile directory name found).2.naming ∧
      ∀ file ∈ (memo.learnFile directory name found).1,
        (memo.learnFile directory name found).2.naming.Holds facts directory name file := by
  cases found with
  | none => exact ⟨truthful.insertFile (by simp), .refl _, by simp [learnFile]⟩
  | some canonical =>
    have isCanonical := coherent.located_canonical located
    obtain ⟨placed, added, longer, only⟩ := intern_exact coherent truthful.files isCanonical
    have grown : FileMemo.Truthful { memo with files := (intern memo.files canonical).1 } facts :=
      truthful.grow (List.append_nil _).symm (by simp) longer
        (fun other member => only other member ▸ isCanonical) rfl rfl
    have keeps : memo.naming.Keeps
        (FileMemo.naming { memo with files := (intern memo.files canonical).1 }) :=
      naming_keeps (List.append_nil _).symm longer
    have holds : ∀ file ∈ some (FileHandle.mk (intern memo.files canonical).2),
        (FileMemo.naming { memo with files := (intern memo.files canonical).1 }).Holds facts
          directory name file := by
      rintro file ⟨rfl⟩
      exact ⟨base, canonical, keeps.directory stands, fileAt_iff.mpr placed, located⟩
    exact ⟨grown.insertFile holds, keeps, holds⟩

/-- A question about a directory is answered truthfully, remembered or not. -/
theorem ask_directory (truthful : memo.Truthful facts) (coherent : facts.Coherent) (path : Path) :
    (askDirectory path memo : FileFacts.Given facts _).result.2.Truthful facts ∧
      memo.naming.Keeps (askDirectory path memo : FileFacts.Given facts _).result.2.naming ∧
      ∀ handle ∈ (askDirectory path memo : FileFacts.Given facts _).result.1,
        (askDirectory path memo : FileFacts.Given facts _).result.2.naming.Locates facts path
          handle := by
  have counted : memo.countDirectory.Truthful facts := truthful.of_counts _
  unfold askDirectory
  dsimp only
  split
  · next answer remembered =>
    refine ⟨counted, .refl _, ?_⟩
    rintro handle ⟨rfl⟩
    exact counted.directoryAnswers remembered
  · have asked : memo.countDirectory.countAsked.Truthful facts := counted.of_counts _
    exact asked.learn_directory coherent rfl

/-- A question about a name in a directory is answered truthfully, remembered or not. Nothing is there
    for a handle that was not given out. -/
theorem ask_file (truthful : memo.Truthful facts) (coherent : facts.Coherent)
    (directory : DirHandle) (name : String) :
    (askFile directory name memo : FileFacts.Given facts _).result.2.Truthful facts ∧
      memo.naming.Keeps (askFile directory name memo : FileFacts.Given facts _).result.2.naming ∧
      ∀ file ∈ (askFile directory name memo : FileFacts.Given facts _).result.1,
        (askFile directory name memo : FileFacts.Given facts _).result.2.naming.Holds facts
          directory name file := by
  have counted : memo.countFile.Truthful facts := truthful.of_counts _
  unfold askFile
  dsimp only
  split
  · next answer remembered =>
    refine ⟨counted, .refl _, ?_⟩
    rintro file ⟨rfl⟩
    exact counted.fileAnswers remembered
  · split
    · exact ⟨counted.insertFile (by simp), .refl _, by simp [learnFile]⟩
    · next base given =>
      have asked : memo.countFile.countAsked.Truthful facts := counted.of_counts _
      exact asked.learn_file coherent (directoryAt_iff.mpr given) rfl

end Truthful

end FileMemo

namespace FileFacts

/-- The reading of the remembering store by what its answers stand for. -/
def truths (facts : FileFacts) : Reading (FileMemo × Unit) where
  sound state := state.1.Truthful facts
  naming state := state.1.naming

/-- Over a coherent file system the remembering store is truthful, whatever it has been asked. -/
theorem truths_truthful {facts : FileFacts} (coherent : facts.Coherent) :
    facts.truths.Truthful (StateT FileMemo (Given facts)) facts where
  directory? path truthful := by
    obtain ⟨sound, keeps, located⟩ := truthful.ask_directory coherent path
    exact ⟨sound, keeps, located⟩
  file? directory name truthful := by
    obtain ⟨sound, keeps, held⟩ := truthful.ask_file coherent directory name
    exact ⟨sound, keeps, held⟩
  directoryPath _ truthful :=
    ⟨truthful, .refl _, fun _ known => FileMemo.directoryPath_of_stands known⟩

end FileFacts

end HeaderSearch
