import Mathlib.Logic.Equiv.List
import HeaderSearch.FileStore.Memo
import HeaderSearch.Proofs.Reading

/-!
# The remembering store as a view of canonical paths

The numbers that the remembering store gives out depend on the order of the questions. What they stand
for does not: each stands for a canonical path. `FileFacts.view` is the store whose handles are the
codes of the canonical paths themselves, and the remembering store over a coherent file system is read
faithfully in it, whatever was asked before. A handle that was never given out stands for nothing, so
nothing is said about questions with it.
-/

namespace HeaderSearch

/-- What a file system answers about paths is coherent: there is a canonical path for whatever is
    there, spellings of one directory are answered alike, and a canonical path has one spelling. -/
structure FileFacts.Coherent (facts : FileFacts) : Prop where
  /-- Whatever is there has a canonical path. -/
  canonical {path : Path} {kind : FileKind} :
    facts.kind? path = some kind → (facts.canonical? path).isSome
  /-- A directory is there under every spelling of a path of it, with the same canonical path. -/
  alike {first second : Path} : first.components = second.components →
    facts.kind? first = some .directory →
      facts.kind? second = some .directory ∧ facts.canonical? second = facts.canonical? first
  /-- Of the spellings of a path at most one is canonical. -/
  spelling {first second one other : Path} : facts.canonical? first = some one →
    facts.canonical? second = some other → one.components = other.components → one = other

/-- The file system of the directories and files with the given paths, under all of their spellings. -/
def FileFacts.listing (directories files : List Path) : FileFacts where
  kind? path :=
    if directories.any (·.same path) then some .directory
    else if files.any (·.same path) then some .regular
    else none
  canonical? path := (directories ++ files).find? (·.same path)
  read _ := .error .notFound

/-- A listed file system is coherent: what it answers about a path is a function of the components. -/
theorem FileFacts.listing_coherent (directories files : List Path) :
    (listing directories files).Coherent where
  canonical {path kind} here := by
    have listed : (directories ++ files).any (·.same path) = true := by
      rw [List.any_append, Bool.or_eq_true]
      unfold listing at here
      dsimp only at here
      split at here
      · next directory => exact .inl directory
      · split at here
        · next file => exact .inr file
        · simp at here
    simpa [listing] using listed
  alike {first second} same here := by
    have asked : (fun path : Path => path.same second) = fun path => path.same first := by
      funext path
      rw [Path.same, Path.same, same]
    have answered : (listing directories files).kind? second =
        (listing directories files).kind? first := by
      rw [listing]
      dsimp only
      rw [asked]
    refine ⟨answered.trans here, ?_⟩
    rw [listing]
    dsimp only
    rw [asked]
  spelling {first second one other} oneFound otherFound same := by
    have oneSame : one.components = first.components := by
      simpa [Path.same] using List.find?_some oneFound
    have otherSame : other.components = second.components := by
      simpa [Path.same] using List.find?_some otherFound
    have asked : (fun path : Path => path.same second) = fun path => path.same first := by
      funext path
      rw [Path.same, Path.same, ← otherSame, ← same, oneSame]
    rw [listing] at oneFound otherFound
    dsimp only at oneFound otherFound
    rw [asked, oneFound] at otherFound
    exact Option.some.inj otherFound

/-- A path is canonical if it is the canonical path of something. -/
def FileFacts.IsCanonical (facts : FileFacts) (path : Path) : Prop :=
  ∃ origin, facts.canonical? origin = some path

namespace Path

/-- A number for each path. -/
def code (path : Path) : Nat := Encodable.encode (path.text.toList.map Char.toNat)

/-- The path with a number. -/
def ofCode (number : Nat) : Path :=
  ⟨String.ofList (((Encodable.decode number : Option (List Nat)).getD []).map Char.ofNat)⟩

@[simp] theorem ofCode_code (path : Path) : ofCode path.code = path := by
  have letters : (path.text.toList.map Char.toNat).map Char.ofNat = path.text.toList := by
    rw [List.map_map]
    refine (List.map_congr_left fun letter _ => ?_).trans (List.map_id _)
    exact Char.ofNat_toNat letter
  rw [ofCode, code, Encodable.encodek, Option.getD_some, letters, String.ofList_toList]

end Path

namespace FileFacts

/-- The canonical path of what a path names, if that is of the wanted kind. -/
def located? (facts : FileFacts) (path : Path) (wanted : FileKind) : Option Path :=
  (FileMemo.probe path wanted : Given facts _).result

/-- The store whose handles are the codes of canonical paths. -/
def view (facts : FileFacts) : FileView where
  directory? path := (facts.located? path .directory).map fun found => ⟨found.code⟩
  file? directory name :=
    (facts.located? ((Path.ofCode directory.number).join name) .regular).map fun found =>
      ⟨found.code⟩
  directoryPath directory := .ofCode directory.number
  filePath file := .ofCode file.number

variable {facts : FileFacts}

theorem view_directory? (path : Path) : facts.view.directory? path =
    (facts.located? path .directory).map fun found => ⟨found.code⟩ := rfl

theorem view_file? (directory : DirHandle) (name : String) : facts.view.file? directory name =
    (facts.located? ((Path.ofCode directory.number).join name) .regular).map fun found =>
      ⟨found.code⟩ := rfl

theorem located?_eq (path : Path) (wanted : FileKind) :
    facts.located? path wanted =
      if facts.kind? path = some wanted then some ((facts.canonical? path).getD path) else none := by
  by_cases here : facts.kind? path = some wanted
  · rw [if_pos here]
    exact if_pos here
  · rw [if_neg here]
    exact if_neg here

namespace Coherent

/-- Whatever is located is a canonical path. -/
theorem located_canonical (coherent : facts.Coherent) {path found : Path} {wanted : FileKind}
    (located : facts.located? path wanted = some found) : facts.IsCanonical found := by
  rw [located?_eq] at located
  split at located
  · next here =>
    obtain ⟨canonical, known⟩ := Option.isSome_iff_exists.mp (coherent.canonical here)
    rw [known, Option.getD_some] at located
    exact ⟨path, known.trans located⟩
  · simp at located

/-- Spellings of one path are located alike as directories. -/
theorem located_alike (coherent : facts.Coherent) {first second : Path}
    (same : first.components = second.components) :
    facts.located? first .directory = facts.located? second .directory := by
  rw [located?_eq, located?_eq]
  by_cases here : facts.kind? first = some .directory
  · obtain ⟨there, canonicalSame⟩ := coherent.alike same here
    obtain ⟨canonical, known⟩ := Option.isSome_iff_exists.mp (coherent.canonical here)
    rw [if_pos here, if_pos there, canonicalSame, known]
    rfl
  · have nowhere : facts.kind? second ≠ some .directory := by
      intro there
      exact here (coherent.alike same.symm there).1
    rw [if_neg here, if_neg nowhere]

end Coherent

end FileFacts

namespace FileMemo

/-- What the handles of the store stand for: the canonical paths under their numbers. -/
def naming (memo : FileMemo) : Naming where
  directory handle := memo.directories[handle.number]?.map fun path => ⟨path.code⟩
  file handle := memo.files[handle.number]?.map fun path => ⟨path.code⟩

variable {memo : FileMemo} {facts : FileFacts}

/-- Interning a canonical path among canonical paths gives the position of that path and leaves the
    others where they were. No other spelling of it is among them. -/
theorem intern_exact (coherent : facts.Coherent) {paths : List Path} {path : Path}
    (canonical : ∀ other ∈ paths, facts.IsCanonical other) (located : facts.IsCanonical path) :
    (intern paths path).1[(intern paths path).2]? = some path ∧
      ∃ added, (intern paths path).1 = paths ++ added ∧ ∀ other ∈ added, other = path := by
  unfold intern
  cases found : paths.findIdx? (·.same path) with
  | none =>
    refine ⟨?_, [path], rfl, by simp⟩
    simp
  | some position =>
    refine ⟨?_, [], by simp, by simp⟩
    obtain ⟨inside, same, _⟩ := List.findIdx?_eq_some_iff_getElem.mp found
    have equal : paths[position] = path := by
      obtain ⟨origin, known⟩ := canonical _ (List.getElem_mem inside)
      obtain ⟨here, knownHere⟩ := located
      refine coherent.spelling known knownHere ?_
      simpa [Path.same] using same
    rw [List.getElem?_eq_getElem inside, equal]

/-- What the store holds agrees with the file system: its paths are canonical, and its answers are those
    of the view. An answer about files is remembered only for a directory that was given out. -/
structure Agrees (memo : FileMemo) (facts : FileFacts) : Prop where
  directories : ∀ path ∈ memo.directories, facts.IsCanonical path
  files : ∀ path ∈ memo.files, facts.IsCanonical path
  directoryAnswers {path : Path} {answer : Option DirHandle} :
    memo.directoryAnswers.get? path.components = some answer →
      Option.Rel memo.naming.DirectoryAs answer (facts.view.directory? path)
  fileAnswers {handle : DirHandle} {name : String} {answer : Option FileHandle} :
    memo.fileAnswers.get? (handle, name) = some answer →
      ∃ meaning, memo.naming.DirectoryAs handle meaning ∧
        Option.Rel memo.naming.FileAs answer (facts.view.file? meaning name)

/-- Longer lists of paths keep what the handles stand for. -/
theorem naming_keeps {after : FileMemo} {moreDirectories moreFiles : List Path}
    (directories : after.directories = memo.directories ++ moreDirectories)
    (files : after.files = memo.files ++ moreFiles) : memo.naming.Keeps after.naming := by
  constructor
  · intro handle meaning known
    obtain ⟨path, here, same⟩ := Option.map_eq_some_iff.mp known
    have there : after.directories[handle.number]? = some path := by
      rw [directories, List.getElem?_append_left (List.getElem?_eq_some_iff.mp here).1, here]
    exact Option.map_eq_some_iff.mpr ⟨path, there, same⟩
  · intro handle meaning known
    obtain ⟨path, here, same⟩ := Option.map_eq_some_iff.mp known
    have there : after.files[handle.number]? = some path := by
      rw [files, List.getElem?_append_left (List.getElem?_eq_some_iff.mp here).1, here]
    exact Option.map_eq_some_iff.mpr ⟨path, there, same⟩

namespace Agrees

/-- Before the first question nothing is held. -/
theorem fresh : FileMemo.fresh.Agrees facts where
  directories _ member := by simp [FileMemo.fresh] at member
  files _ member := by simp [FileMemo.fresh] at member
  directoryAnswers remembered := by simp [FileMemo.fresh] at remembered
  fileAnswers remembered := by simp [FileMemo.fresh] at remembered

/-- The counts of questions do not matter. -/
theorem of_counts (agrees : memo.Agrees facts) (counts : QueryCounts) :
    FileMemo.Agrees { memo with counts } facts :=
  ⟨agrees.directories, agrees.files, agrees.directoryAnswers, agrees.fileAnswers⟩

/-- More canonical paths at the end of the known ones change no answer. -/
theorem grow (agrees : memo.Agrees facts) {after : FileMemo}
    {moreDirectories moreFiles : List Path}
    (directories : after.directories = memo.directories ++ moreDirectories)
    (canonicalDirectories : ∀ path ∈ moreDirectories, facts.IsCanonical path)
    (files : after.files = memo.files ++ moreFiles)
    (canonicalFiles : ∀ path ∈ moreFiles, facts.IsCanonical path)
    (directoryAnswers : after.directoryAnswers = memo.directoryAnswers)
    (fileAnswers : after.fileAnswers = memo.fileAnswers) : after.Agrees facts := by
  have keeps : memo.naming.Keeps after.naming := naming_keeps directories files
  constructor
  · intro path member
    rw [directories] at member
    rcases List.mem_append.mp member with old | new
    · exact agrees.directories path old
    · exact canonicalDirectories path new
  · intro path member
    rw [files] at member
    rcases List.mem_append.mp member with old | new
    · exact agrees.files path old
    · exact canonicalFiles path new
  · intro path answer remembered
    rw [directoryAnswers] at remembered
    exact related_grow (agrees.directoryAnswers remembered) fun _ _ => keeps.directory
  · intro handle name answer remembered
    rw [fileAnswers] at remembered
    obtain ⟨meaning, known, same⟩ := agrees.fileAnswers remembered
    exact ⟨meaning, keeps.directory known, related_grow same fun _ _ => keeps.file⟩

/-- Remembering the answer about a path answers every spelling of it. -/
theorem insertDirectory (agrees : memo.Agrees facts) (coherent : facts.Coherent) {path : Path}
    {answer : Option DirHandle}
    (same : Option.Rel memo.naming.DirectoryAs answer (facts.view.directory? path)) :
    FileMemo.Agrees { memo with
      directoryAnswers := memo.directoryAnswers.insert path.components answer } facts where
  directories := agrees.directories
  files := agrees.files
  directoryAnswers {other stored} remembered := by
    rw [Table.get?_insert] at remembered
    split at remembered
    · next spelled =>
      rw [FileFacts.view_directory?, coherent.located_alike spelled, ← FileFacts.view_directory?]
      exact Option.some.inj remembered ▸ same
    · exact agrees.directoryAnswers remembered
  fileAnswers := agrees.fileAnswers

/-- Remembering the answer about a name in a directory that was given out. -/
theorem insertFile (agrees : memo.Agrees facts) {handle meaning : DirHandle} {name : String}
    {answer : Option FileHandle} (known : memo.naming.DirectoryAs handle meaning)
    (same : Option.Rel memo.naming.FileAs answer (facts.view.file? meaning name)) :
    FileMemo.Agrees { memo with
      fileAnswers := memo.fileAnswers.insert (handle, name) answer } facts where
  directories := agrees.directories
  files := agrees.files
  directoryAnswers := agrees.directoryAnswers
  fileAnswers {other asked stored} remembered := by
    rw [Table.get?_insert] at remembered
    split at remembered
    · next question =>
      obtain ⟨rfl, rfl⟩ := Prod.mk.inj question
      exact ⟨meaning, known, Option.some.inj remembered ▸ same⟩
    · exact agrees.fileAnswers remembered

/-- Learning what the file system says about a directory gives the handle that stands for it. -/
theorem learn_directory (agrees : memo.Agrees facts) (coherent : facts.Coherent) {path : Path}
    {found : Option Path} (located : facts.located? path .directory = found) :
    (memo.learnDirectory path found).2.Agrees facts ∧
      memo.naming.Keeps (memo.learnDirectory path found).2.naming ∧
      Option.Rel (memo.learnDirectory path found).2.naming.DirectoryAs
        (memo.learnDirectory path found).1 (facts.view.directory? path) := by
  cases found with
  | none =>
    have absent : facts.view.directory? path = none := by
      rw [FileFacts.view_directory?, located, Option.map_none]
    have same : Option.Rel memo.naming.DirectoryAs none (facts.view.directory? path) := by
      rw [absent]
      exact .none
    exact ⟨agrees.insertDirectory coherent same, .refl _, same⟩
  | some canonical =>
    have isCanonical := coherent.located_canonical located
    obtain ⟨placed, added, longer, only⟩ :=
      intern_exact coherent agrees.directories isCanonical
    have grown : FileMemo.Agrees
        { memo with directories := (intern memo.directories canonical).1 } facts :=
      agrees.grow longer (fun other member => only other member ▸ isCanonical)
        (List.append_nil _).symm (by simp) rfl rfl
    have keeps : memo.naming.Keeps
        (FileMemo.naming { memo with directories := (intern memo.directories canonical).1 }) :=
      naming_keeps longer (List.append_nil _).symm
    have same : Option.Rel (FileMemo.naming
          { memo with directories := (intern memo.directories canonical).1 }).DirectoryAs
        (some ⟨(intern memo.directories canonical).2⟩) (facts.view.directory? path) := by
      rw [FileFacts.view_directory?, located, Option.map_some]
      exact .some (Option.map_eq_some_iff.mpr ⟨canonical, placed, rfl⟩)
    exact ⟨grown.insertDirectory coherent same, keeps, same⟩

/-- Learning what the file system says about a name in a directory that was given out gives the handle
    that stands for the file. -/
theorem learn_file (agrees : memo.Agrees facts) (coherent : facts.Coherent)
    {handle meaning : DirHandle} {name : String} {found : Option Path}
    (known : memo.naming.DirectoryAs handle meaning)
    (located : facts.located? ((Path.ofCode meaning.number).join name) .regular = found) :
    (memo.learnFile handle name found).2.Agrees facts ∧
      memo.naming.Keeps (memo.learnFile handle name found).2.naming ∧
      Option.Rel (memo.learnFile handle name found).2.naming.FileAs
        (memo.learnFile handle name found).1 (facts.view.file? meaning name) := by
  cases found with
  | none =>
    have absent : facts.view.file? meaning name = none := by
      rw [FileFacts.view_file?, located, Option.map_none]
    have same : Option.Rel memo.naming.FileAs none (facts.view.file? meaning name) := by
      rw [absent]
      exact .none
    exact ⟨agrees.insertFile known same, .refl _, same⟩
  | some canonical =>
    have isCanonical := coherent.located_canonical located
    obtain ⟨placed, added, longer, only⟩ := intern_exact coherent agrees.files isCanonical
    have grown : FileMemo.Agrees { memo with files := (intern memo.files canonical).1 } facts :=
      agrees.grow (List.append_nil _).symm (by simp) longer
        (fun other member => only other member ▸ isCanonical) rfl rfl
    have keeps : memo.naming.Keeps
        (FileMemo.naming { memo with files := (intern memo.files canonical).1 }) :=
      naming_keeps (List.append_nil _).symm longer
    have same : Option.Rel
        (FileMemo.naming { memo with files := (intern memo.files canonical).1 }).FileAs
        (some ⟨(intern memo.files canonical).2⟩) (facts.view.file? meaning name) := by
      rw [FileFacts.view_file?, located, Option.map_some]
      exact .some (Option.map_eq_some_iff.mpr ⟨canonical, placed, rfl⟩)
    exact ⟨grown.insertFile (keeps.directory known) same, keeps, same⟩

/-- A question about a directory is answered as the view answers it, remembered or not. -/
theorem ask_directory (agrees : memo.Agrees facts) (coherent : facts.Coherent) (path : Path) :
    (askDirectory path memo : FileFacts.Given facts _).result.2.Agrees facts ∧
      memo.naming.Keeps (askDirectory path memo : FileFacts.Given facts _).result.2.naming ∧
      Option.Rel (askDirectory path memo : FileFacts.Given facts _).result.2.naming.DirectoryAs
        (askDirectory path memo : FileFacts.Given facts _).result.1
        (facts.view.directory? path) := by
  have counted : memo.countDirectory.Agrees facts := agrees.of_counts _
  unfold askDirectory
  dsimp only
  split
  · next answer remembered => exact ⟨counted, .refl _, counted.directoryAnswers remembered⟩
  · have asked : memo.countDirectory.countAsked.Agrees facts := counted.of_counts _
    exact asked.learn_directory coherent rfl

/-- A question about a name in a directory that was given out is answered as the view answers it,
    remembered or not. -/
theorem ask_file (agrees : memo.Agrees facts) (coherent : facts.Coherent)
    {handle meaning : DirHandle} (name : String) (known : memo.naming.DirectoryAs handle meaning) :
    (askFile handle name memo : FileFacts.Given facts _).result.2.Agrees facts ∧
      memo.naming.Keeps (askFile handle name memo : FileFacts.Given facts _).result.2.naming ∧
      Option.Rel (askFile handle name memo : FileFacts.Given facts _).result.2.naming.FileAs
        (askFile handle name memo : FileFacts.Given facts _).result.1
        (facts.view.file? meaning name) := by
  have counted : memo.countFile.Agrees facts := agrees.of_counts _
  obtain ⟨base, here, rfl⟩ := Option.map_eq_some_iff.mp known
  have given : memo.countFile.directories[handle.number]? = some base := here
  unfold askFile
  dsimp only
  split
  · next answer remembered =>
    obtain ⟨other, otherKnown, same⟩ := counted.fileAnswers remembered
    obtain rfl : other = ⟨base.code⟩ := Option.some.inj (otherKnown.symm.trans known)
    exact ⟨counted, .refl _, same⟩
  · have asked : memo.countFile.countAsked.Agrees facts := counted.of_counts _
    rw [given]
    refine asked.learn_file coherent known ?_
    rw [Path.ofCode_code]
    rfl

end Agrees

end FileMemo

namespace FileFacts

/-- The reading of the remembering store in the view of canonical paths. -/
def reading (facts : FileFacts) : Reading (FileMemo × Unit) where
  sound state := state.1.Agrees facts
  naming state := state.1.naming

variable {facts : FileFacts}

/-- Over a coherent file system the remembering store answers as the view of canonical paths does,
    whatever it has been asked before. -/
theorem reading_faithful (coherent : facts.Coherent) :
    facts.reading.Faithful (StateT FileMemo (Given facts)) facts.view where
  directory? path agrees := by
    obtain ⟨sound, keeps, same⟩ := agrees.ask_directory coherent path
    exact ⟨sound, keeps, same⟩
  file? name agrees known := by
    obtain ⟨sound, keeps, same⟩ := agrees.ask_file coherent name known
    exact ⟨sound, keeps, same⟩
  directoryPath {state handle meaning} agrees known := by
    obtain ⟨path, here, rfl⟩ := Option.map_eq_some_iff.mp known
    refine ⟨agrees, .refl _, ?_⟩
    change state.1.directoryPath handle = Path.ofCode path.code
    rw [FileMemo.directoryPath, List.getD_eq_getElem?_getD, here, Path.ofCode_code]
    rfl
  filePath {state handle meaning} agrees known := by
    obtain ⟨path, here, rfl⟩ := Option.map_eq_some_iff.mp known
    refine ⟨agrees, .refl _, ?_⟩
    change state.1.filePath handle = Path.ofCode path.code
    rw [FileMemo.filePath, List.getD_eq_getElem?_getD, here, Path.ofCode_code]
    rfl

end FileFacts

end HeaderSearch
