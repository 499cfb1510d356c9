import Mathlib.Logic.Relation
import HeaderSearch.Proofs.CanonicalStore
import HeaderSearch.Proofs.Numbering

/-!
# The remembering store is faithful

The exchanges with the store are the questions that it was asked and its answers, in order. Questions
about directories and about files are remembered in the same way, with a table and a list of paths
each; only those about files read what the others left, the path of a directory. One more question
keeps what the store holds right and every listed path in its place. By induction on the questions it
follows what each handle stands for, whatever was asked before and afterwards.
-/

namespace HeaderSearch

/-- What a file system answers about paths fits together: there is a canonical path for whatever is
    there, and spellings of one directory are answered alike. -/
structure FileFacts.Steady (facts : FileFacts) : Prop where
  /-- Whatever is there has a canonical path. -/
  canonical {path : Path} {kind : FileKind} :
    facts.kind? path = some kind → (facts.canonical? path).isSome
  /-- A directory is there under every spelling of a path of it, with the same canonical path. -/
  alike {first second : Path} : first.components = second.components →
    facts.kind? first = some .directory →
      facts.kind? second = some .directory ∧
        (facts.canonical? second).map Path.components =
          (facts.canonical? first).map Path.components

/-- A coherent file system is steady: its canonical paths have one spelling besides. -/
theorem FileFacts.Coherent.steady {facts : FileFacts} (coherent : facts.Coherent) :
    facts.Steady where
  canonical := coherent.canonical
  alike same here := by
    obtain ⟨there, canonical⟩ := coherent.alike same here
    exact ⟨there, by rw [canonical]⟩

/-- Spellings of one path are located alike as directories. -/
theorem FileFacts.Steady.located_alike {facts : FileFacts} (steady : facts.Steady)
    {first second : Path} (same : first.components = second.components) :
    (facts.located? first .directory).map Path.components =
      (facts.located? second .directory).map Path.components := by
  rw [FileFacts.located?_eq, FileFacts.located?_eq]
  by_cases here : facts.kind? first = some .directory
  · obtain ⟨there, alike⟩ := steady.alike same here
    obtain ⟨canonical, known⟩ := Option.isSome_iff_exists.mp (steady.canonical here)
    obtain ⟨other, knownOther⟩ := Option.isSome_iff_exists.mp (steady.canonical there)
    rw [known, knownOther] at alike
    rw [if_pos here, if_pos there, known, knownOther]
    exact alike.symm
  · have nowhere : facts.kind? second ≠ some .directory := fun there =>
      here (steady.alike same.symm there).1
    rw [if_neg here, if_neg nowhere]

/-- A question to a file store, with its answer. -/
inductive Exchange where
  /-- Whether a path names a directory. -/
  | directory (path : Path) (answer : Option DirHandle)
  /-- Whether a directory holds a file under a name. -/
  | file (directory : DirHandle) (name : String) (answer : Option FileHandle)
deriving DecidableEq, Repr

namespace Exchange

/-- A question about a directory up to the spelling of its path, with the answer. -/
def directory? : Exchange → Option (List Component × Option DirHandle)
  | directory path answer => some (path.components, answer)
  | file _ _ _ => none

/-- A question about a file, with the answer. -/
def file? : Exchange → Option ((DirHandle × String) × Option FileHandle)
  | directory _ _ => none
  | file holder name answer => some ((holder, name), answer)

end Exchange

namespace FileMemo

/-- The exchanges about directories. -/
def directoriesAsked (done : List Exchange) : List (List Component × Option DirHandle) :=
  done.filterMap Exchange.directory?

/-- The exchanges about files. -/
def filesAsked (done : List Exchange) : List ((DirHandle × String) × Option FileHandle) :=
  done.filterMap Exchange.file?

theorem directoriesAsked_snoc_directory (done : List Exchange) (path : Path)
    (answer : Option DirHandle) :
    directoriesAsked (done ++ [.directory path answer]) =
      directoriesAsked done ++ [(path.components, answer)] := by
  simp [directoriesAsked, Exchange.directory?]

theorem filesAsked_snoc_directory (done : List Exchange) (path : Path) (answer : Option DirHandle) :
    filesAsked (done ++ [.directory path answer]) = filesAsked done := by
  simp [filesAsked, Exchange.file?]

theorem directoriesAsked_snoc_file (done : List Exchange) (holder : DirHandle) (name : String)
    (answer : Option FileHandle) :
    directoriesAsked (done ++ [.file holder name answer]) = directoriesAsked done := by
  simp [directoriesAsked, Exchange.directory?]

theorem filesAsked_snoc_file (done : List Exchange) (holder : DirHandle) (name : String)
    (answer : Option FileHandle) :
    filesAsked (done ++ [.file holder name answer]) =
      filesAsked done ++ [((holder, name), answer)] := by
  simp [filesAsked, Exchange.file?]

/-- The handles of directories that were given out, in order. -/
def directoriesIssued (done : List Exchange) : List DirHandle := issued (directoriesAsked done)

/-- The handles of files that were given out, in order. -/
def filesIssued (done : List Exchange) : List FileHandle := issued (filesAsked done)

/-- The answer to a question about a directory over a file system, and what the store then holds. -/
def askedDirectory (facts : FileFacts) (memo : FileMemo) (path : Path) :
    Option DirHandle × FileMemo :=
  ((FileStore.directory? path : StateT FileMemo (FileFacts.Given facts) _).run memo).result

/-- The answer to a question about a file over a file system, and what the store then holds. -/
def askedFile (facts : FileFacts) (memo : FileMemo) (holder : DirHandle) (name : String) :
    Option FileHandle × FileMemo :=
  ((FileStore.file? holder name : StateT FileMemo (FileFacts.Given facts) _).run memo).result

section Asked

variable {facts : FileFacts} {memo : FileMemo} {path : Path} {holder : DirHandle} {name : String}

/-- What is learnt about a directory, whether or not there is one. -/
theorem learnDirectory_eq (memo : FileMemo) (path : Path) (found : Option Path) :
    memo.learnDirectory path found =
      let answer := (numberFor? memo.directories found).map DirHandle.mk
      (answer, { memo with
        directories := enlisted memo.directories found
        directoryAnswers := memo.directoryAnswers.insert path.components answer }) := by
  cases found <;> rfl

/-- What is learnt about a file, whether or not there is one. -/
theorem learnFile_eq (memo : FileMemo) (holder : DirHandle) (name : String) (found : Option Path) :
    memo.learnFile holder name found =
      let answer := (numberFor? memo.files found).map FileHandle.mk
      (answer, { memo with
        files := enlisted memo.files found
        fileAnswers := memo.fileAnswers.insert (holder, name) answer }) := by
  cases found <;> rfl

/-- A question about a directory that has an answer is counted. -/
theorem asked_directory_known {answer : Option DirHandle}
    (known : memo.directoryAnswers.get? path.components = some answer) :
    askedDirectory facts memo path = (answer, memo.countDirectory) := by
  have remembered : memo.countDirectory.directoryAnswers.get? path.components = some answer := known
  change (askDirectory path memo : FileFacts.Given facts _).result = _
  rw [askDirectory, remembered]
  rfl

/-- A new question about a directory goes on to the file system. -/
theorem asked_directory_new (unknown : memo.directoryAnswers.get? path.components = none) :
    askedDirectory facts memo path =
      let found := facts.located? path .directory
      let answer := (numberFor? memo.directories found).map DirHandle.mk
      (answer, { memo.countDirectory.countAsked with
        directories := enlisted memo.directories found
        directoryAnswers := memo.directoryAnswers.insert path.components answer }) := by
  have forgotten : memo.countDirectory.directoryAnswers.get? path.components = none := unknown
  change (askDirectory path memo : FileFacts.Given facts _).result = _
  rw [askDirectory, forgotten]
  exact learnDirectory_eq _ path (facts.located? path .directory)

/-- A question about a file that has an answer is counted. -/
theorem asked_file_known {answer : Option FileHandle}
    (known : memo.fileAnswers.get? (holder, name) = some answer) :
    askedFile facts memo holder name = (answer, memo.countFile) := by
  have remembered : memo.countFile.fileAnswers.get? (holder, name) = some answer := known
  change (askFile holder name memo : FileFacts.Given facts _).result = _
  rw [askFile, remembered]
  rfl

/-- A new question about a file in a listed directory goes on to the file system. -/
theorem asked_file_new (unknown : memo.fileAnswers.get? (holder, name) = none)
    (given : holder.number < memo.directories.length) :
    askedFile facts memo holder name =
      let found := facts.located? ((memo.directoryPath holder).join name) .regular
      let answer := (numberFor? memo.files found).map FileHandle.mk
      (answer, { memo.countFile.countAsked with
        files := enlisted memo.files found
        fileAnswers := memo.fileAnswers.insert (holder, name) answer }) := by
  have forgotten : memo.countFile.fileAnswers.get? (holder, name) = none := unknown
  have base : memo.countFile.directories[holder.number]? = some (memo.directoryPath holder) := by
    rw [directoryPath, List.getD_eq_getElem?_getD]
    exact (List.getElem?_eq_getElem given).trans (by rw [List.getElem?_eq_getElem given]; rfl)
  change (askFile holder name memo : FileFacts.Given facts _).result = _
  rw [askFile, forgotten, base]
  exact learnFile_eq _ holder name (facts.located? ((memo.directoryPath holder).join name) .regular)

end Asked

/-- The store is asked one more question. A name is asked for only in a directory whose handle was given
    out before. -/
inductive Step (facts : FileFacts) :
    FileMemo × List Exchange → FileMemo × List Exchange → Prop where
  | directory (memo : FileMemo) (done : List Exchange) (path : Path) :
    Step facts (memo, done) ((askedDirectory facts memo path).2,
      done ++ [.directory path (askedDirectory facts memo path).1])
  | file (memo : FileMemo) (done : List Exchange) (holder : DirHandle) (name : String)
    (given : holder ∈ directoriesIssued done) :
    Step facts (memo, done) ((askedFile facts memo holder name).2,
      done ++ [.file holder name (askedFile facts memo holder name).1])

/-- The store can be brought from one state to another by questions. -/
abbrev Reached (facts : FileFacts) :
    FileMemo × List Exchange → FileMemo × List Exchange → Prop :=
  Relation.ReflTransGen (Step facts)

/-- An answer that stands for what a path is located as is a handle exactly if the path names
    something of the wanted kind, and the path behind the handle is the one that was located. -/
theorem stands_for_located {facts : FileFacts} {ν : Type} {number : ν → Nat} {paths : List Path}
    {answer : Option ν} {path : Path} {wanted : FileKind}
    (stands : Option.Rel (Names paths) (answer.map number) (facts.located? path wanted)) :
    (answer.isSome ↔ facts.kind? path = some wanted) ∧
      ∀ handle, answer = some handle →
        Names paths (number handle) ((facts.canonical? path).getD path) := by
  rw [FileFacts.located?_eq] at stands
  by_cases here : facts.kind? path = some wanted
  · rw [if_pos here] at stands
    cases answer with
    | none => cases stands
    | some given =>
      cases stands with
      | some names =>
        refine ⟨by simp [here], ?_⟩
        rintro _ ⟨rfl⟩
        exact names
  · rw [if_neg here] at stands
    cases answer with
    | none => exact ⟨by simp [here], by simp⟩
    | some given => cases stands

/-- What the store holds after some exchanges over a file system. -/
structure Follows (memo : FileMemo) (facts : FileFacts) (done : List Exchange) : Prop where
  directories : Remembers DirHandle.number memo.directoryAnswers memo.directories
    (directoriesAsked done)
  files : Remembers FileHandle.number memo.fileAnswers memo.files (filesAsked done)
  /-- The handle of a directory stands for the path that the file system has for it. -/
  directory {path : Path} {answer : Option DirHandle} : .directory path answer ∈ done →
    Option.Rel (Names memo.directories) (answer.map DirHandle.number)
      (facts.located? path .directory)
  /-- Names were asked for only in directories whose handles had been given out. -/
  issued {holder : DirHandle} {name : String} {answer : Option FileHandle} :
    .file holder name answer ∈ done → holder.number < memo.directories.length
  /-- The handle of a file stands for the path that the file system has for it. -/
  file {holder : DirHandle} {name : String} {answer : Option FileHandle} :
    .file holder name answer ∈ done →
    Option.Rel (Names memo.files) (answer.map FileHandle.number)
      (facts.located? ((memo.directoryPath holder).join name) .regular)
  countDirectories : memo.counts.directories = (directoriesAsked done).length
  countFiles : memo.counts.files = (filesAsked done).length
  countAsked : memo.counts.asked =
    (questions (directoriesAsked done)).card + (questions (filesAsked done)).card

namespace Follows

variable {memo : FileMemo} {facts : FileFacts} {done : List Exchange}

/-- Nothing is held before the first exchange. -/
theorem fresh (facts : FileFacts) : FileMemo.fresh.Follows facts [] where
  directories := ⟨by simp [FileMemo.fresh, directoriesAsked], ⟨List.Pairwise.nil, rfl⟩⟩
  files := ⟨by simp [FileMemo.fresh, filesAsked], ⟨List.Pairwise.nil, rfl⟩⟩
  directory member := by simp at member
  issued member := by simp at member
  file member := by simp at member
  countDirectories := rfl
  countFiles := rfl
  countAsked := rfl

/-- One more exchange about a directory. -/
theorem add_directory (follows : memo.Follows facts done) {after : FileMemo} {path : Path}
    {answer : Option DirHandle}
    (remembers : Remembers DirHandle.number after.directoryAnswers after.directories
      (directoriesAsked done ++ [(path.components, answer)]))
    (leads : memo.directories <+: after.directories)
    (stands : Option.Rel (Names after.directories) (answer.map DirHandle.number)
      (facts.located? path .directory))
    (files : after.files = memo.files) (fileAnswers : after.fileAnswers = memo.fileAnswers)
    (countDirectories : after.counts.directories = memo.counts.directories + 1)
    (countFiles : after.counts.files = memo.counts.files)
    (countAsked : after.counts.asked =
      (questions (directoriesAsked done ++ [(path.components, answer)])).card +
        (questions (filesAsked done)).card) :
    after.Follows facts (done ++ [.directory path answer]) := by
  have asked := directoriesAsked_snoc_directory done path answer
  have askedFiles := filesAsked_snoc_directory done path answer
  have old {holder : DirHandle} {name : String} {found : Option FileHandle}
      (member : .file holder name found ∈ done ++ [.directory path answer]) :
      .file holder name found ∈ done := by
    simpa using member
  constructor
  · rw [asked]
    exact remembers
  · rw [askedFiles, files, fileAnswers]
    exact follows.files
  · intro other given member
    rcases List.mem_append.mp member with before | last
    · exact related_grow (follows.directory before) fun _ _ names => names.grow leads
    · obtain ⟨rfl, rfl⟩ := Exchange.directory.inj (List.mem_singleton.mp last)
      exact stands
  · intro holder name found member
    exact (follows.issued (old member)).trans_le leads.length_le
  · intro holder name found member
    have path : after.directoryPath holder = memo.directoryPath holder :=
      listed_grow leads (follows.issued (old member)) _
    rw [path, files]
    exact follows.file (old member)
  · rw [countDirectories, follows.countDirectories, asked, List.length_append,
      List.length_singleton]
  · rw [countFiles, follows.countFiles, askedFiles]
  · rw [countAsked, asked, askedFiles]

/-- One more exchange about a file. -/
theorem add_file (follows : memo.Follows facts done) {after : FileMemo} {holder : DirHandle}
    {name : String} {answer : Option FileHandle}
    (given : holder.number < memo.directories.length)
    (remembers : Remembers FileHandle.number after.fileAnswers after.files
      (filesAsked done ++ [((holder, name), answer)]))
    (leads : memo.files <+: after.files)
    (stands : Option.Rel (Names after.files) (answer.map FileHandle.number)
      (facts.located? ((memo.directoryPath holder).join name) .regular))
    (directories : after.directories = memo.directories)
    (directoryAnswers : after.directoryAnswers = memo.directoryAnswers)
    (countDirectories : after.counts.directories = memo.counts.directories)
    (countFiles : after.counts.files = memo.counts.files + 1)
    (countAsked : after.counts.asked = (questions (directoriesAsked done)).card +
      (questions (filesAsked done ++ [((holder, name), answer)])).card) :
    after.Follows facts (done ++ [.file holder name answer]) := by
  have asked := filesAsked_snoc_file done holder name answer
  have askedDirectories := directoriesAsked_snoc_file done holder name answer
  have path (handle : DirHandle) : after.directoryPath handle = memo.directoryPath handle := by
    rw [directoryPath, directories]
    rfl
  constructor
  · rw [askedDirectories, directories, directoryAnswers]
    exact follows.directories
  · rw [asked]
    exact remembers
  · intro other found member
    rw [directories]
    exact follows.directory (by simpa using member)
  · intro other wanted found member
    rw [directories]
    rcases List.mem_append.mp member with before | last
    · exact follows.issued before
    · obtain ⟨rfl, -, -⟩ := Exchange.file.inj (List.mem_singleton.mp last)
      exact given
  · intro other wanted found member
    rw [path]
    rcases List.mem_append.mp member with before | last
    · exact related_grow (follows.file before) fun _ _ names => names.grow leads
    · obtain ⟨rfl, rfl, rfl⟩ := Exchange.file.inj (List.mem_singleton.mp last)
      exact stands
  · rw [countDirectories, follows.countDirectories, askedDirectories]
  · rw [countFiles, follows.countFiles, asked, List.length_append, List.length_singleton]
  · rw [countAsked, asked, askedDirectories]

/-- What stands for a path located as a directory stands for the one located by another spelling. -/
theorem stands_alike {paths : List Path} {number : Option Nat} {found other : Option Path}
    (stands : Option.Rel (Names paths) number found)
    (alike : found.map Path.components = other.map Path.components) :
    Option.Rel (Names paths) number other := by
  rcases related_cases stands with ⟨rfl, rfl⟩ | ⟨_, here, rfl, rfl, stored, listed, same⟩
  · rw [Option.map_none, eq_comm, Option.map_eq_none_iff] at alike
    rw [alike]
    exact .none
  · rw [Option.map_some, eq_comm, Option.map_eq_some_iff] at alike
    obtain ⟨there, rfl, alike⟩ := alike
    exact .some ⟨stored, listed, same.trans alike.symm⟩

/-- A question about a directory is one more exchange, and all that is listed stays where it is. -/
theorem ask_directory (follows : memo.Follows facts done) (steady : facts.Steady) (path : Path) :
    let asked := askedDirectory facts memo path
    asked.2.Follows facts (done ++ [.directory path asked.1]) ∧
      memo.directories <+: asked.2.directories ∧ memo.files <+: asked.2.files := by
  intro asked
  cases known : memo.directoryAnswers.get? path.components with
  | some answer =>
    obtain ⟨exchange, member, spelled⟩ :=
      List.mem_filterMap.mp (follows.directories.answers.mp known)
    have stands : Option.Rel (Names memo.directories) (answer.map DirHandle.number)
        (facts.located? path .directory) := by
      cases exchange with
      | file => exact absurd spelled (by simp [Exchange.directory?])
      | directory other given =>
        obtain ⟨same, rfl⟩ := Prod.mk.inj (Option.some.inj spelled)
        exact stands_alike (follows.directory member) (steady.located_alike same)
    have again : asked = (answer, memo.countDirectory) := asked_directory_known known
    rw [again]
    refine ⟨follows.add_directory (follows.directories.again known) List.prefix_rfl stands rfl rfl
      rfl rfl ?_, List.prefix_rfl, List.prefix_rfl⟩
    rw [follows.directories.questions_again known]
    exact follows.countAsked
  | none =>
    obtain ⟨numbered, names, leads⟩ :=
      follows.directories.numbered.enlist (facts.located? path .directory)
    have new : asked = _ := asked_directory_new known
    rw [new]
    refine ⟨follows.add_directory (follows.directories.learn known ?_) leads ?_ rfl rfl rfl rfl ?_,
      leads, List.prefix_rfl⟩
    · simpa [Function.comp_def] using numbered
    · simpa [Function.comp_def] using names
    · rw [follows.directories.card_questions_new known]
      exact (congrArg (· + 1) follows.countAsked).trans (Nat.add_right_comm _ _ _)

/-- A question about a name in a directory that was given out is one more exchange, and all that is
    listed stays where it is. -/
theorem ask_file (follows : memo.Follows facts done) {holder : DirHandle} (name : String)
    (given : holder.number < memo.directories.length) :
    let asked := askedFile facts memo holder name
    asked.2.Follows facts (done ++ [.file holder name asked.1]) ∧
      memo.directories <+: asked.2.directories ∧ memo.files <+: asked.2.files := by
  intro asked
  cases known : memo.fileAnswers.get? (holder, name) with
  | some answer =>
    obtain ⟨exchange, member, spelled⟩ := List.mem_filterMap.mp (follows.files.answers.mp known)
    have stands : Option.Rel (Names memo.files) (answer.map FileHandle.number)
        (facts.located? ((memo.directoryPath holder).join name) .regular) := by
      cases exchange with
      | directory => exact absurd spelled (by simp [Exchange.file?])
      | file other wanted found =>
        obtain ⟨same, rfl⟩ := Prod.mk.inj (Option.some.inj spelled)
        obtain ⟨rfl, rfl⟩ := Prod.mk.inj same
        exact follows.file member
    have again : asked = (answer, memo.countFile) := asked_file_known known
    rw [again]
    refine ⟨follows.add_file given (follows.files.again known) List.prefix_rfl stands rfl rfl rfl rfl
      ?_, List.prefix_rfl, List.prefix_rfl⟩
    rw [follows.files.questions_again known]
    exact follows.countAsked
  | none =>
    obtain ⟨numbered, names, leads⟩ := follows.files.numbered.enlist
      (facts.located? ((memo.directoryPath holder).join name) .regular)
    have new : asked = _ := asked_file_new known given
    rw [new]
    refine ⟨follows.add_file given (follows.files.learn known ?_) leads ?_ rfl rfl rfl rfl ?_,
      List.prefix_rfl, leads⟩
    · simpa [Function.comp_def] using numbered
    · simpa [Function.comp_def] using names
    · rw [follows.files.card_questions_new known]
      exact congrArg (· + 1) follows.countAsked

/-- A directory whose handle was given out is listed. -/
theorem listed_directory (follows : memo.Follows facts done) {handle : DirHandle}
    (given : handle ∈ directoriesIssued done) : handle.number < memo.directories.length :=
  follows.directories.numbered.mem_iff.mp (List.mem_map_of_mem given)

/-- A file whose handle was given out is listed. -/
theorem listed_file (follows : memo.Follows facts done) {handle : FileHandle}
    (given : handle ∈ filesIssued done) : handle.number < memo.files.length :=
  follows.files.numbered.mem_iff.mp (List.mem_map_of_mem given)

/-- One question keeps what the store holds right, and all that is listed stays where it is. -/
theorem step (steady : facts.Steady) {before after : FileMemo × List Exchange}
    (stepped : Step facts before after) (follows : before.1.Follows facts before.2) :
    after.1.Follows facts after.2 ∧ before.1.directories <+: after.1.directories ∧
      before.1.files <+: after.1.files := by
  cases stepped with
  | directory memo done path => exact follows.ask_directory steady path
  | file memo done holder name given => exact follows.ask_file name (follows.listed_directory given)

/-- Any questions keep what the store holds right, and all that is listed stays where it is. Induct on
    the questions. -/
theorem reached (steady : facts.Steady) {before after : FileMemo × List Exchange}
    (reached : Reached facts before after) (follows : before.1.Follows facts before.2) :
    after.1.Follows facts after.2 ∧ before.1.directories <+: after.1.directories ∧
      before.1.files <+: after.1.files := by
  induction reached with
  | refl => exact ⟨follows, List.prefix_rfl, List.prefix_rfl⟩
  | tail _ stepped inductionHypothesis =>
    obtain ⟨followsBetween, directories, files⟩ := inductionHypothesis
    obtain ⟨followsAfter, moreDirectories, moreFiles⟩ := followsBetween.step steady stepped
    exact ⟨followsAfter, directories.trans moreDirectories, files.trans moreFiles⟩

/-- An answer that stands for what a path is located as is a handle exactly if the path names something
    of the wanted kind, and the path behind the handle is the canonical one. -/
theorem stands_for_canonical (steady : facts.Steady) {ν : Type} {number : ν → Nat}
    {paths : List Path} {answer : Option ν} {path : Path} {wanted : FileKind}
    (stands : Option.Rel (Names paths) (answer.map number) (facts.located? path wanted))
    (missing : Path) :
    (answer.isSome ↔ facts.kind? path = some wanted) ∧
      ∀ handle, answer = some handle → ∃ canonical, facts.canonical? path = some canonical ∧
        (paths.getD (number handle) missing).components = canonical.components := by
  obtain ⟨there, names⟩ := stands_for_located stands
  refine ⟨there, fun handle same => ?_⟩
  have here : facts.kind? path = some wanted := there.mp (by simp [same])
  obtain ⟨canonical, known⟩ := Option.isSome_iff_exists.mp (steady.canonical here)
  have named := names handle same
  rw [known, Option.getD_some] at named
  exact ⟨canonical, known, named.listed missing⟩

end Follows

/-- The remembering store is faithful. However its state was reached, a path was given a handle exactly
    if it names a directory, and a name in a directory exactly if the path of the directory joined with
    it names a regular file; the handle has the canonical path. Two handles of one sort are equal
    exactly if their paths are. The handles, each at its first sight, are numbered in order from zero
    on, so that there are as many paths as different handles, and the numbers fit into 32 bits if the
    number of paths does. The counts are those of the questions and, for the file system, of the
    different ones: paths up to spelling, and names with the handles of their directories. No later
    question changes the path of a handle. -/
theorem store_is_faithful {facts : FileFacts} {memo : FileMemo} {done : List Exchange}
    (steady : facts.Steady) (reached : Reached facts (.fresh, []) (memo, done)) :
    (∀ path answer, .directory path answer ∈ done →
      (answer.isSome ↔ facts.kind? path = some .directory) ∧
      ∀ handle, answer = some handle → ∃ canonical, facts.canonical? path = some canonical ∧
        (memo.directoryPath handle).components = canonical.components) ∧
    (∀ holder name answer, .file holder name answer ∈ done →
      let path := (memo.directoryPath holder).join name
      (answer.isSome ↔ facts.kind? path = some .regular) ∧
      ∀ handle, answer = some handle → ∃ canonical, facts.canonical? path = some canonical ∧
        (memo.filePath handle).components = canonical.components) ∧
    (∀ one ∈ directoriesIssued done, ∀ other ∈ directoriesIssued done, one = other ↔
      (memo.directoryPath one).components = (memo.directoryPath other).components) ∧
    (∀ one ∈ filesIssued done, ∀ other ∈ filesIssued done, one = other ↔
      (memo.filePath one).components = (memo.filePath other).components) ∧
    ((directoriesIssued done).map DirHandle.number).eraseDups =
      List.range memo.directories.length ∧
    ((filesIssued done).map FileHandle.number).eraseDups = List.range memo.files.length ∧
    (memo.directories.length ≤ UInt32.size →
      ∀ handle ∈ directoriesIssued done, handle.number < UInt32.size) ∧
    (memo.files.length ≤ UInt32.size →
      ∀ handle ∈ filesIssued done, handle.number < UInt32.size) ∧
    memo.counts.directories = (directoriesAsked done).length ∧
    memo.counts.files = (filesAsked done).length ∧
    memo.counts.asked =
      (questions (directoriesAsked done)).card + (questions (filesAsked done)).card ∧
    ∀ later longer, Reached facts (memo, done) (later, longer) →
      (∀ handle ∈ directoriesIssued done,
        later.directoryPath handle = memo.directoryPath handle) ∧
      ∀ handle ∈ filesIssued done, later.filePath handle = memo.filePath handle := by
  obtain ⟨follows, -, -⟩ := Follows.reached steady reached (Follows.fresh facts)
  refine ⟨?_, ?_, ?_, ?_, follows.directories.numbered.order, follows.files.numbered.order, ?_, ?_,
    follows.countDirectories, follows.countFiles, follows.countAsked, ?_⟩
  · intro path answer member
    exact Follows.stands_for_canonical steady (follows.directory member) _
  · intro holder name answer member
    exact Follows.stands_for_canonical steady (follows.file member) _
  · intro one given other givenOther
    have numbers := follows.directories.numbered.same_iff (follows.listed_directory given)
      (follows.listed_directory givenOther) ⟨""⟩
    exact ⟨fun same => numbers.mp (congrArg _ same),
      fun same => congrArg DirHandle.mk (numbers.mpr same)⟩
  · intro one given other givenOther
    have numbers := follows.files.numbered.same_iff (follows.listed_file given)
      (follows.listed_file givenOther) ⟨""⟩
    exact ⟨fun same => numbers.mp (congrArg _ same),
      fun same => congrArg FileHandle.mk (numbers.mpr same)⟩
  · intro few handle given
    exact Nat.lt_of_lt_of_le (follows.listed_directory given) few
  · intro few handle given
    exact Nat.lt_of_lt_of_le (follows.listed_file given) few
  · intro later longer more
    obtain ⟨-, directories, files⟩ := Follows.reached steady more follows
    exact ⟨fun handle given => listed_grow directories (follows.listed_directory given) _,
      fun handle given => listed_grow files (follows.listed_file given) _⟩

/-- A file system with one header in one directory. -/
def oneHeader : FileFacts := .listing [⟨"/include"⟩] [⟨"/include/a.h"⟩]

/-- The exchanges about two spellings of the directory, the header and one that is not there. -/
def fourExchanges : List Exchange :=
  [.directory ⟨"/include/."⟩ (some ⟨0⟩), .directory ⟨"/include"⟩ (some ⟨0⟩),
    .file ⟨0⟩ "a.h" (some ⟨0⟩), .file ⟨0⟩ "b.h" none]

/-- Of four questions three go on to the file system, and the handles stand for the canonical paths. -/
theorem four_exchanges_with_one_header :
    ∃ memo, Reached oneHeader (.fresh, []) (memo, fourExchanges) ∧
      (memo.directoryPath ⟨0⟩).components = Path.components ⟨"/include"⟩ ∧
      (memo.filePath ⟨0⟩).components = Path.components ⟨"/include/a.h"⟩ ∧
      memo.counts.directories = 2 ∧ memo.counts.files = 2 ∧ memo.counts.asked = 3 := by
  have given : (⟨0⟩ : DirHandle) ∈ directoriesIssued (fourExchanges.take 2) := by decide
  have givenStill : (⟨0⟩ : DirHandle) ∈ directoriesIssued (fourExchanges.take 3) := by decide
  have reached : Reached oneHeader (.fresh, []) (_, fourExchanges) :=
    (((Relation.ReflTransGen.refl.tail (.directory _ _ ⟨"/include/."⟩)).tail
      (.directory _ _ ⟨"/include"⟩)).tail (.file _ _ ⟨0⟩ "a.h" given)).tail
      (.file _ _ ⟨0⟩ "b.h" givenStill)
  have steady : oneHeader.Steady := (FileFacts.listing_coherent _ _).steady
  obtain ⟨directory, file, -, -, -, -, -, -, directories, files, asked, -⟩ :=
    store_is_faithful steady reached
  obtain ⟨-, directory⟩ := directory ⟨"/include/."⟩ (some ⟨0⟩) (by decide)
  obtain ⟨-, file⟩ := file ⟨0⟩ "a.h" (some ⟨0⟩) (by decide)
  obtain ⟨_, found, here⟩ := directory ⟨0⟩ rfl
  obtain ⟨_, foundFile, hereFile⟩ := file ⟨0⟩ rfl
  refine ⟨_, reached, ?_, ?_, directories, files, asked⟩
  · obtain rfl := Option.some.inj found
    exact here
  · obtain rfl := Option.some.inj foundFile
    exact hereFile

end FileMemo

end HeaderSearch
