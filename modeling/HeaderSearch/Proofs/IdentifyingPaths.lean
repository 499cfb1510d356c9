import HeaderSearch.Proofs.ForeignHandles
import HeaderSearch.Proofs.IssuedFiles
import HeaderSearch.Proofs.ReportedPaths
import HeaderSearch.Report.Lookups

/-!
# Reported paths identify files

A header is reported under the path of its file. In a session over the remembering store, equal
handles have one path and different handles have different ones, whatever led to the headers and in
whichever order, since the store lists every canonical path once. A path is shown with every
backslash as `/`, though. Two files whose paths differ in nothing else are reported under one path,
and so only paths without backslashes identify their files.
-/

namespace HeaderSearch

/-- The remembering store of a file system, in the states that questions lead to. -/
def FileFacts.questioned (facts : FileFacts) : Reading (FileMemo × Unit) where
  sound state := ∃ queries, (FileMemo.converse facts queries).1 = state.1
  naming state := state.1.naming

namespace FileMemo

variable {facts : FileFacts}

/-- One more question keeps what the handles stand for. -/
theorem exchange_keeps (queries : List Query) (query : Query) :
    (converse facts queries).1.naming.Keeps
      (exchange facts (converse facts queries) query).1.naming := by
  obtain ⟨-, ⟨directories, sameDirectories⟩, files, sameFiles⟩ :=
    (converse_tracks facts queries).exchange query
  exact naming_keeps sameDirectories.symm sameFiles.symm

/-- A file that is answered is listed. -/
theorem Tracks.has_answer {memo : FileMemo} {done : List Exchange} (tracks : memo.Tracks facts done)
    {holder : DirHandle} {name : String} {file : FileHandle}
    (member : .file holder name (some file) ∈ done) : memo.naming.Has file := by
  have issued : file ∈ issued (filesAsked done) :=
    List.mem_filterMap.mpr ⟨_, List.mem_filterMap.mpr ⟨_, member, rfl⟩, rfl⟩
  have listed : file.number < memo.files.length :=
    tracks.files.numbered.mem_iff.mp (List.mem_map_of_mem issued)
  exact ⟨_, fileAt_iff.mpr (List.getElem?_eq_getElem listed)⟩

/-- The file of a handle is one that the file system has. -/
theorem Tracks.located_file {memo : FileMemo} {done : List Exchange}
    (tracks : memo.Tracks facts done) {file : FileHandle} (has : memo.naming.Has file) :
    ∃ origin, facts.located? origin .regular = some (memo.filePath file) := by
  obtain ⟨path, stands⟩ := has
  rw [filePath_of_stands stands]
  exact tracks.located (List.mem_of_getElem? (fileAt_iff.mp stands))

/-- Handles of files are the same exactly if the paths are. -/
theorem Tracks.same_file_iff {memo : FileMemo} {done : List Exchange}
    (tracks : memo.Tracks facts done) {one other : FileHandle} (hasOne : memo.naming.Has one)
    (hasOther : memo.naming.Has other) :
    one = other ↔ (memo.filePath one).components = (memo.filePath other).components := by
  have listed {file : FileHandle} (has : memo.naming.Has file) :
      file.number < memo.files.length := by
    obtain ⟨path, stands⟩ := has
    exact (List.getElem?_eq_some_iff.mp (fileAt_iff.mp stands)).1
  have numbers := tracks.files.numbered.same_iff (listed hasOne) (listed hasOther) ⟨""⟩
  exact ⟨fun same => numbers.mp (congrArg _ same),
    fun same => congrArg FileHandle.mk (numbers.mpr same)⟩

/-- The remembering store gives out the files that it answers with, whatever it is asked. -/
theorem questioned_issuing (facts : FileFacts) :
    facts.questioned.Issuing (StateT FileMemo (FileFacts.Given facts)) where
  directory? {state} path := by
    rintro ⟨queries, same⟩
    obtain ⟨memo, ⟨⟩⟩ := state
    obtain rfl : _ = memo := same
    refine ⟨⟨queries ++ [.directory path], ?_⟩, exchange_keeps queries (.directory path), trivial⟩
    rw [converse_snoc]
    rfl
  file? {state} holder name := by
    rintro ⟨queries, same⟩
    obtain ⟨memo, ⟨⟩⟩ := state
    obtain rfl : _ = memo := same
    refine ⟨⟨queries ++ [.file holder name], ?_⟩, exchange_keeps queries (.file holder name), ?_⟩
    · rw [converse_snoc]
      rfl
    · intro file answered
      obtain ⟨tracks, -, -⟩ := (converse_tracks facts queries).ask_file holder name
      have same : (askedFile facts (converse facts queries).1 holder name).1 = some file := answered
      rw [same] at tracks
      exact tracks.has_answer (List.mem_append_right _ (List.mem_singleton_self _))
  directoryPath directory sound := ⟨sound, .refl _, trivial⟩

/-- The remembering store has the paths that the handles of files stand for. -/
theorem questioned_tells (facts : FileFacts) :
    facts.questioned.TellsPaths (StateT FileMemo (FileFacts.Given facts)) := fun sound stands =>
  ⟨sound, .refl _, filePath_of_stands stands⟩

end FileMemo

section Finding

variable {m : Type → Type} [Monad m] [FileStore m]

namespace SearchList

variable (list : SearchList)

/-- What a use of a list finds, with the item that reports it. Only a lookup over the list is
    reported. -/
def findBy : Use → StateT SearchMemo m (List (FoundHeader × Item))
  | .call (.resolve name kind includer want) => do
    match ← list.resolve name kind includer want with
    | none => return []
    | some header =>
      let item ← Item.ofLookup name kind (some header)
      return [(header, item)]
  | use => do
    list.use use
    return []

/-- What some uses of a list find, in their order, with the items. -/
def findAll : List Use → StateT SearchMemo m (List (FoundHeader × Item))
  | [] => return []
  | use :: uses => do
    let found ← list.findBy use
    let others ← findAll uses
    return found ++ others

end SearchList

end Finding

/-- A header that was found is reported under the path that its handle stands for. -/
def Naming.ReportsPath (naming : Naming) (found : FoundHeader × Item) : Prop :=
  ∃ path, naming.FileAt found.1.file path ∧ found.2.path = some path.shown

theorem Naming.ReportsPath.keep {before after : Naming} {found : FoundHeader × Item}
    (reports : before.ReportsPath found) (keeps : before.Keeps after) :
    after.ReportsPath found := by
  obtain ⟨path, stands, shown⟩ := reports
  exact ⟨path, keeps.file stands, shown⟩

namespace Reading

variable {ω : Type} {m : Type → Type} [Monad m] [Runs m ω] [FileStore m]
variable {reading : Reading ω} {state : ω} {list : SearchList} {memoState : SearchMemo × ω}

/-- Building a list after some questions leaves the store sound. -/
theorem build_after_sound (issuing : reading.Issuing m) (earlier : List Query) (config : Config)
    (maps : HeaderMapSet) (sound : reading.sound state) :
    reading.Yields (config.buildAfter earlier maps : m _) state fun _ _ => True :=
  (ask_all_sound issuing earlier sound).bind fun _ _ sound _ _ => build_sound issuing config sound

/-- The item of a header that was found has the path that the handle of its file stands for. -/
theorem item_reports (tells : reading.TellsPaths m) (name : String) (kind : IncludeKind)
    {header : FoundHeader} (sound : reading.sound state)
    (given : (reading.naming state).Has header.file) :
    reading.Yields (Item.ofLookup name kind (some header) : m Item) state
      fun after item => (reading.naming after).ReportsPath (header, item) := by
  obtain ⟨path, stands⟩ := given
  unfold Item.ofLookup
  refine (tells sound stands).bind fun found after sound keeps same => ?_
  exact .of_pure sound ⟨path, keeps.file stands, by rw [same]; rfl⟩

variable [LawfulMonad m]

/-- Whatever a use finds is reported under its path. -/
theorem find_by_reports (issuing : reading.Issuing m) (tells : reading.TellsPaths m) (use : Use)
    (sound : reading.recalling.sound memoState) :
    reading.recalling.Yields
      (list.findBy use : StateT SearchMemo m (List (FoundHeader × Item))) memoState
      fun after found => ∀ pair ∈ found, (reading.naming after.2).ReportsPath pair := by
  cases use with
  | question query =>
    refine (ask_sound issuing.recalling query sound).bind fun _ after sound _ _ => ?_
    exact .of_pure sound (by simp)
  | call call =>
    cases call with
    | lookup index name want =>
      have performed : reading.recalling.Yields
          (list.perform (.lookup index name want) : StateT SearchMemo m Unit) memoState
          fun _ _ => True :=
        (lookup_in_sound issuing index name want sound).bind fun _ _ sound _ _ =>
          .of_pure sound trivial
      exact performed.bind fun _ after sound _ _ => .of_pure sound (by simp)
    | resolve name kind includer want =>
      refine (resolve_issued issuing name kind includer want sound).bind
        fun found after sound _ given => ?_
      split
      · exact .of_pure sound (by simp)
      · next header =>
        refine (item_reports tells.recalling name kind sound (given header rfl)).bind
          fun item last sound _ reports => ?_
        refine .of_pure sound fun pair member => ?_
        obtain rfl := List.mem_singleton.mp member
        exact reports

/-- Whatever some uses find is reported under its path. Induct on the uses. -/
theorem find_all_reports (issuing : reading.Issuing m) (tells : reading.TellsPaths m)
    (uses : List Use) (sound : reading.recalling.sound memoState) :
    reading.recalling.Yields
      (list.findAll uses : StateT SearchMemo m (List (FoundHeader × Item))) memoState
      fun after found => ∀ pair ∈ found, (reading.naming after.2).ReportsPath pair := by
  induction uses generalizing memoState with
  | nil => exact .of_pure sound (by simp)
  | cons use uses inductionHypothesis =>
    refine (find_by_reports issuing tells use sound).bind fun found between sound _ first => ?_
    refine (inductionHypothesis sound).bind fun others after sound keeps rest => ?_
    refine .of_pure sound fun pair member => ?_
    rcases List.mem_append.mp member with before | later
    · exact (first pair before).keep keeps
    · exact rest pair later

end Reading

namespace SearchList

/-- Reported paths identify files. Take any list that is built over the remembering store of a file
    system, the store having been asked anything before, and any uses of the list and its store. A
    header that they find has a file that the file system locates, and is reported under the path of
    that file. Two headers that they find have one handle exactly if the paths of their files are
    the same. Headers with one handle are reported under one path, and headers that are reported
    under one path have one handle, unless the path of one of them has a backslash. Paths are texts, so
    nothing is said of files whose names are not UTF-8. -/
theorem reported_paths_identify_files {facts : FileFacts} {config : Config} {maps : HeaderMapSet}
    {earlier : List Query} {uses : List Use} {list : SearchList} {files after : FileMemo}
    {memo : SearchMemo} {found : List (FoundHeader × Item)}
    (built : ((config.buildAfter earlier maps : StateT FileMemo (FileFacts.Given facts) _).run
      .fresh).result = (.ok list, files))
    (used : (((list.findAll uses :
      StateT SearchMemo (StateT FileMemo (FileFacts.Given facts)) _).run .fresh).run files).result =
        ((found, memo), after)) :
    ∀ one ∈ found,
      (∃ origin, facts.located? origin .regular = some (after.filePath one.1.file)) ∧
      one.2.path = some (after.filePath one.1.file).shown ∧
      ∀ other ∈ found,
        (one.1.file = other.1.file ↔
          (after.filePath one.1.file).components = (after.filePath other.1.file).components) ∧
        (one.1.file = other.1.file → one.2.path = other.2.path) ∧
        (one.2.path = other.2.path → one.1.file = other.1.file ∨
          '\\' ∈ (after.filePath one.1.file).text.toList ∨
          '\\' ∈ (after.filePath other.1.file).text.toList) := by
  have issuing := FileMemo.questioned_issuing facts
  have ran : Runs.run (config.buildAfter earlier maps : StateT FileMemo (FileFacts.Given facts) _)
      (FileMemo.fresh, ()) = (.ok list, files, ()) :=
    congrArg (fun ended => (ended.1, ended.2, ())) built
  have new : facts.questioned.sound (FileMemo.fresh, ()) := ⟨[], rfl⟩
  obtain ⟨sound, -, -⟩ := Reading.build_after_sound issuing earlier config maps new
  rw [ran] at sound
  have ranUses : Runs.run (list.findAll uses :
      StateT SearchMemo (StateT FileMemo (FileFacts.Given facts)) _)
      (SearchMemo.fresh, files, ()) = (found, memo, after, ()) :=
    congrArg (fun ended => (ended.1.1, ended.1.2, ended.2, ())) used
  have recalling : facts.questioned.recalling.sound (SearchMemo.fresh, files, ()) :=
    ⟨sound, SearchMemo.Records.fresh _⟩
  have reporting : facts.questioned.recalling.Yields (list.findAll uses :
      StateT SearchMemo (StateT FileMemo (FileFacts.Given facts)) _) (SearchMemo.fresh, files, ())
      fun after found => ∀ pair ∈ found,
        (facts.questioned.naming after.2).ReportsPath pair :=
    Reading.find_all_reports issuing (FileMemo.questioned_tells facts) uses recalling
  obtain ⟨⟨⟨queries, reached⟩, -⟩, -, reports⟩ := reporting
  rw [ranUses] at reached reports
  have ended : (FileMemo.converse facts queries).1 = after := reached
  have tracks := FileMemo.converse_tracks facts queries
  rw [ended] at tracks
  intro one member
  obtain ⟨path, stands, shown⟩ := reports one member
  obtain rfl := FileMemo.filePath_of_stands stands
  refine ⟨tracks.located_file ⟨_, stands⟩, shown, fun other memberOther => ?_⟩
  obtain ⟨path, standsOther, shownOther⟩ := reports other memberOther
  obtain rfl := FileMemo.filePath_of_stands standsOther
  have identified := tracks.same_file_iff ⟨_, stands⟩ ⟨_, standsOther⟩
  refine ⟨identified, fun same => by rw [shown, shownOther, same], fun same => ?_⟩
  rw [shown, shownOther] at same
  -- Without backslashes the shown paths are the texts themselves.
  by_cases plain : '\\' ∈ (after.filePath one.1.file).text.toList
  · exact .inr (.inl plain)
  · by_cases plainOther : '\\' ∈ (after.filePath other.1.file).text.toList
    · exact .inr (.inr plainOther)
    · have texts := Option.some.inj same
      rw [Path.shown_eq_text plain, Path.shown_eq_text plainOther] at texts
      exact .inl (identified.mpr (congrArg Path.components (congrArg Path.mk texts)))

/-- A file system with two directories, with a header of one name in each of them. -/
def twoDirectories : FileFacts :=
  .listing [⟨"/inc"⟩, ⟨"/lib"⟩] [⟨"/inc/a.h"⟩, ⟨"/inc/b.h"⟩, ⟨"/lib/a.h"⟩]

/-- A configuration with both directories. -/
def bothDirectories : Config where
  entries := [{ location := .directory ⟨"/inc"⟩ }, { location := .directory ⟨"/lib"⟩ }]

/-- A header is found through an entry, and another one of its name beside an including file. They
    are reported under different paths. -/
theorem headers_of_one_name_are_told_apart :
    ∃ list files memo after one other,
      ((bothDirectories.buildAfter [.file ⟨0⟩ "b.h"] .empty :
        StateT FileMemo (FileFacts.Given twoDirectories) _).run .fresh).result = (.ok list, files) ∧
      (((list.findAll [.call (.resolve "a.h" .angled none .all),
        .call (.resolve "a.h" .quoted (some ⟨⟨1⟩, .user⟩) .none)] :
          StateT SearchMemo (StateT FileMemo (FileFacts.Given twoDirectories)) _).run .fresh).run
            files).result = (([one, other], memo), after) ∧
      one.1.file ≠ other.1.file ∧ one.2.path = some "/inc/a.h" ∧ one.2.path ≠ other.2.path := by
  obtain ⟨list, files, memo, after, one, other, built, used, apart, path, pathOther⟩ :
      ∃ list files memo after one other,
        ((bothDirectories.buildAfter [.file ⟨0⟩ "b.h"] .empty :
          StateT FileMemo (FileFacts.Given twoDirectories) _).run .fresh).result =
            (.ok list, files) ∧
        (((list.findAll [.call (.resolve "a.h" .angled none .all),
          .call (.resolve "a.h" .quoted (some ⟨⟨1⟩, .user⟩) .none)] :
            StateT SearchMemo (StateT FileMemo (FileFacts.Given twoDirectories)) _).run .fresh).run
              files).result = (([one, other], memo), after) ∧
        one.1.file ≠ other.1.file ∧
        after.filePath one.1.file = ⟨"/inc/a.h"⟩ ∧ after.filePath other.1.file = ⟨"/lib/a.h"⟩ :=
    ⟨⟨_, _, _⟩, _, _, _, _, _, rfl, rfl, by decide, rfl, rfl⟩
  obtain ⟨-, shown, identified⟩ := reported_paths_identify_files built used one (by simp)
  obtain ⟨-, -, told⟩ := identified other (by simp)
  rw [path] at shown
  rw [path, pathOther] at told
  refine ⟨list, files, memo, after, _, _, built, used, apart, shown, fun paths => ?_⟩
  exact (told paths).elim apart fun backslash => absurd backslash (by decide)

/-- A file system with a header whose name has a backslash, and one in a directory. -/
def backslashAndDirectory : FileFacts :=
  .listing [⟨"/inc"⟩, ⟨"/inc/a"⟩] [⟨"/inc/a\\b.h"⟩, ⟨"/inc/a/b.h"⟩]

/-- Two headers are reported under one path. -/
theorem backslash_is_reported_as_separator :
    ∃ list files memo after one other,
      ((bothDirectories.buildAfter [] .empty :
        StateT FileMemo (FileFacts.Given backslashAndDirectory) _).run .fresh).result =
          (.ok list, files) ∧
      (((list.findAll [.call (.resolve "a\\b.h" .angled none .all),
        .call (.resolve "a/b.h" .angled none .all)] :
          StateT SearchMemo (StateT FileMemo (FileFacts.Given backslashAndDirectory)) _).run
            .fresh).run files).result = (([one, other], memo), after) ∧
      after.filePath one.1.file = ⟨"/inc/a\\b.h"⟩ ∧ after.filePath other.1.file = ⟨"/inc/a/b.h"⟩ ∧
      one.1.file ≠ other.1.file ∧
      one.2.path = some "/inc/a/b.h" ∧ other.2.path = some "/inc/a/b.h" :=
  ⟨⟨_, _, _⟩, _, _, _, _, _, rfl, rfl, by decide, by decide, by decide, rfl, rfl⟩

end SearchList

end HeaderSearch
