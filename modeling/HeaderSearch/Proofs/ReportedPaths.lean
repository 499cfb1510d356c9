import HeaderSearch.Proofs.VouchedLookups
import HeaderSearch.Proofs.WrittenPaths

/-!
# Reported paths

A header is reported with a search path and a relative path. Written one below the other they name the
file that was found, for every list over the remembering store and whatever was done with the two before,
as long as the relative path does not start at the root: such a name leaves the directory that it is
looked for in, and the file is reported below a directory that it has nothing to do with. The search
path shows every backslash as `/`, so that it names a directory with a backslash in its path no more.
-/

namespace HeaderSearch

/-- Something that is done before a lookup: a call on the list, or a question to its store that anyone
    asks. -/
inductive Use where
  /-- A call on the list. -/
  | call (call : SearchCall)
  /-- A question to the store. -/
  | question (query : Query)
deriving DecidableEq, Repr

section Using

variable {m : Type → Type} [Monad m] [FileStore m]

namespace Query

/-- Asks a question and drops its answer. -/
def ask : Query → m Unit
  | .directory path => do
    let _ ← FileStore.directory? path
    return ()
  | .file holder name => do
    let _ ← FileStore.file? holder name
    return ()

/-- Asks questions in their order. -/
def askAll : List Query → m Unit
  | [] => return ()
  | query :: queries => do
    query.ask
    askAll queries

end Query

/-- Builds a list over a store that was asked questions before. -/
def Config.buildAfter (earlier : List Query) (config : Config) (maps : HeaderMapSet) :
    m (Except BuildError SearchList) := do
  Query.askAll earlier
  config.build maps

namespace SearchList

variable (list : SearchList)

/-- Does something with the list or its store. -/
def use : Use → StateT SearchMemo m Unit
  | .call call => list.perform call
  | .question query => query.ask

/-- Does things with the list and its store in their order. -/
def useAll : List Use → StateT SearchMemo m Unit
  | [] => return ()
  | use :: uses => do
    list.use use
    useAll uses

/-- Looks a name up with both texts, after the list and its store were used. -/
def findAfter (uses : List Use) (name : String) (kind : IncludeKind) (includer : Option Includer) :
    StateT SearchMemo m (Option FoundHeader) := do
  list.useAll uses
  list.resolve name kind includer .all

end SearchList

end Using

namespace Reading

variable {ω : Type} {m : Type → Type} [Monad m] [Runs m ω] [FileStore m]
variable {reading : Reading ω} {facts : FileFacts} {state : ω} {list : SearchList}
variable {entries : List ConfigEntry} {memoState : SearchMemo × ω}

/-- A question leaves the store sound. -/
theorem ask_sound (issuing : reading.Issuing m) (query : Query) (sound : reading.sound state) :
    reading.Yields (query.ask : m Unit) state fun _ _ => True := by
  cases query with
  | directory path =>
    refine (issuing.directory? path sound).bind fun _ after sound _ _ => ?_
    exact .of_pure sound trivial
  | file directory name =>
    refine (issuing.file? directory name sound).bind fun _ after sound _ _ => ?_
    exact .of_pure sound trivial

/-- Questions leave the store sound. Induct on the questions. -/
theorem ask_all_sound (issuing : reading.Issuing m) (queries : List Query)
    (sound : reading.sound state) :
    reading.Yields (Query.askAll queries : m Unit) state fun _ _ => True := by
  induction queries generalizing state with
  | nil => exact .of_pure sound trivial
  | cons query queries inductionHypothesis =>
    exact (ask_sound issuing query sound).bind fun _ _ sound _ _ => inductionHypothesis sound

/-- A list that is built after any questions looks into what the configuration configures. -/
theorem build_after_vouched (truthful : reading.Truthful m facts) (earlier : List Query)
    (config : Config) (maps : HeaderMapSet) (sound : reading.sound state) :
    reading.Yields (config.buildAfter earlier maps : m _) state fun after outcome =>
      ∀ list, outcome = .ok list → (reading.naming after).ListFrom facts config.entries list :=
  (ask_all_sound truthful.issuing earlier sound).bind fun _ _ sound _ _ =>
    build_vouched truthful config sound

variable [LawfulMonad m]

/-- A use leaves the memo trusted. -/
theorem use_trusted (truthful : reading.Truthful m facts) (use : Use)
    (built : (reading.naming memoState.2).ListFrom facts entries list)
    (sound : (reading.trusting facts list).sound memoState) :
    (reading.trusting facts list).Yields (list.use use : StateT SearchMemo m Unit) memoState
      fun _ _ => True := by
  cases use with
  | call call => exact perform_trusted truthful call built sound
  | question query => exact ask_sound (truthful.trusting list).issuing query sound

/-- Uses leave the memo trusted. Induct on the uses. -/
theorem use_all_trusted (truthful : reading.Truthful m facts) (uses : List Use)
    (built : (reading.naming memoState.2).ListFrom facts entries list)
    (sound : (reading.trusting facts list).sound memoState) :
    (reading.trusting facts list).Yields (list.useAll uses : StateT SearchMemo m Unit) memoState
      fun _ _ => True := by
  induction uses generalizing memoState with
  | nil => exact .of_pure sound trivial
  | cons use uses inductionHypothesis =>
    exact (use_trusted truthful use built sound).bind fun _ _ sound keeps _ =>
      inductionHypothesis (built.keep keeps) sound

/-- What is found after any uses is reported. -/
theorem find_after_reports (truthful : reading.Truthful m facts) (uses : List Use) (name : String)
    (kind : IncludeKind) (includer : Option Includer)
    (built : (reading.naming memoState.2).ListFrom facts entries list)
    (sound : (reading.trusting facts list).sound memoState) :
    (reading.trusting facts list).Yields
      (list.findAfter uses name kind includer : StateT SearchMemo m (Option FoundHeader)) memoState
      fun after found => (reading.naming after.2).ListFrom facts entries list ∧
        ∀ header ∈ found, (reading.naming after.2).Reports facts list name includer header := by
  refine (use_all_trusted truthful uses built sound).bind fun _ used sound keeps _ => ?_
  refine (resolve_vouched truthful name kind includer .all (built.keep keeps) sound).weaken
    fun found after further reports => ?_
  exact ⟨(built.keep keeps).keep further, reports rfl⟩

end Reading

namespace FoundHeader

/-- A header is reported with a directory and a part below it, which lead to a file: written one below
    the other, unless the part starts at the root. -/
structure ReportedAt (header : FoundHeader) (facts : FileFacts) (directory : Path) (part : String)
    (file : Path) : Prop where
  searchPath : header.searchPath = some directory.shown
  relativePath : header.relativePath = some part
  /-- The two reported texts name the file. -/
  written : part.toList.head? ≠ some '/' → '\\' ∉ directory.text.toList →
    facts.NamesFile (directory.shown ++ "/" ++ part) file
  /-- With the text of the directory instead of the shown one, backslashes do not matter. -/
  below : part.toList.head? ≠ some '/' → facts.NamesFile (directory.text ++ "/" ++ part) file
  /-- A part that starts at the root names the file itself. -/
  away : part.toList.head? = some '/' → facts.NamesFile part file

/-- The directory and the part of a name with which a header is to be reported, by what led to it: the
    directory of the including file or of an entry and the whole name, or a header directory of a
    framework and the rest of the name. -/
inductive SoughtBelow (header : FoundHeader) (facts : FileFacts) (config : Config)
    (list : SearchList) (files : FileMemo) (name : String) (includer : Option Includer) :
    Path → String → Prop where
  | includer {beside : Includer} (origin : header.origin = .includer)
      (given : includer = some beside) :
      SoughtBelow header facts config list files name includer (files.directoryPath beside.directory)
        name
  | directory {index : Nat} {entry : SearchEntry} {handle : DirHandle} {configured : String}
      {item : ConfigEntry} {path : Path} (origin : header.origin = .entry index)
      (here : list.entries[index]? = some entry) (place : entry.place = .directory handle configured)
      (member : item ∈ config.entries) (location : item.location = .directory path) :
      SoughtBelow header facts config list files name includer path name
  | framework {index : Nat} {entry : SearchEntry} {handle : DirHandle}
      {configured owner rest part : String} {item : ConfigEntry} {path headers : Path}
      (origin : header.origin = .entry index) (here : list.entries[index]? = some entry)
      (place : entry.place = .framework handle configured) (member : item ∈ config.entries)
      (location : item.location = .framework path)
      (split : Framework.splitName? name = some (owner, rest))
      (named : part ∈ ["Headers", "PrivateHeaders"])
      (located : facts.located?
        ⟨path.text ++ "/" ++ (Framework.bundleName owner ++ "/" ++ part)⟩ .directory = some headers)
      (held : rest.toList.head? ≠ some '/' → facts.NamesFile
        (path.text ++ "/" ++ (Framework.bundleName owner ++ "/" ++ part) ++ "/" ++ rest)
        (files.filePath header.file)) :
      SoughtBelow header facts config list files name includer headers rest

end FoundHeader

namespace FileMemo

variable {memo : FileMemo} {facts : FileFacts}

/-- The path that a handle stands for is that of a directory, and canonical. -/
theorem Truthful.located (truthful : memo.Truthful facts) (coherent : facts.Coherent)
    (walked : facts.Walked) {handle : DirHandle} {base : Path}
    (stands : memo.naming.DirectoryAt handle base) :
    facts.located? base .directory = some base := by
  obtain ⟨origin, located⟩ :=
    truthful.directories base (List.mem_of_getElem? (directoryAt_iff.1 stands))
  exact walked.located coherent located

end FileMemo

namespace FoundHeader

variable {facts : FileFacts} {header : FoundHeader}

/-- A header is reported with a path of the directory that holds its file. -/
theorem ReportedAt.of_held (coherent : facts.Coherent) (walked : facts.Walked)
    {directory base file : Path} {part : String} (searchPath : header.searchPath = some directory.shown)
    (relativePath : header.relativePath = some part)
    (located : facts.located? directory .directory = some base)
    (held : facts.located? (base.join part) .regular = some file) :
    header.ReportedAt facts directory part file where
  searchPath := searchPath
  relativePath := relativePath
  written relative plain := by
    rw [Path.shown_eq_text plain]
    exact walked.names_below coherent located held relative
  below relative := walked.names_below coherent located held relative
  away absolute := coherent.names_away held absolute

/-- The header directory of a framework below a configured directory is what its path below that
    locates. -/
theorem located_headers (coherent : facts.Coherent) (walked : facts.Walked)
    {path root : Path} {name owner rest part : String}
    (split : Framework.splitName? name = some (owner, rest))
    (named : part ∈ ["Headers", "PrivateHeaders"])
    (located : facts.located? path .directory = some root) (wanted : FileKind) :
    facts.located? ⟨path.text ++ "/" ++ (Framework.bundleName owner ++ "/" ++ part)⟩ wanted =
      facts.located? ((root.join (Framework.bundleName owner)).join part) wanted := by
  obtain ⟨-, inside, owned, -⟩ := Framework.splitName?_eq_some_iff.1 split
  have bundled : Framework.bundleName owner ≠ "" := by
    intro empty
    simpa [Framework.bundleName] using congrArg String.toList empty
  have relative : (Framework.bundleName owner).toList.head? ≠ some '/' := by
    rw [Framework.bundleName, Text.head_append owned]
    exact fun first => inside (List.mem_of_head? first)
  have ends : (Framework.bundleName owner).toList.getLast? = some 'k' := by
    rw [Framework.bundleName, String.toList_append, List.getLast?_append]
    rfl
  have partRelative : part.toList.head? ≠ some '/' := by
    rcases List.mem_pair.1 named with rfl | rfl <;> decide
  rw [Path.join_join root ends (by decide) relative partRelative]
  refine walked.located_below coherent located ?_ wanted
  rwa [String.append_assoc, Text.head_append bundled]

/-- Whatever is reported after a list was built and used over a truthful store is reported below what it
    was sought in, by what led to it. A header map is not a directory, so nothing is said about it. -/
theorem sought_below (coherent : facts.Coherent) (walked : facts.Walked) {config : Config}
    {list : SearchList} {files : FileMemo} {name : String} {includer : Option Includer}
    (truthful : files.Truthful facts)
    (listed : files.naming.ListFrom facts config.entries list)
    (reports : files.naming.Reports facts list name includer header)
    (ordinary : ∀ index entry, header.origin = .entry index → list.entries[index]? = some entry →
      ∀ map isIndex, entry.place ≠ .headerMap map isIndex) :
    ∃ directory part,
      header.SoughtBelow facts config list files name includer directory part ∧
      header.ReportedAt facts directory part (files.filePath header.file) := by
  cases reports with
  | includer given origin stands searchPath relativePath holds =>
    obtain ⟨base, file, standsBase, standsFile, held⟩ := holds
    obtain rfl := stands.unique standsBase
    refine ⟨_, _, .includer origin given, ?_⟩
    rw [FileMemo.directoryPath_of_stands stands, FileMemo.filePath_of_stands standsFile]
    exact .of_held coherent walked searchPath relativePath
      (truthful.located coherent walked stands) held
  | directory origin here place searchPath relativePath holds =>
    obtain ⟨base, file, standsBase, standsFile, held⟩ := holds
    have configures := listed _ (List.mem_of_getElem? here)
    rw [place] at configures
    cases configures with
    | directory member location locates =>
      obtain ⟨root, stands, located⟩ := locates
      obtain rfl := stands.unique standsBase
      refine ⟨_, _, .directory origin here place member location, ?_⟩
      rw [FileMemo.filePath_of_stands standsFile]
      exact .of_held coherent walked searchPath relativePath located held
  | framework origin here place split named headersOf stands searchPath relativePath holds =>
    obtain ⟨base, file, standsBase, standsFile, held⟩ := holds
    obtain rfl := stands.unique standsBase
    have configures := listed _ (List.mem_of_getElem? here)
    rw [place] at configures
    cases configures with
    | framework member location locates =>
      obtain ⟨root, standsRoot, located⟩ := locates
      obtain ⟨above, standsAbove, headers, standsHeaders, locatedHeaders⟩ := headersOf
      obtain rfl := standsRoot.unique standsAbove
      obtain rfl := stands.unique standsHeaders
      -- The store looked below the canonical path, the report is read below the configured one.
      have below := (located_headers coherent walked split named located .directory).trans
        locatedHeaders
      rw [FileMemo.filePath_of_stands standsFile]
      refine ⟨_, _, .framework origin here place member location split named below ?_, ?_⟩
      · intro relative
        rw [FileMemo.filePath_of_stands standsFile]
        exact walked.names_below coherent below held relative
      · exact .of_held coherent walked searchPath relativePath
          (truthful.located coherent walked stands) held
  | headerMap origin here place => exact absurd place (ordinary _ _ origin here _ _)

end FoundHeader

namespace SearchList

variable {facts : FileFacts}

/-- What is found in a list is where it is reported. Take any list that is built over the remembering
    store of a coherent file system that walks paths part by part, the store having been asked anything
    before, and any lookup with both texts after any uses of the list and its store. If it finds a header
    beside the including file or through an entry that is not a header map, the search path is that of
    the directory that the header is sought below, the relative path is the part of the name that leads
    on from there, and the two, written one below the other, name the file of the answer. A header of a
    framework is also the file below the configured directory that its name stands for. Excepted are
    parts that start at the root, which name the file without the directory, and, for the shown text,
    directories with a backslash in their path. Paths are texts, so nothing is said of files whose names
    are not UTF-8. -/
theorem reported_paths_lead_to_found_files (coherent : facts.Coherent) (walked : facts.Walked)
    {config : Config} {maps : HeaderMapSet} {earlier : List Query} {uses : List Use}
    {list : SearchList} {files after : FileMemo} {name : String} {kind : IncludeKind}
    {includer : Option Includer} {header : FoundHeader} {memo : SearchMemo}
    (built : ((config.buildAfter earlier maps : StateT FileMemo (FileFacts.Given facts) _).run
      .fresh).result = (.ok list, files))
    (found : (((list.findAfter uses name kind includer :
      StateT SearchMemo (StateT FileMemo (FileFacts.Given facts)) _).run .fresh).run files).result =
        ((some header, memo), after))
    (ordinary : ∀ index entry, header.origin = .entry index → list.entries[index]? = some entry →
      ∀ map isIndex, entry.place ≠ .headerMap map isIndex) :
    ∃ directory part,
      header.SoughtBelow facts config list after name includer directory part ∧
      header.ReportedAt facts directory part (after.filePath header.file) := by
  have truthful := FileFacts.truths_truthful coherent
  have ran : Runs.run (config.buildAfter earlier maps : StateT FileMemo (FileFacts.Given facts) _)
      (FileMemo.fresh, ()) = (.ok list, files, ()) :=
    congrArg (fun ended => (ended.1, ended.2, ())) built
  have new : facts.truths.sound (FileMemo.fresh, ()) := FileMemo.Truthful.fresh
  obtain ⟨sound, -, listed⟩ := Reading.build_after_vouched truthful earlier config maps new
  rw [ran] at sound listed
  have looked : Runs.run (list.findAfter uses name kind includer :
      StateT SearchMemo (StateT FileMemo (FileFacts.Given facts)) _)
      (SearchMemo.fresh, files, ()) = (some header, memo, after, ()) :=
    congrArg (fun ended => (ended.1.1, ended.1.2, ended.2, ())) found
  have trusted : (facts.truths.trusting facts list).sound (SearchMemo.fresh, files, ()) :=
    ⟨sound, .fresh⟩
  obtain ⟨soundAfter, -, listedAfter, reports⟩ :=
    Reading.find_after_reports truthful uses name kind includer (listed list rfl) trusted
  rw [looked] at soundAfter listedAfter reports
  exact FoundHeader.sought_below coherent walked soundAfter.1 listedAfter (reports header rfl)
    ordinary

/-- A file system with a framework and with two headers of one name, in the framework and at the root. -/
def twoPlaces : FileFacts :=
  .listing [⟨"/fw"⟩, ⟨"/fw/W.framework"⟩, ⟨"/fw/W.framework/Headers"⟩]
    [⟨"/fw/W.framework/Headers/x.h"⟩, ⟨"/x.h"⟩]

/-- A configuration with the directory of the framework. -/
def oneFramework : Config where
  entries := [{ location := .framework ⟨"/fw/"⟩ }]

/-- The header of the framework is found and reported below the header directory of the framework, by
    a store that was asked for the directory by another spelling and used after the list was built. -/
theorem header_of_framework_is_reported_below_it :
    ∃ list files header memo after,
      ((oneFramework.buildAfter [.directory ⟨"/fw/."⟩] .empty :
        StateT FileMemo (FileFacts.Given twoPlaces) _).run .fresh).result = (.ok list, files) ∧
      (((list.findAfter [.call (.lookup 0 "W/x.h" .none), .question (.file ⟨7⟩ "x.h")] "W/x.h" .angled
        none : StateT SearchMemo (StateT FileMemo (FileFacts.Given twoPlaces)) _).run .fresh).run
          files).result = ((some header, memo), after) ∧
      ∃ directory part,
        header.SoughtBelow twoPlaces oneFramework list after "W/x.h" none directory part ∧
        header.ReportedAt twoPlaces directory part (after.filePath header.file) := by
  obtain ⟨list, files, header, memo, after, built, found, places⟩ :
      ∃ list files header memo after,
        ((oneFramework.buildAfter [.directory ⟨"/fw/."⟩] .empty :
          StateT FileMemo (FileFacts.Given twoPlaces) _).run .fresh).result = (.ok list, files) ∧
        (((list.findAfter [.call (.lookup 0 "W/x.h" .none), .question (.file ⟨7⟩ "x.h")] "W/x.h"
          .angled none : StateT SearchMemo (StateT FileMemo (FileFacts.Given twoPlaces)) _).run
            .fresh).run files).result = ((some header, memo), after) ∧
        list.entries.map SearchEntry.place = [.framework ⟨0⟩ "/fw/"] :=
    ⟨⟨_, _, _⟩, _, ⟨_, _, _, _, _, _⟩, _, _, rfl, rfl, rfl⟩
  have ordinary : ∀ index entry, header.origin = .entry index → list.entries[index]? = some entry →
      ∀ map isIndex, entry.place ≠ .headerMap map isIndex := by
    intro index entry _ here map isIndex place
    have member := List.mem_map_of_mem (f := SearchEntry.place) (List.mem_of_getElem? here)
    rw [places, place] at member
    cases List.mem_singleton.1 member
  have walked : twoPlaces.Walked := FileFacts.listing_walked _ (by decide)
  exact ⟨list, files, header, memo, after, built, found, reported_paths_lead_to_found_files
    (FileFacts.listing_coherent _ _) walked built found ordinary⟩

/-- A name whose rest starts at the root is found through the framework, but at the root. Written below
    the reported directory its rest names the other header. -/
theorem rest_from_root_leaves_framework :
    ∃ list files header memo after,
      ((oneFramework.buildAfter [] .empty :
        StateT FileMemo (FileFacts.Given twoPlaces) _).run .fresh).result = (.ok list, files) ∧
      (((list.findAfter [] "W//x.h" .angled none :
        StateT SearchMemo (StateT FileMemo (FileFacts.Given twoPlaces)) _).run .fresh).run
          files).result = ((some header, memo), after) ∧
      header.origin = .entry 0 ∧ list.entries.map SearchEntry.place = [.framework ⟨0⟩ "/fw/"] ∧
      header.searchPath = some "/fw/W.framework/Headers" ∧ header.relativePath = some "/x.h" ∧
      after.filePath header.file = ⟨"/x.h"⟩ ∧
      ¬twoPlaces.NamesFile ("/fw/W.framework/Headers" ++ "/" ++ "/x.h") ⟨"/x.h"⟩ ∧
      twoPlaces.NamesFile ("/fw/W.framework/Headers" ++ "/" ++ "/x.h")
        ⟨"/fw/W.framework/Headers/x.h"⟩ :=
  ⟨⟨_, _, _⟩, _, ⟨_, _, _, _, _, _⟩, _, _, rfl, rfl, rfl, rfl, rfl, rfl, rfl, by decide, by decide⟩

end SearchList

end HeaderSearch
