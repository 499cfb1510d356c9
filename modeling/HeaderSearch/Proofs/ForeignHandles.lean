import HeaderSearch.FileStore.View
import HeaderSearch.Proofs.FaithfulMemo

/-!
# Handles that were not given out

A handle is a number, and a store may be asked about one that it has not given out. Such a question
is early: it is answered with a miss, and the miss is remembered under the number. When the number
is given out to a directory later, the name that was asked for early stays a miss. Every other
answer about a directory that was given out is what the file system says, whatever was asked in
between: an early question hides one name in one directory and nothing else. The induction is on the
questions, and `Tracks` is what each of them keeps.
-/

namespace HeaderSearch.FileMemo

/-- One more question to the store, with any handle, and what the store then holds. -/
def exchange (facts : FileFacts) (state : FileMemo × List Exchange) :
    Query → FileMemo × List Exchange
  | .directory path =>
    let asked := askedDirectory facts state.1 path
    (asked.2, state.2 ++ [.directory path asked.1])
  | .file holder name =>
    let asked := askedFile facts state.1 holder name
    (asked.2, state.2 ++ [.file holder name asked.1])

/-- What a new store holds after some questions, and the exchanges. -/
def converse (facts : FileFacts) (queries : List Query) : FileMemo × List Exchange :=
  queries.foldl (exchange facts) (.fresh, [])

theorem converse_snoc (facts : FileFacts) (queries : List Query) (query : Query) :
    converse facts (queries ++ [query]) = exchange facts (converse facts queries) query := by
  rw [converse, List.foldl_append]
  rfl

/-- Some exchange asked for a name in a directory before its handle had been given out. -/
def AskedEarly (done : List Exchange) (holder : DirHandle) (name : String) : Prop :=
  ∃ before answer, before ++ [.file holder name answer] <+: done ∧ holder ∉ directoriesIssued before

section Exchanges

variable {done : List Exchange} {holder : DirHandle} {name : String}

/-- A question that was asked early was asked. -/
theorem AskedEarly.asked (early : AskedEarly done holder name) :
    ∃ answer, ((holder, name), answer) ∈ filesAsked done := by
  obtain ⟨before, answer, leads, -⟩ := early
  have member : .file holder name answer ∈ done :=
    leads.subset (List.mem_append_right before (List.mem_singleton_self _))
  exact ⟨answer, List.mem_filterMap.mpr ⟨_, member, rfl⟩⟩

/-- A question about a directory is never early. -/
theorem askedEarly_snoc_directory (done : List Exchange) (path : Path) (answer : Option DirHandle) :
    AskedEarly (done ++ [.directory path answer]) holder name ↔ AskedEarly done holder name := by
  simp only [AskedEarly, List.prefix_concat_iff]
  constructor
  · rintro ⟨before, found, last | leads, foreign⟩
    · simp at last
    · exact ⟨before, found, leads, foreign⟩
  · rintro ⟨before, found, leads, foreign⟩
    exact ⟨before, found, .inr leads, foreign⟩

/-- One more question about a file is early if its handle has not been given out yet. -/
theorem askedEarly_snoc_file (done : List Exchange) (asked : DirHandle) (wanted : String)
    (answer : Option FileHandle) :
    AskedEarly (done ++ [.file asked wanted answer]) holder name ↔
      AskedEarly done holder name ∨
        (holder = asked ∧ name = wanted) ∧ holder ∉ directoriesIssued done := by
  simp only [AskedEarly, List.prefix_concat_iff]
  constructor
  · rintro ⟨before, found, last | leads, foreign⟩
    · obtain ⟨rfl, same⟩ := List.append_inj' last rfl
      obtain ⟨rfl, rfl, -⟩ := Exchange.file.inj (List.singleton_inj.mp same)
      exact .inr ⟨⟨rfl, rfl⟩, foreign⟩
    · exact .inl ⟨before, found, leads, foreign⟩
  · rintro (⟨before, found, leads, foreign⟩ | ⟨⟨rfl, rfl⟩, foreign⟩)
    · exact ⟨before, found, .inr leads, foreign⟩
    · exact ⟨done, answer, .inl rfl, foreign⟩

end Exchanges

/-- A question about a file in a directory that is not listed is a miss, and remembered as one. -/
theorem asked_file_foreign {facts : FileFacts} {memo : FileMemo} {holder : DirHandle}
    {name : String} (unknown : memo.fileAnswers.get? (holder, name) = none)
    (foreign : ¬holder.number < memo.directories.length) :
    askedFile facts memo holder name =
      (none, { memo.countFile with
        fileAnswers := memo.fileAnswers.insert (holder, name) none }) := by
  have forgotten : memo.countFile.fileAnswers.get? (holder, name) = none := unknown
  have base : memo.countFile.directories[holder.number]? = none :=
    List.getElem?_eq_none (Nat.le_of_not_lt foreign)
  change (askFile holder name memo : FileFacts.Given facts _).result = _
  rw [askFile, forgotten, base]
  rfl

/-- What the store holds after some exchanges with any handles. -/
structure Tracks (memo : FileMemo) (facts : FileFacts) (done : List Exchange) : Prop where
  directories : Remembers DirHandle.number memo.directoryAnswers memo.directories
    (directoriesAsked done)
  files : Remembers FileHandle.number memo.fileAnswers memo.files (filesAsked done)
  /-- A remembered directory stands for what the file system has for a spelling of the path. -/
  directory {components : List Component} {answer : Option DirHandle} :
    memo.directoryAnswers.get? components = some answer →
      ∃ path : Path, path.components = components ∧
        Option.Rel (Names memo.directories) (answer.map DirHandle.number)
          (facts.located? path .directory)
  /-- A name that was asked for early is remembered as a miss. -/
  early {holder : DirHandle} {name : String} {answer : Option FileHandle} :
    memo.fileAnswers.get? (holder, name) = some answer → AskedEarly done holder name → answer = none
  /-- Any other remembered file stands for what the file system has for it. -/
  timely {holder : DirHandle} {name : String} {answer : Option FileHandle} :
    memo.fileAnswers.get? (holder, name) = some answer → ¬AskedEarly done holder name →
      holder.number < memo.directories.length ∧
        Option.Rel (Names memo.files) (answer.map FileHandle.number)
          (facts.located? ((memo.directoryPath holder).join name) .regular)
  /-- Whatever is listed as a file is one. -/
  located {path : Path} :
    path ∈ memo.files → ∃ origin, facts.located? origin .regular = some path

namespace Tracks

variable {memo : FileMemo} {facts : FileFacts} {done : List Exchange}

/-- Nothing is held before the first exchange. -/
theorem fresh (facts : FileFacts) : FileMemo.fresh.Tracks facts [] where
  directories := (Follows.fresh facts).directories
  files := (Follows.fresh facts).files
  directory known := by simp [FileMemo.fresh] at known
  early known := by simp [FileMemo.fresh] at known
  timely known := by simp [FileMemo.fresh] at known
  located member := by simp [FileMemo.fresh] at member

/-- The handles of directories that were given out are those of the listed paths. -/
theorem issued_iff (tracks : memo.Tracks facts done) {holder : DirHandle} :
    holder ∈ directoriesIssued done ↔ holder.number < memo.directories.length := by
  rw [← tracks.directories.numbered.mem_iff, directoriesIssued]
  constructor
  · exact List.mem_map_of_mem
  · intro member
    obtain ⟨other, given, same⟩ := List.mem_map.mp member
    obtain rfl : other = holder := congrArg DirHandle.mk same
    exact given

/-- One more exchange about a directory. -/
theorem add_directory (tracks : memo.Tracks facts done) {after : FileMemo} {path : Path}
    {answer : Option DirHandle} (files : after.files = memo.files)
    (fileAnswers : after.fileAnswers = memo.fileAnswers)
    (remembers : Remembers DirHandle.number after.directoryAnswers after.directories
      (directoriesAsked done ++ [(path.components, answer)]))
    (leads : memo.directories <+: after.directories)
    (stands : ∃ spelling : Path, spelling.components = path.components ∧
      Option.Rel (Names after.directories) (answer.map DirHandle.number)
        (facts.located? spelling .directory)) :
    after.Tracks facts (done ++ [.directory path answer]) where
  directories := by
    rw [directoriesAsked_snoc_directory]
    exact remembers
  files := by
    rw [filesAsked_snoc_directory, files, fileAnswers]
    exact tracks.files
  directory {components found} known := by
    rcases List.mem_append.mp (remembers.answers.mp known) with before | last
    · obtain ⟨spelling, same, names⟩ := tracks.directory (tracks.directories.answers.mpr before)
      exact ⟨spelling, same, related_grow names fun _ _ stands => stands.grow leads⟩
    · obtain ⟨rfl, rfl⟩ := Prod.mk.inj (List.mem_singleton.mp last)
      exact stands
  early known := by
    rw [askedEarly_snoc_directory]
    exact tracks.early (fileAnswers ▸ known)
  timely {holder name found} known := by
    rw [askedEarly_snoc_directory]
    intro timely
    obtain ⟨given, names⟩ := tracks.timely (fileAnswers ▸ known) timely
    have path : after.directoryPath holder = memo.directoryPath holder := listed_grow leads given _
    rw [path, files]
    exact ⟨given.trans_le leads.length_le, names⟩
  located member := tracks.located (files ▸ member)

/-- One more exchange about a file. -/
theorem add_file (tracks : memo.Tracks facts done) {after : FileMemo} {holder : DirHandle}
    {name : String} {answer : Option FileHandle}
    (directories : after.directories = memo.directories)
    (directoryAnswers : after.directoryAnswers = memo.directoryAnswers)
    (remembers : Remembers FileHandle.number after.fileAnswers after.files
      (filesAsked done ++ [((holder, name), answer)]))
    (leads : memo.files <+: after.files)
    (early : AskedEarly done holder name ∨ holder ∉ directoriesIssued done → answer = none)
    (timely : ¬AskedEarly done holder name → holder ∈ directoriesIssued done →
      Option.Rel (Names after.files) (answer.map FileHandle.number)
        (facts.located? ((memo.directoryPath holder).join name) .regular))
    (located : ∀ path ∈ after.files, ∃ origin, facts.located? origin .regular = some path) :
    after.Tracks facts (done ++ [.file holder name answer]) where
  directories := by
    rw [directoriesAsked_snoc_file, directories, directoryAnswers]
    exact tracks.directories
  files := by
    rw [filesAsked_snoc_file]
    exact remembers
  directory known := by
    rw [directories]
    exact tracks.directory (directoryAnswers ▸ known)
  early {other wanted found} known := by
    rw [askedEarly_snoc_file]
    intro foreign
    rcases List.mem_append.mp (remembers.answers.mp known) with before | last
    · have remembered := tracks.files.answers.mpr before
      by_cases askedBefore : AskedEarly done other wanted
      · exact tracks.early remembered askedBefore
      · -- What was remembered in time was asked of a listed directory, which is listed still.
        obtain ⟨-, notIssued⟩ := foreign.resolve_left askedBefore
        exact absurd (tracks.issued_iff.mpr (tracks.timely remembered askedBefore).1) notIssued
    · obtain ⟨same, rfl⟩ := Prod.mk.inj (List.mem_singleton.mp last)
      obtain ⟨rfl, rfl⟩ := Prod.mk.inj same
      exact early (foreign.imp_right And.right)
  timely {other wanted found} known := by
    rw [askedEarly_snoc_file, not_or]
    rintro ⟨notEarly, notForeign⟩
    have path : after.directoryPath other = memo.directoryPath other := by
      rw [directoryPath, directories, directoryPath]
    rw [path, directories]
    rcases List.mem_append.mp (remembers.answers.mp known) with before | last
    · obtain ⟨given, names⟩ := tracks.timely (tracks.files.answers.mpr before) notEarly
      exact ⟨given, related_grow names fun _ _ stands => stands.grow leads⟩
    · obtain ⟨same, rfl⟩ := Prod.mk.inj (List.mem_singleton.mp last)
      obtain ⟨rfl, rfl⟩ := Prod.mk.inj same
      have issued : other ∈ directoriesIssued done := by
        by_contra foreign
        exact notForeign ⟨⟨rfl, rfl⟩, foreign⟩
      exact ⟨tracks.issued_iff.mp issued, timely notEarly issued⟩
  located {path} member := located path member

/-- One more question about a directory, and all that is listed stays where it is. -/
theorem ask_directory (tracks : memo.Tracks facts done) (path : Path) :
    let asked := askedDirectory facts memo path
    asked.2.Tracks facts (done ++ [.directory path asked.1]) ∧
      memo.directories <+: asked.2.directories ∧ memo.files <+: asked.2.files := by
  intro asked
  cases known : memo.directoryAnswers.get? path.components with
  | some answer =>
    have again : asked = (answer, memo.countDirectory) := asked_directory_known known
    rw [again]
    exact ⟨tracks.add_directory rfl rfl (tracks.directories.again known) List.prefix_rfl
      (tracks.directory known), List.prefix_rfl, List.prefix_rfl⟩
  | none =>
    obtain ⟨numbered, names, leads⟩ :=
      tracks.directories.numbered.enlist (facts.located? path .directory)
    have new : asked = _ := asked_directory_new known
    rw [new]
    refine ⟨tracks.add_directory rfl rfl (tracks.directories.learn known ?_) leads ⟨path, rfl, ?_⟩,
      leads, List.prefix_rfl⟩
    · simpa [Function.comp_def] using numbered
    · simpa [Function.comp_def] using names

/-- What is listed after a file was found is what was listed before, and the file. -/
theorem located_enlisted (tracks : memo.Tracks facts done) (origin : Path) :
    ∀ path ∈ enlisted memo.files (facts.located? origin .regular),
      ∃ origin, facts.located? origin .regular = some path := by
  intro path member
  cases found : facts.located? origin .regular with
  | none => exact tracks.located (by simpa [enlisted, found] using member)
  | some canonical =>
    rw [found, enlisted, Option.elim_some, intern] at member
    split at member
    · exact tracks.located member
    · rcases List.mem_append.mp member with before | last
      · exact tracks.located before
      · obtain rfl := List.mem_singleton.mp last
        exact ⟨origin, found⟩

/-- One more question about a file with any handle, and all that is listed stays where it is. -/
theorem ask_file (tracks : memo.Tracks facts done) (holder : DirHandle) (name : String) :
    let asked := askedFile facts memo holder name
    asked.2.Tracks facts (done ++ [.file holder name asked.1]) ∧
      memo.directories <+: asked.2.directories ∧ memo.files <+: asked.2.files := by
  intro asked
  cases known : memo.fileAnswers.get? (holder, name) with
  | some answer =>
    have again : asked = (answer, memo.countFile) := asked_file_known known
    rw [again]
    refine ⟨tracks.add_file rfl rfl (tracks.files.again known) List.prefix_rfl ?_ ?_
      fun path member => tracks.located member, List.prefix_rfl, List.prefix_rfl⟩
    · rintro early
      by_cases askedBefore : AskedEarly done holder name
      · exact tracks.early known askedBefore
      · exact absurd (tracks.issued_iff.mpr (tracks.timely known askedBefore).1)
          (early.resolve_left askedBefore)
    · exact fun timely _ => (tracks.timely known timely).2
  | none =>
    -- Whatever was asked early has left an answer, so that this question is the first of its kind.
    have notEarly : ¬AskedEarly done holder name := by
      intro early
      obtain ⟨answer, member⟩ := early.asked
      have remembered := tracks.files.answers.mpr member
      rw [known] at remembered
      cases remembered
    by_cases given : holder.number < memo.directories.length
    · obtain ⟨numbered, names, leads⟩ := tracks.files.numbered.enlist
        (facts.located? ((memo.directoryPath holder).join name) .regular)
      have new : asked = _ := asked_file_new known given
      rw [new]
      refine ⟨tracks.add_file rfl rfl (tracks.files.learn known ?_) leads ?_ ?_
        (tracks.located_enlisted _), List.prefix_rfl, leads⟩
      · simpa [Function.comp_def] using numbered
      · exact fun early => absurd (tracks.issued_iff.mpr given) (early.resolve_left notEarly)
      · intro _ _
        simpa [Function.comp_def] using names
    · have foreign : asked = _ := asked_file_foreign known given
      rw [foreign]
      refine ⟨tracks.add_file rfl rfl (tracks.files.learn known ?_) List.prefix_rfl (fun _ => rfl)
        ?_ fun path member => tracks.located member, List.prefix_rfl, List.prefix_rfl⟩
      · rw [Option.map_none, Option.toList_none, List.append_nil]
        exact tracks.files.numbered
      · exact fun _ issued => absurd (tracks.issued_iff.mp issued) given

/-- One more question of either sort, and all that is listed stays where it is. -/
theorem exchange {state : FileMemo × List Exchange} (tracks : state.1.Tracks facts state.2)
    (query : Query) :
    let after := FileMemo.exchange facts state query
    after.1.Tracks facts after.2 ∧ state.1.directories <+: after.1.directories ∧
      state.1.files <+: after.1.files := by
  cases query with
  | directory path => exact tracks.ask_directory path
  | file holder name => exact tracks.ask_file holder name

end Tracks

/-- Whatever a new store is asked, it holds what `Tracks` says. Induct on the questions. -/
theorem converse_tracks (facts : FileFacts) (queries : List Query) :
    (converse facts queries).1.Tracks facts (converse facts queries).2 := by
  induction queries using List.reverseRecOn with
  | nil => exact .fresh facts
  | append_singleton queries query inductionHypothesis =>
    rw [converse_snoc]
    exact (inductionHypothesis.exchange query).1

/-- Whatever a store is asked further, all that is listed stays where it is. Induct on the further
    questions. -/
theorem converse_grows (facts : FileFacts) (earlier later : List Query) :
    (converse facts earlier).1.directories <+: (converse facts (earlier ++ later)).1.directories ∧
      (converse facts earlier).1.files <+: (converse facts (earlier ++ later)).1.files := by
  induction later using List.reverseRecOn with
  | nil => simp
  | append_singleton later query inductionHypothesis =>
    obtain ⟨-, directories, files⟩ := (converse_tracks facts (earlier ++ later)).exchange query
    rw [← List.append_assoc, converse_snoc]
    exact ⟨inductionHypothesis.1.trans directories, inductionHypothesis.2.trans files⟩

/-- Questions about files outside the listed directories are misses, and so are those that were
    asked early. Any other question about a file is answered with a handle exactly if the path of
    the directory joined with the name names a regular file, and however the store is asked further,
    the handle has the canonical path of that file. -/
theorem only_early_questions_leave_misses (facts : FileFacts) (earlier : List Query)
    (holder : DirHandle) (name : String) :
    let memo := (converse facts earlier).1
    let done := (converse facts earlier).2
    let answer := (askedFile facts memo holder name).1
    let path := (memo.directoryPath holder).join name
    (holder ∉ directoriesIssued done → answer = none) ∧
    (AskedEarly done holder name → answer = none) ∧
    (holder ∈ directoriesIssued done → ¬AskedEarly done holder name →
      (answer.isSome ↔ facts.kind? path = some .regular) ∧
      ∀ file, answer = some file → ∀ later,
        ((converse facts (earlier ++ [.file holder name] ++ later)).1.filePath file).components =
          ((facts.canonical? path).getD path).components) := by
  intro memo done answer path
  have tracks : memo.Tracks facts done := converse_tracks facts earlier
  obtain ⟨tracksAfter, directories, -⟩ := tracks.ask_file holder name
  have remembered : (askedFile facts memo holder name).2.fileAnswers.get? (holder, name) =
      some answer := by
    rw [tracksAfter.files.answers, filesAsked_snoc_file]
    exact List.mem_append_right _ (List.mem_singleton_self _)
  have early (foreign : AskedEarly done holder name ∨ holder ∉ directoriesIssued done) :
      answer = none := by
    refine tracksAfter.early remembered ((askedEarly_snoc_file done holder name answer).mpr ?_)
    exact foreign.imp_right fun out => ⟨⟨rfl, rfl⟩, out⟩
  refine ⟨fun foreign => early (.inr foreign), fun asked => early (.inl asked), ?_⟩
  intro issued notEarly
  -- The last question was asked in time too, and the store holds its answer now.
  have timely : ¬AskedEarly (done ++ [.file holder name answer]) holder name := by
    rw [askedEarly_snoc_file]
    exact fun either => either.elim notEarly fun foreign => foreign.2 issued
  obtain ⟨-, stands⟩ := tracksAfter.timely remembered timely
  have kept : (askedFile facts memo holder name).2.directoryPath holder =
      memo.directoryPath holder := listed_grow directories (tracks.issued_iff.mp issued) _
  rw [kept] at stands
  obtain ⟨there, names⟩ := stands_for_located stands
  refine ⟨there, fun file found later => ?_⟩
  have asked : (converse facts (earlier ++ [.file holder name])).1 =
      (askedFile facts memo holder name).2 := by
    rw [converse_snoc]
    rfl
  have grown := (converse_grows facts (earlier ++ [.file holder name]) later).2
  rw [asked] at grown
  exact ((names file found).grow grown).listed _

/-- A header is found in the directory that was given out, and stays missing under a foreign number
    for which it was asked before. -/
theorem header_is_found_beside_foreign_question :
    let earlier : List Query := [.directory ⟨"/include"⟩, .file ⟨1⟩ "a.h"]
    let memo := (converse oneHeader earlier).1
    let done := (converse oneHeader earlier).2
    ((⟨0⟩ : DirHandle) ∈ directoriesIssued done ∧ ¬AskedEarly done ⟨0⟩ "a.h" ∧
      (askedFile oneHeader memo ⟨0⟩ "a.h").1.isSome) ∧
    (⟨1⟩ : DirHandle) ∉ directoriesIssued done ∧ (askedFile oneHeader memo ⟨1⟩ "a.h").1 = none := by
  intro earlier memo done
  have issued : (⟨0⟩ : DirHandle) ∈ directoriesIssued done := by decide
  have foreign : (⟨1⟩ : DirHandle) ∉ directoriesIssued done := by decide
  have notEarly : ¬AskedEarly done ⟨0⟩ "a.h" := by
    have exchanged : done = [.directory ⟨"/include"⟩ (some ⟨0⟩)] ++ [.file ⟨1⟩ "a.h" none] := by
      decide
    rw [exchanged, askedEarly_snoc_file]
    rintro (early | ⟨⟨same, -⟩, -⟩)
    · rw [← List.nil_append [_], askedEarly_snoc_directory] at early
      obtain ⟨answer, member⟩ := early.asked
      cases member
    · cases same
  obtain ⟨-, -, found⟩ := only_early_questions_leave_misses oneHeader earlier ⟨0⟩ "a.h"
  obtain ⟨missed, -, -⟩ := only_early_questions_leave_misses oneHeader earlier ⟨1⟩ "a.h"
  exact ⟨⟨issued, notEarly, (found issued notEarly).1.mpr (by decide)⟩, foreign, missed foreign⟩

/-- A header is asked for under the number zero before the directory that holds it is given out
    under that number. Then it is not found in that directory, though it is there. -/
theorem early_question_hides_header :
    let earlier : List Query := [.file ⟨0⟩ "a.h", .directory ⟨"/include"⟩]
    let memo := (converse oneHeader earlier).1
    (⟨0⟩ : DirHandle) ∈ directoriesIssued (converse oneHeader earlier).2 ∧
    oneHeader.kind? ((memo.directoryPath ⟨0⟩).join "a.h") = some .regular ∧
    (askedFile oneHeader memo ⟨0⟩ "a.h").1 = none := by
  decide

end HeaderSearch.FileMemo
