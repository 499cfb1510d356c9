import HeaderSearch.CommandLine.Run
import HeaderSearch.Proofs.ForeignHandles

/-!
# The including file of a path

The including file may be given by its own path or by the path of its directory. A store that has a
directory under the path should give that one, and otherwise the one above. Which of the two is
asked for is decided by somebody else, who says whether the path is that of a directory. If the two
contradict each other, the store is asked for the wrong one: the main statement says exactly when
the answer is right nevertheless. A remembering store and the file system that it remembers agree,
so in a session the including file is always that of the store.
-/

namespace HeaderSearch

/-- What the path lies in: the working directory for a bare name. -/
def Path.above (path : Path) : Path :=
  (path.parent?.filter fun parent => !parent.isEmpty).getD Path.here

namespace Includer

theorem directoryOf_true (path : Path) : directoryOf path true = path := rfl

theorem directoryOf_false (path : Path) : directoryOf path false = path.above := by
  rw [directoryOf, if_neg Bool.false_ne_true, Path.above]
  cases path.parent? with
  | none => rfl
  | some parent => cases empty : parent.isEmpty <;> simp [empty, Option.filter]

/-- The including file in a directory, if that is there. -/
def within (isSystem : Bool) (asked : Path) : Option DirHandle → Except Path Includer
  | none => .error asked
  | some directory => .ok ⟨directory, if isSystem then .system else .user⟩

/-- The including file is in the directory that is asked for, whichever this is. -/
theorem ofPath_eq {m : Type → Type} [Monad m] [LawfulMonad m] [FileStore m] (path : Path)
    (isDirectory isSystem : Bool) :
    (ofPath path isDirectory isSystem : m _) =
      within isSystem (directoryOf path isDirectory) <$>
        FileStore.directory? (directoryOf path isDirectory) := by
  rw [ofPath, map_eq_pure_bind]
  refine bind_congr fun found => ?_
  cases found <;> rfl

theorem toOption_within (isSystem : Bool) (asked : Path) (found : Option DirHandle) :
    (within isSystem asked found).toOption =
      found.map fun directory => ⟨directory, if isSystem then .system else .user⟩ := by
  cases found <;> rfl

/-- Including files in two directories that may be there are the same exactly if the directories
    are. -/
theorem toOption_within_eq_iff {isSystem : Bool} {asked other : Path}
    {found wanted : Option DirHandle} :
    (within isSystem asked found).toOption = (within isSystem other wanted).toOption ↔
      found = wanted := by
  rw [toOption_within, toOption_within]
  refine ⟨fun same => ?_, fun same => by rw [same]⟩
  exact Option.map_injective (fun _ _ equal => (Includer.mk.inj equal).1) same

/-- The one directory that is asked for is the promised one exactly if a path with a directory is
    said to be one and a path without is not, or if both paths lead to the same. -/
theorem asked_eq_promised_iff {named around : Option DirHandle} (isDirectory : Bool) :
    (if isDirectory then named else around) = named.or around ↔
      isDirectory = named.isSome ∨ around = named := by
  cases isDirectory <;> cases named <;> simp [eq_comm]

/-- A remembering store has a directory under a path exactly if the file system has one there. -/
theorem remembered_iff {facts : FileFacts} (steady : facts.Steady) (queries : List Query)
    (path : Path) :
    (FileMemo.askedDirectory facts (FileMemo.converse facts queries).1 path).1.isSome ↔
      facts.kind? path = some .directory := by
  obtain ⟨tracks, -, -⟩ := (FileMemo.converse_tracks facts queries).ask_directory path
  obtain ⟨spelling, same, stands⟩ := tracks.directory (tracks.directories.answers.mpr (by
    rw [FileMemo.directoriesAsked_snoc_directory]
    exact List.mem_append_right _ (List.mem_singleton_self _)))
  rw [(FileMemo.stands_for_located stands).1]
  exact ⟨fun here => (steady.alike same here).1, fun here => (steady.alike same.symm here).1⟩

/-- In a session the file system says whether the path is that of a directory, and the store is
    asked for the directory. -/
theorem run_includerOf {facts : FileFacts} (path : Path) (isSystem : Bool) (memo : SearchMemo)
    (store : FileMemo) :
    let asked := directoryOf path (facts.kind? path = some .directory)
    let answer := FileMemo.askedDirectory facts store asked
    Runs.run (CommandLine.includerOf path isSystem :
      CommandLine.SessionM (FileFacts.Given facts) _) (memo, store, ()) =
        ((within isSystem asked answer.1).mapError CommandLine.Failure.includerMissing, memo,
          answer.2, ()) := by
  intro asked answer
  have kind : Runs.run (liftM (FileSystem.kind? path : FileFacts.Given facts _) :
      CommandLine.SessionM (FileFacts.Given facts) _) (memo, store, ()) =
        (facts.kind? path, memo, store, ()) := rfl
  have asking : Runs.run (FileStore.directory? asked :
      CommandLine.SessionM (FileFacts.Given facts) _) (memo, store, ()) =
        (answer.1, memo, answer.2, ()) := rfl
  rw [CommandLine.includerOf, Runs.run_bind, kind]
  dsimp only
  rw [ofPath_eq, Runs.run_bind, Runs.run_map, asking]
  cases answer.1 <;> rfl

/-- A store is asked for one directory: for the path itself if this is said to be one, and otherwise
    for what it lies in. The including file is in the directory that the store promises, the one
    under the path or else the one above, exactly if the path is said to be a directory just when
    the store has one under it, or if the store has the same above as under it. In a session over a
    steady file system whoever says so agrees with the store, whatever that was asked before, also
    with handles that it has not given out: the including file is in the promised directory, and
    there is none only if the store has neither. -/
theorem including_files_are_promised_by_agreeing_stores (path : Path) (isSystem : Bool) :
    (∀ (view : FileView) (isDirectory : Bool),
      let given := (ofPath path isDirectory isSystem : Observed view _)
      let asked := if isDirectory then path else path.above
      let promised := (view.directory? path).or (view.directory? path.above)
      given.queries = [.directory asked] ∧
      given.value = within isSystem asked (view.directory? asked) ∧
      (given.value.toOption = (within isSystem path.above promised).toOption ↔
        isDirectory = (view.directory? path).isSome ∨
          view.directory? path.above = view.directory? path)) ∧
    ∀ facts : FileFacts, facts.Steady → ∀ (queries : List Query) (memo : SearchMemo),
      let store := (FileMemo.converse facts queries).1
      let promised := (FileMemo.askedDirectory facts store path).1.or
        (FileMemo.askedDirectory facts store path.above).1
      (Runs.run (CommandLine.includerOf path isSystem :
        CommandLine.SessionM (FileFacts.Given facts) _) (memo, store, ())).1 =
          (within isSystem path.above promised).mapError CommandLine.Failure.includerMissing := by
  constructor
  · intro view isDirectory given asked promised
    have sought : directoryOf path isDirectory = asked := by
      cases isDirectory
      · exact directoryOf_false path
      · rfl
    have answered : given = within isSystem asked <$> FileStore.directory? asked := by
      rw [← sought]
      exact ofPath_eq path isDirectory isSystem
    refine ⟨by rw [answered]; rfl, by rw [answered]; rfl, ?_⟩
    rw [answered, Observed.value_map, toOption_within_eq_iff, Observed.value_directory?,
      apply_ite view.directory?]
    exact asked_eq_promised_iff isDirectory
  · intro facts steady queries memo store promised
    have agreed : (FileMemo.askedDirectory facts store path).1.isSome ↔
        facts.kind? path = some .directory := remembered_iff steady queries path
    rw [run_includerOf]
    -- The file system decides what is asked for, and the store promises the same by `agreed`.
    by_cases here : facts.kind? path = some .directory
    · obtain ⟨directory, found⟩ := Option.isSome_iff_exists.mp (agreed.mpr here)
      have taken : promised = some directory := by simp only [promised, found, Option.some_or]
      simp only [here, decide_true, directoryOf_true, found, taken, within]
    · have missing : (FileMemo.askedDirectory facts store path).1 = none :=
        Option.not_isSome_iff_eq_none.mp fun found => here (agreed.mp found)
      have taken : promised = (FileMemo.askedDirectory facts store path.above).1 := by
        simp only [promised, missing, Option.none_or]
      simp only [here, decide_false, directoryOf_false, taken]

/-- A store with a directory and one inside it, of which the disk need not know. -/
def nested : FileView where
  directory? path :=
    if path.same ⟨"zz"⟩ then some ⟨0⟩ else if path.same ⟨"zz/src"⟩ then some ⟨1⟩ else none
  file? _ _ := none
  directoryPath directory := if directory.number = 0 then ⟨"zz"⟩ else ⟨"zz/src"⟩
  filePath _ := ⟨""⟩

/-- A file system with the nested directories. -/
def nestedOnDisk : FileFacts := .listing [⟨"zz"⟩, ⟨"zz/src"⟩] []

/-- Where the disk and the store have the same directories, a path with a directory leads to that,
    in the store with the nested directories and in a session. -/
theorem nested_directory_is_given :
    (ofPath ⟨"zz/src"⟩ (nestedOnDisk.kind? ⟨"zz/src"⟩ = some .directory) true :
      Observed nested _).value.toOption = some ⟨⟨1⟩, .system⟩ ∧
    (Runs.run (CommandLine.includerOf ⟨"zz/src"⟩ true :
      CommandLine.SessionM (FileFacts.Given nestedOnDisk) _)
        (.fresh, (FileMemo.converse nestedOnDisk [.directory ⟨"zz/./src"⟩]).1, ())).1 =
          .ok ⟨⟨0⟩, .system⟩ := by
  obtain ⟨agreeing, session⟩ := including_files_are_promised_by_agreeing_stores ⟨"zz/src"⟩ true
  obtain ⟨-, -, given⟩ := agreeing nested true
  have steady : nestedOnDisk.Steady := (FileFacts.listing_coherent _ _).steady
  exact ⟨given.mpr (.inl (by decide)), session nestedOnDisk steady _ _⟩

/-- Without the inner directory on the disk the store is asked for the outer one, although it has
    the inner one under the path. -/
theorem directory_unknown_to_disk_is_passed_over :
    nested.directory? ⟨"zz/src"⟩ = some ⟨1⟩ ∧
    (ofPath ⟨"zz/src"⟩ (nestedOnDisk.kind? ⟨"zz/src"⟩ = some .directory) false :
      Observed nested _).value = .ok ⟨⟨1⟩, .user⟩ ∧
    (ofPath ⟨"zz/src"⟩ (FileFacts.nothing.kind? ⟨"zz/src"⟩ = some .directory) false :
      Observed nested _).value = .ok ⟨⟨0⟩, .user⟩ := by
  exact ⟨by decide, rfl, rfl⟩

end Includer

end HeaderSearch
