import HeaderSearch.Proofs.Recording
import HeaderSearch.Proofs.TruthfulStore
import HeaderSearch.SearchList.Build

/-!
# Files that a store gave out

Whatever a lookup finds, through whichever entry, header map or including file, is a file that the
store gave out, now or when the outcome was remembered. Nothing else is assumed of the store than
that it knows the files that it gives out and keeps them, so it may well answer wrongly or be asked
about handles that it never gave out.
-/

namespace HeaderSearch

namespace Naming

/-- A handle stands for some file. -/
def Has (naming : Naming) (file : FileHandle) : Prop := ∃ path, naming.FileAt file path

theorem Has.keep {before after : Naming} {file : FileHandle} (has : before.Has file)
    (keeps : before.Keeps after) : after.Has file := by
  obtain ⟨path, stands⟩ := has
  exact ⟨path, keeps.file stands⟩

/-- Hits with files that the store gave out may be recorded. -/
def issuedRule (naming : Naming) : HitRule where
  listed _ _ hit := naming.Has hit.file
  beside _ _ hit := naming.Has hit.file

theorem issuedRule_keep {before after : Naming} {memo : SearchMemo}
    (records : memo.Records before.issuedRule) (keeps : before.Keeps after) :
    memo.Records after.issuedRule where
  listed remembered := (records.listed remembered).keep keeps
  beside remembered := (records.beside remembered).keep keeps

end Naming

namespace Reading

/-- Whatever is asked of a store, it stays sound, and the files that it answers with stand for
    something. -/
structure Issuing {ω : Type} (m : Type → Type) [Monad m] [Runs m ω] [FileStore m]
    (reading : Reading ω) : Prop where
  directory? {state : ω} (path : Path) : reading.sound state →
    reading.Yields (FileStore.directory? path : m _) state fun _ _ => True
  file? {state : ω} (directory : DirHandle) (name : String) : reading.sound state →
    reading.Yields (FileStore.file? directory name : m _) state fun after answer =>
      ∀ file ∈ answer, (reading.naming after).Has file
  directoryPath {state : ω} (directory : DirHandle) : reading.sound state →
    reading.Yields (FileStore.directoryPath directory : m _) state fun _ _ => True

/-- A store has for every file that it gave out the path that the handle stands for. -/
def TellsPaths {ω : Type} (m : Type → Type) [Monad m] [Runs m ω] [FileStore m]
    (reading : Reading ω) : Prop :=
  ∀ {state : ω} {file : FileHandle} {path : Path}, reading.sound state →
    (reading.naming state).FileAt file path →
    reading.Yields (FileStore.filePath file : m _) state fun _ found => found = path

variable {ω : Type} {m : Type → Type} [Monad m] [Runs m ω] [FileStore m] {reading : Reading ω}
variable {state : ω} {maps : HeaderMapSet} {list : SearchList} {memoState : SearchMemo × ω}

/-- A truthful store gives out what it answers with. -/
theorem Truthful.issuing {facts : FileFacts} (truthful : reading.Truthful m facts) :
    reading.Issuing m where
  directory? path sound := (truthful.directory? path sound).weaken fun _ _ _ _ => trivial
  file? directory name sound := (truthful.file? directory name sound).weaken
    fun _ _ _ held file answered => by
      obtain ⟨-, path, -, stands, -⟩ := held file answered
      exact ⟨path, stands⟩
  directoryPath directory sound :=
    (truthful.directoryPath directory sound).weaken fun _ _ _ _ => trivial

/-! ### Building a list -/

/-- Locating an entry asks the store for a directory at most. -/
theorem locate_sound (issuing : reading.Issuing m) (entry : ConfigEntry)
    (sound : reading.sound state) :
    reading.Yields (entry.locate maps : m _) state fun _ _ => True := by
  unfold ConfigEntry.locate
  split
  · exact (issuing.directory? _ sound).bind fun _ _ sound _ _ => .of_pure sound trivial
  · exact (issuing.directory? _ sound).bind fun _ _ sound _ _ => .of_pure sound trivial
  · split
    · exact .of_pure sound trivial
    · exact .of_pure sound trivial

/-- Taking entries in leaves the store sound. Induct on the entries. -/
theorem enter_all_sound (issuing : reading.Issuing m) (entries : List ConfigEntry)
    (start index : Nat) (partialList : PartialList) (sound : reading.sound state) :
    reading.Yields (ConfigEntry.enterAll maps start index partialList entries : m _) state
      fun _ _ => True := by
  induction entries generalizing index partialList state with
  | nil => exact .of_pure sound trivial
  | cons entry entries inductionHypothesis =>
    have entered : reading.Yields (entry.enter maps start index partialList : m _) state
        fun _ _ => True := by
      unfold ConfigEntry.enter
      split
      · exact .of_pure sound trivial
      · refine (locate_sound issuing entry sound).bind fun outcome after sound _ _ => ?_
        split
        · exact .of_pure sound trivial
        · exact .of_pure sound trivial
        · dsimp only
          split
          · exact .of_pure sound trivial
          · exact .of_pure sound trivial
    unfold ConfigEntry.enterAll
    refine entered.bind fun outcome after sound _ _ => ?_
    split
    · exact .of_pure sound trivial
    · exact inductionHypothesis _ _ sound

/-- Building a list leaves the store sound. -/
theorem build_sound (issuing : reading.Issuing m) (config : Config) (sound : reading.sound state) :
    reading.Yields (config.build maps : m _) state fun _ _ => True := by
  unfold Config.build
  dsimp only
  split
  · exact .of_pure sound trivial
  · refine (enter_all_sound issuing _ _ _ _ sound).bind fun outcome after sound _ _ => ?_
    split
    · exact .of_pure sound trivial
    · exact .of_pure sound trivial

/-! ### Looking into one place -/

/-- Finding a bundle leaves the store sound. -/
theorem find_bundle_sound (issuing : reading.Issuing m) (directory : DirHandle) (framework : String)
    (sound : reading.sound state) :
    reading.Yields (Framework.findBundle directory framework : m Bundle) state fun _ _ => True := by
  unfold Framework.findBundle
  refine (issuing.directoryPath directory sound).bind fun above atAbove sound _ _ => ?_
  refine (issuing.directory? _ sound).bind fun root atRoot sound _ _ => ?_
  split
  · exact .of_pure sound trivial
  · refine (issuing.directory? _ sound).bind fun headers atHeaders sound _ _ => ?_
    refine (issuing.directory? _ sound).bind fun hidden atHidden sound _ _ => ?_
    exact .of_pure sound trivial

/-- What some directories hold was given out. Induct on the directories. -/
theorem first_holding_issued (issuing : reading.Issuing m) (name : String)
    (directories : List DirHandle) (sound : reading.sound state) :
    reading.Yields (Framework.firstHolding name directories : m (Option (DirHandle × FileHandle)))
      state fun after found => ∀ pair ∈ found, (reading.naming after).Has pair.2 := by
  induction directories generalizing state with
  | nil => exact .of_pure sound (by simp)
  | cons directory directories inductionHypothesis =>
    unfold Framework.firstHolding
    refine (issuing.file? directory name sound).bind fun found after sound _ given => ?_
    split
    · next file =>
      refine .of_pure sound ?_
      rintro pair ⟨rfl⟩
      exact given file rfl
    · exact inductionHypothesis sound

/-- What the bundle of a framework holds was given out, if finding the bundle leaves the store
    sound. -/
theorem framework_issued (issuing : reading.Issuing m) {bundleOf : DirHandle → String → m Bundle}
    (frameworks : List String) (handle : DirHandle) (owner rest : String)
    (bundled : reading.Yields (bundleOf handle owner) state fun _ _ => True) :
    reading.Yields (Framework.probe bundleOf frameworks handle owner rest) state
      fun after found => ∀ hit ∈ found, (reading.naming after).Has hit.file := by
  unfold Framework.probe
  refine bundled.bind fun bundle between sound _ _ => ?_
  refine (first_holding_issued issuing rest _ sound).bind fun found after sound _ given => ?_
  refine .of_pure sound fun hit there => ?_
  obtain ⟨pair, member, rfl⟩ := Option.map_eq_some_iff.1 there
  exact given pair member

/-- The file that a header map names was given out. -/
theorem file_for_issued (issuing : reading.Issuing m) (map : HeaderMap) (name : String)
    (sound : reading.sound state) :
    reading.Yields (map.fileFor name : m (Option FileHandle)) state
      fun after found => ∀ file ∈ found, (reading.naming after).Has file := by
  unfold HeaderMap.fileFor
  split
  · exact .of_pure sound (by simp)
  · refine (issuing.directory? _ sound).bind fun directory between sound _ _ => ?_
    split
    · exact .of_pure sound (by simp)
    · exact issuing.file? _ _ sound

/-- What a header map leads to was given out. -/
theorem header_map_issued (issuing : reading.Issuing m) (map : HeaderMap) (frameworks : List String)
    (isIndex : Bool) (name : String) (sound : reading.sound state) :
    reading.Yields (map.probe frameworks isIndex name : m (Option PlaceHit)) state
      fun after found => ∀ hit ∈ found, (reading.naming after).Has hit.file := by
  unfold HeaderMap.probe
  refine (file_for_issued issuing map name sound).bind fun whole between sound _ given => ?_
  split
  · next file =>
    refine .of_pure sound ?_
    rintro hit ⟨rfl⟩
    exact given file rfl
  · split
    · refine (file_for_issued issuing map _ sound).bind fun found after sound _ given => ?_
      refine .of_pure sound fun hit there => ?_
      obtain ⟨file, member, rfl⟩ := Option.map_eq_some_iff.1 there
      exact given file member
    · exact .of_pure sound (by simp)

/-! ### Lookups -/

/-- The reading of a store that carries along a memo of files that the store gave out. -/
def recalling (reading : Reading ω) : Reading (SearchMemo × ω) :=
  reading.along fun naming memo => memo.Records naming.issuedRule

omit [FileStore m] in
/-- A change that keeps all outcomes. -/
theorem Yields.of_modify_recalling (sound : reading.recalling.sound memoState)
    {change : SearchMemo → SearchMemo} (cache : (change memoState.1).cache = memoState.1.cache) :
    reading.recalling.Yields (modify change : StateT SearchMemo m Unit) memoState
      fun _ _ => True := by
  refine (Yields.of_modify_along sound.1 ⟨?_, ?_⟩).weaken fun _ _ _ _ => trivial
  · rw [cache]
    exact sound.2.listed
  · rw [cache]
    exact sound.2.beside

/-- A store that gives out files does so while the memo is carried along. -/
theorem Issuing.recalling (issuing : reading.Issuing m) :
    reading.recalling.Issuing (StateT SearchMemo m) where
  directory? path sound :=
    .lift_along (Naming.issuedRule_keep sound.2) (issuing.directory? path sound.1)
  file? directory name sound :=
    .lift_along (Naming.issuedRule_keep sound.2) (issuing.file? directory name sound.1)
  directoryPath directory sound :=
    .lift_along (Naming.issuedRule_keep sound.2) (issuing.directoryPath directory sound.1)

/-- A store that tells the paths of files does so while the memo is carried along. -/
theorem TellsPaths.recalling (tells : reading.TellsPaths m) :
    reading.recalling.TellsPaths (StateT SearchMemo m) := fun sound stands =>
  .lift_along (Naming.issuedRule_keep sound.2) (tells sound.1 stands)

/-- Finding a bundle, or remembering it, leaves the store and the memo sound. -/
theorem bundle_at_sound (issuing : reading.Issuing m) (index : Nat) (directory : DirHandle)
    (framework : String) (sound : reading.recalling.sound memoState) :
    reading.recalling.Yields
      (SearchMemo.bundleAt index directory framework : StateT SearchMemo m Bundle) memoState
      fun _ _ => True := by
  unfold SearchMemo.bundleAt
  refine (Yields.of_get_along sound).bind fun memo between sound _ _ => ?_
  split
  · exact .of_pure sound trivial
  · refine (find_bundle_sound issuing.recalling directory framework sound).bind
      fun bundle found sound _ _ => ?_
    refine (Yields.of_modify_recalling sound ?_).bind fun _ after sound _ _ => ?_
    · rfl
    · exact .of_pure sound trivial

/-- What the entry at a position answers was given out. -/
theorem probe_at_issued (issuing : reading.Issuing m) (entry : SearchEntry) (index : Nat)
    (name : String) (sound : reading.recalling.sound memoState) :
    reading.recalling.Yields
      (list.probeAt entry index name : StateT SearchMemo m (Option PlaceHit)) memoState
      fun after found => ∀ hit ∈ found, (reading.naming after.2).Has hit.file := by
  unfold SearchList.probeAt SearchPlace.probe
  cases entry.place with
  | directory handle configured =>
    refine (issuing.recalling.file? handle name sound).bind fun found after sound _ given => ?_
    refine .of_pure sound fun hit there => ?_
    obtain ⟨file, member, rfl⟩ := Option.map_eq_some_iff.1 there
    exact given file member
  | framework handle configured =>
    dsimp only
    split
    · exact .of_pure sound (by simp)
    · exact framework_issued issuing.recalling _ handle _ _
        (bundle_at_sound issuing index handle _ sound)
  | headerMap map isIndex => exact header_map_issued issuing.recalling map _ isIndex name sound

/-- What a search through entries comes to was given out. Induct on the entries. -/
theorem scan_issued (issuing : reading.Issuing m) (name : String) (items : List (SearchEntry × Nat))
    (sound : reading.recalling.sound memoState) :
    reading.recalling.Yields (list.scan name items : StateT SearchMemo m (Option Hit)) memoState
      fun after found => ∀ hit ∈ found, (reading.naming after.2).Has hit.file := by
  induction items generalizing memoState with
  | nil => exact .of_pure sound (by simp)
  | cons item items inductionHypothesis =>
    unfold SearchList.scan
    refine (Yields.of_modify_recalling sound ?_).bind fun _ counted sound _ _ => ?_
    · rfl
    refine (probe_at_issued issuing _ _ name sound).bind fun found after sound _ given => ?_
    split
    · next hit =>
      refine .of_pure sound ?_
      rintro _ ⟨rfl⟩
      exact given hit rfl
    · exact inductionHypothesis sound

/-- The outcome of the list was given out, remembered or found now. -/
theorem look_in_list_issued (issuing : reading.Issuing m) (name : String) (kind : IncludeKind)
    (sound : reading.recalling.sound memoState) :
    reading.recalling.Yields
      (list.lookInList name kind : StateT SearchMemo m (Option Hit × Bool)) memoState
      fun after outcome => ∀ hit ∈ outcome.1, (reading.naming after.2).Has hit.file := by
  unfold SearchList.lookInList
  refine (Yields.of_get_along sound).bind fun memo between sound _ same => ?_
  subst same
  split
  · next outcome remembered =>
    refine .of_pure sound ?_
    rintro hit ⟨rfl⟩
    exact sound.2.listed remembered
  · refine (scan_issued issuing name _ sound).bind fun outcome scanned sound _ given => ?_
    refine (Yields.of_modify_along sound.1 (sound.2.insert given)).bind
      fun _ after sound _ changed => ?_
    subst changed
    exact .of_pure sound given

/-- The outcome beside an including file was given out, remembered or found now. -/
theorem look_beside_issued (issuing : reading.Issuing m) (name : String) (includer : Includer)
    (sound : reading.recalling.sound memoState) :
    reading.recalling.Yields
      (SearchList.lookBeside name includer : StateT SearchMemo m (Option Hit × Bool)) memoState
      fun after outcome => ∀ hit ∈ outcome.1, (reading.naming after.2).Has hit.file := by
  unfold SearchList.lookBeside
  refine (Yields.of_get_along sound).bind fun memo between sound _ same => ?_
  subst same
  dsimp only
  split
  · next outcome remembered =>
    refine .of_pure sound fun hit there => ?_
    obtain ⟨stored, rfl, rfl⟩ := Option.map_eq_some_iff.1 there
    have issued : (reading.naming between.2).Has stored.file := sound.2.beside remembered
    exact issued
  · refine (issuing.recalling.file? includer.directory name sound).bind
      fun found asked sound _ given => ?_
    have issued : ∀ hit ∈ found.map (Hit.beside includer.directory includer.characteristic),
        (reading.naming asked.2).Has hit.file := by
      intro hit there
      obtain ⟨file, member, rfl⟩ := Option.map_eq_some_iff.1 there
      exact given file member
    refine (Yields.of_modify_along sound.1 (sound.2.insertBeside issued)).bind
      fun _ after sound _ changed => ?_
    subst changed
    refine .of_pure sound fun hit there => ?_
    obtain ⟨stored, member, rfl⟩ := Option.map_eq_some_iff.1 there
    exact issued stored member

/-- The outcome beside the including file, if there is one to look beside, was given out. -/
theorem look_beside_for_issued (issuing : reading.Issuing m) (name : String) (kind : IncludeKind)
    (includer : Option Includer) (sound : reading.recalling.sound memoState) :
    reading.recalling.Yields
      (SearchList.lookBesideFor name kind includer : StateT SearchMemo m (Option Hit × Bool))
      memoState fun after outcome => ∀ hit ∈ outcome.1, (reading.naming after.2).Has hit.file := by
  unfold SearchList.lookBesideFor
  split
  · exact look_beside_issued issuing name _ sound
  · exact .of_pure sound (by simp)

/-- Making a search path leaves the store sound. -/
theorem place_search_path_sound (issuing : reading.Issuing m) (place : SearchPlace)
    (directory : Option DirHandle) (sound : reading.sound state) :
    reading.Yields (place.searchPath directory : m String) state fun _ _ => True := by
  unfold SearchPlace.searchPath
  split
  · next headers =>
    exact (issuing.directoryPath headers sound).bind fun _ _ sound _ _ => .of_pure sound trivial
  · exact .of_pure sound trivial

/-- Making the search path of a hit leaves the store sound. -/
theorem hit_search_path_sound (issuing : reading.Issuing m) (hit : Hit)
    (sound : reading.sound state) :
    reading.Yields (list.searchPathOf hit : m String) state fun _ _ => True := by
  unfold SearchList.searchPathOf
  split
  · split
    · exact place_search_path_sound issuing _ _ sound
    · exact .of_pure sound trivial
  · next directory _ _ =>
    exact (issuing.directoryPath _ sound).bind fun _ _ sound _ _ => .of_pure sound trivial
  · exact .of_pure sound trivial

variable [LawfulMonad m]

/-- The answer for a hit has the file of the hit. -/
theorem answer_issued (issuing : reading.Issuing m) (name : String) (want : PathRequest) (hit : Hit)
    (sound : reading.sound state) (given : (reading.naming state).Has hit.file) :
    reading.Yields (list.answer name want hit : m FoundHeader) state
      fun after header => (reading.naming after).Has header.file := by
  unfold SearchList.answer
  cases want.searchPath with
  | false =>
    simp only [Bool.false_eq_true, if_false, pure_bind]
    exact .of_pure sound given
  | true =>
    simp only [if_true, bind_map_left]
    refine (hit_search_path_sound issuing hit sound).bind fun _ after sound keeps _ => ?_
    exact .of_pure sound (given.keep keeps)

/-- Whatever a lookup finds was given out. -/
theorem resolve_issued (issuing : reading.Issuing m) (name : String) (kind : IncludeKind)
    (includer : Option Includer) (want : PathRequest)
    (sound : reading.recalling.sound memoState) :
    reading.recalling.Yields
      (list.resolve name kind includer want : StateT SearchMemo m (Option FoundHeader)) memoState
      fun after found => ∀ header ∈ found, (reading.naming after.2).Has header.file := by
  have answered (hit : Hit) {state : SearchMemo × ω} (sound : reading.recalling.sound state)
      (given : (reading.naming state.2).Has hit.file) :
      reading.recalling.Yields
        (some <$> list.answer name want hit : StateT SearchMemo m (Option FoundHeader)) state
        fun after found => ∀ header ∈ found, (reading.naming after.2).Has header.file := by
    refine Yields.map ((answer_issued issuing.recalling name want hit sound given).weaken ?_)
    rintro header after _ issued _ ⟨rfl⟩
    exact issued
  have counted {remembered : Bool} (memo : SearchMemo) :
      (SearchList.countRemembered remembered memo).cache = memo.cache := by
    cases remembered <;> rfl
  unfold SearchList.resolve
  refine (Yields.of_modify_recalling sound ?_).bind fun _ begun sound _ _ => ?_
  · rfl
  refine (look_beside_for_issued issuing name kind includer sound).bind
    fun outcome asked sound _ given => ?_
  split
  · next hit remembered =>
    refine (Yields.of_modify_recalling sound ?_).bind fun _ between sound keeps _ => ?_
    · rfl
    refine (Yields.of_modify_recalling sound (counted _)).bind fun _ after sound further _ => ?_
    exact answered hit sound (((given hit rfl).keep keeps).keep further)
  · refine (look_in_list_issued issuing name kind sound).bind fun outcome listed sound _ given => ?_
    obtain ⟨outcome, remembered⟩ := outcome
    refine (Yields.of_modify_recalling sound (counted _)).bind fun _ after sound keeps _ => ?_
    split
    · next hit => exact answered hit sound ((given hit rfl).keep keeps)
    · refine (Yields.of_modify_recalling sound ?_).bind fun _ after sound _ _ => ?_
      · rfl
      · exact .of_pure sound (by simp)

/-- A lookup in one entry leaves the store and the memo sound. -/
theorem lookup_in_sound (issuing : reading.Issuing m) (index : Nat) (name : String)
    (want : PathRequest) (sound : reading.recalling.sound memoState) :
    reading.recalling.Yields
      (list.lookupIn index name want : StateT SearchMemo m (Option EntryMatch)) memoState
      fun _ _ => True := by
  unfold SearchList.lookupIn
  split
  · next entry here =>
    unfold SearchList.lookupAt
    refine (probe_at_issued issuing entry index name sound).bind fun found probed sound _ _ => ?_
    split
    · exact .of_pure sound trivial
    · cases want.searchPath with
      | false =>
        simp only [Bool.false_eq_true, if_false, pure_bind]
        exact .of_pure sound trivial
      | true =>
        simp only [if_true, bind_map_left]
        refine (place_search_path_sound issuing.recalling entry.place _ sound).bind
          fun _ after sound _ _ => ?_
        exact .of_pure sound trivial
  · exact .of_pure sound trivial

end Reading

end HeaderSearch
