import HeaderSearch.CommandLine.Run
import HeaderSearch.Proofs.Runs

/-!
# Computations beside a console

A computation that only asks a file system does the same whether there is a console beside it or not,
and does not write to it. Since the definitions are open in the monad, that is said by relating two
runs of the same definition: `Mirrors` holds if the run with the larger state does what the other one
does in a part of the state, and leaves the rest of it alone. Whatever asks only through a file system
or a file store that is mirrored is mirrored itself.
-/

namespace HeaderSearch

namespace Runs

variable {α β σ ω τ : Type} {m n : Type → Type} [Monad m] [Monad n] [Runs m ω] [Runs n τ]

/-- A computation with a larger state does what another one does with a part of this state, and leaves
    the rest alone. Putting a state of the part in its place gives the state of the whole. -/
def Mirrors (place : ω → τ) (large : n α) (small : m α) : Prop :=
  ∀ state, run large (place state) = ((run small state).1, place (run small state).2)

namespace Mirrors

variable {place : ω → τ}

/-- Returning a value. -/
theorem of_pure (value : α) : Mirrors place (pure value : n α) (pure value : m α) := by
  intro state
  rw [run_pure, run_pure]

/-- Computations in sequence, where the second ones are mirrored whatever the result of the first. -/
theorem bind {large : n α} {small : m α} {largeNext : α → n β} {smallNext : α → m β}
    (started : Mirrors place large small)
    (continued : ∀ value, Mirrors place (largeNext value) (smallNext value)) :
    Mirrors place (large >>= largeNext) (small >>= smallNext) := by
  intro state
  rw [run_bind, run_bind, started state]
  exact continued _ _

/-- Changing the result afterwards. -/
theorem map [LawfulMonad m] [LawfulMonad n] {large : n α} {small : m α} (change : α → β)
    (mirrored : Mirrors place large small) :
    Mirrors place (change <$> large) (change <$> small) := by
  intro state
  rw [run_map, run_map, mirrored state]

/-- Computations made for each item of a list. Induct on the items. -/
theorem mapM [LawfulMonad m] [LawfulMonad n] {large : α → n β} {small : α → m β}
    (each : ∀ item, Mirrors place (large item) (small item)) (items : List α) :
    Mirrors place (items.mapM large) (items.mapM small) := by
  induction items with
  | nil => exact of_pure []
  | cons item items inductionHypothesis =>
    rw [List.mapM_cons, List.mapM_cons]
    refine (each item).bind fun result => inductionHypothesis.bind fun results => ?_
    exact of_pure (result :: results)

/-- Computations that carry a part of the state are mirrored if their steps from each value of it are. -/
theorem of_carrying {large : StateT σ n α} {small : StateT σ m α}
    (mirrored : ∀ part, Mirrors place (large.run part) (small.run part)) :
    Mirrors (Prod.map id place) large small := by
  intro state
  simp only [run, Prod.map_fst, Prod.map_snd, id_eq, mirrored state.1 state.2]
  rfl

/-- The steps of mirrored computations that carry a part of the state are mirrored. -/
theorem carrying {large : StateT σ n α} {small : StateT σ m α}
    (mirrored : Mirrors (Prod.map id place) large small) (part : σ) :
    Mirrors place (large.run part) (small.run part) := by
  intro state
  have ran := mirrored (part, state)
  simp only [run, Prod.map_apply, id_eq] at ran
  obtain ⟨result, rest⟩ := Prod.mk.inj ran
  obtain ⟨part, rest⟩ := Prod.mk.inj rest
  exact Prod.ext (Prod.ext result part) rest

/-- Computations that do not touch the carried part. -/
theorem of_lift {large : n α} {small : m α} (mirrored : Mirrors place large small) :
    Mirrors (Prod.map id place) (StateT.lift large : StateT σ n α)
      (StateT.lift small : StateT σ m α) := by
  intro state
  rw [run_lift, run_lift]
  simp only [Prod.map_fst, Prod.map_snd, id_eq, mirrored state.2]
  rfl

/-- Reading the carried part. -/
theorem of_get : Mirrors (Prod.map id place) (get : StateT σ n σ) (get : StateT σ m σ) := by
  intro state
  rw [run_get, run_get]
  rfl

/-- Changing the carried part. -/
theorem of_modify (change : σ → σ) :
    Mirrors (Prod.map id place) (modify change : StateT σ n Unit)
      (modify change : StateT σ m Unit) := by
  intro state
  rw [run_modify, run_modify]
  rfl

end Mirrors

end Runs

open Runs Runs.Mirrors

variable {ω τ : Type} {m n : Type → Type} [Monad m] [Monad n] [Runs m ω] [Runs n τ]

/-- What a file system is asked is mirrored. -/
structure FileSystem.Mirrored (n m : Type → Type) [Monad m] [Monad n] [Runs m ω] [Runs n τ]
    [FileSystem n] [FileSystem m] (place : ω → τ) : Prop where
  kind? (path : Path) :
    Mirrors place (FileSystem.kind? path : n _) (FileSystem.kind? path : m _)
  canonical? (path : Path) :
    Mirrors place (FileSystem.canonical? path : n _) (FileSystem.canonical? path : m _)
  read (path : Path) :
    Mirrors place (FileSystem.read path : n _) (FileSystem.read path : m _)

/-- What a file store is asked is mirrored. -/
structure FileStore.Mirrored (n m : Type → Type) [Monad m] [Monad n] [Runs m ω] [Runs n τ]
    [FileStore n] [FileStore m] (place : ω → τ) : Prop where
  directory? (path : Path) :
    Mirrors place (FileStore.directory? path : n _) (FileStore.directory? path : m _)
  file? (directory : DirHandle) (name : String) :
    Mirrors place (FileStore.file? directory name : n _) (FileStore.file? directory name : m _)
  directoryPath (directory : DirHandle) :
    Mirrors place (FileStore.directoryPath directory : n _)
      (FileStore.directoryPath directory : m _)
  filePath (file : FileHandle) :
    Mirrors place (FileStore.filePath file : n _) (FileStore.filePath file : m _)

variable {place : ω → τ}

/-! Each lemma below is named for the computation that it is about: what asks only through mirrored
questions is mirrored, step by step. -/

namespace FileSystem.Mirrored

variable [FileSystem n] [FileSystem m]

theorem probe (mirrored : FileSystem.Mirrored n m place) (path : Path) (wanted : FileKind) :
    Mirrors place (FileMemo.probe path wanted : n _) (FileMemo.probe path wanted : m _) := by
  refine (mirrored.kind? path).bind fun kind => ?_
  split
  · exact (mirrored.canonical? path).bind fun canonical => of_pure _
  · exact of_pure none

/-- The store that remembers a mirrored file system is mirrored. -/
theorem remembering (mirrored : FileSystem.Mirrored n m place) :
    FileStore.Mirrored (StateT FileMemo n) (StateT FileMemo m) (Prod.map id place) where
  directory? path := by
    refine of_carrying fun memo => ?_
    -- The file system is asked only about what is not remembered.
    change Mirrors place (FileMemo.askDirectory path memo) (FileMemo.askDirectory path memo)
    unfold FileMemo.askDirectory
    dsimp only
    split
    · exact of_pure _
    · exact (mirrored.probe _ _).bind fun found => of_pure _
  file? directory name := by
    refine of_carrying fun memo => ?_
    change Mirrors place (FileMemo.askFile directory name memo)
      (FileMemo.askFile directory name memo)
    unfold FileMemo.askFile
    dsimp only
    split
    · exact of_pure _
    · split
      · exact of_pure _
      · exact (mirrored.probe _ _).bind fun found => of_pure _
  directoryPath directory := of_carrying fun memo => of_pure (memo.directoryPath directory, memo)
  filePath file := of_carrying fun memo => of_pure (memo.filePath file, memo)

theorem load (mirrored : FileSystem.Mirrored n m place) (path : Path) (options : LoadOptions) :
    Mirrors place (HeaderMap.load path options : n _) (HeaderMap.load path options : m _) := by
  refine (mirrored.read path).bind fun answer => ?_
  cases answer with
  | error cause => exact of_pure _
  | ok text => exact of_pure _

theorem loadAll (mirrored : FileSystem.Mirrored n m place) (items : List (Path × LoadOptions))
    (set : HeaderMapSet) :
    Mirrors place (set.loadAll items : n _) (set.loadAll items : m _) := by
  induction items generalizing set with
  | nil => exact of_pure _
  | cons item items inductionHypothesis =>
    unfold HeaderMapSet.loadAll
    split
    · exact inductionHypothesis set
    · refine (mirrored.load item.1 item.2).bind fun answer => ?_
      cases answer with
      | error failure => exact of_pure _
      | ok map => exact inductionHypothesis _

open CommandLine in
theorem searchConfig (mirrored : FileSystem.Mirrored n m place) (invocation : Invocation) :
    Mirrors place (invocation.searchConfig : n _) (invocation.searchConfig : m _) := by
  unfold Invocation.searchConfig
  dsimp only
  split
  · exact of_pure _
  · refine (mirrored.read _).bind fun answer => ?_
    cases answer with
    | error cause => exact of_pure _
    | ok text =>
      dsimp only
      split
      · exact of_pure _
      · exact of_pure _

end FileSystem.Mirrored

namespace FileStore.Mirrored

variable [FileStore n] [FileStore m] (mirrored : FileStore.Mirrored n m place)

include mirrored

/-- A store beside a memo of a search list. -/
theorem carryingMemo :
    FileStore.Mirrored (StateT SearchMemo n) (StateT SearchMemo m) (Prod.map id place) where
  directory? path := of_lift (mirrored.directory? path)
  file? directory name := of_lift (mirrored.file? directory name)
  directoryPath directory := of_lift (mirrored.directoryPath directory)
  filePath file := of_lift (mirrored.filePath file)

theorem findBundle (directory : DirHandle) (framework : String) :
    Mirrors place (Framework.findBundle directory framework : n _)
      (Framework.findBundle directory framework : m _) := by
  refine (mirrored.directoryPath directory).bind fun above => ?_
  refine (mirrored.directory? _).bind fun root => ?_
  cases root with
  | none => exact of_pure _
  | some root =>
    refine (mirrored.directory? _).bind fun headers => ?_
    exact (mirrored.directory? _).bind fun hidden => of_pure _

theorem bundleAt (index : Nat) (directory : DirHandle) (framework : String) :
    Mirrors (Prod.map id place)
      (SearchMemo.bundleAt index directory framework : StateT SearchMemo n _)
      (SearchMemo.bundleAt index directory framework : StateT SearchMemo m _) := by
  refine of_get.bind fun memo => ?_
  split
  · exact of_pure _
  · refine (mirrored.carryingMemo.findBundle directory framework).bind fun bundle => ?_
    exact (of_modify _).bind fun _ => of_pure bundle

theorem firstHolding (name : String) (directories : List DirHandle) :
    Mirrors place (Framework.firstHolding name directories : n _)
      (Framework.firstHolding name directories : m _) := by
  induction directories with
  | nil => exact of_pure none
  | cons directory directories inductionHypothesis =>
    refine (mirrored.file? directory name).bind fun file => ?_
    cases file with
    | none => exact inductionHypothesis
    | some file => exact of_pure _

theorem fileFor (map : HeaderMap) (name : String) :
    Mirrors place (map.fileFor name : n _) (map.fileFor name : m _) := by
  unfold HeaderMap.fileFor
  split
  · exact of_pure none
  · refine (mirrored.directory? _).bind fun directory => ?_
    cases directory with
    | none => exact of_pure none
    | some directory => exact mirrored.file? directory _

/-- Looking into a place, if bundles are found by mirrored computations. -/
theorem probe {largeBundle : DirHandle → String → n Bundle}
    {smallBundle : DirHandle → String → m Bundle}
    (bundles : ∀ directory framework,
      Mirrors place (largeBundle directory framework) (smallBundle directory framework))
    (frameworks : List String) (entryPlace : SearchPlace) (name : String) :
    Mirrors place (entryPlace.probe largeBundle frameworks name)
      (entryPlace.probe smallBundle frameworks name) := by
  unfold SearchPlace.probe
  split
  · exact (mirrored.file? _ name).bind fun found => of_pure _
  · split
    · exact of_pure none
    · refine (bundles _ _).bind fun bundle => ?_
      exact (mirrored.firstHolding _ _).bind fun found => of_pure _
  · refine (mirrored.fileFor _ name).bind fun whole => ?_
    cases whole with
    | some file => exact of_pure _
    | none =>
      dsimp only
      split
      · exact (mirrored.fileFor _ _).bind fun rest => of_pure _
      · exact of_pure none

theorem searchPath (entryPlace : SearchPlace) (searchDirectory : Option DirHandle) :
    Mirrors place (entryPlace.searchPath searchDirectory : n _)
      (entryPlace.searchPath searchDirectory : m _) := by
  unfold SearchPlace.searchPath
  split
  · exact (mirrored.directoryPath _).bind fun path => of_pure _
  · exact of_pure _

theorem ofPath (path : Path) (isDirectory isSystem : Bool) :
    Mirrors place (Includer.ofPath path isDirectory isSystem : n _)
      (Includer.ofPath path isDirectory isSystem : m _) := by
  refine (mirrored.directory? _).bind fun found => ?_
  cases found with
  | none => exact of_pure _
  | some handle => exact of_pure _

theorem enter (entry : ConfigEntry) (maps : HeaderMapSet) (start index : Nat)
    (partialList : PartialList) :
    Mirrors place (entry.enter maps start index partialList : n _)
      (entry.enter maps start index partialList : m _) := by
  -- Directories are asked for, and header maps are looked up in the set.
  have located : Mirrors place (entry.locate maps : n _) (entry.locate maps : m _) := by
    unfold ConfigEntry.locate
    split
    · exact (mirrored.directory? _).bind fun found => of_pure _
    · exact (mirrored.directory? _).bind fun found => of_pure _
    · split
      · exact of_pure _
      · exact of_pure _
  unfold ConfigEntry.enter
  split
  · exact of_pure _
  · refine located.bind fun answer => ?_
    split
    · exact of_pure _
    · exact of_pure _
    · dsimp only
      split
      · exact of_pure _
      · exact of_pure _

theorem enterAll (maps : HeaderMapSet) (start index : Nat) (partialList : PartialList)
    (entries : List ConfigEntry) :
    Mirrors place (ConfigEntry.enterAll maps start index partialList entries : n _)
      (ConfigEntry.enterAll maps start index partialList entries : m _) := by
  induction entries generalizing index partialList with
  | nil => exact of_pure _
  | cons entry entries inductionHypothesis =>
    refine (mirrored.enter entry maps start index partialList).bind fun answer => ?_
    cases answer with
    | error failure => exact of_pure _
    | ok larger => exact inductionHypothesis (index + 1) larger

theorem build (config : Config) (maps : HeaderMapSet) :
    Mirrors place (config.build maps : n _) (config.build maps : m _) := by
  unfold Config.build
  dsimp only
  split
  · exact of_pure _
  · refine (mirrored.enterAll _ _ _ _ _).bind fun answer => ?_
    cases answer with
    | error failure => exact of_pure _
    | ok partialList => exact of_pure _

variable (list : SearchList)

theorem scan (name : String) (items : List (SearchEntry × Nat)) :
    Mirrors (Prod.map id place) (list.scan name items : StateT SearchMemo n _)
      (list.scan name items : StateT SearchMemo m _) := by
  induction items with
  | nil => exact of_pure none
  | cons item items inductionHypothesis =>
    refine (of_modify _).bind fun _ => ?_
    refine (mirrored.carryingMemo.probe (mirrored.bundleAt item.2) _ item.1.place name).bind
      fun found => ?_
    cases found with
    | none => exact inductionHypothesis
    | some found => exact of_pure _

theorem lookInList (name : String) (kind : IncludeKind) :
    Mirrors (Prod.map id place) (list.lookInList name kind : StateT SearchMemo n _)
      (list.lookInList name kind : StateT SearchMemo m _) := by
  refine of_get.bind fun memo => ?_
  split
  · exact of_pure _
  · refine (mirrored.scan list name _).bind fun outcome => ?_
    exact (of_modify _).bind fun _ => of_pure _

theorem lookBesideFor (name : String) (kind : IncludeKind) (includer : Option Includer) :
    Mirrors (Prod.map id place)
      (SearchList.lookBesideFor name kind includer : StateT SearchMemo n _)
      (SearchList.lookBesideFor name kind includer : StateT SearchMemo m _) := by
  unfold SearchList.lookBesideFor
  split
  · refine of_get.bind fun memo => ?_
    split
    · exact of_pure _
    · refine (of_lift (mirrored.file? _ name)).bind fun file => ?_
      exact (of_modify _).bind fun _ => of_pure _
  · exact of_pure _

variable [LawfulMonad m] [LawfulMonad n]

theorem answer (name : String) (want : PathRequest) (hit : Hit) :
    Mirrors place (list.answer name want hit : n _) (list.answer name want hit : m _) := by
  have path : Mirrors place (list.searchPathOf hit : n _) (list.searchPathOf hit : m _) := by
    unfold SearchList.searchPathOf
    split
    · split
      · exact mirrored.searchPath _ _
      · exact of_pure _
    · exact (mirrored.directoryPath _).bind fun path => of_pure _
    · exact of_pure _
  unfold SearchList.answer
  dsimp only
  split
  · exact (path.map some).bind fun searchPath => of_pure _
  · exact (of_pure none).bind fun searchPath => of_pure _

theorem resolve (name : String) (kind : IncludeKind) (includer : Option Includer)
    (want : PathRequest) :
    Mirrors (Prod.map id place) (list.resolve name kind includer want : StateT SearchMemo n _)
      (list.resolve name kind includer want : StateT SearchMemo m _) := by
  have answered (hit : Hit) := (mirrored.carryingMemo.answer list name want hit).map some
  refine (of_modify _).bind fun _ => ?_
  refine (mirrored.lookBesideFor name kind includer).bind fun outcome => ?_
  obtain ⟨beside, remembered⟩ := outcome
  cases beside with
  | some hit =>
    refine (of_modify _).bind fun _ => ?_
    exact (of_modify _).bind fun _ => answered hit
  | none =>
    refine (mirrored.lookInList list name kind).bind fun outcome => ?_
    obtain ⟨listed, remembered⟩ := outcome
    refine (of_modify _).bind fun _ => ?_
    cases listed with
    | some hit => exact answered hit
    | none => exact (of_modify _).bind fun _ => of_pure none

theorem report (name : String) (kind : IncludeKind) (includer : Option Includer)
    (want : PathRequest) :
    Mirrors (Prod.map id place) (list.report name kind includer want : StateT SearchMemo n _)
      (list.report name kind includer want : StateT SearchMemo m _) := by
  refine (mirrored.resolve list name kind includer want).bind fun found => ?_
  cases found with
  | none => exact of_pure _
  | some header => exact (mirrored.carryingMemo.filePath header.file).bind fun path => of_pure _

theorem resolveNames (names : List String) (kind : IncludeKind) (includer : Option Includer) :
    Mirrors (Prod.map id place) (list.resolveNames names kind includer : StateT SearchMemo n _)
      (list.resolveNames names kind includer : StateT SearchMemo m _) :=
  Mirrors.mapM (fun _ => mirrored.report list _ _ includer .all) names

theorem resolveDirectives (includer : Includer) (directives : List Directive) :
    Mirrors (Prod.map id place)
      (list.resolveDirectives includer directives : StateT SearchMemo n _)
      (list.resolveDirectives includer directives : StateT SearchMemo m _) := by
  refine Mirrors.mapM (fun directive => ?_) directives
  exact (mirrored.report list directive.name directive.kind (some includer) .all).bind
    fun item => of_pure _

end FileStore.Mirrored

end HeaderSearch
