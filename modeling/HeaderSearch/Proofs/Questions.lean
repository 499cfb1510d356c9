import HeaderSearch.Proofs.Caching

/-!
# The questions of a lookup

Looking for a name in a place asks a view certain questions, in a certain order, which the view's
answers decide. Here these questions are listed for each sort of place, the questions after the bundle
of a framework apart from the others, since a memo can make them unnecessary. A search through entries
asks the questions of each entry up to the first that has the name, and all that it leaves in the memo
are the bundles that these entries needed.
-/

namespace HeaderSearch

namespace FileView

variable (view : FileView)

/-- The questions after the bundle of a framework: first whether the bundle is there, and then about
    its header directories if it is. -/
def bundleQuestions (directory : DirHandle) (framework : String) : List Query :=
  let root := (view.directoryPath directory).join (Framework.bundleName framework)
  .directory root ::
    if (view.directory? root).isSome then
      [.directory (root.join "Headers"), .directory (root.join "PrivateHeaders")]
    else []

/-- The questions whether directories hold a name, up to the first that does. -/
def holdingQuestions (name : String) : List DirHandle → List Query
  | [] => []
  | directory :: others =>
    .file directory name ::
      if (view.file? directory name).isSome then [] else holdingQuestions name others

/-- The file that a header map leads to from a name. -/
def target? (map : HeaderMap) (name : String) : Option FileHandle :=
  (map.fileFor name : Observed view _).value

/-- The questions about the file that a header map leads to from a name. -/
def targetQuestions (map : HeaderMap) (name : String) : List Query :=
  match (map.lookup? name).bind fun target => (Path.mk target).splitFile? with
  | none => []
  | some (parent, file) =>
    let directory := if parent.isEmpty then Path.here else parent
    .directory directory ::
      match view.directory? directory with
      | none => []
      | some handle => [.file handle file]

/-- The questions of a header map about a name: about the whole name, and then about the part after the
    framework if the map is an index map and the whole name leads nowhere. -/
def mapQuestions (map : HeaderMap) (isIndex : Bool) (name : String) : List Query :=
  view.targetQuestions map name ++
    match view.target? map name, isIndex, Framework.splitName? name with
    | none, true, some (_, rest) => view.targetQuestions map rest
    | _, _, _ => []

/-- The questions of a place about a name, other than those after a bundle. -/
def placeQuestions (place : SearchPlace) (name : String) : List Query :=
  match place with
  | .directory handle _ => [.file handle name]
  | .framework handle _ =>
    match Framework.splitName? name with
    | none => []
    | some (framework, rest) =>
      let bundle := view.bundle handle framework
      view.holdingQuestions rest (bundle.headers.toList ++ bundle.privateHeaders.toList)
  | .headerMap map isIndex => view.mapQuestions map isIndex name

end FileView

/-- What a lookup has asked a view, with whom it asked it for. -/
inductive Asking where
  /-- Whether the directory of an including file holds a name. -/
  | beside (directory : DirHandle) (name : String)
  /-- For the bundle of a framework below the directory of the entry at a position. -/
  | bundle (index : Nat) (directory : DirHandle) (framework : String)
  /-- For a name in a place, the bundle being known. -/
  | place (place : SearchPlace) (name : String)

/-- The questions that an asking consists of. -/
def FileView.questions (view : FileView) : Asking → List Query
  | .beside directory name => [.file directory name]
  | .bundle _ directory framework => view.bundleQuestions directory framework
  | .place place name => view.placeQuestions place name

/-- The position and the framework that an asking is after the bundle of. -/
def Asking.bundle? : Asking → Option (Nat × String)
  | .bundle index _ framework => some (index, framework)
  | _ => none

namespace SearchEntry

/-- The bundle that the entry at a position needs to look for a name. -/
def bundle? (entry : SearchEntry) (name : String) : Option (DirHandle × String) :=
  match entry.place with
  | .framework handle _ => (Framework.splitName? name).map fun split => (handle, split.1)
  | _ => none

/-- The position of the entry and the framework whose bundle it needs to look for a name. -/
def bundleKeys (entry : SearchEntry) (index : Nat) (name : String) : List (Nat × String) :=
  ((entry.bundle? name).map fun needed => (index, needed.2)).toList

/-- What the entry at a position asks to look for a name, when some bundles are known. -/
def askings (entry : SearchEntry) (index : Nat) (name : String) (known : List (Nat × String)) :
    List Asking :=
  match entry.bundle? name with
  | some (directory, framework) =>
    if (index, framework) ∈ known then [.place entry.place name]
    else [.bundle index directory framework, .place entry.place name]
  | none => [.place entry.place name]

end SearchEntry

/-- The memo holds the bundles of these positions and frameworks. -/
def SearchMemo.HoldsBundles (memo : SearchMemo) (known : List (Nat × String)) : Prop :=
  ∀ key, (memo.bundles.get? key).isSome ↔ key ∈ known

namespace Naming

/-- Bundles that correspond when every handle stands for itself are equal. -/
theorem BundleAs.eq {bundle meant : Bundle} (same : itself.BundleAs bundle meant) :
    bundle = meant := by
  obtain ⟨headers, privateHeaders⟩ := bundle
  have sameHeaders := related_eq same.headers fun _ _ => Option.some.inj
  have samePrivate := related_eq same.privateHeaders fun _ _ => Option.some.inj
  simp_all

/-- Hits that correspond when every handle stands for itself are equal. -/
theorem HitAs.eq {hit meant : Hit} (same : itself.HitAs hit meant) : hit = meant := by
  obtain ⟨file, origin, searchDirectory, relativeStart, isSystemFramework, characteristic⟩ := hit
  have sameFile := Option.some.inj same.file
  have sameDirectory := related_eq same.searchDirectory fun _ _ => Option.some.inj
  have := same.origin
  have := same.relativeStart
  have := same.isSystemFramework
  have := same.characteristic
  simp_all

end Naming

namespace Reading

variable {view : FileView} {memo : SearchMemo} {log : List Query}

@[simp] theorem run_directory? (path : Path) :
    Runs.run (FileStore.directory? path : StateT SearchMemo (Observed view) _) (memo, log) =
      (view.directory? path, memo, log ++ [.directory path]) := rfl

@[simp] theorem run_file? (directory : DirHandle) (name : String) :
    Runs.run (FileStore.file? directory name : StateT SearchMemo (Observed view) _) (memo, log) =
      (view.file? directory name, memo, log ++ [.file directory name]) := rfl

@[simp] theorem run_directoryPath (directory : DirHandle) :
    Runs.run (FileStore.directoryPath directory : StateT SearchMemo (Observed view) _)
      (memo, log) = (view.directoryPath directory, memo, log) :=
  Prod.ext rfl (Prod.ext rfl (List.append_nil log))

/-- Finding a bundle asks its questions. -/
theorem run_find_bundle (directory : DirHandle) (framework : String) :
    Runs.run (Framework.findBundle directory framework : StateT SearchMemo (Observed view) _)
      (memo, log) =
      (view.bundle directory framework, memo, log ++ view.bundleQuestions directory framework) := by
  unfold FileView.bundle FileView.bundleQuestions Framework.findBundle
  simp only [Runs.run_bind, run_directoryPath, run_directory?, Observed.value_bind,
    Observed.value_directoryPath, Observed.value_directory?]
  cases view.directory?
    ((view.directoryPath directory).join (Framework.bundleName framework)) with
  | none => simp
  | some root => simp

/-- Asking directories for a name asks its questions. -/
theorem run_first_holding (name : String) (directories : List DirHandle) :
    Runs.run (Framework.firstHolding name directories : StateT SearchMemo (Observed view) _)
      (memo, log) =
      ((Framework.firstHolding name directories : Observed view _).value, memo,
        log ++ view.holdingQuestions name directories) := by
  induction directories generalizing log with
  | nil => simp [Framework.firstHolding, FileView.holdingQuestions]
  | cons directory others inductionHypothesis =>
    unfold Framework.firstHolding FileView.holdingQuestions
    simp only [Runs.run_bind, run_file?, Observed.value_bind, Observed.value_file?]
    cases view.file? directory name with
    | none => simp [inductionHypothesis]
    | some file => simp

/-- Following a header map asks its questions. -/
theorem run_file_for (map : HeaderMap) (name : String) :
    Runs.run (map.fileFor name : StateT SearchMemo (Observed view) _) (memo, log) =
      (view.target? map name, memo, log ++ view.targetQuestions map name) := by
  unfold FileView.target? FileView.targetQuestions HeaderMap.fileFor
  cases (map.lookup? name).bind fun target => (Path.mk target).splitFile? with
  | none => simp
  | some target =>
    simp only [Runs.run_bind, run_directory?, Observed.value_bind, Observed.value_directory?]
    cases view.directory? (if target.1.isEmpty = true then Path.here else target.1) with
    | none => simp
    | some handle => simp

/-- Looking into a header map asks its questions. -/
theorem run_map_probe (map : HeaderMap) (frameworks : List String) (isIndex : Bool)
    (name : String) :
    Runs.run (map.probe frameworks isIndex name : StateT SearchMemo (Observed view) _) (memo, log) =
      ((map.probe frameworks isIndex name : Observed view _).value, memo,
        log ++ view.mapQuestions map isIndex name) := by
  have target : (map.fileFor name : Observed view _).value = view.target? map name := rfl
  unfold FileView.mapQuestions HeaderMap.probe
  simp only [Runs.run_bind, run_file_for, Observed.value_bind, target]
  cases view.target? map name with
  | some file => simp
  | none =>
    -- Only an index map asked for a name with a framework goes on to the rest of the name.
    cases isIndex with
    | false => simp
    | true =>
      cases Framework.splitName? name with
      | none => simp
      | some split =>
        simp only [Runs.run_bind, run_file_for, Runs.run_pure, Observed.value_bind,
          Observed.value_pure, List.append_assoc]
        rfl

variable {list : SearchList}

/-- The bundle for the entry at a position is asked for unless the memo holds it, and held then. -/
theorem run_bundle_at (log : List Query) {index : Nat} {entry : SearchEntry} {directory : DirHandle}
    {configured : String} (framework : String) (here : list.entries[index]? = some entry)
    (place : entry.place = .framework directory configured)
    (recalls : Naming.itself.Recalls view list memo) {known : List (Nat × String)}
    (holds : memo.HoldsBundles known) :
    ∃ after, Runs.run
        (SearchMemo.bundleAt index directory framework : StateT SearchMemo (Observed view) Bundle)
        (memo, log) =
        (view.bundle directory framework, after,
          log ++ if (index, framework) ∈ known then []
            else view.bundleQuestions directory framework) ∧
      after.cache = memo.cache ∧ after.stats = memo.stats ∧
      after.HoldsBundles (known ++ [(index, framework)]) := by
  unfold SearchMemo.bundleAt
  simp only [Runs.run_bind, Runs.run_get]
  cases held : memo.bundles.get? (index, framework) with
  | some bundle =>
    have isKnown : (index, framework) ∈ known := (holds _).mp (by simp [held])
    obtain ⟨other, meaning, named, there, otherPlace, same⟩ := recalls.bundles held
    obtain rfl : other = entry := Option.some.inj (there.symm.trans here)
    obtain ⟨rfl, -⟩ := SearchPlace.framework.inj (otherPlace.symm.trans place)
    refine ⟨memo, by simp [isKnown, same.eq], rfl, rfl, fun key => ?_⟩
    rw [holds key, List.mem_append, List.mem_singleton]
    exact ⟨.inl, fun either => either.elim id fun same => same ▸ isKnown⟩
  | none =>
    have isNew : (index, framework) ∉ known := fun member => by
      simpa [held] using (holds _).mpr member
    simp only [Runs.run_bind, run_find_bundle, Runs.run_modify, Runs.run_pure, isNew, if_false]
    refine ⟨_, rfl, rfl, rfl, fun key => ?_⟩
    simp only [Table.get?_insert, List.mem_append, List.mem_singleton, ← holds key]
    by_cases same : key = (index, framework) <;> simp [same]

/-- Looking into the entry at a position asks its questions, and leaves the bundle that it needed. -/
theorem run_probe_at (log : List Query) {index : Nat} {entry : SearchEntry} (name : String)
    (here : list.entries[index]? = some entry)
    (recalls : Naming.itself.Recalls view list memo) {known : List (Nat × String)}
    (holds : memo.HoldsBundles known) :
    ∃ after, Runs.run
        (list.probeAt entry index name : StateT SearchMemo (Observed view) (Option PlaceHit))
        (memo, log) =
        (view.probe list.systemFrameworks entry.place name, after,
          log ++ (entry.askings index name known).flatMap view.questions) ∧
      after.cache = memo.cache ∧ after.stats = memo.stats ∧
      after.HoldsBundles (known ++ entry.bundleKeys index name) := by
  unfold SearchList.probeAt FileView.probe SearchEntry.askings SearchEntry.bundleKeys
    SearchEntry.bundle?
  cases place : entry.place with
  | directory handle configured =>
    refine ⟨memo, ?_, rfl, rfl, by simpa using holds⟩
    simp [SearchPlace.probe, FileView.questions, FileView.placeQuestions]
  | headerMap map isIndex =>
    refine ⟨memo, ?_, rfl, rfl, by simpa using holds⟩
    simp [SearchPlace.probe, run_map_probe, FileView.questions, FileView.placeQuestions]
  | framework handle configured =>
    cases split : Framework.splitName? name with
    | none =>
      refine ⟨memo, ?_, rfl, rfl, by simpa using holds⟩
      simp [SearchPlace.probe, FileView.questions, FileView.placeQuestions, split]
    | some parts =>
      obtain ⟨framework, rest⟩ := parts
      obtain ⟨after, bundled, cache, stats, holdsAfter⟩ :=
        run_bundle_at log framework here place recalls holds
      refine ⟨after, ?_, cache, stats, by simpa using holdsAfter⟩
      have value : (Framework.findBundle handle framework : Observed view Bundle).value =
        view.bundle handle framework := rfl
      simp only [SearchPlace.probe, split, Framework.probe, Runs.run_bind, bundled,
        run_first_holding, Runs.run_pure, Observed.value_bind, Observed.value_pure, value,
        Option.map_some]
      by_cases member : (index, framework) ∈ known <;>
        simp [member, FileView.questions, FileView.placeQuestions, split]

end Reading

end HeaderSearch
