import Mathlib.Data.List.Forall2
import HeaderSearch.Proofs.PlainAnswer
import HeaderSearch.Proofs.Reading

/-!
# Looking into places under a reading

A place of a running store and a place of the view correspond when they are of one sort, have one
name, and the handle of the one stands for the handle of the other. Looking for a name in
corresponding places then finds corresponding files. The way to find the bundle of a framework is
left open here as it is in `SearchPlace.probe`; it only has to find what the view has.
-/

namespace HeaderSearch

namespace Naming

/-- Two bundles correspond when their header directories do. -/
structure BundleAs (naming : Naming) (bundle meant : Bundle) : Prop where
  headers : Option.Rel naming.DirectoryAs bundle.headers meant.headers
  privateHeaders : Option.Rel naming.DirectoryAs bundle.privateHeaders meant.privateHeaders

/-- Two files found in a place correspond when they differ in handles at most, and these do. -/
structure FoundAs (naming : Naming) (found meant : PlaceHit) : Prop where
  file : naming.FileAs found.file meant.file
  searchDirectory : Option.Rel naming.DirectoryAs found.searchDirectory meant.searchDirectory
  relativeStart : found.relativeStart = meant.relativeStart
  isSystemFramework : found.isSystemFramework = meant.isSystemFramework

/-- Two places correspond when they differ in handles at most, and these do. -/
inductive PlaceAs (naming : Naming) : SearchPlace → SearchPlace → Prop where
  | directory {handle meaning : DirHandle} (name : String)
      (known : naming.DirectoryAs handle meaning) :
      PlaceAs naming (.directory handle name) (.directory meaning name)
  | framework {handle meaning : DirHandle} (name : String)
      (known : naming.DirectoryAs handle meaning) :
      PlaceAs naming (.framework handle name) (.framework meaning name)
  | headerMap (map : HeaderMap) (isIndex : Bool) :
      PlaceAs naming (.headerMap map isIndex) (.headerMap map isIndex)

variable {before after : Naming}

theorem BundleAs.keep {bundle meant : Bundle} (same : before.BundleAs bundle meant)
    (keeps : before.Keeps after) : after.BundleAs bundle meant :=
  ⟨related_grow same.headers fun _ _ => keeps.directory,
    related_grow same.privateHeaders fun _ _ => keeps.directory⟩

theorem PlaceAs.keep {place meant : SearchPlace} (same : before.PlaceAs place meant)
    (keeps : before.Keeps after) : after.PlaceAs place meant := by
  cases same with
  | directory name known => exact .directory name (keeps.directory known)
  | framework name known => exact .framework name (keeps.directory known)
  | headerMap map isIndex => exact .headerMap map isIndex

/-- The header directories of corresponding bundles correspond, the public ones first. -/
theorem BundleAs.directories {naming : Naming} {bundle meant : Bundle}
    (same : naming.BundleAs bundle meant) :
    List.Forall₂ naming.DirectoryAs
      (bundle.headers.toList ++ bundle.privateHeaders.toList)
      (meant.headers.toList ++ meant.privateHeaders.toList) := by
  have listed {first second : Option DirHandle}
      (related : Option.Rel naming.DirectoryAs first second) :
      List.Forall₂ naming.DirectoryAs first.toList second.toList := by
    cases related with
    | some here => exact .cons here .nil
    | none => exact .nil
  exact List.rel_append (listed same.headers) (listed same.privateHeaders)

end Naming

namespace Reading

variable {ω : Type} {reading : Reading ω}
variable {m : Type → Type} [Monad m] [Runs m ω] [FileStore m] {view : FileView} {state : ω}

/-- Finding the bundle of a framework finds the bundle of the view. -/
theorem find_bundle_yields (faithful : reading.Faithful m view) {handle meaning : DirHandle}
    (framework : String) (sound : reading.sound state)
    (known : (reading.naming state).DirectoryAs handle meaning) :
    reading.Yields (Framework.findBundle handle framework : m Bundle) state fun after bundle =>
      (reading.naming after).BundleAs bundle (view.bundle meaning framework) := by
  unfold Framework.findBundle FileView.bundle
  refine (faithful.directoryPath sound known).bind fun above atAbove sound _ same => ?_
  subst same
  refine (faithful.directory? _ sound).bind fun root atRoot sound _ rooted => ?_
  simp only [Framework.findBundle, Observed.value_bind, Observed.value_directoryPath,
    Observed.value_directory?]
  rcases related_cases rooted with ⟨rfl, absent⟩ | ⟨_, _, rfl, present, _⟩
  · rw [absent]
    exact .of_pure sound ⟨.none, .none⟩
  · rw [present]
    refine (faithful.directory? _ sound).bind fun headers atHeaders sound _ isHeaders => ?_
    refine (faithful.directory? _ sound).bind fun hidden atHidden sound keeps isHidden => ?_
    exact .of_pure sound ⟨related_grow isHeaders fun _ _ => keeps.directory, isHidden⟩

/-- The first of some directories that holds a name corresponds to the first of the directories that
    they stand for. Induct on the directories: one that does not hold the name is passed over on
    both sides, and the rest still stand for what they stood for. -/
theorem first_holding_yields (faithful : reading.Faithful m view) (name : String)
    {handles meanings : List DirHandle} (sound : reading.sound state)
    (known : List.Forall₂ (reading.naming state).DirectoryAs handles meanings) :
    reading.Yields (Framework.firstHolding name handles : m (Option (DirHandle × FileHandle))) state
      fun after found =>
        Option.Rel (fun here there => (reading.naming after).DirectoryAs here.1 there.1 ∧
          (reading.naming after).FileAs here.2 there.2) found
          (Framework.firstHolding name meanings : Observed view _).value := by
  induction handles generalizing state meanings with
  | nil =>
    cases known
    exact .of_pure sound .none
  | cons handle handles inductionHypothesis =>
    obtain ⟨meaning, others, first, rest, rfl⟩ := List.forall₂_cons_left_iff.mp known
    unfold Framework.firstHolding
    refine (faithful.file? name sound first).bind fun file after sound keeps held => ?_
    simp only [Observed.value_bind, Observed.value_file?]
    rcases related_cases held with ⟨rfl, absent⟩ | ⟨_, _, rfl, present, here⟩
    · rw [absent]
      exact inductionHypothesis sound (rest.imp fun _ _ => keeps.directory)
    · rw [present]
      exact .of_pure sound (.some ⟨keeps.directory first, here⟩)

/-- Whatever finds bundles for a place finds those of the place that it stands for. Only a directory of
    frameworks has any. -/
def FindsBundles (reading : Reading ω) (view : FileView) (bundleOf : DirHandle → String → m Bundle) :
    SearchPlace → SearchPlace → Prop
  | .framework handle _, .framework meaning _ =>
    ∀ framework state, reading.sound state → (reading.naming state).DirectoryAs handle meaning →
      reading.Yields (bundleOf handle framework) state fun after bundle =>
        (reading.naming after).BundleAs bundle (view.bundle meaning framework)
  | _, _ => True

/-- The file that a header map names corresponds to the one that it names in the view. -/
theorem file_for_yields (faithful : reading.Faithful m view) (map : HeaderMap) (name : String)
    (sound : reading.sound state) :
    reading.Yields (map.fileFor name : m (Option FileHandle)) state fun after found =>
      Option.Rel (reading.naming after).FileAs found (map.fileFor name : Observed view _).value := by
  unfold HeaderMap.fileFor
  cases (map.lookup? name).bind fun target => (Path.mk target).splitFile? with
  | none => exact .of_pure sound .none
  | some target =>
    refine (faithful.directory? _ sound).bind fun directory between sound _ located => ?_
    simp only [Observed.value_bind, Observed.value_directory?]
    rcases related_cases located with ⟨rfl, absent⟩ | ⟨_, _, rfl, present, known⟩
    · rw [absent]
      exact .of_pure sound .none
    · rw [present]
      exact faithful.file? _ sound known

/-- Looking into a header map finds what the view has. -/
theorem header_map_yields (faithful : reading.Faithful m view) (map : HeaderMap)
    (frameworks : List String) (isIndex : Bool) (name : String) (sound : reading.sound state) :
    reading.Yields (map.probe frameworks isIndex name : m (Option PlaceHit)) state fun after found =>
      Option.Rel (reading.naming after).FoundAs found
        (map.probe frameworks isIndex name : Observed view _).value := by
  unfold HeaderMap.probe
  refine (file_for_yields faithful map name sound).bind fun whole between sound _ held => ?_
  simp only [Observed.value_bind]
  rcases related_cases held with ⟨rfl, absent⟩ | ⟨_, _, rfl, present, here⟩
  · rw [absent]
    -- Only an index map asked for a name with a framework goes on to the rest of the name.
    cases isIndex with
    | false => exact .of_pure sound .none
    | true =>
      cases Framework.splitName? name with
      | none => exact .of_pure sound .none
      | some split =>
        refine (file_for_yields faithful map split.2 sound).bind fun rest after sound _ held => ?_
        refine .of_pure sound ?_
        simp only [Observed.value_bind, Observed.value_pure]
        exact related_map held fun _ _ here => ⟨here, .none, rfl, rfl⟩
  · rw [present]
    exact .of_pure sound (.some ⟨here, .none, rfl, rfl⟩)

/-- Looking into a bundle finds what the view has in the bundle that it stands for. -/
theorem framework_yields (faithful : reading.Faithful m view)
    {bundleOf : DirHandle → String → m Bundle} (frameworks : List String)
    {handle meaning : DirHandle} (framework rest : String)
    (bundled : reading.Yields (bundleOf handle framework) state fun after bundle =>
      (reading.naming after).BundleAs bundle (view.bundle meaning framework)) :
    reading.Yields (Framework.probe bundleOf frameworks handle framework rest) state
      fun after found => Option.Rel (reading.naming after).FoundAs found
        (Framework.probe Framework.findBundle frameworks meaning framework rest :
          Observed view _).value := by
  unfold Framework.probe
  refine bundled.bind fun bundle between sound _ same => ?_
  refine (first_holding_yields faithful rest sound same.directories).bind
    fun found after sound _ held => ?_
  refine .of_pure sound ?_
  simp only [Observed.value_bind, Observed.value_pure]
  change Option.Rel _ _ (((Framework.firstHolding rest
    ((view.bundle meaning framework).headers.toList ++
      (view.bundle meaning framework).privateHeaders.toList) : Observed view _).value).map _)
  exact related_map held fun _ _ known => ⟨known.2, .some known.1, rfl, rfl⟩

/-- Looking into a place finds what the view has in the place that it stands for, provided that
    bundles are found as the view has them. -/
theorem probe_yields (faithful : reading.Faithful m view) {bundleOf : DirHandle → String → m Bundle}
    (frameworks : List String) {place meant : SearchPlace} (name : String)
    (sound : reading.sound state) (same : (reading.naming state).PlaceAs place meant)
    (bundles : reading.FindsBundles view bundleOf place meant) :
    reading.Yields (place.probe bundleOf frameworks name) state fun after found =>
      Option.Rel (reading.naming after).FoundAs found (view.probe frameworks meant name) := by
  cases same with
  | directory configured known =>
    unfold FileView.probe SearchPlace.probe
    refine (faithful.file? name sound known).bind fun found after sound keeps held => ?_
    refine .of_pure sound ?_
    simp only [Observed.value_bind, Observed.value_file?, Observed.value_pure]
    exact related_map held fun _ _ here => ⟨here, .some (keeps.directory known), rfl, rfl⟩
  | framework configured known =>
    unfold FileView.probe SearchPlace.probe
    cases Framework.splitName? name with
    | none => exact .of_pure sound .none
    | some split =>
      exact framework_yields faithful frameworks split.1 split.2 (bundles _ _ sound known)
  | headerMap map isIndex => exact header_map_yields faithful map frameworks isIndex name sound

/-- The search path of a file is the one reported for the file that it stands for. -/
theorem search_path_yields (faithful : reading.Faithful m view) {place meant : SearchPlace}
    {directory meaning : Option DirHandle} (sound : reading.sound state)
    (same : (reading.naming state).PlaceAs place meant)
    (known : Option.Rel (reading.naming state).DirectoryAs directory meaning) :
    reading.Yields (place.searchPath directory : m String) state fun _ path =>
      path = view.searchPath meant meaning := by
  cases same with
  | directory configured _ => exact .of_pure sound rfl
  | headerMap map isIndex => exact .of_pure sound rfl
  | framework configured _ =>
    cases known with
    | none => exact .of_pure sound rfl
    | some known =>
      refine (faithful.directoryPath sound known).bind fun path after sound _ same => ?_
      subst same
      exact .of_pure sound rfl

end Reading

end HeaderSearch
