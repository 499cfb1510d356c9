import HeaderSearch.Proofs.Remembering

/-!
# Lookups under a reading

`Reading.carrying` reads a store that carries the memo of a list along: its states are sound when the
memo recalls the list. Every step of a lookup then ends in a sound state, so the memo is right after
any number of lookups, and the answer of `resolve` corresponds to the answer that `plainAnswer` gives
in the view without any memory.
-/

namespace HeaderSearch

namespace Reading

variable {α ω : Type}

/-- The reading of a store that carries along a memo of which something holds. -/
def along (reading : Reading ω) (holds : Naming → SearchMemo → Prop) : Reading (SearchMemo × ω) where
  sound state := reading.sound state.2 ∧ holds (reading.naming state.2) state.1
  naming state := reading.naming state.2

/-- The reading of a store that carries along a memo of a list. -/
def carrying (reading : Reading ω) (view : FileView) (meant : SearchList) :
    Reading (SearchMemo × ω) where
  sound state := reading.sound state.2 ∧ (reading.naming state.2).Recalls view meant state.1
  naming state := reading.naming state.2

variable {m : Type → Type} [Monad m] [Runs m ω] {reading : Reading ω} {state : SearchMemo × ω}

section Along

variable {holds : Naming → SearchMemo → Prop}

/-- Whatever the store yields it yields while the memo is carried along, if what holds of the memo
    holds of it when more handles stand for something. -/
theorem Yields.lift_along {computation : m α} {expected : ω → α → Prop}
    (kept : ∀ {after}, (reading.naming state.2).Keeps after → holds after state.1)
    (yielded : reading.Yields computation state.2 expected) :
    (reading.along holds).Yields (StateT.lift computation : StateT SearchMemo m α) state
      fun after value => expected after.2 value := by
  constructor <;> rw [Runs.run_lift]
  · exact ⟨yielded.sound, kept yielded.keeps⟩
  · exact yielded.keeps
  · exact yielded.result

/-- Reading the memo yields the memo of the state. -/
theorem Yields.of_get_along (sound : (reading.along holds).sound state) :
    (reading.along holds).Yields (get : StateT SearchMemo m SearchMemo) state
      fun after memo => memo = after.1 := by
  constructor <;> rw [Runs.run_get]
  · exact sound
  · exact Naming.Keeps.refl _

/-- Changing the memo is sound if the same holds of it afterwards. -/
theorem Yields.of_modify_along {change : SearchMemo → SearchMemo} (sound : reading.sound state.2)
    (held : holds (reading.naming state.2) (change state.1)) :
    (reading.along holds).Yields (modify change : StateT SearchMemo m Unit) state
      fun after _ => after = (change state.1, state.2) := by
  constructor <;> rw [Runs.run_modify]
  · exact ⟨sound, held⟩
  · exact Naming.Keeps.refl _

end Along

variable {view : FileView} {meant : SearchList}

/-- A memo of a list is carried along with what it recalls. -/
theorem carrying_eq_along : reading.carrying view meant =
    reading.along fun naming memo => naming.Recalls view meant memo := rfl

/-- Whatever the store yields it yields while the memo is carried along. -/
theorem Yields.lift {computation : m α} {expected : ω → α → Prop}
    (recalls : (reading.naming state.2).Recalls view meant state.1)
    (yielded : reading.Yields computation state.2 expected) :
    (reading.carrying view meant).Yields (StateT.lift computation : StateT SearchMemo m α) state
      fun after value => expected after.2 value := by
  rw [carrying_eq_along]
  exact .lift_along (fun keeps => recalls.keep keeps) yielded

/-- Reading the memo yields the memo of the state. -/
theorem Yields.of_get (sound : (reading.carrying view meant).sound state) :
    (reading.carrying view meant).Yields (get : StateT SearchMemo m SearchMemo) state
      fun after memo => memo = after.1 := by
  rw [carrying_eq_along] at sound ⊢
  exact .of_get_along sound

/-- Changing the memo is sound if the memo recalls the list afterwards. -/
theorem Yields.of_modify {change : SearchMemo → SearchMemo} (sound : reading.sound state.2)
    (recalls : (reading.naming state.2).Recalls view meant (change state.1)) :
    (reading.carrying view meant).Yields (modify change : StateT SearchMemo m Unit) state
      fun after _ => after = (change state.1, state.2) := by
  rw [carrying_eq_along]
  exact .of_modify_along sound recalls

/-- Counting something in the memo. -/
theorem Yields.of_count (sound : (reading.carrying view meant).sound state)
    (change : SearchStats → SearchStats) :
    (reading.carrying view meant).Yields
      (modify fun memo => memo.count change : StateT SearchMemo m Unit) state fun _ _ => True :=
  (Yields.of_modify sound.1 (sound.2.count change)).weaken fun _ _ _ _ => trivial

variable [FileStore m]

/-- A store that answers faithfully does so while the memo is carried along. -/
theorem Faithful.carrying (faithful : reading.Faithful m view) (meant : SearchList) :
    (reading.carrying view meant).Faithful (StateT SearchMemo m) view where
  directory? path sound := .lift sound.2 (faithful.directory? path sound.1)
  file? name sound known := .lift sound.2 (faithful.file? name sound.1 known)
  directoryPath sound known := .lift sound.2 (faithful.directoryPath sound.1 known)
  filePath sound known := .lift sound.2 (faithful.filePath sound.1 known)

/-- The bundle of a framework for the entry at a position is that of the view, whether it was
    remembered or is found now. -/
theorem bundle_at_yields (faithful : reading.Faithful m view) {index : Nat} {entry : SearchEntry}
    {handle meaning : DirHandle} {configured : String} (framework : String)
    (here : meant.entries[index]? = some entry) (place : entry.place = .framework meaning configured)
    (sound : (reading.carrying view meant).sound state)
    (known : (reading.naming state.2).DirectoryAs handle meaning) :
    (reading.carrying view meant).Yields
      (SearchMemo.bundleAt index handle framework : StateT SearchMemo m Bundle) state
      fun after bundle =>
        (reading.naming after.2).BundleAs bundle (view.bundle meaning framework) := by
  unfold SearchMemo.bundleAt
  refine (Yields.of_get sound).bind fun memo between sound keeps same => ?_
  subst same
  split
  · next bundle remembered =>
    obtain ⟨other, meant, named, there, otherPlace, same⟩ := sound.2.bundles remembered
    obtain rfl : other = entry := Option.some.inj (there.symm.trans here)
    obtain ⟨rfl, -⟩ := SearchPlace.framework.inj (otherPlace.symm.trans place)
    exact .of_pure sound same
  · refine (find_bundle_yields (faithful.carrying meant) framework sound
      (keeps.directory known)).bind fun bundle found sound _ same => ?_
    refine (Yields.of_modify sound.1 (sound.2.insertBundle here place same)).bind
      fun _ after sound _ changed => ?_
    subst changed
    exact .of_pure sound same

/-- Looking into the entry at a position finds what the view has there. -/
theorem probe_at_yields (faithful : reading.Faithful m view) {list : SearchList}
    {entry entryMeant : SearchEntry} {index : Nat} (name : String)
    (sound : (reading.carrying view meant).sound state)
    (frameworks : list.systemFrameworks = meant.systemFrameworks)
    (same : (reading.naming state.2).EntryAs entry entryMeant)
    (here : meant.entries[index]? = some entryMeant) :
    (reading.carrying view meant).Yields
      (list.probeAt entry index name : StateT SearchMemo m (Option PlaceHit)) state
      fun after found => Option.Rel (reading.naming after.2).FoundAs found
        (view.probe meant.systemFrameworks entryMeant.place name) := by
  unfold SearchList.probeAt
  rw [frameworks]
  refine probe_yields (faithful.carrying meant) _ name sound same.place ?_
  generalize placeMeant : entryMeant.place = target
  cases entry.place with
  | framework handle configured =>
    cases target with
    | framework meaning other =>
      intro framework state sound known
      exact bundle_at_yields faithful framework here placeMeant sound known
    | directory => trivial
    | headerMap => trivial
  | directory => trivial
  | headerMap => trivial

/-- Searching entries in order comes to the hit of the search without memory. Induct on the entries:
    one that does not have the name is passed over on both sides, and bundles that it left in the
    memo are right. -/
theorem scan_yields (faithful : reading.Faithful m view) {list : SearchList} (name : String)
    {items itemsMeant : List (SearchEntry × Nat)}
    (sound : (reading.carrying view meant).sound state)
    (frameworks : list.systemFrameworks = meant.systemFrameworks)
    (same : List.Forall₂ (fun item itemMeant =>
      (reading.naming state.2).EntryAs item.1 itemMeant.1 ∧ item.2 = itemMeant.2 ∧
        meant.entries[itemMeant.2]? = some itemMeant.1) items itemsMeant) :
    (reading.carrying view meant).Yields
      (list.scan name items : StateT SearchMemo m (Option Hit)) state
      fun after hit => Option.Rel (reading.naming after.2).HitAs hit
        (meant.plainScan view name itemsMeant) := by
  induction items generalizing state itemsMeant with
  | nil =>
    cases same
    exact .of_pure sound .none
  | cons item items inductionHypothesis =>
    obtain ⟨⟨entryMeant, index⟩, others, ⟨entrySame, rfl, here⟩, rest, rfl⟩ :=
      List.forall₂_cons_left_iff.mp same
    unfold SearchList.scan SearchList.plainScan
    refine (Yields.of_count sound _).bind fun _ counted sound keeps _ => ?_
    refine (probe_at_yields faithful name sound frameworks (entrySame.keep keeps) here).bind
      fun found after sound further held => ?_
    rw [List.findSome?_cons]
    rcases related_cases held with ⟨rfl, absent⟩ | ⟨_, _, rfl, present, found⟩
    · rw [absent]
      refine inductionHypothesis sound (rest.imp fun _ _ other => ?_)
      exact ⟨other.1.keep (keeps.trans further), other.2⟩
    · rw [present]
      exact .of_pure sound (.some ⟨found.file, rfl, found.searchDirectory, found.relativeStart,
        found.isSystemFramework, entrySame.characteristic⟩)

/-- Corresponding lists have corresponding entries at equal positions. Induct on the entries from any
    position on, since the positions count up along the list. -/
theorem positions_as {naming : Naming} {entries entriesMeant : List SearchEntry} (start : Nat)
    (same : List.Forall₂ naming.EntryAs entries entriesMeant)
    (placed : ∀ offset entry, entriesMeant[offset]? = some entry →
      meant.entries[start + offset]? = some entry) :
    List.Forall₂ (fun item itemMeant =>
      naming.EntryAs item.1 itemMeant.1 ∧ item.2 = itemMeant.2 ∧
        meant.entries[itemMeant.2]? = some itemMeant.1)
      (entries.zipIdx start) (entriesMeant.zipIdx start) := by
  induction same generalizing start with
  | nil => exact .nil
  | @cons entry entryMeant entries entriesMeant first rest inductionHypothesis =>
    refine .cons ⟨first, rfl, by simpa using placed 0 entryMeant rfl⟩ ?_
    refine inductionHypothesis (start + 1) fun offset other there => ?_
    have shifted := placed (offset + 1) other (by simpa using there)
    rwa [show start + 1 + offset = start + (offset + 1) by omega]

/-- The entries that a kind of include looks into correspond in corresponding lists. -/
theorem eligible_as {naming : Naming} {list : SearchList} (same : naming.ListAs list meant)
    (kind : IncludeKind) :
    List.Forall₂ (fun item itemMeant =>
      naming.EntryAs item.1 itemMeant.1 ∧ item.2 = itemMeant.2 ∧
        meant.entries[itemMeant.2]? = some itemMeant.1)
      (list.eligible kind) (meant.eligible kind) := by
  have start : list.startOf kind = meant.startOf kind := by
    cases kind
    · exact same.angledStart
    · rfl
  have placed (offset : Nat) (entry : SearchEntry) (here : meant.entries[offset]? = some entry) :
      meant.entries[0 + offset]? = some entry := by
    rwa [Nat.zero_add]
  have positions := positions_as 0 same.entries placed
  unfold SearchList.eligible
  rw [start]
  refine List.rel_filter ?_ (List.forall₂_drop _ positions)
  rintro item itemMeant ⟨entrySame, -, -⟩
  simp only [entrySame.quoteOnly]

/-- The outcome of a name and kind in the list is that of the search without memory, remembered or
    not. -/
theorem look_in_list_yields (faithful : reading.Faithful m view) {list : SearchList} (name : String)
    (kind : IncludeKind) (sound : (reading.carrying view meant).sound state)
    (same : (reading.naming state.2).ListAs list meant) :
    (reading.carrying view meant).Yields
      (list.lookInList name kind : StateT SearchMemo m (Option Hit × Bool)) state
      fun after outcome => Option.Rel (reading.naming after.2).HitAs outcome.1
        (meant.plainHit view name kind) := by
  unfold SearchList.lookInList
  refine (Yields.of_get sound).bind fun memo between sound keeps here => ?_
  subst here
  split
  · next outcome remembered => exact .of_pure sound (sound.2.listed remembered)
  · refine (scan_yields faithful name sound same.systemFrameworks
      (eligible_as (same.keep keeps) kind)).bind fun outcome scanned sound _ held => ?_
    refine (Yields.of_modify sound.1 (sound.2.insert held)).bind fun _ after sound _ changed => ?_
    subst changed
    exact .of_pure sound held

/-- The outcome in the directory of an including file is what that directory holds, remembered or not,
    and has the characteristic of the including file of this lookup. -/
theorem look_beside_yields (faithful : reading.Faithful m view) (name : String)
    {includer : Includer} {meaning : DirHandle}
    (sound : (reading.carrying view meant).sound state)
    (known : (reading.naming state.2).DirectoryAs includer.directory meaning) :
    (reading.carrying view meant).Yields
      (SearchList.lookBeside name includer : StateT SearchMemo m (Option Hit × Bool)) state
      fun after outcome => Option.Rel (reading.naming after.2).HitAs outcome.1
        ((view.file? meaning name).map (Hit.beside meaning includer.characteristic)) := by
  unfold SearchList.lookBeside
  refine (Yields.of_get sound).bind fun memo between sound keeps here => ?_
  subst here
  split
  · next outcome remembered =>
    obtain ⟨other, there, held⟩ := sound.2.beside remembered
    obtain rfl : other = meaning := Option.some.inj (there.symm.trans (keeps.directory known))
    refine .of_pure sound ?_
    exact related_map held fun _ _ hitSame => { hitSame with characteristic := rfl }
  · refine ((faithful.carrying meant).file? name sound (keeps.directory known)).bind
      fun found asked sound further held => ?_
    have there := further.directory (keeps.directory known)
    have stored : Option.Rel (fun hit file => (reading.naming asked.2).HitAs hit
          (Hit.beside meaning hit.characteristic file))
        (found.map (Hit.beside includer.directory includer.characteristic))
        (view.file? meaning name) := by
      rcases related_cases held with ⟨rfl, absent⟩ | ⟨_, _, rfl, present, fileSame⟩
      · rw [absent]
        exact .none
      · rw [present]
        exact .some ⟨fileSame, rfl, .some there, rfl, rfl, rfl⟩
    refine (Yields.of_modify sound.1 (sound.2.insertBeside there stored)).bind
      fun _ after sound _ changed => ?_
    subst changed
    refine .of_pure sound ?_
    rw [Option.map_map]
    exact related_map held fun _ _ fileSame => ⟨fileSame, rfl, .some there, rfl, rfl, rfl⟩

/-- The search path of a hit is that of the hit that it stands for. -/
theorem search_path_of_yields {ω : Type} [Runs m ω] {reading : Reading ω} {state : ω}
    (faithful : reading.Faithful m view) {list : SearchList} {hit hitMeant : Hit}
    (sound : reading.sound state) (same : (reading.naming state).ListAs list meant)
    (hitSame : (reading.naming state).HitAs hit hitMeant) :
    reading.Yields (list.searchPathOf hit : m String) state fun _ path =>
      path = (meant.searchPathOf hitMeant : Observed view String).value := by
  have origins := hitSame.origin
  have directories := hitSame.searchDirectory
  unfold SearchList.searchPathOf
  rw [origins]
  cases hitMeant.origin with
  | entry index =>
    rcases related_cases (same.entry_at index) with ⟨absent, absentMeant⟩ | ⟨_, _, here, there, as⟩
    · simp only [absent, absentMeant]
      exact .of_pure sound rfl
    · simp only [here, there]
      exact search_path_yields faithful sound as.place directories
  | includer =>
    rcases related_cases directories with ⟨absent, absentMeant⟩ | ⟨_, _, here, there, known⟩
    · simp only [absent, absentMeant]
      exact .of_pure sound rfl
    · simp only [here, there]
      refine (faithful.directoryPath sound known).bind fun path after sound _ same => ?_
      subst same
      exact .of_pure sound rfl

/-- The answer that a hit stands for is that of the hit that it stands for. -/
theorem answer_yields [LawfulMonad m] {ω : Type} [Runs m ω] {reading : Reading ω} {state : ω}
    (faithful : reading.Faithful m view) {list : SearchList} {hit hitMeant : Hit} (name : String)
    (want : PathRequest) (sound : reading.sound state)
    (same : (reading.naming state).ListAs list meant)
    (hitSame : (reading.naming state).HitAs hit hitMeant) :
    reading.Yields (list.answer name want hit : m FoundHeader) state fun after header =>
      (reading.naming after).HeaderAs header (meant.plainHeader view name want hitMeant) := by
  unfold SearchList.plainHeader SearchList.answer
  cases want.searchPath with
  | false =>
    simp only [Bool.false_eq_true, if_false, pure_bind]
    refine .of_pure sound ⟨hitSame.file, ?_⟩
    simp [hitSame.relativeStart, hitSame.isSystemFramework, hitSame.characteristic, hitSame.origin]
  | true =>
    simp only [if_true, bind_map_left]
    refine (search_path_of_yields faithful sound same hitSame).bind
      fun path after sound keeps made => ?_
    subst made
    refine .of_pure sound ⟨keeps.file hitSame.file, ?_⟩
    simp [hitSame.relativeStart, hitSame.isSystemFramework, hitSame.characteristic, hitSame.origin]

/-- Only a quoted include with an including file looks beside that file. -/
theorem look_beside_for_yields (faithful : reading.Faithful m view) (name : String)
    (kind : IncludeKind) {includer includerMeant : Option Includer}
    (sound : (reading.carrying view meant).sound state)
    (known : Option.Rel (reading.naming state.2).IncluderAs includer includerMeant) :
    (reading.carrying view meant).Yields
      (SearchList.lookBesideFor name kind includer : StateT SearchMemo m (Option Hit × Bool)) state
      fun after outcome => Option.Rel (reading.naming after.2).HitAs outcome.1
        (SearchList.plainBeside view name kind includerMeant) := by
  cases kind with
  | angled =>
    cases known with
    | none => exact .of_pure sound .none
    | some _ => exact .of_pure sound .none
  | quoted =>
    cases known with
    | none => exact .of_pure sound .none
    | some known =>
      have beside := look_beside_yields faithful name sound known.directory
      rw [known.characteristic] at beside
      exact beside

/-- A lookup comes to the answer of the search without memory, and the memo recalls the list
    afterwards. -/
theorem resolve_yields [LawfulMonad m] (faithful : reading.Faithful m view) {list : SearchList}
    (name : String) (kind : IncludeKind) {includer includerMeant : Option Includer}
    (want : PathRequest) (sound : (reading.carrying view meant).sound state)
    (same : (reading.naming state.2).ListAs list meant)
    (known : Option.Rel (reading.naming state.2).IncluderAs includer includerMeant) :
    (reading.carrying view meant).Yields
      (list.resolve name kind includer want : StateT SearchMemo m (Option FoundHeader)) state
      fun after answer => Option.Rel (reading.naming after.2).HeaderAs answer
        (meant.plainAnswer view name kind includerMeant want) := by
  rw [SearchList.plainAnswer, meant.beside_answer_eq, meant.first_answer_eq]
  unfold SearchList.resolve
  refine (Yields.of_count sound _).bind fun _ counted sound keeps _ => ?_
  refine (look_beside_for_yields faithful name kind sound
    (related_grow known fun _ _ here => here.keep keeps)).bind
    fun outcome asked sound further held => ?_
  obtain ⟨beside, remembered⟩ := outcome
  rcases related_cases held with ⟨rfl, absent⟩ | ⟨hit, hitMeant, rfl, present, hitSame⟩
  · rw [absent, Option.map_none, Option.none_or]
    refine (look_in_list_yields faithful name kind sound
      (same.keep (keeps.trans further))).bind fun outcome listed sound beyond held => ?_
    obtain ⟨outcome, remembered⟩ := outcome
    refine (Yields.of_modify sound.1 (sound.2.countRemembered remembered)).bind
      fun _ counted sound _ changed => ?_
    subst changed
    rcases related_cases held with ⟨rfl, absent⟩ | ⟨hit, hitMeant, rfl, present, hitSame⟩
    · rw [absent]
      refine (Yields.of_count sound _).bind fun _ after sound _ _ => ?_
      exact .of_pure sound .none
    · rw [present]
      refine Yields.map ((answer_yields (faithful.carrying meant) name want sound
        (same.keep ((keeps.trans further).trans beyond)) hitSame).weaken
        fun header after _ headerSame => ?_)
      exact .some headerSame
  · rw [present, Option.map_some, Option.some_or]
    refine (Yields.of_count sound _).bind fun _ counted sound beyond _ => ?_
    refine (Yields.of_modify sound.1 (sound.2.countRemembered remembered)).bind
      fun _ counted sound _ changed => ?_
    subst changed
    refine Yields.map ((answer_yields (faithful.carrying meant) name want sound
      (same.keep ((keeps.trans further).trans beyond)) (hitSame.keep beyond)).weaken
      fun header after _ headerSame => ?_)
    exact .some headerSame

/-- A lookup in the entry at a position finds what the view has there, and the memo recalls the list
    afterwards. -/
theorem lookup_at_yields [LawfulMonad m] (faithful : reading.Faithful m view) {list : SearchList}
    {entry entryMeant : SearchEntry} {index : Nat} (name : String) (want : PathRequest)
    (sound : (reading.carrying view meant).sound state)
    (frameworks : list.systemFrameworks = meant.systemFrameworks)
    (same : (reading.naming state.2).EntryAs entry entryMeant)
    (here : meant.entries[index]? = some entryMeant) :
    (reading.carrying view meant).Yields
      (list.lookupAt entry index name want : StateT SearchMemo m (Option EntryMatch)) state
      fun after found => Option.Rel (reading.naming after.2).MatchAs found
        (view.matchIn meant.systemFrameworks entryMeant name want) := by
  unfold SearchList.lookupAt FileView.matchIn
  refine (probe_at_yields faithful name sound frameworks same here).bind
    fun found probed sound keeps held => ?_
  rcases related_cases held with ⟨rfl, absent⟩ | ⟨found, foundMeant, rfl, present, foundSame⟩
  · rw [absent]
    exact .of_pure sound .none
  · rw [present]
    cases want.searchPath with
    | false =>
      simp only [Bool.false_eq_true, if_false, pure_bind]
      refine .of_pure sound (.some ⟨foundSame.file, ?_⟩)
      simp [foundSame.relativeStart, foundSame.isSystemFramework]
    | true =>
      simp only [if_true, bind_map_left]
      refine (search_path_yields (faithful.carrying meant) sound (same.place.keep keeps)
        foundSame.searchDirectory).bind fun path after sound keeps made => ?_
      subst made
      refine .of_pure sound (.some ⟨keeps.file foundSame.file, ?_⟩)
      simp [foundSame.relativeStart, foundSame.isSystemFramework]

end Reading

end HeaderSearch
