import HeaderSearch.Proofs.FoundPlaces
import HeaderSearch.Proofs.IssuedFiles

/-!
# Lookups over a truthful store

Whatever is built, asked and looked up over a truthful store leaves it and the memo of the list sound,
and every header that a lookup finds is reported with the directory that holds it and with the part of
the name that leads there.
-/

namespace HeaderSearch

namespace Reading

variable {ω : Type} {m : Type → Type} [Monad m] [Runs m ω] [FileStore m] {reading : Reading ω}
variable {facts : FileFacts} {state : ω} {maps : HeaderMapSet} {entries : List ConfigEntry}

/-- The place of an entry looks into what the entry configures. -/
theorem locate_vouched (truthful : reading.Truthful m facts) {entry : ConfigEntry}
    (member : entry ∈ entries) (sound : reading.sound state) :
    reading.Yields (entry.locate maps : m _) state fun after outcome =>
      ∀ place identity, outcome = .ok (some (place, identity)) →
        (reading.naming after).Configures facts entries place := by
  unfold ConfigEntry.locate
  cases location : entry.location with
  | directory path =>
    refine (truthful.directory? path sound).bind fun found after sound _ located => ?_
    refine .of_pure sound fun place identity same => ?_
    obtain ⟨handle, there, placed⟩ := Option.map_eq_some_iff.1 (Except.ok.inj same)
    obtain ⟨rfl, -⟩ := Prod.mk.inj placed
    exact .directory member location (located handle there)
  | framework path =>
    refine (truthful.directory? path sound).bind fun found after sound _ located => ?_
    refine .of_pure sound fun place identity same => ?_
    obtain ⟨handle, there, placed⟩ := Option.map_eq_some_iff.1 (Except.ok.inj same)
    obtain ⟨rfl, -⟩ := Prod.mk.inj placed
    exact .framework member location (located handle there)
  | headerMap path =>
    dsimp only
    split
    · refine .of_pure sound fun place identity same => ?_
      obtain ⟨rfl, -⟩ := Prod.mk.inj (Option.some.inj (Except.ok.inj same))
      exact .headerMap _ _
    · exact .of_pure sound fun place identity same => by cases same

/-- The kept entries of a list in the making look into what some entries configure. -/
def KeptFrom (naming : Naming) (facts : FileFacts) (entries : List ConfigEntry)
    (partialList : PartialList) : Prop :=
  ∀ item ∈ partialList.kept, naming.Configures facts entries item.2.2.place

/-- Taking one entry in keeps the list in the making. -/
theorem enter_vouched (truthful : reading.Truthful m facts) {entry : ConfigEntry} (start index : Nat)
    {partialList : PartialList} (member : entry ∈ entries) (sound : reading.sound state)
    (kept : KeptFrom (reading.naming state) facts entries partialList) :
    reading.Yields (entry.enter maps start index partialList : m _) state fun after outcome =>
      ∀ larger, outcome = .ok larger → KeptFrom (reading.naming after) facts entries larger := by
  unfold ConfigEntry.enter
  split
  · exact .of_pure sound fun larger same => by cases same
  · refine (locate_vouched truthful member sound).bind fun outcome after sound keeps placed => ?_
    have keptAfter : KeptFrom (reading.naming after) facts entries partialList :=
      fun item there => (kept item there).keep keeps
    split
    · exact .of_pure sound fun larger same => by cases same
    · refine .of_pure sound fun larger same => ?_
      obtain rfl := Except.ok.inj same
      unfold PartialList.drop
      split
      · exact keptAfter
      · exact keptAfter
    · next place identity =>
      dsimp only
      split
      · exact .of_pure sound fun larger same => by cases same
      · refine .of_pure sound fun larger same => ?_
        obtain rfl := Except.ok.inj same
        intro item there
        rcases List.mem_append.1 there with before | last
        · exact keptAfter item before
        · obtain rfl := List.mem_singleton.1 last
          exact placed place identity rfl

/-- Taking entries in keeps the list in the making. Induct on the entries that are left. -/
theorem enter_all_vouched (truthful : reading.Truthful m facts) {left : List ConfigEntry}
    (start index : Nat) {partialList : PartialList} (member : ∀ entry ∈ left, entry ∈ entries)
    (sound : reading.sound state)
    (kept : KeptFrom (reading.naming state) facts entries partialList) :
    reading.Yields (ConfigEntry.enterAll maps start index partialList left : m _) state
      fun after outcome => ∀ larger, outcome = .ok larger →
        KeptFrom (reading.naming after) facts entries larger := by
  induction left generalizing index partialList state with
  | nil =>
    refine .of_pure sound fun larger same => ?_
    obtain rfl := Except.ok.inj same
    exact kept
  | cons entry left inductionHypothesis =>
    unfold ConfigEntry.enterAll
    obtain ⟨first, others⟩ := List.forall_mem_cons.1 member
    refine (enter_vouched truthful start index first sound kept).bind
      fun outcome after sound _ entered => ?_
    split
    · exact .of_pure sound fun larger same => by cases same
    · exact inductionHypothesis (index + 1) others sound (entered _ rfl)

/-- A list that is built looks into what the configuration configures. -/
theorem build_vouched (truthful : reading.Truthful m facts) (config : Config)
    (sound : reading.sound state) :
    reading.Yields (config.build maps : m _) state fun after outcome =>
      ∀ list, outcome = .ok list → (reading.naming after).ListFrom facts config.entries list := by
  unfold Config.build
  dsimp only
  split
  · exact .of_pure sound fun list same => by cases same
  · refine (enter_all_vouched truthful _ 0 (fun entry member => member) sound
      (fun item none => by cases none)).bind fun outcome after sound _ entered => ?_
    split
    · exact .of_pure sound fun list same => by cases same
    · refine .of_pure sound fun list same => ?_
      obtain rfl := Except.ok.inj same
      intro entry member
      obtain ⟨item, there, rfl⟩ := List.mem_map.1 member
      exact entered _ rfl item there

/-! ### The memo of a list -/

/-- The reading of a store that carries along a memo whose outcomes are vouched for. -/
def trusting (reading : Reading ω) (facts : FileFacts) (list : SearchList) :
    Reading (SearchMemo × ω) :=
  reading.along fun naming memo => naming.Trusts facts list memo

variable {list : SearchList} {memoState : SearchMemo × ω}

omit [FileStore m] in
/-- Counting something in the memo. -/
theorem Yields.of_count_trusting (sound : (reading.trusting facts list).sound memoState)
    (change : SearchStats → SearchStats) :
    (reading.trusting facts list).Yields
      (modify fun memo => memo.count change : StateT SearchMemo m Unit) memoState fun _ _ => True :=
  (Yields.of_modify_along sound.1 (sound.2.count change)).weaken fun _ _ _ _ => trivial

/-- A truthful store is truthful while the memo is carried along. -/
theorem Truthful.trusting (truthful : reading.Truthful m facts) (list : SearchList) :
    (reading.trusting facts list).Truthful (StateT SearchMemo m) facts where
  directory? path sound := .lift_along sound.2.keep (truthful.directory? path sound.1)
  file? directory name sound := .lift_along sound.2.keep (truthful.file? directory name sound.1)
  directoryPath handle sound := .lift_along sound.2.keep (truthful.directoryPath handle sound.1)

/-- The header directories that are found for a framework are those of the framework. -/
theorem find_bundle_vouched (truthful : reading.Truthful m facts) {handle : DirHandle} {root : Path}
    (owner : String) (sound : reading.sound state)
    (stands : (reading.naming state).DirectoryAt handle root) :
    reading.Yields (Framework.findBundle handle owner : m Bundle) state fun after bundle =>
      (reading.naming after).BundleOf facts handle owner bundle := by
  unfold Framework.findBundle
  refine (truthful.directoryPath handle sound).bind fun above atAbove sound kept same => ?_
  have standsAbove := stands.keep kept
  obtain rfl := same root standsAbove
  refine (truthful.directory? _ sound).bind fun bundle atBundle sound keeps _ => ?_
  have standsBundle := standsAbove.keep keeps
  split
  · exact .of_pure sound ⟨by simp, by simp⟩
  · refine (truthful.directory? _ sound).bind fun headers atHeaders sound keeps located => ?_
    refine (truthful.directory? _ sound).bind fun hidden atHidden sound further hiddenLocated => ?_
    have standsHidden := (standsBundle.keep keeps).keep further
    refine .of_pure sound ⟨fun found there => ?_, fun found there => ?_⟩
    · exact ⟨above, standsHidden, (located found there).keep further⟩
    · exact ⟨above, standsHidden, hiddenLocated found there⟩

/-- The bundle of a framework for the entry at a position is vouched for, remembered or found now. -/
theorem bundle_at_vouched (truthful : reading.Truthful m facts) {index : Nat} {entry : SearchEntry}
    {handle : DirHandle} {configured : String} {root : Path} (owner : String)
    (here : list.entries[index]? = some entry) (place : entry.place = .framework handle configured)
    (sound : (reading.trusting facts list).sound memoState)
    (stands : (reading.naming memoState.2).DirectoryAt handle root) :
    (reading.trusting facts list).Yields
      (SearchMemo.bundleAt index handle owner : StateT SearchMemo m Bundle) memoState
      fun after bundle => (reading.naming after.2).BundleOf facts handle owner bundle := by
  unfold SearchMemo.bundleAt
  refine (Yields.of_get_along sound).bind fun memo between sound keeps same => ?_
  subst same
  split
  · next bundle remembered =>
    -- Bundles are remembered by position, and at this one there is just the entry that asks.
    obtain ⟨other, known, named, there, otherPlace, bundleOf⟩ := sound.2.bundles remembered
    obtain rfl : other = entry := Option.some.inj (there.symm.trans here)
    obtain ⟨rfl, -⟩ := SearchPlace.framework.inj (otherPlace.symm.trans place)
    exact .of_pure sound bundleOf
  · refine (find_bundle_vouched (truthful.trusting list) owner sound (stands.keep keeps)).bind
      fun bundle found sound _ bundleOf => ?_
    refine (Yields.of_modify_along sound.1 (sound.2.insertBundle here place bundleOf)).bind
      fun _ after sound _ changed => ?_
    subst changed
    exact .of_pure sound bundleOf

/-- The first of some directories that holds a name holds the file. Induct on the directories. -/
theorem first_holding_vouched (truthful : reading.Truthful m facts) (name : String)
    (directories : List DirHandle) (sound : reading.sound state) :
    reading.Yields (Framework.firstHolding name directories : m (Option (DirHandle × FileHandle)))
      state fun after found => ∀ pair ∈ found, pair.1 ∈ directories ∧
        (reading.naming after).Holds facts pair.1 name pair.2 := by
  induction directories generalizing state with
  | nil => exact .of_pure sound (by simp)
  | cons directory directories inductionHypothesis =>
    unfold Framework.firstHolding
    refine (truthful.file? directory name sound).bind fun found after sound _ held => ?_
    split
    · next file =>
      refine .of_pure sound ?_
      rintro pair ⟨rfl⟩
      exact ⟨List.mem_cons_self, held file rfl⟩
    · refine (inductionHypothesis sound).weaken fun found later _ holds pair there => ?_
      obtain ⟨member, held⟩ := holds pair there
      exact ⟨List.mem_cons_of_mem _ member, held⟩

/-- What a bundle holds is in one of its header directories. -/
theorem framework_vouched (truthful : reading.Truthful m facts)
    {bundleOf : DirHandle → String → m Bundle} (frameworks : List String) {handle : DirHandle}
    {name owner rest : String} (configured : String)
    (split : Framework.splitName? name = some (owner, rest))
    (bundled : reading.Yields (bundleOf handle owner) state fun after bundle =>
      (reading.naming after).BundleOf facts handle owner bundle) :
    reading.Yields (Framework.probe bundleOf frameworks handle owner rest) state
      fun after found => ∀ hit ∈ found, (reading.naming after).Vouches facts name
        (.framework handle configured) hit.file hit.searchDirectory hit.relativeStart := by
  unfold Framework.probe
  refine bundled.bind fun bundle between sound _ isBundle => ?_
  refine (first_holding_vouched truthful rest _ sound).bind fun found after sound keeps held => ?_
  refine .of_pure sound fun hit there => ?_
  obtain ⟨⟨headers, file⟩, pair, rfl⟩ := Option.map_eq_some_iff.1 there
  obtain ⟨member, holds⟩ := held _ pair
  rcases List.mem_append.1 member with shown | hidden
  · exact .framework split List.mem_cons_self
      ((isBundle.headers headers (Option.mem_toList.1 shown)).keep keeps) holds
  · exact .framework split (List.mem_cons_of_mem _ List.mem_cons_self)
      ((isBundle.privateHeaders headers (Option.mem_toList.1 hidden)).keep keeps) holds

/-- A hit in a header map names no directory. -/
theorem header_map_vouched (truthful : reading.Truthful m facts) (map : HeaderMap)
    (frameworks : List String) (isIndex : Bool) (name : String) (sound : reading.sound state) :
    reading.Yields (map.probe frameworks isIndex name : m (Option PlaceHit)) state
      fun after found => ∀ hit ∈ found, (reading.naming after).Vouches facts name
        (.headerMap map isIndex) hit.file hit.searchDirectory hit.relativeStart := by
  unfold HeaderMap.probe
  refine (file_for_issued truthful.issuing map name sound).bind fun whole between sound _ _ => ?_
  split
  · refine .of_pure sound ?_
    rintro hit ⟨rfl⟩
    exact .headerMap
  · split
    · refine (file_for_issued truthful.issuing map _ sound).bind fun found after sound _ _ => ?_
      refine .of_pure sound fun hit there => ?_
      obtain ⟨file, -, rfl⟩ := Option.map_eq_some_iff.1 there
      exact .headerMap
    · exact .of_pure sound (by simp)

/-! ### Lookups -/

/-- What the entry at a position answers is vouched for. -/
theorem probe_at_vouched (truthful : reading.Truthful m facts) {entry : SearchEntry} {index : Nat}
    (name : String) (here : list.entries[index]? = some entry)
    (built : (reading.naming memoState.2).ListFrom facts entries list)
    (sound : (reading.trusting facts list).sound memoState) :
    (reading.trusting facts list).Yields
      (list.probeAt entry index name : StateT SearchMemo m (Option PlaceHit)) memoState
      fun after found => ∀ hit ∈ found, (reading.naming after.2).Vouches facts name entry.place
        hit.file hit.searchDirectory hit.relativeStart := by
  have configures := built entry (List.mem_of_getElem? here)
  unfold SearchList.probeAt SearchPlace.probe
  cases place : entry.place with
  | directory handle configured =>
    refine ((truthful.trusting list).file? handle name sound).bind fun found after sound _ held => ?_
    refine .of_pure sound fun hit there => ?_
    obtain ⟨file, member, rfl⟩ := Option.map_eq_some_iff.1 there
    exact .directory (held file member)
  | framework handle configured =>
    rw [place] at configures
    cases configures with
    | framework member location locates =>
      obtain ⟨root, stands, -⟩ := locates
      dsimp only
      split
      · exact .of_pure sound (by simp)
      · next owner rest split =>
        exact framework_vouched (truthful.trusting list) _ _ split
          (bundle_at_vouched truthful owner here place sound stands)
  | headerMap map isIndex => exact header_map_vouched (truthful.trusting list) map _ isIndex name sound

/-- What a search through entries comes to is vouched for. Induct on the entries that are left. -/
theorem scan_vouched (truthful : reading.Truthful m facts) (name : String)
    {items : List (SearchEntry × Nat)} (placed : ∀ item ∈ items, list.entries[item.2]? = some item.1)
    (built : (reading.naming memoState.2).ListFrom facts entries list)
    (sound : (reading.trusting facts list).sound memoState) :
    (reading.trusting facts list).Yields
      (list.scan name items : StateT SearchMemo m (Option Hit)) memoState
      fun after found => ∀ hit ∈ found, (reading.naming after.2).EntryHit facts list name hit := by
  induction items generalizing memoState with
  | nil => exact .of_pure sound (by simp)
  | cons item items inductionHypothesis =>
    obtain ⟨entry, index⟩ := item
    obtain ⟨here, others⟩ := List.forall_mem_cons.1 placed
    unfold SearchList.scan
    refine (Yields.of_count_trusting sound _).bind fun _ counted sound keeps _ => ?_
    refine (probe_at_vouched truthful name here (built.keep keeps) sound).bind
      fun found after sound further vouched => ?_
    split
    · next hit =>
      refine .of_pure sound ?_
      rintro _ ⟨rfl⟩
      exact ⟨index, entry, rfl, here, vouched hit rfl⟩
    · exact inductionHypothesis others ((built.keep keeps).keep further) sound

/-- The outcome of the list is vouched for, remembered or found now. -/
theorem look_in_list_vouched (truthful : reading.Truthful m facts) (name : String)
    (kind : IncludeKind) (built : (reading.naming memoState.2).ListFrom facts entries list)
    (sound : (reading.trusting facts list).sound memoState) :
    (reading.trusting facts list).Yields
      (list.lookInList name kind : StateT SearchMemo m (Option Hit × Bool)) memoState
      fun after outcome => ∀ hit ∈ outcome.1,
        (reading.naming after.2).EntryHit facts list name hit := by
  have placed : ∀ item ∈ list.eligible kind, list.entries[item.2]? = some item.1 := by
    intro item member
    rw [SearchList.eligible_eq_filter] at member
    exact List.mem_zipIdx_iff_getElem?.1 (List.mem_filter.1 member).1
  unfold SearchList.lookInList
  refine (Yields.of_get_along sound).bind fun memo between sound keeps same => ?_
  subst same
  split
  · next outcome remembered =>
    refine .of_pure sound ?_
    rintro hit ⟨rfl⟩
    exact sound.2.listed remembered
  · refine (scan_vouched truthful name placed (built.keep keeps) sound).bind
      fun outcome scanned sound _ vouched => ?_
    refine (Yields.of_modify_along sound.1 (sound.2.insert vouched)).bind
      fun _ after sound _ changed => ?_
    subst changed
    exact .of_pure sound vouched

/-- The outcome beside an including file is vouched for, remembered or found now. Its characteristic
    does not matter. -/
theorem look_beside_vouched (truthful : reading.Truthful m facts) (name : String)
    (includer : Includer) (sound : (reading.trusting facts list).sound memoState) :
    (reading.trusting facts list).Yields
      (SearchList.lookBeside name includer : StateT SearchMemo m (Option Hit × Bool)) memoState
      fun after outcome => ∀ hit ∈ outcome.1,
        (reading.naming after.2).BesideHit facts includer.directory name hit := by
  unfold SearchList.lookBeside
  refine (Yields.of_get_along sound).bind fun memo between sound _ same => ?_
  subst same
  dsimp only
  split
  · next outcome remembered =>
    refine .of_pure sound fun hit there => ?_
    obtain ⟨stored, rfl, rfl⟩ := Option.map_eq_some_iff.1 there
    have beside := sound.2.beside remembered
    exact ⟨beside.origin, beside.searchDirectory, beside.relativeStart, beside.holds⟩
  · refine ((truthful.trusting list).file? includer.directory name sound).bind
      fun found asked sound _ held => ?_
    have vouched : ∀ hit ∈ found.map (Hit.beside includer.directory includer.characteristic),
        (reading.naming asked.2).BesideHit facts includer.directory name hit := by
      intro hit there
      obtain ⟨file, member, rfl⟩ := Option.map_eq_some_iff.1 there
      exact ⟨rfl, rfl, rfl, held file member⟩
    refine (Yields.of_modify_along sound.1 (sound.2.insertBeside vouched)).bind
      fun _ after sound _ changed => ?_
    subst changed
    refine .of_pure sound fun hit there => ?_
    obtain ⟨stored, member, rfl⟩ := Option.map_eq_some_iff.1 there
    have beside := vouched stored member
    exact ⟨beside.origin, beside.searchDirectory, beside.relativeStart, beside.holds⟩

end Reading

/-- What a found header with both texts says is vouched for: where its file is, by a directory that the
    search path is the text of, and by the part of the name that leads there from that directory. -/
inductive Naming.Reports (naming : Naming) (facts : FileFacts) (list : SearchList) (name : String)
    (includer : Option Includer) (header : FoundHeader) : Prop where
  /-- The file is held by the directory of the including file. -/
  | includer {beside : Includer} {base : Path} (given : includer = some beside)
      (origin : header.origin = .includer) (stands : naming.DirectoryAt beside.directory base)
      (searchPath : header.searchPath = some base.shown) (relativePath : header.relativePath = some name)
      (holds : naming.Holds facts beside.directory name header.file)
  /-- The file is held by the directory of an entry. -/
  | directory {index : Nat} {entry : SearchEntry} {handle : DirHandle} {configured : String}
      (origin : header.origin = .entry index) (here : list.entries[index]? = some entry)
      (place : entry.place = .directory handle configured)
      (searchPath : header.searchPath = some configured)
      (relativePath : header.relativePath = some name)
      (holds : naming.Holds facts handle name header.file)
  /-- The file is held by a header directory of a framework below the directory of an entry. -/
  | framework {index : Nat} {entry : SearchEntry} {handle headers : DirHandle}
      {configured owner rest part : String} {base : Path} (origin : header.origin = .entry index)
      (here : list.entries[index]? = some entry) (place : entry.place = .framework handle configured)
      (split : Framework.splitName? name = some (owner, rest))
      (named : part ∈ ["Headers", "PrivateHeaders"])
      (headersOf : naming.HeadersOf facts handle owner part headers)
      (stands : naming.DirectoryAt headers base) (searchPath : header.searchPath = some base.shown)
      (relativePath : header.relativePath = some rest)
      (holds : naming.Holds facts headers rest header.file)
  /-- A header map names the file. -/
  | headerMap {index : Nat} {entry : SearchEntry} {map : HeaderMap} {isIndex : Bool}
      (origin : header.origin = .entry index) (here : list.entries[index]? = some entry)
      (place : entry.place = .headerMap map isIndex)

namespace Reading

variable {ω : Type} {m : Type → Type} [Monad m] [LawfulMonad m] [Runs m ω] [FileStore m]
variable {reading : Reading ω} {facts : FileFacts} {state : ω} {list : SearchList}
variable {entries : List ConfigEntry} {memoState : SearchMemo × ω}

omit [LawfulMonad m] in
/-- The text of the directory of a handle is that of the directory that it stands for. -/
theorem shown_path_yields (truthful : reading.Truthful m facts) {handle : DirHandle} {base : Path}
    (sound : reading.sound state) (stands : (reading.naming state).DirectoryAt handle base) :
    reading.Yields (do let path ← FileStore.directoryPath handle; return path.shown : m String) state
      fun _ text => text = base.shown := by
  refine (truthful.directoryPath handle sound).bind fun path after sound keeps same => ?_
  exact .of_pure sound (by rw [same base (stands.keep keeps)])

/-- The answer for a hit has its file and origin and, if both texts are wanted, the search path that is
    made for it and what its offset leaves of the name. -/
theorem answer_texts {hit : Hit} {text : String} (name : String) (want : PathRequest)
    (made : reading.Yields (list.searchPathOf hit : m String) state fun _ made => made = text)
    (sound : reading.sound state) :
    reading.Yields (list.answer name want hit : m FoundHeader) state fun _ header =>
      want = .all → header.origin = hit.origin ∧ header.file = hit.file ∧
        header.searchPath = some text ∧
        header.relativePath = Text.suffixFrom? name hit.relativeStart := by
  unfold SearchList.answer
  cases wanted : want.searchPath with
  | false =>
    simp only [Bool.false_eq_true, if_false, pure_bind]
    exact .of_pure sound fun both => by simp [both, PathRequest.all] at wanted
  | true =>
    simp only [if_true, bind_map_left]
    refine made.bind fun path after sound _ same => ?_
    exact .of_pure sound fun both => ⟨rfl, rfl, by rw [same], by simp [both, PathRequest.all]⟩

/-- The answer for a hit beside the including file reports the directory of that file. -/
theorem beside_answer_vouched (truthful : reading.Truthful m facts) {name : String}
    {includer : Option Includer} {beside : Includer} (given : includer = some beside)
    (want : PathRequest) {hit : Hit} (sound : reading.sound state)
    (vouched : (reading.naming state).BesideHit facts beside.directory name hit) :
    reading.Yields (list.answer name want hit : m FoundHeader) state fun after header =>
      want = .all → (reading.naming after).Reports facts list name includer header := by
  obtain ⟨base, canonical, stands, -, -⟩ := vouched.holds
  have made : reading.Yields (list.searchPathOf hit : m String) state
      fun _ text => text = base.shown := by
    simp only [SearchList.searchPathOf, vouched.origin, vouched.searchDirectory]
    exact shown_path_yields truthful sound stands
  refine (answer_texts name want made sound).weaken fun header after keeps texts both => ?_
  obtain ⟨origin, file, searchPath, relativePath⟩ := texts both
  rw [vouched.relativeStart, Text.suffixFrom?_zero] at relativePath
  exact .includer given (origin.trans vouched.origin) (stands.keep keeps) searchPath relativePath
    (file ▸ vouched.holds.keep keeps)

/-- The answer for a hit in the list reports what its entry looks into. -/
theorem entry_answer_vouched (truthful : reading.Truthful m facts) {name : String}
    (includer : Option Includer) (want : PathRequest) {hit : Hit} (sound : reading.sound state)
    (vouched : (reading.naming state).EntryHit facts list name hit) :
    reading.Yields (list.answer name want hit : m FoundHeader) state fun after header =>
      want = .all → (reading.naming after).Reports facts list name includer header := by
  obtain ⟨index, entry, origin, here, vouches⟩ := vouched
  -- The fields of the hit are indices of what is vouched for.
  generalize place : entry.place = looked at vouches
  generalize within : hit.searchDirectory = directory at vouches
  generalize start : hit.relativeStart = offset at vouches
  generalize found : hit.file = file at vouches
  have searchPath : (list.searchPathOf hit : m String) = looked.searchPath directory := by
    simp only [SearchList.searchPathOf, origin, here, place, within]
  cases vouches with
  | @directory handle configured _ holds =>
    have made : reading.Yields (list.searchPathOf hit : m String) state
        fun _ text => text = configured := by
      rw [searchPath]
      exact .of_pure sound rfl
    refine (answer_texts name want made sound).weaken fun header after keeps texts both => ?_
    obtain ⟨originSame, fileSame, searchPath, relativePath⟩ := texts both
    rw [start, Text.suffixFrom?_zero] at relativePath
    exact .directory (originSame.trans origin) here place searchPath relativePath
      ((fileSame.trans found) ▸ holds.keep keeps)
  | @framework handle headers configured owner rest part _ split named headersOf holds =>
    obtain ⟨base, canonical, stands, -, -⟩ := id holds
    have made : reading.Yields (list.searchPathOf hit : m String) state
        fun _ text => text = base.shown := by
      rw [searchPath]
      exact shown_path_yields truthful sound stands
    refine (answer_texts name want made sound).weaken fun header after keeps texts both => ?_
    obtain ⟨originSame, fileSame, searchPath, relativePath⟩ := texts both
    rw [start, Framework.suffix_from_rest_start split] at relativePath
    exact .framework (originSame.trans origin) here place split named (headersOf.keep keeps)
      (stands.keep keeps) searchPath relativePath ((fileSame.trans found) ▸ holds.keep keeps)
  | @headerMap map isIndex _ _ =>
    have made : reading.Yields (list.searchPathOf hit : m String) state
        fun _ text => text = (SearchPlace.headerMap map isIndex).name := by
      rw [searchPath]
      exact .of_pure sound rfl
    refine (answer_texts name want made sound).weaken fun header after _ texts both => ?_
    exact .headerMap ((texts both).1.trans origin) here place

omit [LawfulMonad m] in
/-- Only a quoted include with an including file looks beside that file. -/
theorem look_beside_for_vouched (truthful : reading.Truthful m facts) (name : String)
    (kind : IncludeKind) (includer : Option Includer)
    (sound : (reading.trusting facts list).sound memoState) :
    (reading.trusting facts list).Yields
      (SearchList.lookBesideFor name kind includer : StateT SearchMemo m (Option Hit × Bool)) memoState
      fun after outcome => ∀ hit ∈ outcome.1, ∃ beside, includer = some beside ∧
        (reading.naming after.2).BesideHit facts beside.directory name hit := by
  unfold SearchList.lookBesideFor
  split
  · next beside =>
    refine (look_beside_vouched truthful name beside sound).weaken fun outcome after _ vouched => ?_
    exact fun hit there => ⟨beside, rfl, vouched hit there⟩
  · exact .of_pure sound (by simp)

/-- Whatever a lookup with both texts finds is reported, and the memo is trusted afterwards, whatever
    was looked up. -/
theorem resolve_vouched (truthful : reading.Truthful m facts) (name : String) (kind : IncludeKind)
    (includer : Option Includer) (want : PathRequest)
    (built : (reading.naming memoState.2).ListFrom facts entries list)
    (sound : (reading.trusting facts list).sound memoState) :
    (reading.trusting facts list).Yields
      (list.resolve name kind includer want : StateT SearchMemo m (Option FoundHeader)) memoState
      fun after found => want = .all → ∀ header ∈ found,
        (reading.naming after.2).Reports facts list name includer header := by
  have trusting := truthful.trusting list
  unfold SearchList.resolve
  refine (Yields.of_count_trusting sound _).bind fun _ counted sound keeps _ => ?_
  refine (look_beside_for_vouched truthful name kind includer sound).bind
    fun outcome asked sound further vouched => ?_
  split
  · next hit remembered =>
    refine (Yields.of_count_trusting sound _).bind fun _ counted sound beyond _ => ?_
    obtain ⟨beside, given, vouched⟩ := vouched hit rfl
    refine (Yields.of_modify_along sound.1 (sound.2.countRemembered remembered)).bind
      fun _ counted sound last _ => ?_
    refine Yields.map ((beside_answer_vouched trusting given want sound
      ((vouched.keep beyond).keep last)).weaken fun header after _ reports both => ?_)
    rintro _ ⟨rfl⟩
    exact reports both
  · refine (look_in_list_vouched truthful name kind ((built.keep keeps).keep further) sound).bind
      fun outcome listed sound _ vouched => ?_
    obtain ⟨outcome, remembered⟩ := outcome
    refine (Yields.of_modify_along sound.1 (sound.2.countRemembered remembered)).bind
      fun _ counted sound beyond _ => ?_
    split
    · next hit =>
      refine Yields.map ((entry_answer_vouched trusting includer want sound
        ((vouched hit rfl).keep beyond)).weaken fun header after _ reports both => ?_)
      rintro _ ⟨rfl⟩
      exact reports both
    · refine (Yields.of_count_trusting sound _).bind fun _ after sound _ _ => ?_
      exact .of_pure sound (by simp)

/-- A lookup in one entry leaves the memo trusted. -/
theorem lookup_in_trusted (truthful : reading.Truthful m facts) (index : Nat) (name : String)
    (want : PathRequest) (built : (reading.naming memoState.2).ListFrom facts entries list)
    (sound : (reading.trusting facts list).sound memoState) :
    (reading.trusting facts list).Yields
      (list.lookupIn index name want : StateT SearchMemo m (Option EntryMatch)) memoState
      fun _ _ => True := by
  have trusting := truthful.trusting list
  unfold SearchList.lookupIn
  split
  · next entry here =>
    unfold SearchList.lookupAt
    refine (probe_at_vouched truthful name here built sound).bind fun found probed sound _ _ => ?_
    split
    · exact .of_pure sound trivial
    · cases want.searchPath with
      | false =>
        simp only [Bool.false_eq_true, if_false, pure_bind]
        exact .of_pure sound trivial
      | true =>
        simp only [if_true, bind_map_left]
        refine (place_search_path_sound trusting.issuing entry.place _ sound).bind
          fun _ after sound _ _ => ?_
        exact .of_pure sound trivial
  · exact .of_pure sound trivial

/-- A call leaves the memo trusted. -/
theorem perform_trusted (truthful : reading.Truthful m facts) (call : SearchCall)
    (built : (reading.naming memoState.2).ListFrom facts entries list)
    (sound : (reading.trusting facts list).sound memoState) :
    (reading.trusting facts list).Yields (list.perform call : StateT SearchMemo m Unit) memoState
      fun _ _ => True := by
  cases call with
  | resolve name kind includer want =>
    refine (resolve_vouched truthful name kind includer want built sound).bind
      fun _ after sound _ _ => ?_
    exact .of_pure sound trivial
  | lookup index name want =>
    refine (lookup_in_trusted truthful index name want built sound).bind fun _ after sound _ _ => ?_
    exact .of_pure sound trivial

end Reading

end HeaderSearch
