import Mathlib.Data.List.Forall2
import HeaderSearch.FileStore.View
import HeaderSearch.SearchList.Build

/-!
# Which configurations have no list

Over a view every entry of a configuration either has a key or is not there. An entry offends if it is
marked as an index map and is none, if it names a header map that was not loaded, or if an earlier
entry has its key. Building a list fails exactly at the first entry that offends, with the error of
that entry, and asks only for the directories up to it. Hence the entries of a list have distinct keys.
-/

namespace HeaderSearch

/-- A key has a slot exactly when there is a map under it. -/
theorem HeaderMapSet.isSome_slot? (set : HeaderMapSet) (path : Path) (options : LoadOptions) :
    (set.slot? path options).isSome = (set.get? path options).isSome := by
  rw [slot?, get?, ← Table.contains_eq_isSome_get?, Table.slot?, List.findIdx?_isSome,
    Table.contains]

/-- What a place is, apart from how its path is spelled: the handle of its directory, or the slot of its
    header map. -/
inductive SearchPlace.Is (maps : HeaderMapSet) : SearchPlace → Identity → Prop where
  | directory (handle : DirHandle) (name : String) :
      Is maps (.directory handle name) (.directory handle)
  | framework (handle : DirHandle) (name : String) :
      Is maps (.framework handle name) (.framework handle)
  | headerMap {path : Path} {options : LoadOptions} {map : HeaderMap} {slot : Nat} (isIndex : Bool)
      (loaded : maps.get? path options = some map) (slotted : maps.slot? path options = some slot) :
      Is maps (.headerMap map isIndex) (.headerMap slot)

/-- An entry of a list has a key if it looks into what the key says, with the flags of the key. -/
structure SearchEntry.HasKey (maps : HeaderMapSet) (entry : SearchEntry) (key : EntryKey) : Prop where
  place : entry.place.Is maps key.identity
  characteristic : entry.characteristic = key.characteristic
  quoteOnly : entry.quoteOnly = key.quoteOnly

/-- How many entries were located before a failure at a position. A wrong mark is noticed before its
    entry is located. -/
def BuildError.located (index : Nat) : BuildError → Nat
  | .notAHeaderMap _ _ => index
  | _ => index + 1

namespace ConfigEntry

/-- The question about the directory of an entry. A header map has none. -/
def question? (entry : ConfigEntry) : Option Query :=
  match entry.location with
  | .directory path => some (.directory path)
  | .framework path => some (.directory path)
  | .headerMap _ => none

/-- The questions about an entry come before those about the entries after it. -/
theorem questions_cons (entry : ConfigEntry) (others : List ConfigEntry) :
    (entry :: others).filterMap question? =
      entry.question?.toList ++ others.filterMap question? := by
  rw [List.filterMap_cons]
  cases entry.question? <;> rfl

section View

variable (view : FileView) (maps : HeaderMapSet)

/-- What an entry looks into, if that is there. -/
def identity? (entry : ConfigEntry) : Option Identity :=
  match entry.location with
  | .directory path => (view.directory? path).map .directory
  | .framework path => (view.directory? path).map .framework
  | .headerMap path => (maps.slot? path entry.loadOptions).map .headerMap

/-- The key of an entry, if what it looks into is there. -/
def key? (entry : ConfigEntry) : Option EntryKey :=
  (entry.identity? view maps).map entry.keyOf

/-- The entry at a position has a key: what it looks into is there. -/
def KeyedAt (entries : List ConfigEntry) (index : Nat) (key : EntryKey) : Prop :=
  ∃ entry, entries[index]? = some entry ∧ entry.key? view maps = some key

/-- What is wrong with the entry at a position, given the entries before it. -/
inductive Offends (entries : List ConfigEntry) (index : Nat) : BuildError → Prop where
  /-- It is marked as an index map and is none. -/
  | notAHeaderMap {entry : ConfigEntry} (here : entries[index]? = some entry)
      (marked : entry.indexMap = true) (isNone : entry.location.isHeaderMap = false) :
      Offends entries index (.notAHeaderMap index entry.shownName)
  /-- It names a header map that is not in the set. -/
  | notLoaded {entry : ConfigEntry} {path : Path} (here : entries[index]? = some entry)
      (named : entry.location = .headerMap path)
      (absent : maps.get? path entry.loadOptions = none) :
      Offends entries index (.notLoaded path)
  /-- An earlier entry has the same key. -/
  | duplicate {entry : ConfigEntry} {key : EntryKey} {first : Nat}
      (here : entries[index]? = some entry) (keyed : entry.key? view maps = some key)
      (before : first < index) (same : KeyedAt view maps entries first key) :
      Offends entries index (.duplicate entry.shownName first index)

/-- The entry at a position is the first one that offends. -/
structure FirstOffence (entries : List ConfigEntry) (index : Nat) (failure : BuildError) :
    Prop where
  offends : Offends view maps entries index failure
  least : ∀ earlier < index, ∀ other, ¬ Offends view maps entries earlier other

end View

variable {view : FileView} {maps : HeaderMapSet}

/-- Only an entry that is there can offend. -/
theorem Offends.inside {entries : List ConfigEntry} {index : Nat} {failure : BuildError}
    (offends : Offends view maps entries index failure) : index < entries.length := by
  cases offends with
  | notAHeaderMap here => exact (List.getElem?_eq_some_iff.mp here).1
  | notLoaded here => exact (List.getElem?_eq_some_iff.mp here).1
  | duplicate here => exact (List.getElem?_eq_some_iff.mp here).1

/-- There is at most one position of a first offence. -/
theorem FirstOffence.index_eq {entries : List ConfigEntry} {index other : Nat}
    {failure another : BuildError} (first : FirstOffence view maps entries index failure)
    (second : FirstOffence view maps entries other another) : other = index := by
  rcases Nat.lt_trichotomy other index with below | same | above
  · exact absurd second.offends (first.least other below another)
  · exact same
  · exact absurd first.offends (second.least index above failure)

/-- Among entries and one more, the keys are where they were, and that of the last entry is at the end. -/
theorem keyed_at_snoc {before : List ConfigEntry} {entry : ConfigEntry} {index : Nat}
    {key : EntryKey} : KeyedAt view maps (before ++ [entry]) index key ↔
      KeyedAt view maps before index key ∨
        index = before.length ∧ entry.key? view maps = some key := by
  unfold KeyedAt
  rcases Nat.lt_trichotomy index before.length with inside | rfl | past
  · rw [List.getElem?_append_left inside]
    simp [Nat.ne_of_lt inside]
  · simp
  · rw [List.getElem?_eq_none (by simp; omega), List.getElem?_eq_none (by omega)]
    simp [Nat.ne_of_gt past]

/-- A key is among those of some entries when one of these has it at its position. -/
theorem mem_keys_iff {entries : List ConfigEntry} {key : EntryKey} :
    key ∈ entries.filterMap (key? view maps) ↔ ∃ index, KeyedAt view maps entries index key := by
  rw [List.mem_filterMap]
  constructor
  · rintro ⟨entry, member, keyed⟩
    obtain ⟨index, here⟩ := List.mem_iff_getElem?.mp member
    exact ⟨index, entry, here, keyed⟩
  · rintro ⟨index, entry, here, keyed⟩
    exact ⟨entry, List.mem_of_getElem? here, keyed⟩

/-- Locating an entry asks its question and comes to its identity, or fails without a question because
    its header map was not loaded. -/
theorem locate_cases (view : FileView) (maps : HeaderMapSet) (entry : ConfigEntry) :
    (∃ path, entry.location = .headerMap path ∧ maps.get? path entry.loadOptions = none ∧
      (entry.locate maps : Observed view _) = ⟨.error (.notLoaded path), []⟩) ∨
    (∀ path, entry.location = .headerMap path → maps.get? path entry.loadOptions ≠ none) ∧
      ∃ located, (entry.locate maps : Observed view _) = ⟨.ok located, entry.question?.toList⟩ ∧
        located.map Prod.snd = entry.identity? view maps ∧
        ∀ place identity, located = some (place, identity) → place.Is maps identity := by
  unfold locate identity? question?
  cases location : entry.location with
  | directory path =>
    refine .inr ⟨by simp, _, rfl, by simp [Option.map_map, Function.comp_def], ?_⟩
    intro place identity found
    obtain ⟨handle, _, same⟩ := Option.map_eq_some_iff.mp found
    obtain ⟨rfl, rfl⟩ := Prod.mk.inj same
    exact .directory handle path.shown
  | framework path =>
    refine .inr ⟨by simp, _, rfl, by simp [Option.map_map, Function.comp_def], ?_⟩
    intro place identity found
    obtain ⟨handle, _, same⟩ := Option.map_eq_some_iff.mp found
    obtain ⟨rfl, rfl⟩ := Prod.mk.inj same
    exact .framework handle path.shown
  | headerMap path =>
    have both := maps.isSome_slot? path entry.loadOptions
    cases loaded : maps.get? path entry.loadOptions with
    | none =>
      have unslotted : maps.slot? path entry.loadOptions = none := by simpa [loaded] using both
      simp only [unslotted]
      exact .inl ⟨path, rfl, loaded, rfl⟩
    | some map =>
      obtain ⟨slot, slotted⟩ := Option.isSome_iff_exists.mp (both.trans (by simp [loaded]))
      simp only [slotted, loaded]
      refine .inr ⟨?_, some (.headerMap map _, .headerMap slot), rfl, rfl, ?_⟩
      · intro other same
        obtain rfl := Location.headerMap.inj same
        simp [loaded]
      · intro place identity found
        obtain ⟨rfl, rfl⟩ := Prod.mk.inj (Option.some.inj found)
        exact .headerMap _ loaded slotted

/-- What a list in the making knows about the entries before it: a key leads to the one position that
    has it, and the kept entries have the keys. -/
structure Records (view : FileView) (maps : HeaderMapSet) (before : List ConfigEntry)
    (partialList : PartialList) : Prop where
  position {key : EntryKey} {first : Nat} :
    partialList.position? key = some first ↔ KeyedAt view maps before first key
  distinct : (before.filterMap (key? view maps)).Nodup
  kept : List.Forall₂ (SearchEntry.HasKey maps) (partialList.kept.map (·.2.2))
    (before.filterMap (key? view maps))

namespace Records

variable {before : List ConfigEntry} {partialList : PartialList} {entry : ConfigEntry}

theorem fresh : Records view maps [] {} where
  position := by simp [PartialList.position?, KeyedAt]
  distinct := by simp
  kept := .nil

/-- An entry that is not there changes nothing but the count of those left out. -/
theorem drop (records : Records view maps before partialList) (start index : Nat)
    (absent : entry.key? view maps = none) :
    Records view maps (before ++ [entry]) (partialList.drop start index) := by
  have same : (partialList.drop start index).kept = partialList.kept := by
    unfold PartialList.drop
    split <;> rfl
  have keys : (before ++ [entry]).filterMap (key? view maps) =
      before.filterMap (key? view maps) := by
    simp [absent]
  constructor
  · intro key first
    rw [keyed_at_snoc, absent, PartialList.position?, same, ← PartialList.position?,
      records.position]
    simp
  · rw [keys]
    exact records.distinct
  · rw [keys, same]
    exact records.kept

/-- An entry with a new key is kept at the end. -/
theorem add (records : Records view maps before partialList) {key : EntryKey} {place : SearchPlace}
    (keyed : entry.key? view maps = some key) (new : partialList.position? key = none)
    (kept : SearchEntry.HasKey maps ⟨place, entry.characteristic, entry.quoteOnly⟩ key) :
    Records view maps (before ++ [entry])
      (partialList.add key before.length ⟨place, entry.characteristic, entry.quoteOnly⟩) := by
  have keys : (before ++ [entry]).filterMap (key? view maps) =
      before.filterMap (key? view maps) ++ [key] := by
    simp [keyed]
  constructor
  · intro other first
    have added : (partialList.add key before.length
        ⟨place, entry.characteristic, entry.quoteOnly⟩).position? other =
        (partialList.position? other).or (if key = other then some before.length else none) := by
      rw [PartialList.position?, PartialList.add, List.find?_append, Option.map_or,
        ← PartialList.position?]
      by_cases same : key = other <;> simp [same]
    rw [keyed_at_snoc, added, keyed, ← records.position, Option.or_eq_some_iff]
    by_cases same : key = other
    · subst same
      simp [new, eq_comm]
    · simp [same]
  · rw [keys, List.nodup_append]
    refine ⟨records.distinct, by simp, ?_⟩
    intro other member last isKey same
    obtain rfl := List.mem_singleton.mp isKey
    obtain ⟨index, there⟩ := mem_keys_iff.mp (same ▸ member)
    simp [records.position.mpr there] at new
  · rw [keys, PartialList.add, List.map_append]
    exact List.rel_append records.kept (.cons kept .nil)

end Records

/-- Entries with one key are marked alike, and both are header maps or neither is. -/
theorem marks_of_key {entry other : ConfigEntry} {key : EntryKey}
    (keyed : entry.key? view maps = some key) (same : other.key? view maps = some key) :
    other.indexMap = entry.indexMap ∧ other.location.isHeaderMap = entry.location.isHeaderMap := by
  have mark {entry : ConfigEntry} (keyed : entry.key? view maps = some key) :
      key.indexMap = entry.indexMap ∧
        ((∃ slot, key.identity = .headerMap slot) ↔ entry.location.isHeaderMap = true) := by
    obtain ⟨identity, here, rfl⟩ := Option.map_eq_some_iff.mp keyed
    refine ⟨rfl, ?_⟩
    unfold identity? at here
    cases location : entry.location with
    | directory path =>
      obtain ⟨handle, _, rfl⟩ := Option.map_eq_some_iff.mp (location ▸ here)
      simp [keyOf, Location.isHeaderMap]
    | framework path =>
      obtain ⟨handle, _, rfl⟩ := Option.map_eq_some_iff.mp (location ▸ here)
      simp [keyOf, Location.isHeaderMap]
    | headerMap path =>
      obtain ⟨slot, _, rfl⟩ := Option.map_eq_some_iff.mp (location ▸ here)
      simp [keyOf, Location.isHeaderMap]
  refine ⟨(mark same).1.symm.trans (mark keyed).1, ?_⟩
  rw [Bool.eq_iff_iff, ← (mark same).2, (mark keyed).2]

section Entering

variable {before others : List ConfigEntry} {entry : ConfigEntry} {failure : BuildError}

/-- What is wrong with the entry that follows some others. -/
theorem offends_next_iff : Offends view maps (before ++ entry :: others) before.length failure ↔
    (entry.indexMap = true ∧ entry.location.isHeaderMap = false ∧
      failure = .notAHeaderMap before.length entry.shownName) ∨
    (∃ path, entry.location = .headerMap path ∧ maps.get? path entry.loadOptions = none ∧
      failure = .notLoaded path) ∨
    ∃ key first, entry.key? view maps = some key ∧ KeyedAt view maps before first key ∧
      failure = .duplicate entry.shownName first before.length := by
  have next : (before ++ entry :: others)[before.length]? = some entry := by simp
  have earlier {first : Nat} (below : first < before.length) (key : EntryKey) :
      KeyedAt view maps (before ++ entry :: others) first key ↔
        KeyedAt view maps before first key := by
    rw [KeyedAt, List.getElem?_append_left below, KeyedAt]
  constructor
  · intro offends
    cases offends with
    | notAHeaderMap here marked isNone =>
      obtain rfl := Option.some.inj (next.symm.trans here)
      exact .inl ⟨marked, isNone, rfl⟩
    | notLoaded here named absent =>
      obtain rfl := Option.some.inj (next.symm.trans here)
      exact .inr (.inl ⟨_, named, absent, rfl⟩)
    | duplicate here keyed below same =>
      obtain rfl := Option.some.inj (next.symm.trans here)
      exact .inr (.inr ⟨_, _, keyed, (earlier below _).mp same, rfl⟩)
  · rintro (⟨marked, isNone, rfl⟩ | ⟨path, named, absent, rfl⟩ | ⟨key, first, keyed, same, rfl⟩)
    · exact .notAHeaderMap next marked isNone
    · exact .notLoaded next named absent
    · obtain ⟨_, there, _⟩ := id same
      have below := (List.getElem?_eq_some_iff.mp there).1
      exact .duplicate next keyed below ((earlier below key).mpr same)

/-- The outcome of entering an entry after others: it fails if the entry offends, and then in one way
    only, and otherwise the list in the making knows about the entry too. -/
inductive Entered (view : FileView) (maps : HeaderMapSet) (before : List ConfigEntry)
    (entry : ConfigEntry) (others : List ConfigEntry) :
    Observed view (Except BuildError PartialList) → Prop where
  | refused (failure : BuildError)
      (only : ∀ other, Offends view maps (before ++ entry :: others) before.length other ↔
        other = failure) :
      Entered view maps before entry others ⟨.error failure,
        ([entry].take (failure.located before.length - before.length)).filterMap question?⟩
  | accepted (larger : PartialList) (records : Records view maps (before ++ [entry]) larger)
      (harmless : ∀ other, ¬ Offends view maps (before ++ entry :: others) before.length other) :
      Entered view maps before entry others ⟨.ok larger, entry.question?.toList⟩

variable {partialList : PartialList} {start : Nat}

/-- An entry with a wrong mark is refused without a question. No earlier entry has its key, since that
    would have the same mark and offend first. -/
theorem enter_marked (marked : (entry.indexMap && !entry.location.isHeaderMap) = true)
    (clean : ∀ index < before.length, ∀ other,
      ¬ Offends view maps (before ++ entry :: others) index other) :
    Entered view maps before entry others (entry.enter maps start before.length partialList) := by
  have refused : (entry.enter maps start before.length partialList : Observed view _) =
      ⟨.error (.notAHeaderMap before.length entry.shownName), ([entry].take
        ((BuildError.notAHeaderMap before.length entry.shownName).located before.length -
          before.length)).filterMap question?⟩ := by
    rw [enter, if_pos marked, BuildError.located, Nat.sub_self]
    rfl
  rw [refused]
  simp only [Bool.and_eq_true, Bool.not_eq_true'] at marked
  refine .refused _ fun other => ?_
  rw [offends_next_iff]
  constructor
  · rintro (⟨-, -, rfl⟩ | ⟨path, named, -, -⟩ | ⟨key, first, keyed, ⟨earlier, there, same⟩, -⟩)
    · rfl
    · rw [named] at marked
      simp [Location.isHeaderMap] at marked
    · obtain ⟨markedToo, notToo⟩ := marks_of_key keyed same
      have below := (List.getElem?_eq_some_iff.mp there).1
      have offends : Offends view maps (before ++ entry :: others) first _ :=
        .notAHeaderMap (by rwa [List.getElem?_append_left below])
          (markedToo.trans marked.1) (notToo.trans marked.2)
      exact absurd offends (clean first below _)
  · rintro rfl
    exact .inl ⟨marked.1, marked.2, rfl⟩

/-- An entry whose header map was not loaded has no key and is refused without a question. -/
theorem enter_not_loaded (unmarked : ¬ (entry.indexMap && !entry.location.isHeaderMap) = true)
    {path : Path} (named : entry.location = .headerMap path)
    (absent : maps.get? path entry.loadOptions = none)
    (located : (entry.locate maps : Observed view _) = ⟨.error (.notLoaded path), []⟩) :
    Entered view maps before entry others (entry.enter maps start before.length partialList) := by
  have unslotted : maps.slot? path entry.loadOptions = none := by
    have both := maps.isSome_slot? path entry.loadOptions
    simpa [absent] using both
  have keyless : entry.key? view maps = none := by
    simp [key?, identity?, named, unslotted]
  have refused : (entry.enter maps start before.length partialList : Observed view _) =
      ⟨.error (.notLoaded path), ([entry].take
        ((BuildError.notLoaded path).located before.length - before.length)).filterMap
          question?⟩ := by
    rw [enter, if_neg unmarked, located]
    simp [BuildError.located, question?, named]
    rfl
  rw [refused]
  simp only [Bool.and_eq_true, Bool.not_eq_true'] at unmarked
  refine .refused _ fun other => ?_
  rw [offends_next_iff]
  constructor
  · rintro (⟨mark, not, -⟩ | ⟨other, same, -, rfl⟩ | ⟨key, first, keyed, -, -⟩)
    · exact absurd ⟨mark, not⟩ unmarked
    · rw [Location.headerMap.inj (same.symm.trans named)]
    · simp [keyless] at keyed
  · rintro rfl
    exact .inr (.inl ⟨path, named, absent, rfl⟩)

/-- An entry that can be located offends exactly if its key is known already. -/
theorem offends_located_iff (records : Records view maps before partialList)
    (unmarked : ¬ (entry.indexMap && !entry.location.isHeaderMap) = true)
    (loaded : ∀ path, entry.location = .headerMap path → maps.get? path entry.loadOptions ≠ none) :
    Offends view maps (before ++ entry :: others) before.length failure ↔
      ∃ key first, entry.key? view maps = some key ∧ partialList.position? key = some first ∧
        failure = .duplicate entry.shownName first before.length := by
  simp only [Bool.and_eq_true, Bool.not_eq_true'] at unmarked
  rw [offends_next_iff]
  constructor
  · rintro (⟨mark, not, -⟩ | ⟨path, named, absent, -⟩ | ⟨key, first, keyed, same, rfl⟩)
    · exact absurd ⟨mark, not⟩ unmarked
    · exact absurd absent (loaded path named)
    · exact ⟨key, first, keyed, records.position.mpr same, rfl⟩
  · rintro ⟨key, first, keyed, known, rfl⟩
    exact .inr (.inr ⟨key, first, keyed, records.position.mp known, rfl⟩)

/-- Entering an entry after others that do not offend fails exactly if it offends. -/
theorem enter_decides (start : Nat) (records : Records view maps before partialList)
    (clean : ∀ index < before.length, ∀ other,
      ¬ Offends view maps (before ++ entry :: others) index other) :
    Entered view maps before entry others (entry.enter maps start before.length partialList) := by
  by_cases marked : (entry.indexMap && !entry.location.isHeaderMap) = true
  · exact enter_marked marked clean
  rcases locate_cases view maps entry with
    ⟨path, named, absent, located⟩ | ⟨loaded, located, found, identified, is⟩
  · exact enter_not_loaded marked named absent located
  have offends {failure : BuildError} :
      Offends view maps (before ++ entry :: others) before.length failure ↔ _ :=
    offends_located_iff records marked loaded
  have keyed : entry.key? view maps = (located.map Prod.snd).map entry.keyOf := by
    rw [key?, identified]
  cases located with
  | none =>
    have entered : (entry.enter maps start before.length partialList : Observed view _) =
        ⟨.ok (partialList.drop start before.length), entry.question?.toList⟩ := by
      rw [enter, if_neg marked, found]
      exact Observed.ext rfl (List.append_nil _)
    rw [entered]
    refine .accepted _ (records.drop start _ keyed) fun other => ?_
    rw [offends]
    simp [keyed]
  | some located =>
    obtain ⟨place, identity⟩ := located
    cases known : partialList.position? (entry.keyOf identity) with
    | some first =>
      have refused : (entry.enter maps start before.length partialList : Observed view _) =
          ⟨.error (.duplicate entry.shownName first before.length), ([entry].take
            ((BuildError.duplicate entry.shownName first before.length).located before.length -
              before.length)).filterMap question?⟩ := by
        rw [enter, if_neg marked, found]
        apply Observed.ext
        · simp [known]
        · simp [known, BuildError.located, questions_cons]
      rw [refused]
      refine .refused _ fun other => ?_
      rw [offends]
      simp [keyed, known]
    | none =>
      have entered : (entry.enter maps start before.length partialList : Observed view _) =
          ⟨.ok (partialList.add (entry.keyOf identity) before.length
            ⟨place, entry.characteristic, entry.quoteOnly⟩), entry.question?.toList⟩ := by
        rw [enter, if_neg marked, found]
        apply Observed.ext
        · simp [known]
        · simp [known]
      rw [entered]
      refine .accepted _ (records.add keyed known ⟨is place identity rfl, rfl, rfl⟩) fun other => ?_
      rw [offends]
      simp [keyed, known]

/-- The outcome of entering entries after others: it fails at the first entry that offends, and
    otherwise no entry offends and the list in the making knows about all of them. -/
inductive EnteredAll (view : FileView) (maps : HeaderMapSet) (before others : List ConfigEntry) :
    Observed view (Except BuildError PartialList) → Prop where
  | refused (index : Nat) (failure : BuildError) (reached : before.length ≤ index)
      (least : ∀ earlier < index, ∀ other, ¬ Offends view maps (before ++ others) earlier other)
      (only : ∀ other, Offends view maps (before ++ others) index other ↔ other = failure) :
      EnteredAll view maps before others ⟨.error failure,
        (others.take (failure.located index - before.length)).filterMap question?⟩
  | accepted (whole : PartialList) (records : Records view maps (before ++ others) whole)
      (harmless : ∀ index other, ¬ Offends view maps (before ++ others) index other) :
      EnteredAll view maps before others ⟨.ok whole, others.filterMap question?⟩

/-- Entering entries after others that do not offend fails exactly at the first that does. Induct on the
    entries: one that is accepted goes over to those before. -/
theorem enter_all_decides (records : Records view maps before partialList)
    (clean : ∀ index < before.length, ∀ other,
      ¬ Offends view maps (before ++ others) index other) :
    EnteredAll view maps before others (enterAll maps start before.length partialList others) := by
  induction others generalizing before partialList with
  | nil =>
    refine .accepted partialList (by rwa [List.append_nil]) ?_
    intro index other offends
    have inside := offends.inside
    rw [List.append_nil] at inside
    exact clean index inside other offends
  | cons entry others inductionHypothesis =>
    have entered := enter_decides start records clean
    unfold enterAll
    generalize (entry.enter maps start before.length partialList : Observed view _) = outcome
      at entered ⊢
    cases entered with
    | refused failure only =>
      have reached : failure.located before.length - before.length ≤ 1 := by
        cases failure <;> simp [BuildError.located]
      have asked : ((entry :: others).take
          (failure.located before.length - before.length)).filterMap question? =
          ([entry].take (failure.located before.length - before.length)).filterMap question? := by
        rcases Nat.le_one_iff_eq_zero_or_eq_one.mp reached with none | one
        · simp [none]
        · simp [one]
      have refused := EnteredAll.refused before.length failure (Nat.le_refl _) clean only
      rw [asked] at refused
      convert refused using 1
      exact Observed.ext rfl (List.append_nil _)
    | accepted larger records harmless =>
      have together : before ++ [entry] ++ others = before ++ entry :: others := by simp
      have cleanToo : ∀ index < (before ++ [entry]).length, ∀ other,
          ¬ Offends view maps (before ++ [entry] ++ others) index other := by
        intro index below other
        rw [together]
        rcases Nat.lt_or_ge index before.length with inside | past
        · exact clean index inside other
        · have last : index = before.length := by
            rw [List.length_append, List.length_singleton] at below
            omega
          subst last
          exact harmless other
      have rest := inductionHypothesis records cleanToo
      have next : (before ++ [entry]).length = before.length + 1 := by simp
      rw [next] at rest
      change EnteredAll view maps before (entry :: others)
        ⟨(enterAll maps start (before.length + 1) larger others : Observed view _).value,
          entry.question?.toList ++
            (enterAll maps start (before.length + 1) larger others : Observed view _).queries⟩
      generalize (enterAll maps start (before.length + 1) larger others : Observed view _) =
        outcome at rest ⊢
      cases rest with
      | refused index failure reached least only =>
        rw [next] at reached ⊢
        rw [together] at least only
        have later : index ≤ failure.located index := by
          cases failure <;> simp [BuildError.located]
        obtain ⟨count, counted⟩ := Nat.exists_eq_add_of_le (Nat.le_trans reached later)
        have refused := EnteredAll.refused index failure (Nat.le_of_succ_le reached) least only
        rw [counted, Nat.add_assoc, Nat.add_sub_cancel_left, Nat.add_comm 1, List.take_succ_cons,
          questions_cons] at refused
        rwa [counted, Nat.add_sub_cancel_left]
      | accepted whole records harmless =>
        rw [together] at records harmless
        rw [← questions_cons]
        exact .accepted whole records harmless

namespace EnteredAll

variable {entries : List ConfigEntry} {outcome : Observed view (Except BuildError PartialList)}
variable {index : Nat} {failure : BuildError}

/-- Where the first offence is, the questions end, and only one thing is wrong there. -/
theorem at_first (entered : EnteredAll view maps [] entries outcome)
    (first : FirstOffence view maps entries index failure) :
    outcome.value = .error failure ∧
      outcome.queries = (entries.take (failure.located index)).filterMap question? ∧
      ∀ other, Offends view maps entries index other ↔ other = failure := by
  cases entered with
  | refused position actual _ least only =>
    rw [List.nil_append] at least only
    have refused : FirstOffence view maps entries position actual := ⟨(only actual).mpr rfl, least⟩
    obtain rfl := refused.index_eq first
    obtain rfl := (only failure).mp first.offends
    exact ⟨rfl, rfl, only⟩
  | accepted _ _ harmless => exact absurd first.offends (harmless index failure)

/-- Entering all entries fails exactly if one offends, with the error of the first that does. -/
theorem fails_iff (entered : EnteredAll view maps [] entries outcome) :
    outcome.value = .error failure ↔
      ∃ index, FirstOffence view maps entries index failure := by
  constructor
  · intro failed
    cases entered with
    | refused position actual _ least only =>
      obtain rfl := Except.error.inj failed
      exact ⟨position, (only actual).mpr rfl, least⟩
    | accepted => cases failed
  · rintro ⟨index, first⟩
    exact (entered.at_first first).1

/-- When all entries were entered, all questions were asked and the list knows about all entries. -/
theorem at_end (entered : EnteredAll view maps [] entries outcome) {whole : PartialList}
    (done : outcome.value = .ok whole) :
    outcome.queries = entries.filterMap question? ∧ Records view maps entries whole := by
  cases entered with
  | refused => cases done
  | accepted actual records =>
    obtain rfl := Except.ok.inj done
    exact ⟨rfl, records⟩

end EnteredAll

end Entering

end ConfigEntry

namespace Config

variable (view : FileView) (maps : HeaderMapSet) (config : Config)

open ConfigEntry

variable {view maps config}

/-- Building a list from a start that is not past the end enters all entries, and keeps what was kept. -/
theorem build_enters (view : FileView) (maps : HeaderMapSet)
    (inside : config.start ≤ config.entries.length) :
    ∃ entered, EnteredAll view maps [] config.entries entered ∧
      (config.build maps : Observed view _).queries = entered.queries ∧
      (config.build maps : Observed view _).value = entered.value.map fun whole => {
        entries := whole.kept.map (·.2.2)
        angledStart := config.start - whole.dropped
        systemFrameworks := SortedPairs.distinctWords config.systemFrameworks } := by
  refine ⟨enterAll maps config.start 0 {} config.entries, ?_, ?_⟩
  · exact enter_all_decides Records.fresh (by simp)
  · unfold build
    dsimp only
    rw [if_neg (Nat.not_lt.mpr inside), Observed.queries_bind, Observed.value_bind]
    generalize (enterAll maps config.start 0 {} config.entries : Observed view _) = outcome
    obtain ⟨value, queries⟩ := outcome
    cases value with
    | error failure => exact ⟨List.append_nil _, rfl⟩
    | ok whole => exact ⟨List.append_nil _, rfl⟩

/-- The earlier entry that a repeated key is reported with is the only one that has the key. -/
theorem first_of_duplicate {index first second : Nat} {name : String}
    (only : ∀ other, Offends view maps config.entries index other ↔
      other = .duplicate name first second) :
    second = index ∧ ∃ key, KeyedAt view maps config.entries index key ∧
      ∀ other < index, KeyedAt view maps config.entries other key ↔ other = first := by
  cases (only _).mpr rfl with
  | duplicate here keyed below same =>
    refine ⟨rfl, _, ⟨_, here, keyed⟩, fun other earlier => ?_⟩
    constructor
    · intro again
      have repeated := (only _).mp (.duplicate here keyed earlier again)
      exact (BuildError.duplicate.inj repeated).2.1
    · rintro rfl
      exact same

variable (view maps config)

/-- Building a list fails exactly when it must and names the first offence. A start past the last entry
    is refused before any question. Otherwise building fails exactly if an entry offends, with the error
    of the first that does: for a repeated key that error has the position of the only earlier entry
    with the key. The questions are one about each directory, in the configured order and up to the
    entry that is refused. The entries of a list that was built have distinct keys. -/
theorem build_names_first_offence :
    let outcome : Observed view (Except BuildError SearchList) := config.build maps
    (config.entries.length < config.start →
      outcome = ⟨.error (.startOutOfRange config.start config.entries.length), []⟩) ∧
    (config.start ≤ config.entries.length →
      (∀ failure, outcome.value = .error failure ↔
        ∃ index, FirstOffence view maps config.entries index failure) ∧
      (∀ index failure, FirstOffence view maps config.entries index failure →
        outcome.queries = (config.entries.take (failure.located index)).filterMap question? ∧
        ∀ name first second, failure = .duplicate name first second → second = index ∧
          ∃ key, KeyedAt view maps config.entries index key ∧
            ∀ other < index, KeyedAt view maps config.entries other key ↔ other = first) ∧
      ∀ list, outcome.value = .ok list →
        outcome.queries = config.entries.filterMap question? ∧
        (config.entries.filterMap (key? view maps)).Nodup ∧
        List.Forall₂ (SearchEntry.HasKey maps) list.entries
          (config.entries.filterMap (key? view maps))) := by
  intro outcome
  constructor
  · intro past
    change (config.build maps : Observed view _) = _
    rw [build, if_pos past]
    rfl
  · intro inside
    obtain ⟨entered, decided, queries, value⟩ := build_enters view maps inside
    change outcome.queries = _ at queries
    change outcome.value = _ at value
    refine ⟨fun failure => ?_, fun index failure first => ?_, fun list built => ?_⟩
    · rw [← decided.fails_iff, value]
      cases entered.value <;> simp [Except.map]
    · obtain ⟨-, asked, only⟩ := decided.at_first first
      refine ⟨queries.trans asked, ?_⟩
      rintro name earlier later rfl
      exact first_of_duplicate only
    · rw [value] at built
      cases ended : entered.value with
      | error failure => exact absurd (ended ▸ built) (by simp [Except.map])
      | ok whole =>
        obtain ⟨asked, records⟩ := decided.at_end ended
        rw [ended] at built
        obtain rfl := Except.ok.inj built
        exact ⟨queries.trans asked, records.distinct, records.kept⟩

/-- Two spellings of one directory are one entry, a directory and a directory of frameworks are two, and
    the header map after the repeated entry is not looked at. -/
example :
    let view : FileView := {
      directory? := fun path => if path.text = "/gone" then none else some ⟨0⟩
      file? := fun _ _ => none
      directoryPath := fun _ => ⟨"/here"⟩
      filePath := fun _ => ⟨""⟩ }
    let config : Config := { entries := [
      { location := .directory ⟨"/gone"⟩ },
      { location := .directory ⟨"/here"⟩ },
      { location := .framework ⟨"/here"⟩ },
      { location := .directory ⟨"/alias"⟩ },
      { location := .headerMap ⟨"/missing.hmap"⟩ }] }
    (config.build .empty : Observed view _) = ⟨.error (.duplicate "/alias" 1 3),
      [.directory ⟨"/gone"⟩, .directory ⟨"/here"⟩, .directory ⟨"/here"⟩,
        .directory ⟨"/alias"⟩]⟩ := rfl

end Config

end HeaderSearch
