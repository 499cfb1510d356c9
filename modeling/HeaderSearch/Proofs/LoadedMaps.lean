import Mathlib.Data.Finset.Card
import HeaderSearch.Proofs.Refusals

/-!
# Header maps that are kept apart

A set of header maps is described by the calls of `insert` that made it: a key has the map of the last
call under it, and the slot that its first call took, which no later call moves. Loading the maps of a
configuration is loading the first entry of each key, in order, and then inserting them one after the
other. Every header map of the configuration is therefore found under its own options, and a list that
is built with the loaded set never misses one.
-/

namespace HeaderSearch

namespace HeaderMapSet

/-- One call of `insert`. -/
structure Insertion where
  /-- The path of the map. -/
  path : Path
  /-- What is demanded of the map. -/
  options : LoadOptions
  /-- The map. -/
  map : HeaderMap

/-- The key under which a call inserts. -/
def Insertion.key (insertion : Insertion) : HeaderMapKey := .ofPath insertion.path insertion.options

/-- The set after some calls of `insert`. -/
def insertAll (set : HeaderMapSet) (insertions : List Insertion) : HeaderMapSet :=
  insertions.foldl (fun set insertion =>
    set.insert insertion.path insertion.options insertion.map) set

@[simp] theorem insertAll_nil (set : HeaderMapSet) : set.insertAll [] = set := rfl

@[simp] theorem insertAll_cons (set : HeaderMapSet) (insertion : Insertion)
    (insertions : List Insertion) : set.insertAll (insertion :: insertions) =
      (set.insert insertion.path insertion.options insertion.map).insertAll insertions := rfl

theorem insertAll_concat (set : HeaderMapSet) (insertions : List Insertion) (last : Insertion) :
    set.insertAll (insertions ++ [last]) =
      (set.insertAll insertions).insert last.path last.options last.map := by
  simp [insertAll]

/-- A key has the map of the last call under it. -/
theorem get?_insertAll (insertions : List Insertion) (path : Path) (options : LoadOptions) :
    (empty.insertAll insertions).get? path options =
      (insertions.reverse.find? fun insertion => insertion.key = .ofPath path options).map
        Insertion.map := by
  induction insertions using List.reverseRecOn with
  | nil => rfl
  | append_singleton insertions last inductionHypothesis =>
    rw [insertAll_concat, List.reverse_append, List.reverse_singleton, List.singleton_append,
      List.find?_cons]
    unfold get? at inductionHypothesis ⊢
    rw [insert, Table.get?_insert, ← Insertion.key]
    by_cases same : last.key = .ofPath path options
    · simp [same]
    · rw [if_neg (Ne.symm same), inductionHypothesis]
      simp [same]

/-- A set keeps what was inserted into it: paths count by their components, and the same path with
    different options is another key. -/
structure Keeps (set : HeaderMapSet) (insertions : List Insertion) : Prop where
  /-- A key has a slot exactly if it was inserted. -/
  slotted_iff (path : Path) (options : LoadOptions) : (set.slot? path options).isSome ↔
    ∃ insertion ∈ insertions,
      insertion.path.components = path.components ∧ insertion.options = options
  /-- Two keys share a slot exactly if they are equal. -/
  shared_iff {path : Path} {options : LoadOptions} {slot : Nat}
    (slotted : set.slot? path options = some slot) (other : Path) (others : LoadOptions) :
    set.slot? other others = some slot ↔
      path.components = other.components ∧ options = others
  /-- A slot is below the number of maps. -/
  inside {path : Path} {options : LoadOptions} {slot : Nat} :
    set.slot? path options = some slot → slot < set.size
  /-- No further call moves a slot. -/
  stays {path : Path} {options : LoadOptions} {slot : Nat} (more : List Insertion) :
    set.slot? path options = some slot → (set.insertAll more).slot? path options = some slot
  /-- A key has the map of the last call under it. -/
  last (path : Path) (options : LoadOptions) : set.get? path options =
    (insertions.reverse.find? fun insertion =>
      insertion.path.components = path.components ∧ insertion.options = options).map Insertion.map
  /-- There are as many maps as different keys. -/
  size : set.size = (insertions.map Insertion.key).toFinset.card

/-- Of different keys every call is the last one under its key. -/
theorem get?_insertAll_of_mem {insertions : List Insertion} {insertion : Insertion}
    (distinct : (insertions.map Insertion.key).Nodup) (member : insertion ∈ insertions) :
    (empty.insertAll insertions).get? insertion.path insertion.options = some insertion.map := by
  rw [get?_insertAll]
  cases found : insertions.reverse.find? fun other =>
      other.key = .ofPath insertion.path insertion.options with
  | none =>
    have absent := List.find?_eq_none.1 found insertion (List.mem_reverse.2 member)
    simp [Insertion.key] at absent
  | some other =>
    have named := List.find?_some found
    rw [decide_eq_true_eq] at named
    have same : other.key = insertion.key := named
    have there := List.mem_reverse.1 (List.mem_of_find?_eq_some found)
    rw [List.inj_on_of_nodup_map distinct there member same, Option.map_some]

/-! ### Loading -/

/-- The key of a header map that a configuration names. -/
def keyOf (item : Path × LoadOptions) : HeaderMapKey := .ofPath item.1 item.2

/-- The calls of `insert` for some header maps, each loaded from its file in order. The first that
    cannot be loaded ends it. -/
def loadEach {m : Type → Type} [Monad m] [FileSystem m] :
    List (Path × LoadOptions) → m (Except HeaderMap.Error (List Insertion))
  | [] => return .ok []
  | (path, options) :: rest => do
    match ← HeaderMap.load path options with
    | .error failure => return .error failure
    | .ok map => return (← loadEach rest).map (⟨path, options, map⟩ :: ·)

variable {m : Type → Type} {ω : Type} [Monad m] [FileSystem m] [Runs m ω]

/-- Loading the first map and then the others. -/
theorem run_load_each_cons (path : Path) (options : LoadOptions) (rest : List (Path × LoadOptions))
    (state : ω) :
    Runs.run (loadEach ((path, options) :: rest) : m _) state =
      match Runs.run (HeaderMap.load path options : m _) state with
      | (.error failure, after) => (.error failure, after)
      | (.ok map, between) =>
        ((Runs.run (loadEach rest : m _) between).1.map (⟨path, options, map⟩ :: ·),
          (Runs.run (loadEach rest : m _) between).2) := by
  rw [loadEach, Runs.run_bind]
  cases Runs.run (HeaderMap.load path options : m _) state with
  | mk loaded between =>
    cases loaded with
    | error failure => simp only [Runs.run_pure]
    | ok map => simp only [Runs.run_bind, Runs.run_pure]

/-- Loading succeeds exactly if the first map can be loaded and then the others. -/
theorem load_each_cons_eq_ok_iff {path : Path} {options : LoadOptions}
    {rest : List (Path × LoadOptions)} {state after : ω} {insertions : List Insertion} :
    Runs.run (loadEach ((path, options) :: rest) : m _) state = (.ok insertions, after) ↔
      ∃ map between others,
        Runs.run (HeaderMap.load path options : m _) state = (.ok map, between) ∧
        Runs.run (loadEach rest : m _) between = (.ok others, after) ∧
        insertions = ⟨path, options, map⟩ :: others := by
  rw [run_load_each_cons]
  rcases Runs.run (HeaderMap.load path options : m _) state with ⟨failure | map, between⟩
  · simp
  · rcases others : Runs.run (loadEach rest : m _) between with ⟨failure | others, ended⟩
    · simp [others, Except.map]
    · simp [others, Except.map, and_comm, eq_comm]

/-- When loading succeeds, every map was loaded right after those before it. -/
theorem load_each_ok {before rest : List (Path × LoadOptions)} {path : Path} {options : LoadOptions}
    {state after : ω} {insertions : List Insertion}
    (loaded : Runs.run (loadEach (before ++ (path, options) :: rest) : m _) state =
      (.ok insertions, after)) :
    ∃ earlier between map, Runs.run (loadEach before : m _) state = (.ok earlier, between) ∧
      (Runs.run (HeaderMap.load path options : m _) between).1 = .ok map ∧
      ⟨path, options, map⟩ ∈ insertions := by
  induction before generalizing state insertions with
  | nil =>
    obtain ⟨map, between, others, first, -, rfl⟩ := load_each_cons_eq_ok_iff.1 loaded
    exact ⟨[], state, map, Runs.run_pure .., by rw [first], List.mem_cons_self⟩
  | cons item before inductionHypothesis =>
    obtain ⟨map, between, others, first, othersLoaded, rfl⟩ := load_each_cons_eq_ok_iff.1 loaded
    obtain ⟨earlier, there, last, before, lastLoaded, member⟩ := inductionHypothesis othersLoaded
    exact ⟨_, there, last, load_each_cons_eq_ok_iff.2 ⟨map, between, earlier, first, before, rfl⟩,
      lastLoaded, List.mem_cons_of_mem _ member⟩

/-- The calls are made under the keys of the items, in order. -/
theorem keys_of_load_each {items : List (Path × LoadOptions)} {state after : ω}
    {insertions : List Insertion}
    (loaded : Runs.run (loadEach items : m _) state = (.ok insertions, after)) :
    insertions.map Insertion.key = items.map keyOf := by
  induction items generalizing state insertions with
  | nil =>
    rw [loadEach, Runs.run_pure, Prod.mk.injEq, Except.ok.injEq] at loaded
    obtain ⟨rfl, -⟩ := loaded
    rfl
  | cons item items inductionHypothesis =>
    obtain ⟨map, between, others, -, othersLoaded, rfl⟩ := load_each_cons_eq_ok_iff.1 loaded
    rw [List.map_cons, List.map_cons, inductionHypothesis othersLoaded]
    rfl

/-- The items of other keys. -/
def without (key : HeaderMapKey) (items : List (Path × LoadOptions)) : List (Path × LoadOptions) :=
  items.filter fun item => keyOf item ≠ key

/-- The first item of each key, in order. -/
def firstOfEach : List (Path × LoadOptions) → List (Path × LoadOptions)
  | [] => []
  | item :: items => item :: firstOfEach (without (keyOf item) items)
termination_by items => items.length
decreasing_by exact Nat.lt_succ_of_le (List.length_filter_le _ _)

/-- Whatever is left is one of the items. -/
theorem mem_of_mem_firstOfEach {items : List (Path × LoadOptions)} {item : Path × LoadOptions}
    (left : item ∈ firstOfEach items) : item ∈ items := by
  fun_induction firstOfEach items with
  | case1 => exact left
  | case2 first items inductionHypothesis =>
    rcases List.mem_cons.1 left with rfl | later
    · exact List.mem_cons_self
    · exact List.mem_cons_of_mem _ (List.mem_filter.1 (inductionHypothesis later)).1

/-- The items left are of different keys. -/
theorem firstOfEach_distinct (items : List (Path × LoadOptions)) :
    ((firstOfEach items).map keyOf).Nodup := by
  fun_induction firstOfEach items with
  | case1 => exact List.nodup_nil
  | case2 first items inductionHypothesis =>
    rw [List.map_cons, List.nodup_cons]
    refine ⟨fun again => ?_, inductionHypothesis⟩
    obtain ⟨item, left, same⟩ := List.mem_map.1 again
    have differs := (List.mem_filter.1 (mem_of_mem_firstOfEach left)).2
    exact of_decide_eq_true differs same

/-- Every key is left with its first item. -/
theorem find?_firstOfEach (items : List (Path × LoadOptions)) (key : HeaderMapKey) :
    (firstOfEach items).find? (fun item => keyOf item = key) =
      items.find? (fun item => keyOf item = key) := by
  fun_induction firstOfEach items with
  | case1 => rfl
  | case2 first items inductionHypothesis =>
    rw [List.find?_cons, List.find?_cons]
    by_cases same : keyOf first = key
    · simp [same]
    · have kept (item : Path × LoadOptions) : (decide (keyOf item ≠ keyOf first) = true ∧
          decide (keyOf item = key) = true) ↔ keyOf item = key := by
        simp only [decide_eq_true_eq]
        exact ⟨And.right, fun found => ⟨fun again => same (again.symm.trans found), found⟩⟩
      rw [inductionHypothesis, without, List.find?_filter]
      simp only [same, decide_false, kept]

/-- One more key has a slot after a call of `insert`. -/
theorem isSome_slot?_insert (set : HeaderMapSet) (path : Path) (options : LoadOptions)
    (map : HeaderMap) (item : Path × LoadOptions) :
    ((set.insert path options map).slot? item.1 item.2).isSome =
      (decide (keyOf item = keyOf (path, options)) || (set.slot? item.1 item.2).isSome) := by
  rw [isSome_slot?, isSome_slot?, get?, insert, Table.get?_insert]
  change (if keyOf item = keyOf (path, options) then some map else _).isSome = _
  split
  · next same => simp [same]
  · next differs =>
    simp only [differs, decide_false, Bool.false_or]
    rfl

/-- Loading into a set is loading the first item of each key that the set does not have, and then
    inserting the maps in order. -/
theorem run_load_all (set : HeaderMapSet) (items : List (Path × LoadOptions)) (state : ω) :
    Runs.run (set.loadAll items : m _) state =
      let missing := firstOfEach (items.filter fun item => !(set.slot? item.1 item.2).isSome)
      ((Runs.run (loadEach missing : m _) state).1.map set.insertAll,
        (Runs.run (loadEach missing : m _) state).2) := by
  induction items generalizing set state with
  | nil =>
    rw [loadAll, Runs.run_pure]
    simp only [List.filter_nil, firstOfEach, loadEach, Runs.run_pure]
    rfl
  | cons item items inductionHypothesis =>
    obtain ⟨path, options⟩ := item
    rw [loadAll]
    by_cases known : (set.slot? path options).isSome
    · rw [if_pos known, inductionHypothesis, List.filter_cons_of_neg (by simp [known])]
    · have missing (map : HeaderMap) :
          (items.filter fun item => !((set.insert path options map).slot? item.1 item.2).isSome) =
            without (keyOf (path, options))
              (items.filter fun item => !(set.slot? item.1 item.2).isSome) := by
        simp only [without, List.filter_filter, isSome_slot?_insert, Bool.not_or, decide_not]
      rw [if_neg known, List.filter_cons_of_pos (by simp [known]), Runs.run_bind]
      simp only [firstOfEach, run_load_each_cons]
      rcases Runs.run (HeaderMap.load path options : m _) state with ⟨failure | map, between⟩
      · rw [Runs.run_pure]
        rfl
      · dsimp only
        rw [inductionHypothesis, missing]
        dsimp only
        rcases Runs.run (loadEach (firstOfEach _) : m _) between with ⟨failure | others, after⟩
        · rfl
        · rfl

end HeaderMapSet

namespace Config

/-- The first of the header maps of each key that the configuration names, in order. -/
def distinctMaps (config : Config) : List (Path × LoadOptions) :=
  HeaderMapSet.firstOfEach config.headerMaps

variable {m : Type → Type} {ω : Type} [Monad m] [FileSystem m] [Runs m ω]

/-- Loading the header maps of a configuration is loading the first one of each key and then inserting
    the maps in order. -/
theorem run_load_maps (config : Config) (state : ω) :
    Runs.run (config.loadMaps : m _) state =
      ((Runs.run (HeaderMapSet.loadEach config.distinctMaps : m _) state).1.map
          HeaderMapSet.empty.insertAll,
        (Runs.run (HeaderMapSet.loadEach config.distinctMaps : m _) state).2) := by
  have all : (config.headerMaps.filter fun item =>
      !(HeaderMapSet.empty.slot? item.1 item.2).isSome) = config.headerMaps :=
    List.filter_eq_self.2 fun item _ => rfl
  rw [loadMaps, HeaderMapSet.run_load_all, all]
  rfl

variable {config : Config} {state after : ω} {maps : HeaderMapSet}

/-- Loading succeeds exactly if the first map of each key can be loaded. -/
theorem load_maps_eq_ok_iff : Runs.run (config.loadMaps : m _) state = (.ok maps, after) ↔
    ∃ insertions, Runs.run (HeaderMapSet.loadEach config.distinctMaps : m _) state =
      (.ok insertions, after) ∧ maps = HeaderMapSet.empty.insertAll insertions := by
  rw [run_load_maps]
  rcases Runs.run (HeaderMapSet.loadEach config.distinctMaps : m _) state with
    ⟨failure | insertions, ended⟩
  · simp [Except.map]
  · simp [Except.map, and_comm, eq_comm]

theorem mem_headerMaps {entry : ConfigEntry} {path : Path} (member : entry ∈ config.entries)
    (named : entry.location = .headerMap path) : (path, entry.loadOptions) ∈ config.headerMaps :=
  List.mem_filterMap.2 ⟨entry, member, by simp [ConfigEntry.headerMap?, named]⟩

/-- A header map of the configuration is found in the loaded set: it is the one that loading the first
    entry with an equal key gave, right after those of the keys before it. -/
theorem loaded_map_is_found (loaded : Runs.run (config.loadMaps : m _) state = (.ok maps, after))
    {path : Path} {options : LoadOptions} (item : (path, options) ∈ config.headerMaps) :
    ∃ before first demanded rest earlier between map,
      config.headerMaps.find? (fun item => HeaderMapSet.keyOf item = .ofPath path options) =
        some (first, demanded) ∧
      config.distinctMaps = before ++ (first, demanded) :: rest ∧
      Runs.run (HeaderMapSet.loadEach before : m _) state = (.ok earlier, between) ∧
      (Runs.run (HeaderMap.load first demanded : m _) between).1 = .ok map ∧
      maps.get? path options = some map := by
  obtain ⟨insertions, each, rfl⟩ := load_maps_eq_ok_iff.1 loaded
  cases found : config.headerMaps.find? fun item =>
      HeaderMapSet.keyOf item = .ofPath path options with
  | none =>
    have absent := List.find?_eq_none.1 found _ item
    simp [HeaderMapSet.keyOf] at absent
  | some first =>
    obtain ⟨first, demanded⟩ := first
    have same := List.find?_some found
    rw [decide_eq_true_eq] at same
    rw [← HeaderMapSet.find?_firstOfEach] at found
    obtain ⟨before, rest, split⟩ := List.append_of_mem (List.mem_of_find?_eq_some found)
    have keys := HeaderMapSet.keys_of_load_each each
    rw [distinctMaps, split] at each
    obtain ⟨earlier, between, map, first_loaded, last, member⟩ := HeaderMapSet.load_each_ok each
    refine ⟨before, first, demanded, rest, earlier, between, map, rfl, split, first_loaded, last, ?_⟩
    have distinct : (insertions.map HeaderMapSet.Insertion.key).Nodup := by
      rw [keys]
      exact HeaderMapSet.firstOfEach_distinct _
    have inserted := HeaderMapSet.get?_insertAll_of_mem distinct member
    unfold HeaderMapSet.get? at inserted ⊢
    rw [← same]
    exact inserted

/-- A list that is built with the loaded set misses no header map. -/
theorem build_misses_no_map (loaded : Runs.run (config.loadMaps : m _) state = (.ok maps, after))
    {k : Type → Type} {υ : Type} [Monad k] [Runs k υ] [FileStore k] (store : υ) (missing : Path) :
    (Runs.run (config.build maps : k _) store).1 ≠ .error (.notLoaded missing) := by
  intro failed
  rcases build_refuses (Prod.ext failed rfl) with ⟨-, other⟩ | ⟨entry, member, position, refused⟩
  · cases other
  · cases refused with
    | notLoaded named absent =>
      obtain ⟨-, -, -, -, -, -, map, -, -, -, -, there⟩ :=
        loaded_map_is_found loaded (mem_headerMaps member named)
      rw [there] at absent
      cases absent

end Config

end HeaderSearch
