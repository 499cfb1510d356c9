import Mathlib.Data.List.Forall2
import HeaderSearch.Proofs.Enumerations
import HeaderSearch.Proofs.Runs
import HeaderSearch.SearchList.Build

/-!
# What is left of a configuration

Building a list asks the store once about each configured directory, and leaves out the entries whose
directory is not there. `survey` is that question for one entry, and `keptAmong` lists what the answers
leave over, with the positions in the configuration. A list that was built is exactly that, for every
store: entries keep their order, and the start of angled includes moves so that the same configured
entries come before it.
-/

namespace HeaderSearch

/-- In an ascending list the numbers below a bound are the first ones, as many as there are. Induct on
    the list: once a number reaches the bound, so do all that follow. -/
theorem position_lt_count_iff {numbers : List Nat} (ordered : numbers.Pairwise (· < ·))
    {position number : Nat} (here : numbers[position]? = some number) (bound : Nat) :
    position < numbers.countP (· < bound) ↔ number < bound := by
  induction numbers generalizing position with
  | nil => simp at here
  | cons first rest inductionHypothesis =>
    obtain ⟨below, orderedRest⟩ := List.pairwise_cons.mp ordered
    by_cases reached : first < bound
    · rw [List.countP_cons_of_pos (by simpa using reached)]
      cases position with
      | zero =>
        obtain rfl : first = number := by simpa using here
        omega
      | succ position =>
        have there := inductionHypothesis orderedRest (by simpa using here)
        omega
    · have none : rest.countP (· < bound) = 0 := by
        rw [List.countP_eq_zero]
        intro other member
        have := below other member
        simp only [decide_eq_true_eq]
        omega
      rw [List.countP_cons_of_neg (by simpa using reached), none]
      have least : first ≤ number := by
        rcases List.mem_cons.mp (List.mem_of_getElem? here) with rfl | member
        · exact Nat.le_refl _
        · exact Nat.le_of_lt (below number member)
      omega

namespace ConfigEntry

section Asking

variable {m : Type → Type} [Monad m] [FileStore m]

/-- The place of an entry: for a directory what the store answers to the configured path, and for a
    header map the loaded one. -/
def survey (maps : HeaderMapSet) (entry : ConfigEntry) : m (Option SearchPlace) :=
  match entry.location with
  | .directory path => do
    let found ← FileStore.directory? path
    return found.map fun handle => .directory handle path.shown
  | .framework path => do
    let found ← FileStore.directory? path
    return found.map fun handle => .framework handle path.shown
  | .headerMap path =>
    return (maps.get? path entry.loadOptions).map fun map =>
      .headerMap map (entry.indexMap || map.isIndex)

/-- The places of entries, each asked for in its turn. -/
def surveyAll (maps : HeaderMapSet) : List ConfigEntry → m (List (Option SearchPlace))
  | [] => return []
  | entry :: entries => do
    let place ← entry.survey maps
    let places ← surveyAll maps entries
    return place :: places

end Asking

/-- The entry of a search list at a place, with the flags that were configured for it. -/
def placedAt (entry : ConfigEntry) (place : SearchPlace) : SearchEntry :=
  ⟨place, entry.characteristic, entry.quoteOnly⟩

/-- What is left of entries after a survey, with the positions in the configuration, which count up
    from the position of the first. -/
def keptAmong (index : Nat) : List ConfigEntry → List (Option SearchPlace) → List (Nat × SearchEntry)
  | entry :: entries, some place :: places =>
    (index, entry.placedAt place) :: keptAmong (index + 1) entries places
  | _ :: entries, none :: places => keptAmong (index + 1) entries places
  | _, _ => []

/-- What is left are the entries that have a place, at their own positions. Induct on the entries, the
    position going up. -/
theorem mem_kept_among {index position : Nat} {entries : List ConfigEntry}
    {places : List (Option SearchPlace)} {kept : SearchEntry} :
    (position, kept) ∈ keptAmong index entries places ↔
      ∃ offset entry place, position = index + offset ∧ entries[offset]? = some entry ∧
        places[offset]? = some (some place) ∧ kept = entry.placedAt place := by
  induction entries generalizing index places with
  | nil => simp [keptAmong]
  | cons entry entries inductionHypothesis =>
    cases places with
    | nil => simp [keptAmong]
    | cons place places =>
      have later : (position, kept) ∈ keptAmong (index + 1) entries places ↔
          ∃ offset other place, position = index + (offset + 1) ∧ entries[offset]? = some other ∧
            places[offset]? = some (some place) ∧ kept = other.placedAt place := by
        rw [inductionHypothesis]
        simp only [Nat.add_assoc, Nat.add_comm 1]
      cases place with
      | none =>
        rw [keptAmong, later]
        constructor
        · rintro ⟨offset, other, place, same, here, there, placed⟩
          exact ⟨offset + 1, other, place, same, here, there, placed⟩
        · rintro ⟨offset, other, place, same, here, there, placed⟩
          cases offset with
          | zero => simp at there
          | succ offset => exact ⟨offset, other, place, same, here, there, placed⟩
      | some place =>
        rw [keptAmong, List.mem_cons, later]
        constructor
        · rintro (first | ⟨offset, other, place, same, here, there, placed⟩)
          · obtain ⟨rfl, rfl⟩ := Prod.mk.inj first
            exact ⟨0, entry, place, rfl, rfl, rfl, rfl⟩
          · exact ⟨offset + 1, other, place, same, here, there, placed⟩
        · rintro ⟨offset, other, otherPlace, same, here, there, placed⟩
          cases offset with
          | zero =>
            left
            simp only [List.getElem?_cons_zero, Option.some.injEq] at here there
            subst here there placed
            rw [same, Nat.add_zero]
          | succ offset => exact .inr ⟨offset, other, otherPlace, same, here, there, placed⟩

/-- What is left of entries and of others after them. Induct on the entries, the positions of the others
    starting after them. -/
theorem kept_among_append (index : Nat) {entries : List ConfigEntry}
    {places : List (Option SearchPlace)} (others : List ConfigEntry)
    (otherPlaces : List (Option SearchPlace)) (asMany : entries.length = places.length) :
    keptAmong index (entries ++ others) (places ++ otherPlaces) =
      keptAmong index entries places ++ keptAmong (index + entries.length) others otherPlaces := by
  induction entries generalizing index places with
  | nil =>
    obtain rfl := List.length_eq_zero_iff.mp asMany.symm
    rfl
  | cons entry entries inductionHypothesis =>
    cases places with
    | nil => simp at asMany
    | cons place places =>
      have rest := inductionHypothesis (index + 1) (Nat.succ.inj asMany)
      have position : index + 1 + entries.length = index + (entry :: entries).length := by
        rw [List.length_cons]
        omega
      rw [position] at rest
      cases place with
      | none => exact rest
      | some place => exact congrArg _ rest

/-- What is left is in the configured order. -/
theorem kept_among_ordered (index : Nat) (entries : List ConfigEntry)
    (places : List (Option SearchPlace)) :
    ((keptAmong index entries places).map Prod.fst).Pairwise (· < ·) := by
  induction entries generalizing index places with
  | nil => simp [keptAmong]
  | cons entry entries inductionHypothesis =>
    cases places with
    | nil => simp [keptAmong]
    | cons place places =>
      cases place with
      | none => exact inductionHypothesis (index + 1) places
      | some place =>
        rw [keptAmong, List.map_cons, List.pairwise_cons]
        refine ⟨?_, inductionHypothesis (index + 1) places⟩
        intro position member
        obtain ⟨⟨other, kept⟩, here, rfl⟩ := List.mem_map.mp member
        obtain ⟨offset, _, _, same, _⟩ := mem_kept_among.mp here
        dsimp only
        omega

end ConfigEntry

namespace PartialList

/-- What is kept so far, with the positions in the configuration. -/
def placed (partialList : PartialList) : List (Nat × SearchEntry) := partialList.kept.map Prod.snd

end PartialList

namespace ConfigEntry

variable {ω : Type} {m : Type → Type} [Monad m] [Runs m ω] [FileStore m]
variable {maps : HeaderMapSet} {entry : ConfigEntry} {state after : ω}

/-- The place that `locate` comes to is the one of the survey, after the same questions. Only a header
    map that was not loaded has no place without being left out. -/
theorem locate_surveys {located : Option (SearchPlace × Identity)}
    (found : Runs.run (entry.locate maps : m _) state = (.ok located, after)) :
    Runs.run (entry.survey maps : m _) state = (located.map Prod.fst, after) ∧
      (entry.location.isHeaderMap = true → located.isSome) := by
  unfold locate at found
  unfold survey
  cases location : entry.location with
  | directory path =>
    simp only [location, Runs.run_bind, Runs.run_pure, Prod.mk.injEq, Except.ok.injEq] at found
    obtain ⟨rfl, rfl⟩ := found
    simp [Location.isHeaderMap, Option.map_map, Function.comp_def]
  | framework path =>
    simp only [location, Runs.run_bind, Runs.run_pure, Prod.mk.injEq, Except.ok.injEq] at found
    obtain ⟨rfl, rfl⟩ := found
    simp [Location.isHeaderMap, Option.map_map, Function.comp_def]
  | headerMap path =>
    simp only [location] at found
    cases slot : maps.slot? path entry.loadOptions with
    | none => simp [slot] at found
    | some slot =>
      cases map : maps.get? path entry.loadOptions with
      | none => simp [slot, map] at found
      | some map =>
        simp only [slot, map, Runs.run_pure, Prod.mk.injEq, Except.ok.injEq] at found
        obtain ⟨rfl, rfl⟩ := found
        simp [map]

/-- Taking in or leaving out one entry does what the survey of it says: the entry is kept at the end,
    or it counts as left out if it lies before the start. -/
theorem enter_surveys {start index : Nat} {partialList larger : PartialList}
    (entered : Runs.run (entry.enter maps start index partialList : m _) state =
      (.ok larger, after)) :
    ∃ place, Runs.run (entry.survey maps : m _) state = (place, after) ∧
      (entry.location.isHeaderMap = true → place.isSome) ∧
      larger.placed = partialList.placed ++ keptAmong index [entry] [place] ∧
      larger.dropped + (keptAmong index [entry] [place]).countP (·.1 < start) =
        partialList.dropped + if index < start then 1 else 0 := by
  unfold enter at entered
  split at entered
  · simp at entered
  · rw [Runs.run_bind] at entered
    cases found : Runs.run (entry.locate maps : m _) state with
    | mk located between =>
      rw [found] at entered
      cases located with
      | error failure => simp at entered
      | ok located =>
        obtain ⟨surveyed, mapped⟩ := locate_surveys found
        cases located with
        | none =>
          simp only [Runs.run_pure, Prod.mk.injEq, Except.ok.injEq] at entered
          obtain ⟨rfl, rfl⟩ := entered
          refine ⟨none, surveyed, by simpa using mapped, ?_, ?_⟩
          · unfold PartialList.drop
            split <;> simp [PartialList.placed, keptAmong]
          · unfold PartialList.drop
            split <;> simp [keptAmong]
        | some located =>
          obtain ⟨place, identity⟩ := located
          dsimp only at entered
          split at entered
          · simp at entered
          · simp only [Runs.run_pure, Prod.mk.injEq, Except.ok.injEq] at entered
            obtain ⟨rfl, rfl⟩ := entered
            refine ⟨some place, surveyed, by simp, ?_, ?_⟩
            · simp [PartialList.placed, PartialList.add, keptAmong, placedAt]
            · simp [PartialList.add, keptAmong]

/-- What is left of an entry and of those after it. -/
theorem kept_among_cons (index : Nat) (entry : ConfigEntry) (entries : List ConfigEntry)
    (place : Option SearchPlace) (places : List (Option SearchPlace)) :
    keptAmong index (entry :: entries) (place :: places) =
      keptAmong index [entry] [place] ++ keptAmong (index + 1) entries places := by
  have asMany : [entry].length = [place].length := rfl
  exact kept_among_append index entries places asMany

/-- Taking in or leaving out all entries does what the surveys of them say. Induct on the entries: the
    count of those left out and the count of those kept make up all positions before the start. -/
theorem enter_all_surveys {start index : Nat} {entries : List ConfigEntry}
    {partialList whole : PartialList} (inside : start ≤ index + entries.length)
    (entered : Runs.run (enterAll maps start index partialList entries : m _) state =
      (.ok whole, after)) :
    ∃ places, Runs.run (surveyAll maps entries : m _) state = (places, after) ∧
      List.Forall₂ (fun entry place => entry.location.isHeaderMap = true → place.isSome)
        entries places ∧
      whole.placed = partialList.placed ++ keptAmong index entries places ∧
      whole.dropped + (keptAmong index entries places).countP (·.1 < start) =
        partialList.dropped + (start - index) := by
  induction entries generalizing index partialList state with
  | nil =>
    simp only [enterAll, Runs.run_pure, Prod.mk.injEq, Except.ok.injEq] at entered
    obtain ⟨rfl, rfl⟩ := entered
    have past : start - index = 0 := by
      rw [List.length_nil] at inside
      omega
    refine ⟨[], by simp [surveyAll], .nil, by simp [keptAmong], ?_⟩
    simp [keptAmong, past]
  | cons entry entries inductionHypothesis =>
    rw [enterAll, Runs.run_bind] at entered
    cases first : Runs.run (entry.enter maps start index partialList : m _) state with
    | mk outcome between =>
      rw [first] at entered
      cases outcome with
      | error failure => simp at entered
      | ok larger =>
        obtain ⟨place, surveyed, mapped, placed, counted⟩ := enter_surveys first
        have insideRest : start ≤ index + 1 + entries.length := by
          rw [List.length_cons] at inside
          omega
        obtain ⟨places, surveyedRest, mappedRest, placedRest, countedRest⟩ :=
          inductionHypothesis insideRest entered
        refine ⟨place :: places, ?_, .cons mapped mappedRest, ?_, ?_⟩
        · simp [surveyAll, surveyed, surveyedRest]
        · rw [placedRest, placed, kept_among_cons index entry entries, List.append_assoc]
        · rw [kept_among_cons index entry entries, List.countP_append]
          split at counted <;> omega

end ConfigEntry

namespace Config

/-- What is left of a configuration, with the positions in it. -/
def kept (config : Config) (places : List (Option SearchPlace)) : List (Nat × SearchEntry) :=
  ConfigEntry.keptAmong 0 config.entries places

/-- A list is what is left of a configuration: its entries are the kept ones, and angled includes start
    after those that were configured before their start. -/
structure Leaves (config : Config) (places : List (Option SearchPlace)) (list : SearchList) :
    Prop where
  entries : list.entries = (config.kept places).map Prod.snd
  angledStart : list.angledStart = (config.kept places).countP (·.1 < config.start)
  systemFrameworks : list.systemFrameworks = SortedPairs.distinctWords config.systemFrameworks

variable {ω : Type} {m : Type → Type} [Monad m] [Runs m ω] [FileStore m]
variable {config : Config} {maps : HeaderMapSet} {list : SearchList} {state after : ω}

/-- A list that was built is what is left of the configuration after one survey of it, and the count of
    the entries left out before the start does not exceed the start. -/
theorem build_leaves (built : Runs.run (config.build maps : m _) state = (.ok list, after)) :
    ∃ places partialList,
      Runs.run (ConfigEntry.surveyAll maps config.entries : m _) state = (places, after) ∧
      List.Forall₂ (fun entry place => entry.location.isHeaderMap = true → place.isSome)
        config.entries places ∧
      Runs.run (ConfigEntry.enterAll maps config.start 0 {} config.entries : m _) state =
        (.ok partialList, after) ∧
      partialList.dropped ≤ config.start ∧
      list.angledStart = config.start - partialList.dropped ∧
      config.Leaves places list := by
  unfold build at built
  dsimp only at built
  split at built
  · simp at built
  · next inside =>
    rw [Runs.run_bind] at built
    cases entered : Runs.run
        (ConfigEntry.enterAll maps config.start 0 {} config.entries : m _) state with
    | mk outcome between =>
      rw [entered] at built
      cases outcome with
      | error failure => simp at built
      | ok partialList =>
        simp only [Runs.run_pure, Prod.mk.injEq, Except.ok.injEq] at built
        obtain ⟨rfl, rfl⟩ := built
        obtain ⟨places, surveyed, mapped, placed, counted⟩ :=
          ConfigEntry.enter_all_surveys (by omega) entered
        have counted : partialList.dropped +
            (config.kept places).countP (·.1 < config.start) = config.start := by
          simpa [kept] using counted
        refine ⟨places, partialList, surveyed, mapped, rfl, by omega, rfl, ?_, ?_, rfl⟩
        · have placed : partialList.placed = config.kept places := by
            simpa [PartialList.placed, kept] using placed
          rw [← placed, PartialList.placed, List.map_map]
          rfl
        · dsimp only
          omega

namespace Leaves

variable {places : List (Option SearchPlace)} {position index : Nat} {entry : SearchEntry}

/-- The kept entry at a position is the entry of the list there. -/
theorem entry_at (leaves : config.Leaves places list)
    (here : (config.kept places)[position]? = some (index, entry)) :
    list.entries[position]? = some entry := by
  rw [leaves.entries, List.getElem?_map, here]
  rfl

/-- An angled include looks into a kept entry exactly when it was configured from the start on and not
    for quoted includes only. -/
theorem looks_angled (leaves : config.Leaves places list)
    (here : (config.kept places)[position]? = some (index, entry)) :
    list.looksInto .angled position = true ↔ config.start ≤ index ∧ entry.quoteOnly = false := by
  have quoteOnly := list.isQuoteOnly_at (leaves.entry_at here)
  have ordered : ((config.kept places).map Prod.fst).Pairwise (· < ·) :=
    ConfigEntry.kept_among_ordered 0 config.entries places
  have numbered : ((config.kept places).map Prod.fst)[position]? = some index := by
    rw [List.getElem?_map, here]
    rfl
  have before := position_lt_count_iff ordered numbered config.start
  have counted : ((config.kept places).map Prod.fst).countP (· < config.start) =
      list.angledStart := by
    rw [leaves.angledStart, List.countP_map]
    rfl
  rw [counted] at before
  simp only [SearchList.looksInto, quoteOnly, Bool.and_eq_true, decide_eq_true_eq,
    Bool.not_eq_true']
  constructor
  · rintro ⟨reached, both⟩
    exact ⟨by omega, both⟩
  · rintro ⟨reached, both⟩
    exact ⟨by omega, both⟩

end Leaves

end Config

end HeaderSearch
