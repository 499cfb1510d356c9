import HeaderSearch.Proofs.Building
import HeaderSearch.Proofs.Caching

/-!
# Appended configurations

Merging appends one configuration to another. The list of the merged configuration begins with the
entries of the list of the first one, and angled includes look into these as before, whoever brought
the start. Since the first entry that answers wins, whatever the first list finds the merged one finds
too. Only more frameworks may be declared, so a file may turn out to be of a system framework.
-/

namespace HeaderSearch

/-- A header is found again, and belongs to a system framework at least if it did before. -/
structure FoundHeader.FoundAgain (header again : FoundHeader) : Prop where
  file : again.file = header.file
  origin : again.origin = header.origin
  characteristic : again.characteristic = header.characteristic
  searchPath : again.searchPath = header.searchPath
  relativePath : again.relativePath = header.relativePath
  isSystemFramework : header.isSystemFramework = true → again.isSystemFramework = true

/-- A file is found in a place again, and belongs to a system framework at least if it did before. -/
structure PlaceHit.FoundAgain (found again : PlaceHit) : Prop where
  same : { again with isSystemFramework := found.isSystemFramework } = found
  isSystemFramework : found.isSystemFramework = true → again.isSystemFramework = true

namespace FileView

variable (view : FileView) {frameworks larger : List String}

/-- Declaring more frameworks does not change what a place holds. -/
theorem probe_again (more : ∀ word ∈ frameworks, word ∈ larger) (place : SearchPlace)
    (name : String) :
    Option.Rel PlaceHit.FoundAgain (view.probe frameworks place name)
      (view.probe larger place name) := by
  have contains (word : String) : frameworks.contains word = true → larger.contains word = true := by
    intro declared
    rw [List.contains_iff_mem] at declared ⊢
    exact more word declared
  cases place with
  | directory handle configured =>
    unfold probe SearchPlace.probe
    simp only [Observed.value_bind, Observed.value_file?, Observed.value_pure]
    cases view.file? handle name with
    | none => exact .none
    | some file => exact .some ⟨rfl, id⟩
  | framework handle configured =>
    unfold probe SearchPlace.probe
    cases Framework.splitName? name with
    | none => exact .none
    | some split =>
      obtain ⟨framework, rest⟩ := split
      unfold Framework.probe
      simp only [Observed.value_bind, Observed.value_pure]
      generalize (Framework.firstHolding rest _ : Observed view _).value = held
      cases held with
      | none => exact .none
      | some held => exact .some ⟨rfl, contains framework⟩
  | headerMap map isIndex =>
    unfold probe SearchPlace.probe HeaderMap.probe
    simp only [Observed.value_bind]
    have stays : (isIndex && (Framework.splitName? name).any fun split =>
          frameworks.contains split.1) = true →
        (isIndex && (Framework.splitName? name).any fun split => larger.contains split.1) = true := by
      cases isIndex with
      | false => exact id
      | true =>
        cases Framework.splitName? name with
        | none => exact id
        | some split => exact contains split.1
    cases (map.fileFor name : Observed view _).value with
    | some file => exact .some ⟨rfl, stays⟩
    | none =>
      cases isIndex with
      | false => exact .none
      | true =>
        cases splits : Framework.splitName? name with
        | none => exact .none
        | some split =>
          rw [splits] at stays
          simp only [Observed.value_bind, Observed.value_pure]
          cases (map.fileFor split.2 : Observed view _).value with
          | none => exact .none
          | some file => exact .some ⟨rfl, stays⟩

end FileView

namespace SearchList

variable (view : FileView)

/-- The first of some results is found again in a longer list, if each of the first items answers
    again. Induct on the items: one that was silent is silent again. -/
theorem first_found_again {α β : Type} {related : β → β → Prop} {items rest : List α}
    {result? again? : α → Option β} {result : β}
    (each : ∀ item ∈ items, Option.Rel related (result? item) (again? item))
    (found : items.findSome? result? = some result) :
    ∃ again, (items ++ rest).findSome? again? = some again ∧ related result again := by
  induction items with
  | nil => simp at found
  | cons item items inductionHypothesis =>
    rw [List.findSome?_cons] at found
    rw [List.cons_append, List.findSome?_cons]
    rcases related_cases (each item List.mem_cons_self) with
      ⟨absent, absentAgain⟩ | ⟨one, other, here, there, same⟩
    · rw [absent] at found
      rw [absentAgain]
      exact inductionHypothesis (fun other member => each other (List.mem_cons_of_mem _ member)) found
    · rw [here] at found
      obtain rfl := Option.some.inj found
      rw [there]
      exact ⟨other, rfl, same⟩

/-- A list extends another when it begins with its entries, looks into each of these for the same kinds
    of includes, and declares all of its frameworks. -/
structure Extends (large small : SearchList) : Prop where
  entries : ∃ rest, large.entries = small.entries ++ rest
  looksInto (kind : IncludeKind) {position : Nat} :
    position < small.size → large.looksInto kind position = small.looksInto kind position
  systemFrameworks : ∀ word ∈ small.systemFrameworks, word ∈ large.systemFrameworks

variable {large small : SearchList}

/-- An entry of the smaller list answers in the larger one as it did. -/
theorem Extends.entry_answer (wider : large.Extends small) (name : String) (kind : IncludeKind)
    (want : PathRequest) (entry : SearchEntry) {position : Nat} (inside : position < small.size) :
    Option.Rel FoundHeader.FoundAgain (small.entryAnswer view name kind want entry position)
      (large.entryAnswer view name kind want entry position) := by
  unfold entryAnswer FileView.matchIn
  rw [wider.looksInto kind inside]
  split
  · rcases related_cases (view.probe_again wider.systemFrameworks entry.place name) with
      ⟨absent, absentAgain⟩ | ⟨found, again, here, there, foundAgain⟩
    · rw [absent, absentAgain]
      exact .none
    · obtain ⟨same, stays⟩ := foundAgain
      rw [here, there, ← same]
      exact .some ⟨rfl, rfl, rfl, rfl, rfl, stays⟩
  · exact .none

/-- Whatever a list answers, a list that extends it answers too. -/
theorem Extends.plain_answer (wider : large.Extends small) {name : String} {kind : IncludeKind}
    {includer : Option Includer} {want : PathRequest} {header : FoundHeader}
    (answered : small.plainAnswer view name kind includer want = some header) :
    ∃ again, large.plainAnswer view name kind includer want = some again ∧
      header.FoundAgain again := by
  unfold plainAnswer at answered ⊢
  cases beside : view.besideAnswer name kind includer want with
  | some found =>
    rw [beside, Option.some_or] at answered
    obtain rfl := Option.some.inj answered
    exact ⟨found, rfl, rfl, rfl, rfl, rfl, rfl, id⟩
  | none =>
    rw [beside, Option.none_or] at answered
    rw [Option.none_or]
    obtain ⟨rest, longer⟩ := wider.entries
    rw [firstAnswer, longer, List.zipIdx_append]
    refine first_found_again (fun item member => ?_) answered
    have inside := List.snd_lt_of_mem_zipIdx member
    exact wider.entry_answer view name kind want item.1 (by simpa [size] using inside)

end SearchList

namespace ConfigEntry

/-- Surveying entries and then others is one survey of all of them. -/
theorem survey_all_append {view : FileView} (maps : HeaderMapSet) (entries others : List ConfigEntry) :
    (surveyAll maps (entries ++ others) : Observed view _).value =
      (surveyAll maps entries : Observed view _).value ++
        (surveyAll maps others : Observed view _).value := by
  induction entries with
  | nil => rfl
  | cons entry entries inductionHypothesis =>
    simp only [List.cons_append, surveyAll, Observed.value_bind, Observed.value_pure,
      inductionHypothesis]

end ConfigEntry

namespace Config

/-- Words are kept when others are appended. -/
theorem mem_append_new {word : String} {words : List String} (others : List String)
    (member : word ∈ words) : word ∈ appendNew words others := by
  induction others generalizing words with
  | nil => exact member
  | cons other others inductionHypothesis =>
    refine inductionHypothesis ?_
    split
    · exact member
    · exact List.mem_append_left _ member

variable {first second : Config}

/-- An entry of the first configuration that is not for quoted includes only lies before the start of
    both the first and the merged configuration, or of neither. Without a configured start this entry
    itself bounds the automatic one, so that the entries appended after it do not count. -/
theorem merged_start_le_iff {index : Nat} {entry : ConfigEntry}
    (here : first.entries[index]? = some entry) (both : entry.quoteOnly = false) :
    (first.merge second).start ≤ index ↔ first.start ≤ index := by
  obtain ⟨inside, rfl⟩ := List.getElem?_eq_some_iff.mp here
  have some : first.entries ≠ [] := List.ne_nil_of_length_pos (by omega)
  have owner : (first.merge second).angledStart = first.angledStart := if_neg some
  unfold start
  rw [owner]
  cases first.angledStart with
  | some given => rfl
  | none =>
    have bounded : (first.entries.findIdx fun entry => !entry.quoteOnly) < first.entries.length := by
      rw [List.findIdx_lt_length]
      exact ⟨_, List.getElem_mem inside, by rw [both]; rfl⟩
    have same : (first.merge second).automaticStart = first.automaticStart := by
      rw [automaticStart, automaticStart, merge, List.findIdx_append, if_pos bounded]
    rw [Option.getD_none, Option.getD_none, same]

/-- The list that a merged configuration leaves extends the one that the first leaves. -/
theorem Leaves.extends {places more : List (Option SearchPlace)} {small large : SearchList}
    (leavesSmall : first.Leaves places small)
    (leavesLarge : (first.merge second).Leaves (places ++ more) large)
    (asMany : first.entries.length = places.length) : large.Extends small := by
  have kept : (first.merge second).kept (places ++ more) = first.kept places ++
      ConfigEntry.keptAmong (0 + first.entries.length) second.entries more :=
    ConfigEntry.kept_among_append 0 second.entries more asMany
  constructor
  · rw [leavesLarge.entries, leavesSmall.entries, kept, List.map_append]
    exact ⟨_, rfl⟩
  · intro kind position inside
    cases kind with
    | quoted => rfl
    | angled =>
      have bounded : position < (first.kept places).length := by
        rwa [SearchList.size, leavesSmall.entries, List.length_map] at inside
      obtain ⟨⟨index, entry⟩, here⟩ : ∃ item, (first.kept places)[position]? = some item :=
        ⟨_, List.getElem?_eq_getElem bounded⟩
      have there : ((first.merge second).kept (places ++ more))[position]? = some (index, entry) := by
        rw [kept, List.getElem?_append_left bounded]
        exact here
      rw [Bool.eq_iff_iff, leavesSmall.looks_angled here, leavesLarge.looks_angled there]
      obtain ⟨offset, configured, place, rfl, found, -, rfl⟩ :=
        ConfigEntry.mem_kept_among.mp (List.mem_of_getElem? here)
      refine and_congr_left fun both => ?_
      rw [Nat.zero_add]
      exact merged_start_le_iff found both
  · intro word member
    rw [leavesSmall.systemFrameworks, SortedPairs.mem_distinctWords] at member
    rw [leavesLarge.systemFrameworks, SortedPairs.mem_distinctWords]
    exact mem_append_new _ member

/-- Appended configuration never shadows what was there. Whatever the list of a configuration finds
    after any calls, the list of the configuration with another one merged after it finds too, after
    any calls: the same file through the same entry, with the same texts and characteristic. Only a
    framework that the second one declares may make it a file of a system framework. -/
theorem merge_never_shadows {view : FileView} {maps : HeaderMapSet} {small large : SearchList}
    (builtFirst : (first.build maps : Observed view _).value = .ok small)
    (builtMerged : ((first.merge second).build maps : Observed view _).value = .ok large)
    (calls callsMerged : List SearchCall) (name : String) (kind : IncludeKind)
    (includer : Option Includer) (want : PathRequest) {header : FoundHeader}
    (found : small.answerAfter view calls name kind includer want = some header) :
    ∃ again, large.answerAfter view callsMerged name kind includer want = some again ∧
      header.FoundAgain again := by
  have ranFirst : Runs.run (first.build maps : Observed view _) [] =
      (.ok small, (first.build maps : Observed view _).queries) :=
    Prod.ext builtFirst (List.nil_append _)
  have ranMerged : Runs.run ((first.merge second).build maps : Observed view _) [] =
      (.ok large, ((first.merge second).build maps : Observed view _).queries) :=
    Prod.ext builtMerged (List.nil_append _)
  obtain ⟨places, _, surveyed, mapped, _, _, _, leavesSmall⟩ := build_leaves ranFirst
  obtain ⟨allPlaces, _, surveyedAll, _, _, _, _, leavesLarge⟩ := build_leaves ranMerged
  have here : (ConfigEntry.surveyAll maps first.entries : Observed view _).value = places :=
    congrArg Prod.fst surveyed
  have there : (ConfigEntry.surveyAll maps (first.entries ++ second.entries) :
      Observed view _).value = allPlaces := congrArg Prod.fst surveyedAll
  rw [ConfigEntry.survey_all_append, here] at there
  subst there
  have wider := leavesSmall.extends leavesLarge mapped.length_eq
  rw [SearchList.answer_after_eq] at found ⊢
  exact wider.plain_answer view found

/-- Two directories, of which one is not there, without a configured start. -/
def twoDirectories : Config where
  entries := [{ location := .directory ⟨"/gone"⟩ }, { location := .directory ⟨"/first"⟩ }]

/-- A directory for quoted includes and another one, with a start of its own. -/
def quotedThenAngled : Config where
  entries := [
    { location := .directory ⟨"/quoted"⟩, quoteOnly := true },
    { location := .directory ⟨"/second"⟩ }]
  angledStart := some 1

/-- The header of the first configuration is found although the second one has it twice. -/
theorem first_header_is_not_shadowed :
    let view : FileView := .listing ["/quoted", "/second", "/first"]
      ["/quoted/a.h", "/second/a.h", "/first/a.h"]
    ∃ small large header again,
      (twoDirectories.build .empty : Observed view _).value = .ok small ∧
      ((twoDirectories.merge quotedThenAngled).build .empty : Observed view _).value = .ok large ∧
      small.answerAfter view [] "a.h" .angled none .all = some header ∧
      large.answerAfter view [.lookup 2 "a.h" .none] "a.h" .angled none .all = some again ∧
      header.FoundAgain again ∧ header.searchPath = some "/first" := by
  intro view
  obtain ⟨small, header, builtFirst, found, path⟩ : ∃ small header,
      (twoDirectories.build .empty : Observed view _).value = .ok small ∧
      small.answerAfter view [] "a.h" .angled none .all = some header ∧
      header.searchPath = some "/first" := ⟨⟨_, _, _⟩, _, rfl, rfl, rfl⟩
  obtain ⟨large, builtMerged⟩ : ∃ large,
      ((twoDirectories.merge quotedThenAngled).build .empty : Observed view _).value =
        .ok large := ⟨⟨_, _, _⟩, rfl⟩
  obtain ⟨again, foundMerged, same⟩ := merge_never_shadows builtFirst builtMerged []
    [.lookup 2 "a.h" .none] "a.h" .angled none .all found
  exact ⟨small, large, header, again, builtFirst, builtMerged, found, foundMerged, same, path⟩

end Config

end HeaderSearch
