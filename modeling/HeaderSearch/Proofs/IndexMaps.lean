import HeaderSearch.Proofs.FoundPlaces
import HeaderSearch.Proofs.Questions

/-!
# Index maps

An index map is used as the plain map with the same entries, and asked once more without the framework
where the plain map finds nothing. Both uses follow the same two steps from a key to a file, so what an
index map answers is put together from what the plain map answers to the whole name and to the rest of
it. Whether the answer belongs to a system framework is read off the name that was asked for, and not
off the key that led to the file.
-/

namespace HeaderSearch

namespace Framework

/-- The framework that a name starts with is one of those declared. -/
def Declares (frameworks : List String) (name : String) : Prop :=
  ∃ owner rest, Splits name owner rest ∧ owner ∈ frameworks

/-- Whether a name starts with a declared framework is seen by splitting it. -/
theorem any_split_iff {frameworks : List String} {name : String} :
    ((splitName? name).any fun split => frameworks.contains split.1) = true ↔
      Declares frameworks name := by
  simp [Option.any_eq_true, Declares, ← splitName?_eq_some_iff]

instance (frameworks : List String) (name : String) : Decidable (Declares frameworks name) :=
  decidable_of_iff _ any_split_iff

/-- A name that splits starts with a declared framework if the one that it splits into is declared. -/
theorem Splits.declares_iff {frameworks : List String} {name owner rest : String}
    (split : Splits name owner rest) : Declares frameworks name ↔ owner ∈ frameworks := by
  constructor
  · rintro ⟨other, _, otherSplit, declared⟩
    exact (split.unique otherSplit).1 ▸ declared
  · intro declared
    exact ⟨owner, rest, split, declared⟩

end Framework

/-- How an entry stands in a list when it is asked: all that an answer could depend on beside the place
    that it looks into. -/
structure Standing where
  /-- What a file found there is classified as. -/
  characteristic : Characteristic
  /-- Whether only quoted includes look there. -/
  quoteOnly : Bool
  /-- The position of the entry. -/
  position : Nat
  /-- What the list remembers. -/
  memo : SearchMemo

/-- The entry that looks into a place. -/
def Standing.entry (standing : Standing) (place : SearchPlace) : SearchEntry :=
  ⟨place, standing.characteristic, standing.quoteOnly⟩

/-- What an entry over a header map, used as an index map or not, alone answers to a name. -/
def SearchList.askMap (view : FileView) (list : SearchList) (map : HeaderMap) (isIndex : Bool)
    (standing : Standing) (name : String) (want : PathRequest) : Option EntryMatch :=
  let asked : StateT SearchMemo (Observed view) (Option EntryMatch) :=
    list.lookupAt (standing.entry (.headerMap map isIndex)) standing.position name want
  (asked.run standing.memo).value.1

/-- The answer with a file that a header map leads to by a part of a name. -/
def HeaderMap.answer (map : HeaderMap) (want : PathRequest) (part : String)
    (isSystemFramework : Bool) (file : FileHandle) : EntryMatch where
  file := file
  searchPath := if want.searchPath then some map.name else none
  relativePath := if want.relativePath then some part else none
  isSystemFramework := isSystemFramework

namespace SearchList

open Framework (Splits Declares)

variable {view : FileView} {list : SearchList} {map : HeaderMap}

section Answers

variable (standing : Standing) (name : String) (want : PathRequest)

/-- How the entry stands has no part in what it answers: that is made of what the map has under the
    name. -/
theorem askMap_eq (isIndex : Bool) :
    list.askMap view map isIndex standing name want =
      (map.probe list.systemFrameworks isIndex name : Observed view _).value.map fun hit =>
        { file := hit.file
          searchPath := if want.searchPath then some map.name else none
          relativePath := if want.relativePath then Text.suffixFrom? name hit.relativeStart else none
          isSystemFramework := hit.isSystemFramework } := by
  let entry := standing.entry (.headerMap map isIndex)
  have run : list.askMap view map isIndex standing name want =
      (Runs.run (list.lookupAt entry standing.position name want :
        StateT SearchMemo (Observed view) _) (standing.memo, [])).1 := rfl
  have place : entry.place = .headerMap map isIndex := rfl
  rw [run]
  simp only [lookupAt, probeAt, place, SearchPlace.probe, Runs.run_bind, Reading.run_map_probe]
  cases (map.probe list.systemFrameworks isIndex name : Observed view _).value with
  | none => simp
  | some hit => cases searched : want.searchPath <;> simp [SearchPlace.searchPath, SearchPlace.name]

/-- A plain map answers with the file that it leads to by the whole name, and never as a system
    framework. -/
theorem askMap_plain :
    list.askMap view map false standing name want =
      (view.target? map name).map (map.answer want name false) := by
  have target : (map.fileFor name : Observed view _).value = view.target? map name := rfl
  rw [askMap_eq]
  unfold HeaderMap.probe
  simp only [Observed.value_bind, target]
  cases view.target? map name with
  | none => rfl
  | some file => simp [HeaderMap.answer, Text.suffixFrom?_zero]

/-- An index map answers with the file that it leads to by the whole name, or else with the one that it
    leads to by what follows the framework, in either case as the framework of the name is declared. -/
theorem askMap_index :
    list.askMap view map true standing name want =
      let declared := decide (Declares list.systemFrameworks name)
      ((view.target? map name).map (map.answer want name declared)).or
        ((Framework.splitName? name).bind fun split =>
          (view.target? map split.2).map (map.answer want split.2 declared)) := by
  have target (key : String) : (map.fileFor key : Observed view _).value = view.target? map key := rfl
  rw [askMap_eq]
  unfold HeaderMap.probe
  simp only [Observed.value_bind, target, ← Framework.any_split_iff]
  cases view.target? map name with
  | some file => simp [HeaderMap.answer, Text.suffixFrom?_zero]
  | none =>
    cases cut : Framework.splitName? name with
    | none => rfl
    | some split =>
      simp only [Observed.value_bind, target]
      cases stripped : view.target? map split.2 with
      | none => simp [stripped]
      | some file => simp [HeaderMap.answer, Framework.suffix_from_rest_start cut, stripped]

variable {name}

/-- What an index map leads to by the whole name comes first. -/
theorem askMap_whole {file : FileHandle} (leads : view.target? map name = some file) :
    list.askMap view map true standing name want =
      some (map.answer want name (decide (Declares list.systemFrameworks name)) file) := by
  rw [askMap_index, leads]
  rfl

/-- What an index map leads to by the rest of a name comes second. -/
theorem askMap_rest {owner rest : String} (nowhere : view.target? map name = none)
    (split : Splits name owner rest) :
    list.askMap view map true standing name want =
      (view.target? map rest).map
        (map.answer want rest (decide (Declares list.systemFrameworks name))) := by
  rw [askMap_index, nowhere, Framework.splitName?_eq_some_iff.2 split]
  rfl

/-- A name without a framework is not asked for again. -/
theorem askMap_unsplit (nowhere : view.target? map name = none)
    (unsplit : ¬ ∃ owner rest, Splits name owner rest) :
    list.askMap view map true standing name want = none := by
  have uncut : Framework.splitName? name = none := by
    rw [Option.eq_none_iff_forall_not_mem]
    rintro ⟨owner, rest⟩ cut
    exact unsplit ⟨owner, rest, Framework.splitName?_eq_some_iff.1 cut⟩
  rw [askMap_index, nowhere, uncut]
  rfl

/-- Whatever an index map answers, it is with a file that the map leads to by the whole name, or by the
    rest if not by the whole. -/
theorem askMap_cases {found : EntryMatch}
    (answered : list.askMap view map true standing name want = some found) :
    ∃ part file, found =
        map.answer want part (decide (Declares list.systemFrameworks name)) file ∧
      (view.target? map name = none → ∃ owner, Splits name owner part) := by
  cases leads : view.target? map name with
  | some file =>
    rw [askMap_whole standing want leads] at answered
    exact ⟨name, file, (Option.some.inj answered).symm, nofun⟩
  | none =>
    by_cases splits : ∃ owner rest, Splits name owner rest
    · obtain ⟨owner, rest, split⟩ := splits
      rw [askMap_rest standing want leads split] at answered
      obtain ⟨file, -, rfl⟩ := Option.map_eq_some_iff.1 answered
      exact ⟨rest, file, rfl, fun _ => ⟨owner, split⟩⟩
    · rw [askMap_unsplit standing want leads splits] at answered
      cases answered

end Answers

/-- An index map is its plain map with the framework cut off where that finds nothing. The plain map
    reports a file that it finds under the name asked for, and never as one of a system framework. What
    it finds under the whole name the index map finds too. Otherwise the index map finds what the plain
    map finds under the rest of the name, if the name splits, and nothing if it does not. In either case
    the file is one of a system framework exactly if the name starts with a declared framework, however
    the two entries stand in their lists; and what is found under the rest is reported with the part
    that makes up the name after the framework and a `/`. -/
theorem index_map_is_plain_map_with_stripping (view : FileView) (list : SearchList)
    (map : HeaderMap) (asPlain asIndex : Standing) (name : String) (want : PathRequest) :
    let plain := fun text => list.askMap view map false asPlain text want
    let answer := list.askMap view map true asIndex name want
    let declared := decide (Declares list.systemFrameworks name)
    (∀ text found, plain text = some found → found.isSystemFramework = false ∧
      found.relativePath = if want.relativePath then some text else none) ∧
    (∀ found, plain name = some found →
      answer = some { found with isSystemFramework := declared }) ∧
    (∀ owner rest, plain name = none → Splits name owner rest →
      answer = (plain rest).map fun found =>
        { found with isSystemFramework := decide (owner ∈ list.systemFrameworks) }) ∧
    (plain name = none → (¬ ∃ owner rest, Splits name owner rest) → answer = none) ∧
    (∀ found, answer = some found → (found.isSystemFramework = true ↔
      ∃ owner rest, Splits name owner rest ∧ owner ∈ list.systemFrameworks)) ∧
    (∀ found part, plain name = none → answer = some found → found.relativePath = some part →
      ∃ owner, name = owner ++ "/" ++ part) := by
  intro plain answer declared
  have plainly (text : String) : plain text = (view.target? map text).map (map.answer want text false) :=
    askMap_plain asPlain text want
  have leads_nowhere (text : String) (missed : plain text = none) : view.target? map text = none := by
    rw [plainly] at missed
    exact Option.map_eq_none_iff.1 missed
  refine ⟨?_, ?_, ?_, ?_, ?_, ?_⟩
  · intro text found hit
    rw [plainly] at hit
    obtain ⟨file, -, rfl⟩ := Option.map_eq_some_iff.1 hit
    exact ⟨rfl, rfl⟩
  · intro found hit
    rw [plainly] at hit
    obtain ⟨file, leads, rfl⟩ := Option.map_eq_some_iff.1 hit
    exact askMap_whole asIndex want leads
  · intro owner rest missed split
    have stripped : answer = (view.target? map rest).map (map.answer want rest declared) :=
      askMap_rest asIndex want (leads_nowhere name missed) split
    have ofOwner : declared = decide (owner ∈ list.systemFrameworks) :=
      decide_eq_decide.2 split.declares_iff
    rw [stripped, plainly, Option.map_map, ofOwner]
    rfl
  · intro missed unsplit
    exact askMap_unsplit asIndex want (leads_nowhere name missed) unsplit
  · intro found hit
    obtain ⟨part, file, rfl, -⟩ := askMap_cases asIndex want hit
    exact decide_eq_true_iff
  · intro found part missed hit reported
    obtain ⟨rest, file, rfl, below⟩ := askMap_cases asIndex want hit
    obtain ⟨owner, splits⟩ := below (leads_nowhere name missed)
    have wanted : (if want.relativePath then some rest else none) = some part := reported
    split at wanted
    · obtain rfl := Option.some.inj wanted
      exact ⟨owner, splits.joined⟩
    · cases wanted

-- The file that the whole name leads to is gone, and the one under the rest is found in its place.
example :
    let view := FileView.listing ["inc"] ["inc/gear.h"]
    let entries := [("cogs/gear.h", "old/gear.h"), ("gear.h", "inc/gear.h")]
    (HeaderMap.ofEntries "cogs.hmap" .insensitive true entries).toOption.bind (fun map =>
      SearchList.askMap view ⟨[], 0, ["cogs"]⟩ map true ⟨.user, false, 0, .fresh⟩ "cogs/gear.h" .all) =
      some ⟨⟨0⟩, some "cogs.hmap", some "gear.h", true⟩ := by decide

end SearchList

end HeaderSearch
