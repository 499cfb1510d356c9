import Mathlib.Data.List.Find
import Mathlib.Data.List.Pairwise
import HeaderSearch.Proofs.Documents
import HeaderSearch.Proofs.Sorting
import HeaderSearch.Proofs.WrittenMaps

/-!
# Repeated keys in the text of a header map

A header map refuses a key that is like an earlier one, but it is given the entries of a text only after
they were collected under their spellings, where the last of several members with one spelling stays. So
a text is refused exactly when two of its members spell alike keys differently. A key that is spelled
the same way twice gets past: the later path silently takes the place of the earlier one.
-/

namespace HeaderSearch

namespace HeaderMap

/-- Two keys are alike when the rule of comparison does not tell them apart. -/
def Alike (rule : CaseRule) (first second : String) : Prop := rule.fold first = rule.fold second

instance (rule : CaseRule) (first second : String) : Decidable (Alike rule first second) :=
  inferInstanceAs (Decidable (rule.fold first = rule.fold second))

/-- Adding entries ends at the first key that is like one before it. If there is none, a name leads to
    the path of the entry with a key like it, or to where the map led before. -/
theorem insertAll_cases (map : HeaderMap) {entries : List (String × String)}
    (named : ∀ entry ∈ entries, entry.1 ≠ "") :
    (∃ before key path after, entries = before ++ (key, path) :: after ∧
      (map.entries.contains (map.caseRule.fold key) = true ∨
        ∃ earlier ∈ before, Alike map.caseRule earlier.1 key) ∧
      map.insertAll entries = .error (.repeatedKey map.name key)) ∨
    (entries.Pairwise (fun first second => ¬Alike map.caseRule first.1 second.1) ∧
      (∀ entry ∈ entries, map.entries.contains (map.caseRule.fold entry.1) = false) ∧
      ∃ table, map.insertAll entries = .ok { map with entries := table } ∧
        ∀ name, table.get? (map.caseRule.fold name) =
          ((entries.find? fun entry => Alike map.caseRule entry.1 name).map Prod.snd).or
            (map.entries.get? (map.caseRule.fold name))) := by
  induction entries generalizing map with
  | nil => exact .inr ⟨.nil, by simp, map.entries, rfl, fun name => rfl⟩
  | cons entry entries inductionHypothesis =>
    obtain ⟨key, path⟩ := entry
    rw [insertAll, insert, add, if_neg (named _ List.mem_cons_self)]
    by_cases known : map.entries.contains (map.caseRule.fold key) = true
    · rw [if_pos known]
      exact .inl ⟨[], key, path, entries, rfl, .inl known, rfl⟩
    · rw [if_neg known]
      have contains (other : String) :
          (map.entries.insert (map.caseRule.fold key) path).contains other = true ↔
            other = map.caseRule.fold key ∨ map.entries.contains other = true := by
        rw [Table.contains_eq_isSome_get?, Table.get?_insert, Table.contains_eq_isSome_get?]
        by_cases same : other = map.caseRule.fold key <;> simp [same]
      rcases inductionHypothesis
          { map with entries := map.entries.insert (map.caseRule.fold key) path }
          fun entry member => named entry (List.mem_cons_of_mem _ member) with
        ⟨before, other, last, after, rfl, clash, refused⟩ | ⟨apart, absent, table, added, leads⟩
      · refine .inl ⟨(key, path) :: before, other, last, after, rfl, ?_, refused⟩
        rcases clash with known | ⟨earlier, member, alike⟩
        · rcases (contains _).1 known with same | known
          · exact .inr ⟨(key, path), List.mem_cons_self, same.symm⟩
          · exact .inl known
        · exact .inr ⟨earlier, List.mem_cons_of_mem _ member, alike⟩
      · refine .inr ⟨List.pairwise_cons.2 ⟨fun entry member alike => ?_, apart⟩,
          List.forall_mem_cons.2 ⟨by simpa using known, fun entry member => ?_⟩, table, added,
          fun name => ?_⟩
        · exact Bool.eq_false_iff.1 (absent entry member) ((contains _).2 (.inl alike.symm))
        · exact Bool.eq_false_iff.2 fun known =>
            Bool.eq_false_iff.1 (absent entry member) ((contains _).2 (.inr known))
        · rw [leads, Table.get?_insert, List.find?_cons]
          by_cases alike : Alike map.caseRule key name
          · -- The first entry is like the name, so no later one is.
            have none : entries.find? (fun entry => Alike map.caseRule entry.1 name) = none := by
              refine List.find?_eq_none.2 fun entry member later => ?_
              have same := alike.trans (of_decide_eq_true later).symm
              exact Bool.eq_false_iff.1 (absent entry member) ((contains _).2 (.inl same.symm))
            simp only [none, alike, decide_true, Option.map_none, Option.none_or, Option.map_some,
              Option.some_or]
            exact if_pos alike.symm
          · simp only [alike, decide_false]
            rw [if_neg fun same => alike same.symm]

section LastOfEach

variable {rule : CaseRule} {entries : List (String × String)}

/-- If no two of some entries have keys that are alike, this is so in either order of the two. -/
theorem not_alike_of_apart {kept : List (String × String)}
    (apart : kept.Pairwise fun first second => ¬Alike rule first.1 second.1)
    {first second : String × String} (here : first ∈ kept) (there : second ∈ kept)
    (differ : first ≠ second) : ¬Alike rule first.1 second.1 := by
  have symmetric : Std.Symm fun first second : String × String => ¬Alike rule first.1 second.1 :=
    ⟨fun _ _ differ alike => differ alike.symm⟩
  exact apart.forall here there differ

/-- If no two of the sorted entries have keys that are alike, alike keys are spelled alike. -/
theorem spelled_alike_of_apart (apart : (SortedPairs.ofList entries).Pairwise
      fun first second => ¬Alike rule first.1 second.1) {first second : String × String}
    (here : first ∈ entries) (there : second ∈ entries) (alike : Alike rule first.1 second.1) :
    first.1 = second.1 := by
  obtain ⟨one, oneKept, oneSame⟩ := SortedPairs.exists_mem_ofList here
  obtain ⟨other, otherKept, otherSame⟩ := SortedPairs.exists_mem_ofList there
  rw [← oneSame, ← otherSame] at alike ⊢
  by_contra differ
  exact not_alike_of_apart apart oneKept otherKept (fun same => differ (congrArg Prod.fst same)) alike

/-- If alike keys are spelled alike, the entry with a key like a name is the last such entry. -/
theorem find?_alike (unique : ∀ first ∈ entries, ∀ second ∈ entries,
      Alike rule first.1 second.1 → first.1 = second.1) (name : String) :
    (SortedPairs.ofList entries).find? (fun entry => Alike rule entry.1 name) =
      entries.reverse.find? fun entry => Alike rule entry.1 name := by
  by_cases some : ∃ entry ∈ entries, Alike rule entry.1 name
  · obtain ⟨entry, member, alike⟩ := some
    have only {other : String × String} (there : other ∈ entries) :
        decide (Alike rule other.1 name) = decide (other.1 = entry.1) := by
      refine decide_eq_decide.2 ⟨fun again => ?_, fun same => ?_⟩
      · exact unique other there entry member (again.trans alike.symm)
      · rwa [same]
    rw [List.find?_congr fun other kept => only (SortedPairs.mem_of_mem_ofList kept),
      List.find?_congr fun other there => only (List.mem_reverse.1 there), SortedPairs.find?_ofList]
  · have silent {other : String × String} (there : other ∈ entries) :
        ¬decide (Alike rule other.1 name) = true :=
      fun alike => some ⟨other, there, of_decide_eq_true alike⟩
    rw [List.find?_eq_none.2 fun other kept => silent (SortedPairs.mem_of_mem_ofList kept),
      List.find?_eq_none.2 fun other there => silent (List.mem_reverse.1 there)]

end LastOfEach

/-- A text in one of the forms, with string paths and no empty key, is refused for a repeated key
    exactly if two of its members spell keys differently that are alike under the rule that counts; it
    is refused with the greater of the two. Otherwise a member may repeat the very spelling of another
    one: the text is accepted, and every name leads to the path of the last member with a key like it. -/
theorem differently_spelled_keys_are_refused {text : String} {document : Json}
    {rule : Option CaseRule} {isIndex : Bool} {entries : List (String × String)}
    (parsed : Json.parse? text = some document)
    (writes : Declaration.Writes document rule isIndex entries)
    (named : ∀ entry ∈ entries, entry.1 ≠ "") (name : String) (options : LoadOptions) :
    let effective := (options.caseRule.orElse fun _ => rule).getD .insensitive
    ((∃ first ∈ entries, ∃ second ∈ entries,
        first.1 ≠ second.1 ∧ Alike effective first.1 second.1) →
      ∃ first ∈ entries, ∃ second ∈ entries, first.1 < second.1 ∧ Alike effective first.1 second.1 ∧
        ofText name text options = .error (.repeatedKey name second.1)) ∧
    ((∀ first ∈ entries, ∀ second ∈ entries, Alike effective first.1 second.1 → first.1 = second.1) →
      ∃ map, ofText name text options = .ok map ∧ map.name = name ∧ map.caseRule = effective ∧
        map.isIndex = (options.isIndex || isIndex) ∧
        ∀ word, map.lookup? word =
          (entries.reverse.find? fun entry => Alike effective entry.1 word).map Prod.snd) := by
  intro effective
  rw [ofText_of_writes parsed writes]
  have sorted := SortedPairs.ascending_ofList entries
  rcases insertAll_cases (empty name effective (options.isIndex || isIndex))
      (fun entry member => named entry (SortedPairs.mem_of_mem_ofList member)) with
    ⟨before, key, path, after, split, clash, refused⟩ | ⟨apart, -, table, added, leads⟩
  · rcases clash with known | ⟨earlier, member, alike⟩
    · cases known
    · -- The key and the earlier one are in ascending order, so they are spelled differently.
      rw [split, List.pairwise_append] at sorted
      have less : earlier.1 < key := sorted.2.2 earlier member (key, path) List.mem_cons_self
      have first : earlier ∈ entries := SortedPairs.mem_of_mem_ofList
        (split ▸ List.mem_append_left _ member)
      have second : (key, path) ∈ entries := SortedPairs.mem_of_mem_ofList
        (split ▸ List.mem_append_right _ List.mem_cons_self)
      refine ⟨fun _ => ⟨earlier, first, (key, path), second, less, alike, refused⟩, fun unique => ?_⟩
      exact absurd (unique earlier first (key, path) second alike) (String.ne_of_lt less)
  · refine ⟨?_, fun unique => ?_⟩
    · rintro ⟨first, here, second, there, differ, alike⟩
      exact absurd (spelled_alike_of_apart apart here there alike) differ
    · refine ⟨_, added, rfl, rfl, rfl, fun word => ?_⟩
      refine (leads word).trans ?_
      rw [← find?_alike unique]
      exact Option.or_none

/-- The text of a flat map that has one key twice. -/
def twiceText : String := "\x7b\"a.h\":\"/x\",\"a.h\":\"/y\"\x7d"

/-- The document of that text. -/
def twice : Json := .object [("a.h", .string "/x"), ("a.h", .string "/y")]

/-- The entries of that text. -/
def twiceEntries : List (String × String) := [("a.h", "/x"), ("a.h", "/y")]

theorem parse?_twiceText : Json.parse? twiceText = some twice := by
  have well : Json.WellWritten twice :=
    .object (by decide +kernel) (by simpa using ⟨.string (by decide), .string (by decide)⟩)
  have written : twice.toText .compact = twiceText := by decide +kernel
  rw [← written]
  exact Json.parse?_toText .compact well

theorem writes_twice : Declaration.Writes twice none false twiceEntries :=
  .flat (.cons ⟨by decide, by decide⟩
    (.cons ⟨by decide, by decide⟩ .nil))

/-- A key that is spelled the same way twice leads to the later path. -/
theorem last_of_repeated_keys_stays : Json.parse? twiceText = some twice ∧
    Declaration.Writes twice none false twiceEntries ∧ (∀ entry ∈ twiceEntries, entry.1 ≠ "") ∧
    ∃ map, ofText "m" twiceText {} = .ok map ∧ map.lookup? "A.H" = some "/y" := by
  have named : ∀ entry ∈ twiceEntries, entry.1 ≠ "" := by decide
  obtain ⟨-, accepted⟩ := differently_spelled_keys_are_refused parse?_twiceText writes_twice named
    "m" {}
  obtain ⟨map, built, -, -, -, leads⟩ := accepted (by decide)
  exact ⟨parse?_twiceText, writes_twice, named, map, built, (leads "A.H").trans (by decide)⟩

/-- Two members with one key do not make a text be refused. -/
theorem repeated_key_is_accepted :
    ¬∀ (text : String) (document : Json) (rule : Option CaseRule) (isIndex : Bool)
      (entries : List (String × String)) (name : String) (options : LoadOptions),
      Json.parse? text = some document → Declaration.Writes document rule isIndex entries →
      (∀ entry ∈ entries, entry.1 ≠ "") →
      ¬entries.Pairwise (fun first second =>
        ¬Alike ((options.caseRule.orElse fun _ => rule).getD .insensitive) first.1 second.1) →
      ∃ key, ofText name text options = .error (.repeatedKey name key) := by
  intro refuses
  obtain ⟨key, refused⟩ := refuses twiceText twice none false twiceEntries "m" {} parse?_twiceText
    writes_twice (by decide) (by decide)
  have accepted : (ofText "m" twiceText {}).isOk = true := by decide +kernel
  rw [refused] at accepted
  cases accepted

end HeaderMap

end HeaderSearch
