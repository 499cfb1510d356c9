import Mathlib.Data.List.Perm.Basic
import HeaderSearch.Proofs.AcceptedKeys
import HeaderSearch.Proofs.MapForms

/-!
# Reordered members of a header map

The members of a header map may be written in any order. As long as their keys differ letter by letter, the
entries are put into the order of their keys before the first of them is added, so texts that differ in the
order of members only come to one outcome. This is also so for a refusal: an empty key comes before every
other one, and of the keys that are like a smaller one the smallest is reached first.
-/

namespace HeaderSearch

namespace HeaderMap

namespace Declaration

/-- No two members have keys that denote the same text. -/
def KeysDiffer (members : List (String × Json)) : Prop :=
  members.Pairwise fun first second =>
    ∀ name, Json.text? first.1 = some name → Json.text? second.1 ≠ some name

/-- Two documents differ only in the order of the members of an object: of the whole document, or of the
    entries in the detailed form. The keys of these members differ. -/
inductive Reordered : Json → Json → Prop where
  /-- The document is the object. -/
  | whole {members others : List (String × Json)} (permuted : members.Perm others)
      (differ : KeysDiffer members) : Reordered (.object members) (.object others)
  /-- The object is the value of a field with the name of the entries. -/
  | field {before after paths others : List (String × Json)} {key : String}
      (named : Json.text? key = some "entries") (permuted : paths.Perm others)
      (differ : KeysDiffer paths) :
      Reordered (.object (before ++ (key, .object paths) :: after))
        (.object (before ++ (key, .object others) :: after))
  /-- The object is the last of three items. -/
  | item {sensitive index : Json} {paths others : List (String × Json)} (permuted : paths.Perm others)
      (differ : KeysDiffer paths) :
      Reordered (.array [sensitive, index, .object paths]) (.array [sensitive, index, .object others])

theorem KeysDiffer.perm {members others : List (String × Json)} (differ : KeysDiffer members)
    (permuted : members.Perm others) : KeysDiffer others := by
  apply List.Perm.pairwise permuted differ
  intro first second apart name here there
  exact apart name there here

theorem Reordered.symm {document other : Json} (reordered : Reordered document other) :
    Reordered other document := by
  cases reordered with
  | whole permuted differ => exact .whole permuted.symm (differ.perm permuted)
  | field named permuted differ => exact .field named permuted.symm (differ.perm permuted)
  | item permuted differ => exact .item permuted.symm (differ.perm permuted)

/-- Members have different keys exactly if the entries that they spell have different keys. -/
theorem keysDiffer_iff {members : List (String × Json)} {entries : List (String × String)}
    (each : List.Forall₂ Spells members entries) :
    KeysDiffer members ↔ (entries.map Prod.fst).Nodup := by
  induction each with
  | nil => exact ⟨fun _ => List.nodup_nil, fun _ => .nil⟩
  | @cons member entry members entries spells others inductionHypothesis =>
    have first : (∀ other ∈ members, ∀ name, Json.text? member.1 = some name →
        Json.text? other.1 ≠ some name) ↔ entry.1 ∉ entries.map Prod.fst := by
      constructor
      · intro apart again
        obtain ⟨other, there, same⟩ := List.mem_map.1 again
        obtain ⟨spelled, present, spellsOther⟩ := exists_of_forall₂ others.flip there
        exact apart spelled present entry.1 spells.key (same ▸ spellsOther.key)
      · intro new other there name key again
        obtain ⟨spelled, present, spellsOther⟩ := exists_of_forall₂ others there
        obtain rfl : entry.1 = name := Option.some.inj (spells.key.symm.trans key)
        have same : spelled.1 = entry.1 := Option.some.inj (spellsOther.key.symm.trans again)
        exact new (same ▸ List.mem_map_of_mem present)
    rw [KeysDiffer, List.pairwise_cons, first, List.map_cons, List.nodup_cons]
    exact and_congr_right' inductionHypothesis

section Fields

variable {fields shuffled : List (String × Json)} {name : String} {α : Type}
variable {absent result : α} {read : Json → Option α}

/-- A field that may be left out is read the same in any order of the fields, since it is not there
    twice. -/
theorem fieldOr?_perm (permuted : shuffled.Perm fields)
    (found : Json.fieldOr? fields name absent read = some result) :
    Json.fieldOr? shuffled name absent read = some result := by
  have values : (Json.named shuffled name).Perm (Json.named fields name) :=
    (permuted.filter _).map Prod.snd
  unfold Json.fieldOr? at found ⊢
  split at found
  · next none =>
    rw [none] at values
    rw [values.eq_nil]
    exact found
  · next only =>
    rw [only] at values
    rw [List.perm_singleton.1 values]
    exact found
  · cases found

/-- What is read under a name depends on the values under this name only. -/
theorem fieldOr?_congr (same : Json.named shuffled name = Json.named fields name) :
    Json.fieldOr? shuffled name absent read = Json.fieldOr? fields name absent read := by
  unfold Json.fieldOr?
  rw [same]

end Fields

/-- A record stays the same record when its members are put into another order. -/
theorem Writes.whole {members others : List (String × Json)} {rule : Option CaseRule} {isIndex : Bool}
    {entries : List (String × String)} (writes : Writes (.object members) rule isIndex entries)
    (permuted : members.Perm others) (differ : KeysDiffer members) :
    ∃ moved, Writes (.object others) rule isIndex moved ∧
      SortedPairs.ofList moved = SortedPairs.ofList entries := by
  cases writes with
  | flat each =>
    obtain ⟨moved, spelled, same⟩ := List.perm_comp_forall₂ permuted.symm each
    exact ⟨moved, .flat spelled, SortedPairs.ofList_perm same ((keysDiffer_iff each).1 differ)⟩
  | @detailed _ fields paths rule isIndex entries keyed known sensitive index only each =>
    obtain ⟨shuffled, named, same⟩ :=
      List.perm_comp_forall₂ permuted.symm (fields?_eq_some_iff.1 keyed)
    have values : (Json.named shuffled "entries").Perm (Json.named fields "entries") :=
      (same.filter _).map Prod.snd
    have alone : Json.named shuffled "entries" = [.object paths] :=
      List.perm_singleton.1 (only ▸ values)
    exact ⟨entries, .detailed (fields?_eq_some_iff.2 named)
      (fun field member => known field (same.mem_iff.1 member)) (fieldOr?_perm same sensitive)
      (fieldOr?_perm same index) alone each, rfl⟩

/-- A record has the same entries when these are put into another order. -/
theorem Writes.field {before after paths others : List (String × Json)} {key : String}
    {rule : Option CaseRule} {isIndex : Bool} {entries : List (String × String)}
    (writes : Writes (.object (before ++ (key, .object paths) :: after)) rule isIndex entries)
    (named : Json.text? key = some "entries") (permuted : paths.Perm others)
    (differ : KeysDiffer paths) :
    ∃ moved, Writes (.object (before ++ (key, .object others) :: after)) rule isIndex moved ∧
      SortedPairs.ofList moved = SortedPairs.ofList entries := by
  generalize written : before ++ (key, Json.object paths) :: after = members at writes
  cases writes with
  | flat each =>
    -- In the flat form the value of this member would be a text.
    have member : (key, Json.object paths) ∈ members :=
      written ▸ List.mem_append_right before List.mem_cons_self
    obtain ⟨entry, -, spells⟩ := exists_of_forall₂ each member
    cases spells.path
  | @detailed _ fields held rule isIndex entries keyed known sensitive index only each =>
    subst written
    obtain ⟨first, ⟨name, value⟩, rest, rfl, leads, here, follows⟩ :=
      forall₂_split (fields?_eq_some_iff.1 keyed)
    obtain rfl : name = "entries" := Option.some.inj (here.key.symm.trans named)
    obtain rfl : Json.object paths = value := here.value
    obtain ⟨none, rfl, noneLater⟩ : Json.named first "entries" = [] ∧ paths = held ∧
        Json.named rest "entries" = [] := by
      rw [Json.named_append, Json.named_cons, if_pos rfl] at only
      rcases List.append_eq_singleton_iff.1 only with ⟨none, one⟩ | ⟨-, impossible⟩
      · obtain ⟨same, noneLater⟩ := List.cons.inj one
        exact ⟨none, Json.object.inj same, noneLater⟩
      · cases impossible
    obtain ⟨moved, spelled, same⟩ := List.perm_comp_forall₂ permuted.symm each
    have read : Json.fields? (before ++ (key, .object others) :: after) =
        some (first ++ ("entries", .object others) :: rest) :=
      fields?_eq_some_iff.2 (List.rel_append leads (.cons ⟨named, rfl⟩ follows))
    have aside (name : String) (differs : "entries" ≠ name) :
        Json.named (first ++ ("entries", .object others) :: rest) name =
          Json.named (first ++ ("entries", .object paths) :: rest) name := by
      simp only [Json.named_append, Json.named_cons, if_neg differs]
    refine ⟨moved, .detailed read ?_ ?_ ?_ ?_ spelled,
      SortedPairs.ofList_perm same ((keysDiffer_iff each).1 differ)⟩
    · intro field member
      rcases List.mem_append.1 member with early | late
      · exact known field (List.mem_append_left _ early)
      · rcases List.mem_cons.1 late with rfl | later
        · exact known ("entries", .object paths) (List.mem_append_right _ List.mem_cons_self)
        · exact known field (List.mem_append_right _ (List.mem_cons_of_mem _ later))
    · rw [fieldOr?_congr (aside "case_sensitive" (by decide)), sensitive]
    · rw [fieldOr?_congr (aside "index" (by decide)), index]
    · rw [Json.named_append, Json.named_cons, if_pos rfl, none, noneLater, List.nil_append]

/-- Documents that differ in the order of members are written in the same form, with the same sorted
    entries. -/
theorem Writes.reordered {document other : Json} {rule : Option CaseRule} {isIndex : Bool}
    {entries : List (String × String)} (writes : Writes document rule isIndex entries)
    (reordered : Reordered document other) :
    ∃ moved, Writes other rule isIndex moved ∧
      SortedPairs.ofList moved = SortedPairs.ofList entries := by
  cases reordered with
  | whole permuted differ => exact writes.whole permuted differ
  | field named permuted differ => exact writes.field named permuted differ
  | item permuted differ =>
    cases writes with
    | listed declared isBool each =>
      obtain ⟨moved, spelled, same⟩ := List.perm_comp_forall₂ permuted.symm each
      exact ⟨moved, .listed declared isBool spelled,
        SortedPairs.ofList_perm same ((keysDiffer_iff each).1 differ)⟩

/-- Documents that differ in the order of members come to one declaration, or both to none. -/
theorem ofJson?_reordered {document other : Json} (reordered : Reordered document other) :
    ofJson? other = ofJson? document := by
  have carried {one another : Json} (reordered : Reordered one another) {declared : Declaration}
      (read : ofJson? one = some declared) : ofJson? another = some declared := by
    obtain ⟨entries, writes, sorted⟩ := ofJson?_eq_some_iff.1 read
    obtain ⟨moved, again, same⟩ := writes.reordered reordered
    exact ofJson?_eq_some_iff.2 ⟨moved, again, sorted.trans same.symm⟩
  apply Option.ext
  intro declared
  exact ⟨carried reordered.symm, carried reordered⟩

/-- A text is the declaration that its document is. What is written in one of the forms is never nested too
    deeply. -/
theorem ofText?_of_parse {text : String} {document : Json}
    (parsed : Json.parse? text = some document) : ofText? text = ofJson? document := by
  rw [ofText?, parsed, Option.bind_eq_bind, Option.bind_some]
  cases read : ofJson? document with
  | none => exact ite_self none
  | some declared =>
    obtain ⟨entries, writes, -⟩ := ofJson?_eq_some_iff.1 read
    exact if_pos writes.isHeld

end Declaration

/-- A key clashes among some keys if it is one of them and like a smaller one. -/
def Clashes (rule : CaseRule) (keys : List String) (key : String) : Prop :=
  key ∈ keys ∧ ∃ smaller ∈ keys, smaller < key ∧ Alike rule smaller key

instance (rule : CaseRule) (keys : List String) (key : String) : Decidable (Clashes rule keys key) :=
  inferInstanceAs (Decidable (key ∈ keys ∧ ∃ smaller ∈ keys, smaller < key ∧ Alike rule smaller key))

namespace MadeOf

variable {map : HeaderMap} {name key path other : String} {rule : CaseRule}
variable {entries : List (String × String)}

/-- A new map to which entries were offered is made of them if all were accepted. -/
theorem of_accepted {isIndex : Bool}
    (all : (HeaderMap.empty name rule isIndex).accepted entries = entries) :
    ((HeaderMap.empty name rule isIndex).offerAll entries).MadeOf name rule entries := by
  simpa only [all, List.nil_append] using (MadeOf.empty name rule isIndex).offerAll entries

/-- Two entries with different keys have keys that are not alike. -/
theorem not_alike (made : map.MadeOf name rule entries) {first second : String × String}
    (here : first ∈ entries) (there : second ∈ entries) (differ : first.1 ≠ second.1) :
    ¬Alike rule first.1 second.1 :=
  not_alike_of_apart made.apart here there fun same => differ (congrArg Prod.fst same)

/-- A key is refused for being empty, or for being like another, and then under its own spelling. -/
theorem refusal_cases (made : map.MadeOf name rule entries) {refusal : Error}
    (refused : (map.add key path).1 = .error refusal) :
    key = "" ∧ refusal = .emptyKey name ∨ key ≠ "" ∧ refusal = .repeatedKey name key := by
  rcases made.add_cases key path with ⟨empty, outcome⟩ | ⟨some, -, outcome⟩ | ⟨-, -, -, outcome⟩
  · rw [outcome] at refused
    exact .inl ⟨empty, (Except.error.inj refused).symm⟩
  · rw [outcome] at refused
    exact .inr ⟨some, (Except.error.inj refused).symm⟩
  · rw [outcome] at refused
    cases refused

end MadeOf

/-- Of sorted entries those with a key smaller than the one of a given entry come before it. -/
theorem mem_before_of_lt {before after : List (String × String)} {entry other : String × String}
    (ascending : (before ++ entry :: after).Pairwise fun first second => first.1 < second.1)
    (member : other ∈ before ++ entry :: after) (less : other.1 < entry.1) : other ∈ before := by
  obtain ⟨-, later, -⟩ := List.pairwise_append.1 ascending
  rcases List.mem_append.1 member with early | late
  · exact early
  · rcases List.mem_cons.1 late with rfl | behind
    · exact absurd less (String.lt_irrefl other.1)
    · exact absurd less (String.lt_asymm ((List.pairwise_cons.1 later).1 other behind))

section Refusals

variable {name key : String} {rule : CaseRule} {isIndex : Bool} {sorted : List (String × String)}
variable (ascending : sorted.Pairwise fun first second => first.1 < second.1)

include ascending

/-- Sorted entries are refused for an empty key exactly if there is one: it comes first. -/
theorem ofEntries_emptyKey_iff : ofEntries name rule isIndex sorted = .error (.emptyKey name) ↔
    "" ∈ sorted.map Prod.fst := by
  rw [ofEntries, insertAll_eq_error_iff]
  constructor
  · rintro ⟨before, entry, after, rfl, all, refused⟩
    have nameless : entry.1 = "" := (MadeOf.of_accepted all).add_emptyKey_iff.1 refused
    exact List.mem_map.2 ⟨entry, List.mem_append_right before List.mem_cons_self, nameless⟩
  · intro present
    obtain ⟨entry, member, nameless⟩ := List.mem_map.1 present
    obtain ⟨before, after, rfl⟩ := List.append_of_mem member
    obtain rfl : before = [] := by
      apply List.eq_nil_iff_forall_not_mem.2
      intro smaller earlier
      have less : smaller.1 < entry.1 :=
        (List.pairwise_append.1 ascending).2.2 smaller earlier entry List.mem_cons_self
      rw [nameless] at less
      exact List.not_lt_nil _ less
    exact ⟨[], entry, after, rfl, rfl,
      (MadeOf.empty name rule isIndex).add_emptyKey_iff.2 nameless⟩

/-- Sorted entries are refused for a repeated key only with the smallest key that clashes: those before it
    were all taken. -/
theorem least_of_repeatedKey
    (refused : ofEntries name rule isIndex sorted = .error (.repeatedKey name key)) :
    Clashes rule (sorted.map Prod.fst) key ∧
      ∀ earlier, Clashes rule (sorted.map Prod.fst) earlier → ¬earlier < key := by
  rw [ofEntries, insertAll_eq_error_iff] at refused
  obtain ⟨before, entry, after, rfl, all, refused⟩ := refused
  have made : ((empty name rule isIndex).offerAll before).MadeOf name rule before := .of_accepted all
  obtain rfl : key = entry.1 := by
    rcases made.refusal_cases refused with ⟨-, same⟩ | ⟨-, same⟩
    · cases same
    · exact (Error.repeatedKey.inj same).2
  constructor
  · obtain ⟨-, other, member, alike⟩ := made.add_repeatedKey_iff.1 refused
    have less : other.1 < entry.1 :=
      (List.pairwise_append.1 ascending).2.2 other member entry List.mem_cons_self
    exact ⟨List.mem_map_of_mem (List.mem_append_right before List.mem_cons_self), other.1,
      List.mem_map_of_mem (List.mem_append_left _ member), less, alike⟩
  · rintro earlier ⟨here, smaller, there, less, alike⟩ precedes
    obtain ⟨one, oneMember, rfl⟩ := List.mem_map.1 here
    obtain ⟨other, otherMember, rfl⟩ := List.mem_map.1 there
    have oneBefore : one ∈ before := mem_before_of_lt ascending oneMember precedes
    have otherBefore : other ∈ before :=
      mem_before_of_lt ascending otherMember (String.lt_trans less precedes)
    exact made.not_alike otherBefore oneBefore (String.ne_of_lt less) alike

/-- Sorted entries are refused for a repeated key exactly if none is empty and this key is the smallest one
    that clashes. -/
theorem ofEntries_repeatedKey_iff :
    ofEntries name rule isIndex sorted = .error (.repeatedKey name key) ↔
      "" ∉ sorted.map Prod.fst ∧ Clashes rule (sorted.map Prod.fst) key ∧
        ∀ earlier, Clashes rule (sorted.map Prod.fst) earlier → ¬earlier < key := by
  constructor
  · intro refused
    refine ⟨?_, least_of_repeatedKey ascending refused⟩
    intro nameless
    rw [(ofEntries_emptyKey_iff ascending).2 nameless] at refused
    cases refused
  · rintro ⟨named, clash, least⟩
    cases outcome : ofEntries name rule isIndex sorted with
    | ok map =>
      -- All entries were taken, so no two of their keys are alike.
      obtain ⟨all, -⟩ := (insertAll_eq_ok_iff _ _ _).1 outcome
      obtain ⟨here, smaller, there, less, alike⟩ := clash
      obtain ⟨one, oneMember, rfl⟩ := List.mem_map.1 here
      obtain ⟨other, otherMember, rfl⟩ := List.mem_map.1 there
      exact absurd alike
        ((MadeOf.of_accepted all).not_alike otherMember oneMember (String.ne_of_lt less))
    | error refusal =>
      obtain ⟨before, entry, after, split, all, refused⟩ := (insertAll_eq_error_iff _ _ _).1 outcome
      rcases (MadeOf.of_accepted all).refusal_cases refused with ⟨nameless, -⟩ | ⟨-, rfl⟩
      · have member : entry ∈ sorted := split ▸ List.mem_append_right before List.mem_cons_self
        exact absurd (nameless ▸ List.mem_map_of_mem member) named
      · obtain ⟨other, smallest⟩ := least_of_repeatedKey ascending outcome
        have same : entry.1 = key := String.le_antisymm
          (String.not_lt.1 (smallest key clash)) (String.not_lt.1 (least entry.1 other))
        rw [same]

end Refusals

/-- Two texts whose documents differ in the order of the members of one object only, the keys of these being
    different, have one outcome under every name and all options: the same map or the same refusal. What
    is written has an empty key exactly if it is refused for one. It is refused for a repeated key exactly
    if no key is empty and some clash, with the smallest of those that do. -/
theorem order_of_members_does_not_matter {first second : String} {document other : Json}
    (parsed : Json.parse? first = some document) (reparsed : Json.parse? second = some other)
    (reordered : Declaration.Reordered document other) (name : String) (options : LoadOptions) :
    ofText name second options = ofText name first options ∧
    ∀ rule isIndex entries, Declaration.Writes document rule isIndex entries →
      let keys := entries.map Prod.fst
      let effective := (options.caseRule.orElse fun _ => rule).getD .insensitive
      (ofText name first options = .error (.emptyKey name) ↔ "" ∈ keys) ∧
      ∀ key, ofText name first options = .error (.repeatedKey name key) ↔
        "" ∉ keys ∧ Clashes effective keys key ∧
          ∀ earlier, Clashes effective keys earlier → ¬earlier < key := by
  constructor
  · have same : Declaration.ofText? second = Declaration.ofText? first := by
      rw [Declaration.ofText?_of_parse parsed, Declaration.ofText?_of_parse reparsed,
        Declaration.ofJson?_reordered reordered]
    rw [ofText, ofText, same]
  · intro rule isIndex entries writes keys effective
    have sorted := SortedPairs.ascending_ofList entries
    have clashes (key : String) :
        Clashes effective ((SortedPairs.ofList entries).map Prod.fst) key ↔
          Clashes effective keys key := by
      simp only [Clashes, SortedPairs.mem_keys_ofList, keys]
    rw [ofText_of_writes parsed writes]
    constructor
    · rw [ofEntries_emptyKey_iff sorted, SortedPairs.mem_keys_ofList]
    · intro key
      simp only [ofEntries_repeatedKey_iff sorted, SortedPairs.mem_keys_ofList, clashes, keys, effective]

/-- The members of a flat map, two of them with keys that are alike. -/
def clashing : List (String × Json) := [("b", .string "/1"), ("B", .string "/2"), ("a", .string "/3")]

/-- The text of that map. -/
def clashingText : String := "\x7b\"b\":\"/1\",\"B\":\"/2\",\"a\":\"/3\"\x7d"

/-- The text of that map with its members in reverse order. -/
def reversedText : String := "\x7b\"a\":\"/3\",\"B\":\"/2\",\"b\":\"/1\"\x7d"

/-- The entries of that map. -/
def clashingEntries : List (String × String) := [("b", "/1"), ("B", "/2"), ("a", "/3")]

theorem wellWritten_clashing : Json.WellWritten (.object clashing) :=
  .object (by decide +kernel)
    (by simpa [clashing] using ⟨.string (by decide), .string (by decide), .string (by decide)⟩)

theorem parse?_clashingText : Json.parse? clashingText = some (.object clashing) := by
  have written : Json.toText .compact (.object clashing) = clashingText := by decide +kernel
  rw [← written]
  exact Json.parse?_toText .compact wellWritten_clashing

theorem parse?_reversedText : Json.parse? reversedText = some (.object clashing.reverse) := by
  have well : Json.WellWritten (.object clashing.reverse) := by
    obtain - | - | - | - | - | ⟨keys, each⟩ := wellWritten_clashing
    exact .object (fun member there => keys member (List.mem_reverse.1 there))
      fun member there => each member (List.mem_reverse.1 there)
  have written : Json.toText .compact (.object clashing.reverse) = reversedText := by decide +kernel
  rw [← written]
  exact Json.parse?_toText .compact well

theorem spells_clashing : List.Forall₂ Spells clashing clashingEntries :=
  .cons ⟨by decide, by decide⟩ (.cons ⟨by decide, by decide⟩
    (.cons ⟨by decide, by decide⟩ .nil))

theorem reordered_clashing :
    Declaration.Reordered (.object clashing) (.object clashing.reverse) :=
  .whole (List.reverse_perm clashing).symm ((Declaration.keysDiffer_iff spells_clashing).2 (by decide))

/-- In either order the map is refused with the same key, although it is the first member of one text and
    the last of the other. -/
theorem reversed_members_are_refused_alike :
    Json.parse? clashingText = some (.object clashing) ∧
    Json.parse? reversedText = some (.object clashing.reverse) ∧
    Declaration.Reordered (.object clashing) (.object clashing.reverse) ∧
    ofText "m" clashingText {} = .error (.repeatedKey "m" "b") ∧
    ofText "m" reversedText {} = .error (.repeatedKey "m" "b") := by
  obtain ⟨same, refusals⟩ := order_of_members_does_not_matter parse?_clashingText parse?_reversedText
    reordered_clashing "m" {}
  obtain ⟨-, repeated⟩ := refusals none false clashingEntries (.flat spells_clashing)
  have least : ∀ earlier, Clashes .insensitive (clashingEntries.map Prod.fst) earlier →
      ¬earlier < "b" := by
    have each : ∀ key ∈ clashingEntries.map Prod.fst,
        Clashes .insensitive (clashingEntries.map Prod.fst) key → ¬key < "b" := by decide
    exact fun earlier clash => each earlier clash.1 clash
  have refused : ofText "m" clashingText {} = .error (.repeatedKey "m" "b") :=
    (repeated "b").2 ⟨by decide, by decide, least⟩
  exact ⟨parse?_clashingText, parse?_reversedText, reordered_clashing, refused, same.trans refused⟩

end HeaderMap

end HeaderSearch
