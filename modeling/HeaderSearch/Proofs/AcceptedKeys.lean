import HeaderSearch.Proofs.RepeatedKeys

/-!
# Entries that a header map accepts

Entries are offered to a new header map one after the other. One is refused if its key is empty or like
the key of an entry that was accepted before; a refused entry changes nothing. So a map is at any time
what the accepted entries make of it: their paths are what lookups find, and their number is its size.
-/

namespace HeaderSearch

namespace Text

/-- A letter from A to Z lowered, and any other character as it is. The small letters come 32 places after
    the capital ones. -/
def lowered (letter : Char) : Char :=
  if 'A' ≤ letter ∧ letter ≤ 'Z' then Char.ofNat (letter.toNat + 32) else letter

/-- The folding of texts lowers each letter and changes no other character. -/
theorem toLower_eq_lowered (letter : Char) : letter.toLower = lowered letter := by
  unfold lowered Char.toLower
  by_cases capital : 'A' ≤ letter ∧ letter ≤ 'Z'
  · have inside : 'A'.val ≤ letter.val ∧ letter.val ≤ 'Z'.val := capital
    rw [if_pos capital, dif_pos inside]
    have last : letter.toNat ≤ 90 := UInt32.le_iff_toNat_le.mp inside.2
    have valid : (letter.toNat + 32).isValidChar := Or.inl (by omega)
    apply Char.ext
    apply UInt32.toNat_inj.mp
    have small : letter.toNat + 32 < 2 ^ 32 := by omega
    have lowers : (Char.ofNat (letter.toNat + 32)).val.toNat = letter.toNat + 32 := by
      rw [Char.ofNat, dif_pos valid]
      rfl
    rw [lowers]
    change (letter.toNat + 32) % 2 ^ 32 = letter.toNat + 32
    exact Nat.mod_eq_of_lt small
  · have outside : ¬('A'.val ≤ letter.val ∧ letter.val ≤ 'Z'.val) := capital
    rw [if_neg capital, dif_neg outside]

end Text

namespace HeaderMap

/-- Keys are alike letter by letter, or when lowering A to Z in both gives the same characters. -/
theorem alike_iff (rule : CaseRule) (first second : String) :
    Alike rule first second ↔
      match rule with
      | .sensitive => first = second
      | .insensitive => first.toList.map Text.lowered = second.toList.map Text.lowered := by
  cases rule with
  | sensitive => exact Iff.rfl
  | insensitive =>
    have folded (text : String) :
        (CaseRule.insensitive.fold text).toList = text.toList.map Text.lowered := by
      rw [CaseRule.fold, Text.foldAscii, String.toList_ofList]
      exact List.map_congr_left fun letter _ => Text.toLower_eq_lowered letter
    rw [← folded, ← folded, String.toList_inj, Alike]

/-- The map after an entry was offered to it. -/
def offer (map : HeaderMap) (entry : String × String) : HeaderMap := (map.add entry.1 entry.2).2

/-- The map after entries were offered to it in their order. -/
def offerAll (map : HeaderMap) (entries : List (String × String)) : HeaderMap :=
  entries.foldl offer map

/-- Those of some entries, offered to a map in their order, that are not refused. -/
def accepted (map : HeaderMap) : List (String × String) → List (String × String)
  | [] => []
  | entry :: entries =>
    match map.add entry.1 entry.2 with
    | (.ok (), after) => entry :: after.accepted entries
    | (.error _, after) => after.accepted entries

section Offering

variable {map larger : HeaderMap} {key path : String} {entry : String × String} {refusal : Error}

/-- A refused entry leaves the map as it is. -/
theorem add_of_error (refused : (map.add key path).1 = .error refusal) :
    map.add key path = (.error refusal, map) := by
  unfold add at refused ⊢
  by_cases empty : key = ""
  · rw [if_pos empty] at refused ⊢
    rw [← refused]
  · rw [if_neg empty] at refused ⊢
    by_cases known : map.entries.contains (map.caseRule.fold key) = true
    · rw [if_pos known] at refused ⊢
      rw [← refused]
    · rw [if_neg known] at refused
      cases refused

/-- An insertion that is not refused gives the map that is left. -/
theorem insert_eq_ok_iff :
    map.insert key path = .ok larger ↔ map.add key path = (.ok (), larger) := by
  rw [insert]
  cases outcome : map.add key path with
  | mk answer after =>
    cases answer with
    | error refusal => simp
    | ok taken => simp

/-- An insertion is refused as the addition is. -/
theorem insert_eq_error_iff :
    map.insert key path = .error refusal ↔ (map.add key path).1 = .error refusal := by
  rw [insert]
  cases outcome : map.add key path with
  | mk answer after =>
    cases answer with
    | error refusal => simp
    | ok taken => simp

theorem offer_of_ok (taken : map.add entry.1 entry.2 = (.ok (), larger)) :
    map.offer entry = larger := by
  rw [offer, taken]

theorem offer_of_error (refused : (map.add entry.1 entry.2).1 = .error refusal) :
    map.offer entry = map := by
  rw [offer, add_of_error refused]

theorem accepted_of_ok (taken : map.add entry.1 entry.2 = (.ok (), larger))
    (entries : List (String × String)) :
    map.accepted (entry :: entries) = entry :: larger.accepted entries := by
  rw [accepted, taken]

theorem accepted_of_error (refused : (map.add entry.1 entry.2).1 = .error refusal)
    (entries : List (String × String)) :
    map.accepted (entry :: entries) = map.accepted entries := by
  rw [accepted, add_of_error refused]

theorem offerAll_cons (entries : List (String × String)) :
    map.offerAll (entry :: entries) = (map.offer entry).offerAll entries := rfl

/-- An entry is taken, and then there is a larger map, or it is refused. -/
theorem taken_or_refused (map : HeaderMap) (entry : String × String) :
    (∃ larger, map.add entry.1 entry.2 = (.ok (), larger)) ∨
      ∃ refusal, (map.add entry.1 entry.2).1 = .error refusal := by
  cases outcome : map.add entry.1 entry.2 with
  | mk answer after =>
    cases answer with
    | ok taken => exact .inl ⟨after, rfl⟩
    | error refusal => exact .inr ⟨refusal, rfl⟩

/-- The accepted entries are some of those that were offered, in the same order. -/
theorem accepted_sublist (map : HeaderMap) (entries : List (String × String)) :
    (map.accepted entries).Sublist entries := by
  induction entries generalizing map with
  | nil => exact List.Sublist.refl []
  | cons entry entries inductionHypothesis =>
    rcases map.taken_or_refused entry with ⟨larger, taken⟩ | ⟨refusal, refused⟩
    · rw [accepted_of_ok taken]
      exact (inductionHypothesis larger).cons_cons entry
    · rw [accepted_of_error refused]
      exact (inductionHypothesis map).cons entry

/-- If the first entry is refused, the accepted ones are not all. -/
theorem accepted_ne_of_error (refused : (map.add entry.1 entry.2).1 = .error refusal)
    (entries : List (String × String)) : map.accepted (entry :: entries) ≠ entry :: entries := by
  intro all
  have atMost := (accepted_sublist map entries).length_le
  rw [← accepted_of_error refused, all, List.length_cons] at atMost
  omega

/-- Adding all entries succeeds exactly if each is accepted, and gives the map to which they were
    offered. -/
theorem insertAll_eq_ok_iff (map larger : HeaderMap) (entries : List (String × String)) :
    map.insertAll entries = .ok larger ↔
      map.accepted entries = entries ∧ map.offerAll entries = larger := by
  induction entries generalizing map with
  | nil => simp [insertAll, accepted, offerAll]
  | cons entry entries inductionHypothesis =>
    rcases map.taken_or_refused entry with ⟨next, taken⟩ | ⟨refusal, refused⟩
    · rw [insertAll, insert_eq_ok_iff.2 taken, accepted_of_ok taken, offerAll_cons,
        offer_of_ok taken]
      simp [inductionHypothesis]
    · rw [insertAll, insert_eq_error_iff.2 refused]
      constructor
      · intro impossible
        cases impossible
      · rintro ⟨all, -⟩
        exact absurd all (accepted_ne_of_error refused entries)

/-- Adding all entries fails exactly if one is refused after those before it were all accepted, and for
    the same reason. -/
theorem insertAll_eq_error_iff (map : HeaderMap) (entries : List (String × String)) (refusal : Error) :
    map.insertAll entries = .error refusal ↔
      ∃ before entry after, entries = before ++ entry :: after ∧ map.accepted before = before ∧
        ((map.offerAll before).add entry.1 entry.2).1 = .error refusal := by
  induction entries generalizing map with
  | nil => simp [insertAll]
  | cons first entries inductionHypothesis =>
    rcases map.taken_or_refused first with ⟨next, taken⟩ | ⟨cause, refused⟩
    · rw [insertAll, insert_eq_ok_iff.2 taken]
      change next.insertAll entries = .error refusal ↔ _
      rw [inductionHypothesis]
      constructor
      · rintro ⟨before, entry, after, rfl, all, failed⟩
        refine ⟨first :: before, entry, after, rfl, ?_, ?_⟩
        · rw [accepted_of_ok taken, all]
        · rwa [offerAll_cons, offer_of_ok taken]
      · rintro ⟨before, entry, after, split, all, failed⟩
        cases before with
        | nil =>
          obtain ⟨rfl, -⟩ := List.cons.inj split
          rw [offerAll, List.foldl_nil, taken] at failed
          cases failed
        | cons other before =>
          obtain ⟨rfl, rfl⟩ := List.cons.inj split
          rw [accepted_of_ok taken] at all
          rw [offerAll_cons, offer_of_ok taken] at failed
          exact ⟨before, entry, after, rfl, (List.cons.inj all).2, failed⟩
    · rw [insertAll, insert_eq_error_iff.2 refused]
      constructor
      · intro same
        exact ⟨[], first, entries, rfl, rfl, refused.trans (congrArg _ (Except.error.inj same))⟩
      · rintro ⟨before, entry, after, split, all, failed⟩
        cases before with
        | nil =>
          obtain ⟨rfl, -⟩ := List.cons.inj split
          exact congrArg _ (Except.error.inj (refused.symm.trans failed))
        | cons other before =>
          obtain ⟨rfl, -⟩ := List.cons.inj split
          exact absurd all (accepted_ne_of_error refused before)

end Offering

/-- A map is what some entries make of a new map of the given name and rule: it leads from their folded
    keys to their paths, and no two of the keys are alike. -/
structure MadeOf (map : HeaderMap) (name : String) (rule : CaseRule)
    (entries : List (String × String)) : Prop where
  name : map.name = name
  caseRule : map.caseRule = rule
  pairs : map.entries.pairs = entries.map fun entry => (rule.fold entry.1, entry.2)

namespace MadeOf

variable {map : HeaderMap} {name key path : String} {rule : CaseRule}
variable {entries : List (String × String)}

theorem empty (name : String) (rule : CaseRule) (isIndex : Bool) :
    (HeaderMap.empty name rule isIndex).MadeOf name rule [] :=
  ⟨rfl, rfl, rfl⟩

/-- A folded key is in the table if an entry has a key like it. -/
theorem contains_iff (made : map.MadeOf name rule entries) (key : String) :
    map.entries.contains (rule.fold key) = true ↔ ∃ entry ∈ entries, Alike rule entry.1 key := by
  rw [Table.contains, made.pairs, List.any_map, List.any_eq_true]
  simp only [Function.comp_apply, decide_eq_true_eq]
  rfl

/-- What comes of adding an entry: the key is empty, or like another, or new. -/
theorem add_cases (made : map.MadeOf name rule entries) (key path : String) :
    (key = "" ∧ map.add key path = (.error (.emptyKey name), map)) ∨
    (key ≠ "" ∧ (∃ entry ∈ entries, Alike rule entry.1 key) ∧
      map.add key path = (.error (.repeatedKey name key), map)) ∨
    (key ≠ "" ∧ (∀ entry ∈ entries, ¬Alike rule entry.1 key) ∧
      map.entries.contains (rule.fold key) = false ∧
      map.add key path =
        (.ok (), { map with entries := map.entries.insert (rule.fold key) path })) := by
  rw [add, made.name, made.caseRule]
  by_cases empty : key = ""
  · exact .inl ⟨empty, if_pos empty⟩
  · rw [if_neg empty]
    right
    by_cases known : map.entries.contains (rule.fold key) = true
    · rw [if_pos known]
      exact .inl ⟨empty, (made.contains_iff key).mp known, rfl⟩
    · rw [if_neg known]
      refine .inr ⟨empty, ?_, Bool.eq_false_iff.mpr known, rfl⟩
      intro entry member alike
      exact known ((made.contains_iff key).mpr ⟨entry, member, alike⟩)

/-- Only an empty key is refused for being empty. -/
theorem add_emptyKey_iff (made : map.MadeOf name rule entries) :
    (map.add key path).1 = .error (.emptyKey name) ↔ key = "" := by
  rcases made.add_cases key path with
    ⟨empty, outcome⟩ | ⟨some, -, outcome⟩ | ⟨some, -, -, outcome⟩
  · rw [outcome]
    simp [empty]
  · simp [outcome, some]
  · simp [outcome, some]

/-- A key that is not empty is refused for being like another exactly if it is. -/
theorem add_repeatedKey_iff (made : map.MadeOf name rule entries) :
    (map.add key path).1 = .error (.repeatedKey name key) ↔
      key ≠ "" ∧ ∃ entry ∈ entries, Alike rule entry.1 key := by
  rcases made.add_cases key path with
    ⟨empty, outcome⟩ | ⟨some, repeated, outcome⟩ | ⟨some, apart, -, outcome⟩
  · rw [outcome]
    simp [empty]
  · simp only [outcome, true_iff]
    exact ⟨some, repeated⟩
  · rw [outcome]
    constructor
    · intro impossible
      cases impossible
    · rintro ⟨-, entry, member, alike⟩
      exact absurd alike (apart entry member)

/-- Every other key is taken. -/
theorem add_ok_iff (made : map.MadeOf name rule entries) :
    (map.add key path).1 = .ok () ↔ key ≠ "" ∧ ∀ entry ∈ entries, ¬Alike rule entry.1 key := by
  rcases made.add_cases key path with
    ⟨empty, outcome⟩ | ⟨some, repeated, outcome⟩ | ⟨some, apart, -, outcome⟩
  · rw [outcome]
    simp [empty]
  · rw [outcome]
    constructor
    · intro impossible
      cases impossible
    · rintro ⟨-, apart⟩
      obtain ⟨entry, member, alike⟩ := repeated
      exact absurd alike (apart entry member)
  · rw [outcome]
    exact ⟨fun _ => ⟨some, apart⟩, fun _ => rfl⟩

/-- An entry that is taken comes after the others. -/
theorem add {larger : HeaderMap} (made : map.MadeOf name rule entries)
    (taken : map.add key path = (.ok (), larger)) :
    larger.MadeOf name rule (entries ++ [(key, path)]) := by
  rcases made.add_cases key path with ⟨-, outcome⟩ | ⟨-, -, outcome⟩ | ⟨-, -, new, outcome⟩
  · rw [outcome] at taken
    cases taken
  · rw [outcome] at taken
    cases taken
  · rw [outcome] at taken
    obtain rfl := (Prod.mk.inj taken).2
    refine ⟨made.name, made.caseRule, ?_⟩
    change (map.entries.insert (rule.fold key) path).pairs = _
    rw [Table.insert, dif_neg (by simp [new]), List.map_append, ← made.pairs]
    rfl

/-- The entries that are accepted come after the others. Induct on the offered entries: each finds the map
    that those before it have made. -/
theorem offerAll (made : map.MadeOf name rule entries) (offered : List (String × String)) :
    (map.offerAll offered).MadeOf name rule (entries ++ map.accepted offered) := by
  induction offered generalizing map entries with
  | nil => simpa [HeaderMap.offerAll, accepted] using made
  | cons entry offered inductionHypothesis =>
    rw [offerAll_cons]
    rcases map.taken_or_refused entry with ⟨larger, taken⟩ | ⟨refusal, refused⟩
    · rw [offer_of_ok taken, accepted_of_ok taken, List.append_cons]
      exact inductionHypothesis (made.add taken)
    · rw [offer_of_error refused, accepted_of_error refused]
      exact inductionHypothesis made

/-- No two of the keys are alike. -/
theorem apart (made : map.MadeOf name rule entries) :
    entries.Pairwise fun first second => ¬Alike rule first.1 second.1 := by
  have distinct := map.entries.distinct
  rw [made.pairs, List.map_map, List.Nodup, List.pairwise_map] at distinct
  exact distinct

/-- The path of an entry is found under every name like its key, and nothing else is found. -/
theorem lookup_eq_some_iff (made : map.MadeOf name rule entries) (sought path : String) :
    map.lookup? sought = some path ↔ ∃ entry ∈ entries, Alike rule entry.1 sought ∧ entry.2 = path := by
  have found : map.lookup? sought =
      (entries.find? fun entry => Alike rule entry.1 sought).map Prod.snd := by
    rw [lookup?, Table.get?, made.pairs, made.caseRule, List.find?_map, Option.map_map]
    rfl
  rw [found, Option.map_eq_some_iff]
  constructor
  · rintro ⟨entry, first, same⟩
    have alike : Alike rule entry.1 sought := by
      simpa using List.find?_some first
    exact ⟨entry, List.mem_of_find?_eq_some first, alike, same⟩
  · rintro ⟨entry, member, alike, same⟩
    have some : (entries.find? fun entry => Alike rule entry.1 sought).isSome :=
      List.find?_isSome.mpr ⟨entry, member, decide_eq_true alike⟩
    obtain ⟨other, first⟩ := Option.isSome_iff_exists.mp some
    have alikeOther : Alike rule other.1 sought := by
      simpa using List.find?_some first
    have one : other = entry := by
      by_contra differs
      exact not_alike_of_apart made.apart (List.mem_of_find?_eq_some first) member differs
        (alikeOther.trans alike.symm)
    exact ⟨other, first, one ▸ same⟩

/-- The size is the number of entries. -/
theorem size (made : map.MadeOf name rule entries) : map.size = entries.length := by
  rw [HeaderMap.size, Table.size, made.pairs, List.length_map]

end MadeOf

/-- Insertion and lookup follow the rule of comparison, and a refused entry changes nothing. Keys are alike
    if they are equal, or if they are after A to Z are lowered where the rule does not tell the case apart.
    After any entries were offered to a new map, an entry is refused for an empty key exactly if its key
    is empty, and otherwise for a repeated key, which is named as it is spelled, exactly if an accepted
    entry has a key like it; the map that is left then is the one that was there. A name leads to the path
    of the one accepted entry with a key like it and to nothing if there is none, and the size is the
    number of accepted entries. Building a map of entries fails with the first refusal, and gives that map
    if there is none. -/
theorem map_is_made_of_accepted_entries (name : String) (rule : CaseRule) (isIndex : Bool)
    (entries : List (String × String)) :
    let start := empty name rule isIndex
    let map := start.offerAll entries
    let accepted := start.accepted entries
    (∀ first second, Alike rule first second ↔
      match rule with
      | .sensitive => first = second
      | .insensitive => first.toList.map Text.lowered = second.toList.map Text.lowered) ∧
    (∀ key path,
      ((map.add key path).1 = .error (.emptyKey name) ↔ key = "") ∧
      ((map.add key path).1 = .error (.repeatedKey name key) ↔
        key ≠ "" ∧ ∃ entry ∈ accepted, Alike rule entry.1 key) ∧
      ((map.add key path).1 = .ok () ↔
        key ≠ "" ∧ ∀ entry ∈ accepted, ¬Alike rule entry.1 key) ∧
      (∀ refusal, (map.add key path).1 = .error refusal → (map.add key path).2 = map) ∧
      (∀ larger, map.insert key path = .ok larger ↔ map.add key path = (.ok (), larger)) ∧
      ∀ refusal, map.insert key path = .error refusal ↔ (map.add key path).1 = .error refusal) ∧
    accepted.Pairwise (fun first second => ¬Alike rule first.1 second.1) ∧
    (∀ sought path, map.lookup? sought = some path ↔
      ∃ entry ∈ accepted, Alike rule entry.1 sought ∧ entry.2 = path) ∧
    (∀ sought, map.lookup? sought = none ↔ ∀ entry ∈ accepted, ¬Alike rule entry.1 sought) ∧
    map.size = accepted.length ∧
    (∀ refusal, ofEntries name rule isIndex entries = .error refusal ↔
      ∃ before entry after, entries = before ++ entry :: after ∧ start.accepted before = before ∧
        ((start.offerAll before).add entry.1 entry.2).1 = .error refusal) ∧
    (∀ built, ofEntries name rule isIndex entries = .ok built ↔
      accepted = entries ∧ map = built) := by
  intro start map accepted
  have made : map.MadeOf name rule accepted := (MadeOf.empty name rule isIndex).offerAll entries
  refine ⟨alike_iff rule, ?_, made.apart, made.lookup_eq_some_iff, ?_, made.size,
    insertAll_eq_error_iff start entries, fun built => insertAll_eq_ok_iff start built entries⟩
  · intro key path
    refine ⟨made.add_emptyKey_iff, made.add_repeatedKey_iff, made.add_ok_iff, ?_,
      fun larger => insert_eq_ok_iff, fun refusal => insert_eq_error_iff⟩
    intro refusal refused
    rw [add_of_error refused]
  · intro sought
    rw [Option.eq_none_iff_forall_ne_some]
    constructor
    · intro nothing entry member alike
      exact nothing entry.2 ((made.lookup_eq_some_iff sought entry.2).mpr
        ⟨entry, member, alike, rfl⟩)
    · intro apart path found
      obtain ⟨entry, member, alike, -⟩ := (made.lookup_eq_some_iff sought path).mp found
      exact apart entry member alike

/-- A key in other letters is refused by a map that ignores case, and so is the empty one. -/
example : (empty "m" .insensitive false).accepted
    [("A.h", "/x"), ("a.H", "/y"), ("", "/z"), ("É.h", "/u"), ("é.h", "/v")] =
    [("A.h", "/x"), ("É.h", "/u"), ("é.h", "/v")] := by decide

end HeaderMap

end HeaderSearch
