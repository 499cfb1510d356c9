import Mathlib.Data.List.Induction
import Mathlib.Data.List.Nodup
import HeaderSearch.SortedPairs

/-!
# What sorting keeps

Sorting pairs by their keys keeps every key, with its last value. Sorted pairs are told by their members
alone, so pairs with different keys may be sorted from any order.
-/

namespace HeaderSearch.SortedPairs

variable {α : Type}

/-- A key is found with the value that was inserted last, and every other key as before. -/
theorem find?_insert (key other : String) (value : α) (pairs : List (String × α)) :
    (insert key value pairs).find? (fun pair => pair.1 = other) =
      if key = other then some (key, value) else pairs.find? fun pair => pair.1 = other := by
  by_cases same : key = other
  · subst same
    rw [if_pos rfl]
    induction pairs with
    | nil => simp [insert]
    | cons first rest inductionHypothesis =>
      rw [insert]
      split
      · simp
      · split
        · simp
        · next differs => simp [Ne.symm differs, inductionHypothesis]
  · rw [if_neg same]
    induction pairs with
    | nil => simp [insert, same]
    | cons first rest inductionHypothesis =>
      rw [insert]
      split
      · simp [same]
      · split
        · next known =>
          subst known
          simp [same]
        · rw [List.find?_cons, inductionHypothesis, List.find?_cons]

/-- Sorting leaves every key with its last value. -/
theorem find?_ofList (pairs : List (String × α)) (key : String) :
    (ofList pairs).find? (fun pair => pair.1 = key) =
      pairs.reverse.find? fun pair => pair.1 = key := by
  induction pairs using List.reverseRecOn with
  | nil => rfl
  | append_singleton pairs last inductionHypothesis =>
    rw [ofList, List.foldl_append, List.foldl_cons, List.foldl_nil, ← ofList, find?_insert,
      List.reverse_append, List.reverse_singleton, List.singleton_append, List.find?_cons,
      inductionHypothesis]
    by_cases same : last.1 = key
    · simp [← same]
    · simp [same]

/-- Sorting leaves every key. -/
theorem exists_mem_ofList {pairs : List (String × α)} {pair : String × α} (member : pair ∈ pairs) :
    ∃ kept ∈ ofList pairs, kept.1 = pair.1 := by
  have found : (pairs.reverse.find? fun other => other.1 = pair.1).isSome :=
    List.find?_isSome.2 ⟨pair, List.mem_reverse.2 member, decide_eq_true rfl⟩
  rw [← find?_ofList] at found
  obtain ⟨kept, there, same⟩ := List.find?_isSome.1 found
  exact ⟨kept, there, of_decide_eq_true same⟩

/-- Sorting keeps the keys. -/
theorem mem_keys_ofList (pairs : List (String × α)) (key : String) :
    key ∈ (ofList pairs).map Prod.fst ↔ key ∈ pairs.map Prod.fst := by
  constructor
  · intro present
    obtain ⟨pair, member, same⟩ := List.mem_map.1 present
    exact List.mem_map.2 ⟨pair, mem_of_mem_ofList member, same⟩
  · intro present
    obtain ⟨pair, member, same⟩ := List.mem_map.1 present
    obtain ⟨kept, there, again⟩ := exists_mem_ofList member
    exact List.mem_map.2 ⟨kept, there, again.trans same⟩

/-- Pairs in ascending order of their keys are told by their members. -/
theorem ofList_eq_of_mem_iff {pairs others : List (String × α)}
    (same : ∀ pair, pair ∈ ofList pairs ↔ pair ∈ ofList others) : ofList pairs = ofList others := by
  have distinct (sorted : List (String × α)) : (ofList sorted).Nodup := by
    apply (ascending_ofList sorted).imp
    intro first second less equal
    exact String.lt_irrefl first.1 (equal ▸ less)
  have permuted : (ofList pairs).Perm (ofList others) :=
    (List.perm_ext_iff_of_nodup (distinct pairs) (distinct others)).2 same
  apply List.Perm.eq_of_pairwise _ (ascending_ofList pairs) (ascending_ofList others) permuted
  intro first second _ _ less greater
  exact absurd greater (String.lt_asymm less)

/-- Sorting pairs with different keys keeps each of them. -/
theorem mem_ofList_iff {pairs : List (String × α)} (distinct : (pairs.map Prod.fst).Nodup)
    (pair : String × α) : pair ∈ ofList pairs ↔ pair ∈ pairs := by
  constructor
  · exact mem_of_mem_ofList
  · intro member
    obtain ⟨kept, there, same⟩ := exists_mem_ofList member
    have equal : kept = pair := List.inj_on_of_nodup_map distinct (mem_of_mem_ofList there) member same
    exact equal ▸ there

/-- Pairs with different keys may be sorted from any order. -/
theorem ofList_perm {pairs others : List (String × α)} (permuted : pairs.Perm others)
    (distinct : (others.map Prod.fst).Nodup) : ofList pairs = ofList others := by
  have before : (pairs.map Prod.fst).Nodup := (permuted.map Prod.fst).nodup_iff.2 distinct
  apply ofList_eq_of_mem_iff
  intro pair
  rw [mem_ofList_iff before, mem_ofList_iff distinct, permuted.mem_iff]

/-- The distinct words of a list are in ascending order. -/
theorem ascending_distinctWords (words : List String) : (distinctWords words).Pairwise (· < ·) := by
  rw [distinctWords, List.pairwise_map]
  exact ascending_ofList _

end HeaderSearch.SortedPairs
