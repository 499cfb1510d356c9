import Mathlib.Data.List.ProdSigma
import HeaderSearch.Proofs.PlainAnswer

/-!
# The entries for each kind of include

A list enumerates the entries that each kind of include may match. For angled includes it leaves out those
before their start and those that are for quoted includes only; for quoted includes it leaves out none.
These are the entries that lookups of the kind search, in the same order.
-/

namespace HeaderSearch.SearchList

variable (list : SearchList) {index : Nat} {entry : SearchEntry}

/-- The entries that are enumerated for a kind of include. -/
def enumerated (list : SearchList) : IncludeKind → List (Nat × SearchEntry)
  | .angled => list.angledEntries
  | .quoted => list.quotedEntries

/-- The entries with their positions in front, in order. -/
theorem placed_eq : list.entries.mapIdx Prod.mk = list.entries.zipIdx.map Prod.swap := by
  rw [List.mapIdx_eq_zipIdx_map]
  rfl

/-- The lookups of a kind search the entries that are enumerated for it, in the same order. -/
theorem eligible_eq_enumerated (kind : IncludeKind) :
    (list.eligible kind).map Prod.swap = list.enumerated kind := by
  cases kind with
  | quoted =>
    rw [enumerated, quotedEntries, placed_eq, eligible, startOf, List.drop_zero]
    apply congrArg (List.map Prod.swap)
    exact List.filter_eq_self.2 fun item _ => rfl
  | angled =>
    rw [enumerated, angledEntries, placed_eq, ← List.map_drop, List.filter_map, eligible, startOf]
    apply congrArg (List.map Prod.swap)
    apply List.filter_congr
    intro item there
    have here : list.entries[item.2]? = some item.1 :=
      List.mem_zipIdx_iff_getElem?.1 (List.mem_of_mem_drop there)
    simp [list.isQuoteOnly_at here]

/-- The entries that are enumerated for a kind of include are those that it looks into, in their order. -/
theorem enumerated_eq_filter (kind : IncludeKind) :
    list.enumerated kind =
      (list.entries.mapIdx Prod.mk).filter fun item => list.looksInto kind item.1 := by
  rw [← eligible_eq_enumerated, eligible_eq_filter, placed_eq, List.filter_map]
  rfl

/-- An entry is enumerated for a kind of include exactly if this kind looks into it. -/
theorem mem_enumerated_iff {kind : IncludeKind} :
    (index, entry) ∈ list.enumerated kind ↔
      list.entries[index]? = some entry ∧ list.looksInto kind index = true := by
  rw [enumerated_eq_filter, List.mem_filter, placed_eq, List.mem_map_swap,
    List.mk_mem_zipIdx_iff_getElem?]

/-- The enumerated positions ascend. -/
theorem enumerated_ascending (kind : IncludeKind) :
    ((list.enumerated kind).map Prod.fst).Pairwise (· < ·) := by
  have ascending : ((list.entries.mapIdx Prod.mk).map Prod.fst).Pairwise (· < ·) := by
    rw [placed_eq, List.map_map]
    change (list.entries.zipIdx.map Prod.snd).Pairwise (· < ·)
    rw [List.zipIdx_map_snd]
    exact List.pairwise_lt_range' ..
  rw [enumerated_eq_filter]
  exact ascending.sublist (List.filter_sublist.map Prod.fst)

/-- For quoted includes all entries are enumerated, from the first to the last. -/
theorem quotedEntries_all : list.quotedEntries.map Prod.fst = List.range list.size ∧
    list.quotedEntries.map Prod.snd = list.entries := by
  rw [quotedEntries, placed_eq, List.map_map, List.map_map]
  constructor
  · rw [size, List.range_eq_range']
    exact List.zipIdx_map_snd 0 list.entries
  · exact List.zipIdx_map_fst 0 list.entries

end HeaderSearch.SearchList
