import HeaderSearch.Proofs.Recording

/-!
# Where answers come from

Whatever a file store answers, even if it contradicts itself, an answer that comes from an entry comes
from one of the entries of the list. This is one rule for the hits that a memo records, and every list is
admitted by the rule for its size.
-/

namespace HeaderSearch

/-- Whether what led to an answer is the including file or an entry of a list of some size. -/
def Origin.Within (size : Nat) : Origin → Prop
  | .includer => True
  | .entry index => index < size

/-- The remembered hits come from including files or from entries of a list of some size. -/
structure SearchMemo.Within (size : Nat) (memo : SearchMemo) : Prop where
  listed {name : String} {kind : IncludeKind} {hit : Hit} :
    memo.cache.get? name kind = some (some hit) → hit.origin.Within size
  beside {directory : DirHandle} {name : String} {hit : Hit} :
    memo.cache.getBeside? directory name = some (some hit) → hit.origin.Within size

/-- The rule that hits come from including files or from entries of a list of some size. -/
def HitRule.within (size : Nat) : HitRule where
  listed _ _ hit := hit.origin.Within size
  beside _ _ hit := hit.origin.Within size

/-- The hits within a size are those that the rule allows. -/
theorem SearchMemo.within_iff {size : Nat} {memo : SearchMemo} :
    memo.Within size ↔ memo.Records (.within size) := by
  constructor
  · exact fun within => ⟨within.listed, within.beside⟩
  · exact fun records => ⟨records.listed, records.beside⟩

/-- Nothing is remembered before the first lookup. -/
theorem SearchMemo.Within.fresh (size : Nat) : SearchMemo.fresh.Within size :=
  within_iff.mpr (.fresh (.within size))

/-- The entries that a kind of include looks into are entries of the list. -/
theorem SearchList.lt_of_mem_eligible (list : SearchList) {kind : IncludeKind}
    {item : SearchEntry × Nat} (member : item ∈ list.eligible kind) : item.2 < list.size := by
  have there := List.mem_of_mem_drop (List.mem_of_mem_filter member)
  exact (List.getElem?_eq_some_iff.mp (List.mem_zipIdx_iff_getElem?.mp there)).1

/-- A list is admitted by the rule for its size. -/
theorem HitRule.within_admits (list : SearchList) : (HitRule.within list.size).Admits list where
  listed member _ := list.lt_of_mem_eligible member
  beside := trivial

/-- What the rule for a size allows is within the size. -/
theorem HitRule.Allows.within {size : Nat} {name : String} {kind : IncludeKind} {origin : Origin}
    (allowed : (HitRule.within size).Allows name kind origin) : origin.Within size := by
  obtain ⟨hit, rfl, within | ⟨-, directory, within⟩⟩ := allowed
  · exact within
  · exact within

section Carrying

variable {α ω : Type} {m : Type → Type} [Monad m] [Runs m ω] {size : Nat}

/-- A computation that carries a memo keeps the memo within a size and has an expected result. -/
def StaysWithin (size : Nat) (computation : StateT SearchMemo m α) (expected : α → Prop) : Prop :=
  Runs.Always (fun state : SearchMemo × ω => state.1.Within size) computation expected

/-- What keeps a memo to the rule for a size stays within the size. -/
theorem Recording.stays {computation : StateT SearchMemo m α} {expected : α → Prop}
    (recording : Recording (.within size) computation expected) :
    StaysWithin size computation expected := by
  intro state within
  obtain ⟨records, result⟩ := recording state (SearchMemo.within_iff.mp within)
  exact ⟨SearchMemo.within_iff.mpr records, result⟩

/-- What does not touch the memo stays within every size. -/
theorem StaysWithin.of_lift (computation : m α) :
    StaysWithin size (StateT.lift computation : StateT SearchMemo m α) fun _ => True :=
  (Recording.of_lift computation).stays

end Carrying

namespace SearchList

variable {ω : Type} {m : Type → Type} [Monad m] [LawfulMonad m] [Runs m ω] [FileStore m]
variable (list : SearchList)

/-- A lookup answers from the including file or from an entry of the list. -/
theorem resolve_stays (name : String) (kind : IncludeKind) (includer : Option Includer)
    (want : PathRequest) :
    StaysWithin list.size
      (list.resolve name kind includer want : StateT SearchMemo m (Option FoundHeader))
      fun answer => ∀ header ∈ answer, header.origin.Within list.size := by
  refine (Recording.stays (list.resolve_records (HitRule.within_admits list) name kind includer
    want)).weaken fun answer allowed => ?_
  intro header there
  exact (allowed header there).within

/-- What calls on a list leave behind comes from including files and from entries of the list. -/
theorem Remembers.within {list : SearchList} {memo : SearchMemo}
    (remembers : list.Remembers memo) : memo.Within list.size :=
  SearchMemo.within_iff.mpr (remembers.records (HitRule.within_admits list))

end SearchList

end HeaderSearch
