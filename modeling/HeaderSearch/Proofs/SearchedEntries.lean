import HeaderSearch.Proofs.Building
import HeaderSearch.Proofs.Listings
import HeaderSearch.Proofs.Origins

/-!
# Who is searched

Which entries an include looks into is said in three ways: the lookups of a list pass over some entries,
the list enumerates the entries for each kind of include, and the listing marks the entries that angled
includes look into. Here the three are shown to agree, and that no answer, be it remembered or found now,
comes from an entry outside them.
-/

namespace HeaderSearch

section Looking

variable (m : Type → Type) {ω : Type} [Monad m] [Runs m ω] [FileStore m]
variable (list : SearchList) (name : String)

/-- The memo with one more look into an entry counted. -/
def SearchMemo.countProbe (memo : SearchMemo) : SearchMemo :=
  memo.count fun stats => { stats with entryProbes := stats.entryProbes + 1 }

/-- The memo with one more lookup counted. -/
def SearchMemo.countLookup (memo : SearchMemo) : SearchMemo :=
  memo.count fun stats => { stats with lookups := stats.lookups + 1 }

/-- The memo with a miss of the list recorded and counted. -/
def SearchMemo.recordMiss (memo : SearchMemo) (name : String) (kind : IncludeKind) : SearchMemo :=
  SearchMemo.count { memo with cache := memo.cache.insert name kind none }
    fun stats => { stats with misses := stats.misses + 1 }

/-- A name is looked for in entries, one after the other and with each look counted, and none of them has
    it. The run leads from one state to another. -/
inductive SearchList.LooksInVain :
    List (Nat × SearchEntry) → SearchMemo × ω → SearchMemo × ω → Prop where
  | done (state : SearchMemo × ω) : LooksInVain [] state state
  | next {index : Nat} {entry : SearchEntry} {others : List (Nat × SearchEntry)} {memo : SearchMemo}
      {rest : ω} {between after : SearchMemo × ω}
      (silent : Runs.run (list.probeAt entry index name : StateT SearchMemo m (Option PlaceHit))
        (memo.countProbe, rest) = (none, between))
      (later : LooksInVain others between after) :
      LooksInVain ((index, entry) :: others) (memo, rest) after

end Looking

namespace SearchList

variable {m : Type → Type} {ω : Type} [Monad m] [Runs m ω] [FileStore m]
variable {list : SearchList} {name : String}

/-- A scan finds nothing exactly if it looks into all its entries, in order, and all in vain. Induct on the
    entries: a look that finds something ends the scan with a hit. -/
theorem run_scan_eq_none_iff {items : List (SearchEntry × Nat)} {state after : SearchMemo × ω} :
    Runs.run (list.scan name items : StateT SearchMemo m (Option Hit)) state = (none, after) ↔
      list.LooksInVain m name (items.map Prod.swap) state after := by
  induction items generalizing state with
  | nil =>
    rw [scan, Runs.run_pure, List.map_nil]
    constructor
    · intro same
      obtain rfl := (Prod.mk.inj same).2
      exact .done state
    · intro looks
      cases looks
      rfl
  | cons item items inductionHypothesis =>
    obtain ⟨entry, index⟩ := item
    obtain ⟨memo, rest⟩ := state
    rw [scan, Runs.run_bind, Runs.run_modify, Runs.run_bind, List.map_cons]
    cases probed : Runs.run (list.probeAt entry index name : StateT SearchMemo m (Option PlaceHit))
        (memo.countProbe, rest) with
    | mk outcome between =>
      have ran := probed
      unfold SearchMemo.countProbe at ran
      simp only [ran]
      cases outcome with
      | some found =>
        constructor
        · intro hit
          rw [Runs.run_pure] at hit
          cases (Prod.mk.inj hit).1
        · intro looks
          cases looks with
          | next silent later => cases (Prod.mk.inj (probed.symm.trans silent)).1
      | none =>
        rw [inductionHypothesis]
        constructor
        · intro later
          exact .next probed later
        · intro looks
          cases looks with
          | next silent later =>
            obtain rfl := (Prod.mk.inj (probed.symm.trans silent)).2
            exact later

/-- The list has no answer to what it does not remember exactly if the name is looked for in vain in all the
    entries that are enumerated for the kind. The miss is recorded. -/
theorem run_lookInList_eq_none_iff {kind : IncludeKind} {memo : SearchMemo} {rest : ω}
    {remembered : Bool} {after : SearchMemo × ω} (new : memo.cache.get? name kind = none) :
    Runs.run (list.lookInList name kind : StateT SearchMemo m (Option Hit × Bool)) (memo, rest) =
        ((none, remembered), after) ↔
      ∃ between, list.LooksInVain m name (list.enumerated kind) (memo, rest) between ∧
        remembered = false ∧
        after = ({ between.1 with cache := between.1.cache.insert name kind none }, between.2) := by
  rw [lookInList, Runs.run_bind, Runs.run_get]
  simp only [new, Runs.run_bind, Runs.run_modify, Runs.run_pure]
  simp only [← eligible_eq_enumerated, ← run_scan_eq_none_iff]
  cases scanned : Runs.run (list.scan name (list.eligible kind) : StateT SearchMemo m (Option Hit))
      (memo, rest) with
  | mk outcome between =>
    constructor
    · intro same
      obtain ⟨outcome_eq, rfl⟩ := Prod.mk.inj same
      obtain ⟨rfl, rfl⟩ := Prod.mk.inj outcome_eq
      exact ⟨between, rfl, rfl, rfl⟩
    · rintro ⟨end', same, rfl, rfl⟩
      obtain ⟨rfl, rfl⟩ := Prod.mk.inj same
      rfl

variable [LawfulMonad m]

/-- A lookup that asks the list alone, about what it does not remember, finds nothing exactly if the name is
    looked for in vain in all the entries that are enumerated for the kind. Nothing else happens to the
    store, and the lookup and the miss are counted and the miss is recorded. -/
theorem run_resolve_eq_none_iff {kind : IncludeKind} {includer : Option Includer} {want : PathRequest}
    {memo : SearchMemo} {rest : ω} {after : SearchMemo × ω}
    (alone : kind = .angled ∨ includer = none) (new : memo.cache.get? name kind = none) :
    Runs.run (list.resolve name kind includer want : StateT SearchMemo m (Option FoundHeader))
        (memo, rest) = (none, after) ↔
      ∃ between,
        list.LooksInVain m name (list.enumerated kind) (memo.countLookup, rest) between ∧
        after = (between.1.recordMiss name kind, between.2) := by
  have nothingBeside : (lookBesideFor name kind includer : StateT SearchMemo m (Option Hit × Bool)) =
      pure (none, false) := by
    rcases alone with rfl | rfl
    · rfl
    · cases kind <;> rfl
  rw [resolve, Runs.run_bind, Runs.run_modify, Runs.run_bind, nothingBeside, Runs.run_pure,
    Runs.run_bind]
  cases looked : Runs.run (list.lookInList name kind : StateT SearchMemo m (Option Hit × Bool))
      (memo.countLookup, rest) with
  | mk result between =>
    obtain ⟨outcome, remembered⟩ := result
    have ran := looked
    unfold SearchMemo.countLookup at ran
    simp only [ran]
    have unknown : memo.countLookup.cache.get? name kind = none := new
    have missed {ended : SearchMemo × ω}
        (looks : list.LooksInVain m name (list.enumerated kind) (memo.countLookup, rest) ended) :
        ((outcome, remembered), between) = ((none, false),
          { ended.1 with cache := ended.1.cache.insert name kind none }, ended.2) :=
      looked.symm.trans ((run_lookInList_eq_none_iff unknown).2 ⟨ended, looks, rfl, rfl⟩)
    cases outcome with
    | some hit =>
      constructor
      · intro ended
        simp only [Runs.run_bind, Runs.run_map] at ended
        cases (Prod.mk.inj ended).1
      · rintro ⟨ended, looks, -⟩
        cases (Prod.mk.inj (Prod.mk.inj (missed looks)).1).1
    | none =>
      obtain ⟨ended, looks, rfl, rfl⟩ := (run_lookInList_eq_none_iff unknown).1 looked
      simp only [Runs.run_bind, Runs.run_modify, Runs.run_pure, countRemembered]
      constructor
      · intro same
        exact ⟨ended, looks, (Prod.mk.inj same).2.symm⟩
      · rintro ⟨other, again, rfl⟩
        obtain ⟨sameMemo, sameRest⟩ := Prod.mk.inj (Prod.mk.inj (missed again)).2
        rw [SearchMemo.recordMiss, ← sameMemo, ← sameRest]
        rfl

/-- The rule that a hit of the list is in an entry that the kind of include looks into. -/
def eligibleRule (list : SearchList) : HitRule where
  listed _ kind hit := ∃ item ∈ list.eligible kind, hit.origin = .entry item.2
  beside _ _ hit := hit.origin = .includer

theorem eligibleRule_admits (list : SearchList) : list.eligibleRule.Admits list where
  listed member _ := ⟨_, member, rfl⟩
  beside := rfl

/-- After any calls, over any stores, an answer that comes from an entry comes from one that is in the list
    and that the kind of include looks into, whether it was remembered or is found now. -/
theorem entry_is_looked_into {memo : SearchMemo} (remembers : list.Remembers memo) {rest : ω}
    {kind : IncludeKind} {includer : Option Includer} {want : PathRequest} {header : FoundHeader}
    {index : Nat} {after : SearchMemo × ω}
    (answered : Runs.run (list.resolve name kind includer want :
      StateT SearchMemo m (Option FoundHeader)) (memo, rest) = (some header, after))
    (origin : header.origin = .entry index) :
    index < list.size ∧ list.looksInto kind index = true := by
  have admits := eligibleRule_admits list
  have allowed := (list.resolve_records (m := m) admits name kind includer want (memo, rest)
    (remembers.records admits)).2
  rw [answered] at allowed
  obtain ⟨hit, same, ⟨item, member, place⟩ | ⟨-, directory, beside⟩⟩ := allowed header rfl
  · obtain rfl : item.2 = index := by
      rw [place, origin] at same
      exact Origin.entry.inj same
    have inside : item.2 < list.size := list.lt_of_mem_eligible member
    rw [eligible_eq_filter] at member
    exact ⟨inside, (List.mem_filter.1 member).2⟩
  · rw [beside, origin] at same
    cases same

end SearchList

namespace Config

/-- For every list that was built, its listing, its enumerations and its lookups agree on who is searched.

    The entries enumerated for angled includes ascend and are exactly those that the listing marks; the ones
    for quoted includes are all entries. The listing has an item for each entry, and one that sums the list
    up with the names of the system frameworks in ascending order.

    Over any store and from any state, a lookup of what is not remembered finds nothing exactly if the name
    is looked for in vain in the entries enumerated for its kind, all of them and in order. After any calls,
    an answer that comes from an entry comes from one that is in the list, and for an angled include from
    one that is marked. -/
theorem listing_enumerations_and_lookups_agree {ω : Type} {m : Type → Type} [Monad m] [Runs m ω]
    [FileStore m] {config : Config} {maps : HeaderMapSet} {list : SearchList} {state after : ω}
    (built : Runs.run (config.build maps : m _) state = (.ok list, after)) :
    ((list.angledEntries.map Prod.fst).Pairwise (· < ·) ∧
      ∀ index entry, (index, entry) ∈ list.angledEntries ↔
        list.entries[index]? = some entry ∧ list.MarksAngled index) ∧
    (list.quotedEntries.map Prod.fst = List.range list.size ∧
      list.quotedEntries.map Prod.snd = list.entries) ∧
    (list.listing.length = list.size + 1 ∧
      (∀ index entry, list.entries[index]? = some entry →
        ∃ item, list.listing[index]? = some item ∧ list.Lists index entry item) ∧
      (∃ item, list.listing[list.size]? = some item ∧ list.SumsUp item) ∧
      list.systemFrameworks.Pairwise (· < ·) ∧
      ∀ word, word ∈ list.systemFrameworks ↔ word ∈ config.systemFrameworks) ∧
    ∀ (n : Type → Type) (σ : Type) [Monad n] [LawfulMonad n] [Runs n σ] [FileStore n]
      (memo : SearchMemo) (rest : σ) (name : String) (want : PathRequest),
      (memo.cache.get? name .angled = none → ∀ includer ended,
        Runs.run (list.resolve name .angled includer want : StateT SearchMemo n _) (memo, rest) =
            (none, ended) ↔
          ∃ between,
            list.LooksInVain n name list.angledEntries (memo.countLookup, rest) between ∧
            ended = (between.1.recordMiss name .angled, between.2)) ∧
      (memo.cache.get? name .quoted = none → ∀ ended,
        Runs.run (list.resolve name .quoted none want : StateT SearchMemo n _) (memo, rest) =
            (none, ended) ↔
          ∃ between,
            list.LooksInVain n name list.quotedEntries (memo.countLookup, rest) between ∧
            ended = (between.1.recordMiss name .quoted, between.2)) ∧
      (list.Remembers memo → ∀ kind includer header index ended,
        Runs.run (list.resolve name kind includer want : StateT SearchMemo n _) (memo, rest) =
            (some header, ended) →
          header.origin = .entry index →
          index < list.size ∧ (kind = .angled → list.MarksAngled index)) := by
  obtain ⟨places, -, -, -, -, -, -, leaves⟩ := build_leaves built
  refine ⟨⟨list.enumerated_ascending .angled, ?_⟩, list.quotedEntries_all,
    ⟨list.isListedBy_listing.length, ?_, ?_, ?_, ?_⟩, ?_⟩
  · intro index entry
    have inside : list.entries[index]? = some entry → index < list.size :=
      fun here => (List.getElem?_eq_some_iff.1 here).1
    rw [list.marksAngled_iff]
    change (index, entry) ∈ list.enumerated .angled ↔ _
    rw [list.mem_enumerated_iff]
    constructor
    · rintro ⟨here, looks⟩
      exact ⟨here, inside here, looks⟩
    · rintro ⟨here, -, looks⟩
      exact ⟨here, looks⟩
  · intro index entry here
    obtain ⟨item, there, lists, -⟩ := list.isListedBy_listing.each here
    exact ⟨item, there, lists⟩
  · exact list.isListedBy_listing.last
  · rw [leaves.systemFrameworks]
    exact SortedPairs.ascending_distinctWords config.systemFrameworks
  · intro word
    rw [leaves.systemFrameworks, SortedPairs.mem_distinctWords]
  · intro n σ _ _ _ _ memo rest name want
    refine ⟨?_, ?_, ?_⟩
    · intro new includer ended
      exact SearchList.run_resolve_eq_none_iff (.inl rfl) new
    · intro new ended
      exact SearchList.run_resolve_eq_none_iff (.inr rfl) new
    · intro remembers kind includer header index ended answered origin
      obtain ⟨inside, looks⟩ := SearchList.entry_is_looked_into remembers answered origin
      refine ⟨inside, ?_⟩
      rintro rfl
      exact list.marksAngled_iff.2 ⟨inside, looks⟩

/-- A configuration with a directory for quoted includes only before the start, and one after it. -/
def withLateQuoted : Config where
  entries := [
    { location := .directory ⟨"/quoted"⟩, quoteOnly := true },
    { location := .directory ⟨"/include"⟩ },
    { location := .directory ⟨"/late"⟩, quoteOnly := true }]
  angledStart := some 1

/-- Only the directory between the two is enumerated for angled includes, and only it is marked. -/
theorem late_quoted_directory_is_not_marked :
    ∃ list log,
      Runs.run (withLateQuoted.build .empty :
        Observed (.listing ["/quoted", "/include", "/late"] []) _) [] = (.ok list, log) ∧
      list.angledEntries.map Prod.fst = [1] ∧ list.MarksAngled 1 ∧ ¬list.MarksAngled 2 := by
  obtain ⟨list, log, built, positions, third⟩ : ∃ list log,
      Runs.run (withLateQuoted.build .empty :
        Observed (.listing ["/quoted", "/include", "/late"] []) _) [] = (.ok list, log) ∧
      list.angledEntries.map Prod.fst = [1] ∧ list.entries[2]?.isSome := ⟨⟨_, _, _⟩, _, rfl, rfl, rfl⟩
  obtain ⟨⟨-, marked⟩, -⟩ := listing_enumerations_and_lookups_agree built
  refine ⟨list, log, built, positions, ?_, ?_⟩
  · have first : 1 ∈ list.angledEntries.map Prod.fst := positions ▸ List.mem_singleton_self 1
    obtain ⟨⟨position, entry⟩, there, same⟩ := List.mem_map.1 first
    obtain rfl : position = 1 := same
    exact ((marked 1 entry).1 there).2
  · intro marks
    obtain ⟨entry, here⟩ := Option.isSome_iff_exists.1 third
    have there : 2 ∈ list.angledEntries.map Prod.fst :=
      List.mem_map.2 ⟨(2, entry), (marked 2 entry).2 ⟨here, marks⟩, rfl⟩
    rw [positions] at there
    simp at there

end Config

end HeaderSearch
