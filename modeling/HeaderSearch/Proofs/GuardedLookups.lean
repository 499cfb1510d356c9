import HeaderSearch.Proofs.Asking
import HeaderSearch.Proofs.Recording
import HeaderSearch.SearchList.Build

/-!
# Lookups read nothing that is not there

A lookup reads entries and flags by position, parts of names by offset, and the directory of a hit beside an
including file. Positions and offsets are computed when a name is first seen and are used again whenever its
outcome is remembered. A guarded lookup is the same lookup, but ends with a fault as soon as what it reads is
not there. From every memo that calls leave behind, guarded lookups do just what lookups do, without a
fault: the memo records only hits that their entries can have found, and these can always be answered from.
-/

namespace HeaderSearch

/-- What is not there when it is read. -/
inductive Fault where
  /-- There is no entry at a position. -/
  | noEntry (index : Nat)
  /-- There is no flag at a position. -/
  | noFlag (index : Nat)
  /-- An offset into a name is not at the border of a character. -/
  | noBorder (name : String) (offset : Nat)
  /-- A hit beside an including file has no directory. -/
  | noDirectory
deriving DecidableEq, Repr

/-- Computations that carry a memo and end with the first fault. -/
abbrev Guarded (m : Type → Type) : Type → Type := ExceptT Fault (StateT SearchMemo m)

namespace Guarded

variable {α : Type} {m : Type → Type} [Monad m]

/-- What is read, if it is there. -/
def demand (fault : Fault) : Option α → Guarded m α
  | some value => pure value
  | none => throw fault

/-- A computation whose result is not always wanted. -/
def ifWanted (wanted : Bool) (computation : Guarded m α) : Guarded m (Option α) :=
  if wanted then some <$> computation else pure none

end Guarded

namespace SearchList

section Guarding

open Guarded

variable {m : Type → Type} [Monad m] [FileStore m] (list : SearchList)

/-- The flags of the entries that tell which ones are for quoted includes only. Each entry carries its own
    flag, so there are as many flags as entries by construction. -/
def quoteOnlyFlags : List Bool := list.entries.map SearchEntry.quoteOnly

/-- Whether a kind of include passes over the entry at a position. Its flag is read for angled includes
    only. -/
def passesOver (kind : IncludeKind) (index : Nat) : Guarded m Bool :=
  match kind with
  | .angled => demand (.noFlag index) list.quoteOnlyFlags[index]?
  | .quoted => pure false

/-- Looks for a name in those of some entries that a kind of include does not pass over, in order. -/
def guardedScan (name : String) (kind : IncludeKind) :
    List (SearchEntry × Nat) → Guarded m (Option Hit)
  | [] => return none
  | (entry, index) :: others => do
    if ← list.passesOver kind index then guardedScan name kind others
    else
      ExceptT.lift (modify fun memo =>
        memo.count fun stats => { stats with entryProbes := stats.entryProbes + 1 })
      match ← ExceptT.lift (list.probeAt entry index name) with
      | some found => return some (.ofPlace entry index found)
      | none => guardedScan name kind others

/-- The outcome of a name and kind in the list, and whether it was remembered. -/
def guardedLookInList (name : String) (kind : IncludeKind) : Guarded m (Option Hit × Bool) := do
  match (← ExceptT.lift get).cache.get? name kind with
  | some outcome => return (outcome, true)
  | none =>
    let outcome ← list.guardedScan name kind (list.entries.zipIdx.drop (list.startOf kind))
    ExceptT.lift (modify fun memo => { memo with cache := memo.cache.insert name kind outcome })
    return (outcome, false)

/-- The search path of a hit. -/
def guardedSearchPathOf (hit : Hit) : Guarded m String :=
  match hit.origin with
  | .entry index => do
    let entry ← demand (.noEntry index) list.entries[index]?
    ExceptT.lift (entry.place.searchPath hit.searchDirectory)
  | .includer => do
    let directory ← demand .noDirectory hit.searchDirectory
    let path ← ExceptT.lift (FileStore.directoryPath directory)
    return path.shown

/-- The part of a name from an offset on. -/
def guardedPart (name : String) (offset : Nat) : Guarded m String :=
  demand (.noBorder name offset) (Text.suffixFrom? name offset)

/-- The answer that a hit stands for, with the texts that are wanted. -/
def guardedAnswer (name : String) (want : PathRequest) (hit : Hit) : Guarded m FoundHeader := do
  let searchPath ← ifWanted want.searchPath (list.guardedSearchPathOf hit)
  let relativePath ← ifWanted want.relativePath (guardedPart name hit.relativeStart)
  return {
    file := hit.file
    searchPath
    relativePath
    isSystemFramework := hit.isSystemFramework
    characteristic := hit.characteristic
    origin := hit.origin }

/-- Looks up a name of a kind, included by a file if one is given. -/
def guardedResolve (name : String) (kind : IncludeKind) (includer : Option Includer)
    (want : PathRequest) : Guarded m (Option FoundHeader) := do
  ExceptT.lift (modify fun memo =>
    memo.count fun stats => { stats with lookups := stats.lookups + 1 })
  match ← ExceptT.lift (lookBesideFor name kind includer) with
  | (some hit, remembered) =>
    ExceptT.lift (modify fun memo =>
      memo.count fun stats => { stats with includerHits := stats.includerHits + 1 })
    ExceptT.lift (modify (countRemembered remembered))
    some <$> list.guardedAnswer name want hit
  | (none, _) =>
    let (outcome, remembered) ← list.guardedLookInList name kind
    ExceptT.lift (modify (countRemembered remembered))
    match outcome with
    | some hit => some <$> list.guardedAnswer name want hit
    | none =>
      ExceptT.lift (modify fun memo =>
        memo.count fun stats => { stats with misses := stats.misses + 1 })
      return none

/-- Looks up a name in the entry at a position alone, if there is such an entry. -/
def guardedLookupIn (index : Nat) (name : String) (want : PathRequest) :
    Guarded m (Option EntryMatch) :=
  match list.entries[index]? with
  | none => return none
  | some entry => do
    match ← ExceptT.lift (list.probeAt entry index name) with
    | none => return none
    | some found =>
      let searchPath ← ifWanted want.searchPath
        (ExceptT.lift (entry.place.searchPath found.searchDirectory))
      let relativePath ← ifWanted want.relativePath (guardedPart name found.relativeStart)
      return some {
        file := found.file
        searchPath
        relativePath
        isSystemFramework := found.isSystemFramework }

end Guarding

end SearchList

section Agreeing

variable {α β ω : Type} {m : Type → Type} [Monad m] [LawfulMonad m] [Runs m ω] {rule : HitRule}

/-- From every memo that keeps to a rule a guarded computation does what a computation does, without a
    fault. -/
def Agrees (rule : HitRule) (guarded : Guarded m α) (computation : StateT SearchMemo m α) : Prop :=
  ∀ state : SearchMemo × ω, state.1.Records rule →
    Runs.run guarded.run state =
      (.ok (Runs.run computation state).1, (Runs.run computation state).2)

namespace Agrees

omit [LawfulMonad m] in
/-- Returning a value reads nothing. -/
theorem of_pure (value : α) : Agrees (m := m) rule (pure value) (pure value) := by
  intro state _
  rw [ExceptT.run_pure, Runs.run_pure, Runs.run_pure]

/-- A computation without guards agrees with itself. -/
theorem of_lift (computation : StateT SearchMemo m α) :
    Agrees rule (ExceptT.lift computation) computation := by
  intro state _
  rw [ExceptT.run_lift, Runs.run_map]

omit [LawfulMonad m] in
/-- The continuations need to agree only for what the first computation is expected to come to. -/
theorem bind {guarded : Guarded m α} {computation : StateT SearchMemo m α}
    {guardedNext : α → Guarded m β} {next : α → StateT SearchMemo m β} {expected : α → Prop}
    (first : Agrees rule guarded computation) (recording : Recording rule computation expected)
    (continued : ∀ value, expected value → Agrees rule (guardedNext value) (next value)) :
    Agrees rule (guarded >>= guardedNext) (computation >>= next) := by
  intro state records
  obtain ⟨kept, result⟩ := recording state records
  rw [ExceptT.run_bind, Runs.run_bind, first state records, Runs.run_bind]
  exact continued _ result _ kept

/-- A result may be changed afterwards. -/
theorem map {guarded : Guarded m α} {computation : StateT SearchMemo m α} (change : α → β)
    (agrees : Agrees rule guarded computation) :
    Agrees rule (change <$> guarded) (change <$> computation) := by
  intro state records
  rw [ExceptT.run_map, Runs.run_map, agrees state records, Runs.run_map]
  rfl

/-- What is not wanted is computed on neither side. -/
theorem ifWanted {guarded : Guarded m α} {computation : StateT SearchMemo m α} (wanted : Bool)
    (next : Option α → β) (agrees : Agrees rule guarded computation)
    (recording : Recording rule computation fun _ => True) :
    Agrees rule (Guarded.ifWanted wanted guarded >>= fun value => pure (next value))
      (if wanted then some <$> computation >>= fun value => pure (next value)
        else pure (next none)) := by
  cases wanted with
  | false =>
    rw [Guarded.ifWanted, if_neg Bool.false_ne_true, if_neg Bool.false_ne_true, pure_bind]
    exact of_pure (next none)
  | true =>
    have kept : Recording rule (some <$> computation) fun _ => True := by
      apply Runs.Always.map
      exact recording
    exact (agrees.map some).bind kept fun _ _ => of_pure _

end Agrees

end Agreeing

namespace SearchList

variable {ω : Type} {m : Type → Type} [Monad m] [LawfulMonad m] [Runs m ω] [FileStore m]
variable {rule : HitRule} (list : SearchList)

/-! ### What lookups record -/

/-- The rule that a hit of the list is what the entry that it names may find, and that a hit beside an
    including file is in the directory that it is recorded for. -/
def foundRule : HitRule where
  listed name _ hit := ∃ index entry found, list.entries[index]? = some entry ∧
    PlaceHit.Fits name entry.place found ∧ hit = .ofPlace entry index found
  beside directory _ hit := ∃ characteristic file, hit = .beside directory characteristic file

theorem foundRule_admits : list.foundRule.Admits list where
  listed member fits := ⟨_, _, _, Reading.eligible_placed list _ _ member, fits, rfl⟩
  beside := ⟨_, _, rfl⟩

/-- All that an answer to a name reads for a hit is there. -/
structure Readable (name : String) (hit : Hit) : Prop where
  entry {index : Nat} : hit.origin = .entry index → ∃ entry, list.entries[index]? = some entry
  directory : hit.origin = .includer → ∃ directory, hit.searchDirectory = some directory
  part : ∃ part, Text.suffixFrom? name hit.relativeStart = some part

/-- What the rule allows for the list can be answered from. -/
theorem readable_of_listed {name : String} {kind : IncludeKind} {hit : Hit}
    (listed : list.foundRule.listed name kind hit) : list.Readable name hit := by
  obtain ⟨index, entry, found, here, fits, rfl⟩ := listed
  constructor
  · intro other same
    obtain rfl := Origin.entry.inj same
    exact ⟨entry, here⟩
  · intro same
    cases same
  · exact Option.isSome_iff_exists.mp fits.start.isSome

/-- What the rule allows beside an including file can be answered from, whatever the characteristic of the
    file that includes now. -/
theorem readable_of_beside {name asked : String} {directory : DirHandle} {kept : Hit}
    (beside : list.foundRule.beside directory asked kept) (characteristic : Characteristic) :
    list.Readable name { kept with characteristic } := by
  obtain ⟨first, file, rfl⟩ := beside
  constructor
  · intro index same
    cases same
  · intro _
    exact ⟨directory, rfl⟩
  · exact ⟨name, Text.suffixFrom?_zero name⟩

/-! ### Guarded lookups agree with lookups -/

/-- There is a flag for every entry, at its position. -/
theorem quoteOnlyFlags_at {index : Nat} {entry : SearchEntry}
    (here : list.entries[index]? = some entry) :
    list.quoteOnlyFlags[index]? = some entry.quoteOnly := by
  rw [quoteOnlyFlags, List.getElem?_map, here]
  rfl

omit [LawfulMonad m] [Runs m ω] [FileStore m] in
/-- Only angled includes pass over entries, and only over those for quoted includes. -/
theorem passesOver_eq (kind : IncludeKind) {index : Nat} {entry : SearchEntry}
    (here : list.entries[index]? = some entry) :
    (list.passesOver kind index : Guarded m Bool) = pure (kind = .angled && entry.quoteOnly) := by
  cases kind with
  | quoted => rfl
  | angled =>
    rw [passesOver, list.quoteOnlyFlags_at here]
    rfl

/-- A guarded scan from a position on finds what a scan of the entries that are not passed over finds.
    Induct on the entries. -/
theorem guardedScan_agrees (name : String) (kind : IncludeKind) {items : List (SearchEntry × Nat)}
    (placed : ∀ item ∈ items, list.entries[item.2]? = some item.1) :
    Agrees (m := m) rule (list.guardedScan name kind items)
      (list.scan name (items.filter fun item => kind = .quoted || !item.1.quoteOnly)) := by
  induction items with
  | nil => exact .of_pure none
  | cons item items inductionHypothesis =>
    obtain ⟨entry, index⟩ := item
    have rest := inductionHypothesis fun other member => placed other (List.mem_cons_of_mem _ member)
    rw [guardedScan, list.passesOver_eq kind (placed _ List.mem_cons_self), pure_bind]
    have looks : (decide (kind = .quoted) || !entry.quoteOnly) =
        !(decide (kind = .angled) && entry.quoteOnly) := by
      cases kind <;> simp
    cases passed : (decide (kind = .angled) && entry.quoteOnly) with
    | true =>
      rw [List.filter_cons_of_neg (by simp [looks, passed])]
      exact rest
    | false =>
      rw [List.filter_cons_of_pos (by simp [looks, passed])]
      refine (Agrees.of_lift _).bind (.of_count _) fun _ _ => ?_
      refine (Agrees.of_lift _).bind (list.probeAt_records entry index name) fun found _ => ?_
      cases found with
      | none => exact rest
      | some found => exact .of_pure _

/-- The list is looked into alike, whether the outcome is remembered or not. -/
theorem guardedLookInList_agrees (admits : rule.Admits list) (name : String) (kind : IncludeKind) :
    Agrees (m := m) rule (list.guardedLookInList name kind) (list.lookInList name kind) := by
  refine (Agrees.of_lift get).bind (Recording.of_get (m := m)) fun memo _ => ?_
  cases memo.cache.get? name kind with
  | some outcome => exact .of_pure _
  | none =>
    have placed : ∀ item ∈ list.entries.zipIdx.drop (list.startOf kind),
        list.entries[item.2]? = some item.1 := by
      intro item member
      exact List.mem_zipIdx_iff_getElem?.mp (List.mem_of_mem_drop member)
    refine (list.guardedScan_agrees name kind placed).bind (list.scan_listed admits name kind)
      fun outcome new => ?_
    refine (Agrees.of_lift _).bind (.of_modify fun _ records => records.insert new) fun _ _ => ?_
    exact .of_pure _

variable {list}

/-- The search path of a hit is the same if it can be answered from. -/
theorem guardedSearchPathOf_agrees {name : String} {hit : Hit} (readable : list.Readable name hit) :
    Agrees (m := m) rule (list.guardedSearchPathOf hit) (list.searchPathOf hit) := by
  unfold guardedSearchPathOf searchPathOf
  cases origin : hit.origin with
  | entry index =>
    obtain ⟨entry, here⟩ := readable.entry origin
    simp only [here, Guarded.demand, pure_bind]
    exact .of_lift _
  | includer =>
    obtain ⟨directory, there⟩ := readable.directory origin
    simp only [there, Guarded.demand, pure_bind]
    refine (Agrees.of_lift _).bind (.of_lift _) fun path _ => ?_
    exact .of_pure _

omit [Runs m ω] [FileStore m] in
/-- A part that is there is read if it is wanted. -/
theorem ifWanted_part {name part : String} {offset : Nat} (wanted : Bool)
    (there : Text.suffixFrom? name offset = some part) :
    (Guarded.ifWanted wanted (guardedPart name offset) : Guarded m (Option String)) =
      pure (if wanted then Text.suffixFrom? name offset else none) := by
  cases wanted with
  | false => rfl
  | true =>
    rw [Guarded.ifWanted, guardedPart, there, Guarded.demand, if_pos rfl, if_pos rfl, map_pure]

/-- The answer that a hit stands for is the same if it can be answered from. -/
theorem guardedAnswer_agrees {name : String} {hit : Hit} (want : PathRequest)
    (readable : list.Readable name hit) :
    Agrees (m := m) rule (list.guardedAnswer name want hit) (list.answer name want hit) := by
  obtain ⟨part, there⟩ := readable.part
  unfold guardedAnswer answer
  simp only [ifWanted_part want.relativePath there, pure_bind]
  exact .ifWanted want.searchPath _ (guardedSearchPathOf_agrees readable)
    (list.searchPathOf_records hit)

variable (list) in
/-- A lookup is answered alike, remembered or not. -/
theorem guardedResolve_agrees (name : String) (kind : IncludeKind) (includer : Option Includer)
    (want : PathRequest) :
    Agrees (m := m) list.foundRule (list.guardedResolve name kind includer want)
      (list.resolve name kind includer want) := by
  have admits := list.foundRule_admits
  refine (Agrees.of_lift _).bind (.of_count _) fun _ _ => ?_
  refine (Agrees.of_lift _).bind (list.lookBesideFor_records admits name kind includer)
    fun outcome allowed => ?_
  obtain ⟨beside, remembered⟩ := outcome
  cases beside with
  | some hit =>
    refine (Agrees.of_lift _).bind (.of_count _) fun _ _ => ?_
    refine (Agrees.of_lift _).bind (.of_countRemembered remembered) fun _ _ => ?_
    obtain ⟨-, directory, kept, characteristic, here, rfl⟩ := allowed hit rfl
    exact (guardedAnswer_agrees want (list.readable_of_beside here characteristic)).map some
  | none =>
    refine (list.guardedLookInList_agrees admits name kind).bind
      (list.lookInList_records admits name kind) fun outcome listed => ?_
    obtain ⟨found, remembered⟩ := outcome
    refine (Agrees.of_lift _).bind (.of_countRemembered remembered) fun _ _ => ?_
    cases found with
    | some hit =>
      exact (guardedAnswer_agrees want (list.readable_of_listed (listed hit rfl))).map some
    | none =>
      refine (Agrees.of_lift _).bind (.of_count _) fun _ _ => ?_
      exact .of_pure none

variable (list) in
/-- A lookup in one entry is answered alike. -/
theorem guardedLookupIn_agrees (index : Nat) (name : String) (want : PathRequest) :
    Agrees (m := m) rule (list.guardedLookupIn index name want)
      (list.lookupIn index name want) := by
  unfold guardedLookupIn lookupIn
  cases list.entries[index]? with
  | none => exact .of_pure none
  | some entry =>
    refine (Agrees.of_lift _).bind (list.probeAt_records entry index name) fun found fits => ?_
    cases found with
    | none => exact .of_pure none
    | some found =>
      obtain ⟨part, there⟩ := Option.isSome_iff_exists.mp (fits found rfl).start.isSome
      simp only [ifWanted_part want.relativePath there, pure_bind]
      exact .ifWanted want.searchPath _ (.of_lift _)
        (searchPath_records (m := m) entry.place _)

/-! ### Lookups stay in range -/

/-- What lookups in a list read is there, for every list and for names of any characters. There are as
    many flags as entries, since each entry carries its own. After any calls, over any stores, a hit of
    the list is recorded with the position of an entry. The part of the name that the hit tells starts
    with the name or just past its first `/`, which is the border of a character, and in the second
    case something follows. The hit has a search directory exactly if the entry is no header map. A hit
    beside an including file is recorded with its directory and tells the whole name. So the next
    lookup, over any store, does just what the guarded one does: it comes to no entry, flag, offset or
    directory that is missing. -/
theorem lookups_stay_in_range {memo : SearchMemo} (remembers : list.Remembers memo) :
    (list.quoteOnlyFlags.length = list.entries.length ∧
      ∀ index, index < list.size → list.quoteOnlyFlags[index]? = some (list.isQuoteOnly index)) ∧
    (∀ name kind hit, memo.cache.get? name kind = some (some hit) →
      ∃ index entry, hit.origin = .entry index ∧ list.entries[index]? = some entry ∧
        (hit.relativeStart = 0 ∨ Text.PastFirstSlash name hit.relativeStart) ∧
        String.Pos.Raw.IsValid name ⟨hit.relativeStart⟩ ∧
        (hit.searchDirectory.isSome ↔ ¬entry.place.isHeaderMap)) ∧
    (∀ directory name hit, memo.cache.getBeside? directory name = some (some hit) →
      hit.origin = .includer ∧ hit.searchDirectory = some directory ∧ hit.relativeStart = 0) ∧
    ∀ (n : Type → Type) (σ : Type) [Monad n] [LawfulMonad n] [Runs n σ] [FileStore n] (rest : σ),
      (∀ name kind includer want,
        let ended := Runs.run (list.resolve name kind includer want : StateT SearchMemo n _)
          (memo, rest)
        Runs.run (list.guardedResolve (m := n) name kind includer want).run (memo, rest) =
          (.ok ended.1, ended.2)) ∧
      (∀ index name want,
        let ended := Runs.run (list.lookupIn index name want : StateT SearchMemo n _) (memo, rest)
        Runs.run (list.guardedLookupIn (m := n) index name want).run (memo, rest) =
          (.ok ended.1, ended.2)) := by
  have records : memo.Records list.foundRule := remembers.records list.foundRule_admits
  refine ⟨⟨?_, ?_⟩, ?_, ?_, ?_⟩
  · exact List.length_map _
  · intro index inside
    obtain ⟨entry, here⟩ : ∃ entry, list.entries[index]? = some entry :=
      ⟨_, List.getElem?_eq_getElem inside⟩
    rw [list.quoteOnlyFlags_at here, list.isQuoteOnly_at here]
  · intro name kind hit remembered
    obtain ⟨index, entry, found, here, fits, rfl⟩ := records.listed remembered
    refine ⟨index, entry, rfl, here, fits.start, ?_, ?_⟩
    · exact Text.isSome_suffixFrom?_iff.mp fits.start.isSome
    · change found.searchDirectory.isSome ↔ _
      rw [fits.directory, Bool.not_eq_true', Bool.not_eq_true]
  · intro directory name hit remembered
    obtain ⟨characteristic, file, rfl⟩ := records.beside remembered
    exact ⟨rfl, rfl, rfl⟩
  · intro n σ _ _ _ _ rest
    constructor
    · intro name kind includer want
      exact list.guardedResolve_agrees name kind includer want (memo, rest) records
    · intro index name want
      exact list.guardedLookupIn_agrees index name want (memo, rest) records

/-- A view with the header of a framework whose name takes two bytes. -/
def wideFramework : FileView :=
  .listing ["/fw", "/fw/é.framework", "/fw/é.framework/Headers"] ["/fw/é.framework/Headers/b.h"]

/-- A configuration with the directory of that framework. -/
def aroundWideFramework : Config where
  entries := [{ location := .framework ⟨"/fw"⟩ }]

/-- The header of the framework is looked up without any text, and then again with both. The remembered
    offset counts the two bytes of the framework and the one of the `/`. -/
theorem wide_framework_is_cut_past_slash :
    ∃ list log memo asked hit,
      Runs.run (aroundWideFramework.build .empty : Observed wideFramework _) [] = (.ok list, log) ∧
      Runs.run (list.perform (.resolve "é/b.h" .angled none .none) :
        StateT SearchMemo (Observed wideFramework) Unit) (.fresh, log) = ((), memo, asked) ∧
      memo.cache.get? "é/b.h" .angled = some (some hit) ∧
      hit.relativeStart = 3 ∧ String.Pos.Raw.IsValid "é/b.h" ⟨3⟩ ∧
      Text.PastFirstSlash "é/b.h" hit.relativeStart ∧ hit.searchDirectory.isSome ∧
      (Runs.run (list.guardedResolve (m := Observed wideFramework) "é/b.h" .angled none .all).run
        (memo, asked)).1 = .ok (some ⟨⟨0⟩, some "/fw/é.framework/Headers", some "b.h", false, .user,
          .entry 0⟩) := by
  obtain ⟨list, log, memo, asked, hit, built, called, remembered, start, directory, answered⟩ :
      ∃ list log memo asked hit,
        Runs.run (aroundWideFramework.build .empty : Observed wideFramework _) [] = (.ok list, log) ∧
        Runs.run (list.perform (.resolve "é/b.h" .angled none .none) :
          StateT SearchMemo (Observed wideFramework) Unit) (.fresh, log) = ((), memo, asked) ∧
        memo.cache.get? "é/b.h" .angled = some (some hit) ∧
        hit.relativeStart = 3 ∧ hit.searchDirectory.isSome ∧
        (Runs.run (list.resolve "é/b.h" .angled none .all :
          StateT SearchMemo (Observed wideFramework) _) (memo, asked)).1 =
          some ⟨⟨0⟩, some "/fw/é.framework/Headers", some "b.h", false, .user, .entry 0⟩ :=
    ⟨⟨_, _, _⟩, _, ⟨_, _, _⟩, _, ⟨_, _, _, _, _, _⟩, rfl, rfl, rfl, rfl, rfl, rfl⟩
  have remembers : list.Remembers memo := by
    have reached : list.Remembers (Runs.run (list.perform (.resolve "é/b.h" .angled none .none) :
        StateT SearchMemo (Observed wideFramework) Unit) (.fresh, log)).2.1 := .call .fresh _ log
    rwa [called] at reached
  obtain ⟨-, listed, -, guarded⟩ := lookups_stay_in_range remembers
  obtain ⟨_, _, -, -, starts, border, -⟩ := listed "é/b.h" .angled hit remembered
  have past : Text.PastFirstSlash "é/b.h" hit.relativeStart :=
    starts.resolve_left (by rw [start]; decide)
  have again := (guarded (Observed wideFramework) (List Query) asked).1 "é/b.h" .angled none .all
  refine ⟨list, log, memo, asked, hit, built, called, remembered, start, ?_, past, directory, ?_⟩
  · rwa [start] at border
  · rw [again, ← answered]

end SearchList

end HeaderSearch
