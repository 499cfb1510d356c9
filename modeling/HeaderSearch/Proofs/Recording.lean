import HeaderSearch.Proofs.Caching
import HeaderSearch.Proofs.Offsets

/-!
# What a memo records

A memo records hits of the list, by name and kind, and hits beside including files, by directory and name.
A rule says which hits may be recorded. If it admits what a list can find at all, every call keeps the memo
to the rule and is answered by hits that the rule allows, remembered or found now. What a list can find at
all is what its entries can find by their sorts. No view is needed for
this: the file store may answer anything, even contradict itself.
-/

namespace HeaderSearch

/-- Which hits may be recorded. -/
structure HitRule where
  /-- Whether a hit of the list may be recorded under a name and a kind. -/
  listed : String → IncludeKind → Hit → Prop
  /-- Whether a hit beside an including file may be recorded under its directory and a name. -/
  beside : DirHandle → String → Hit → Prop

/-- A rule admits a list if it allows whatever the entries that a kind of include looks into may find, and
    whatever file lies beside an including file. -/
structure HitRule.Admits (rule : HitRule) (list : SearchList) : Prop where
  listed {name : String} {kind : IncludeKind} {item : SearchEntry × Nat} {found : PlaceHit} :
    item ∈ list.eligible kind → found.Fits name item.1.place →
      rule.listed name kind (.ofPlace item.1 item.2 found)
  beside {directory : DirHandle} {name : String} {characteristic : Characteristic}
    {file : FileHandle} : rule.beside directory name (.beside directory characteristic file)

/-- A rule allows an answer to a name and a kind to come from somewhere if it allows a hit from there. Only
    a quoted include may be answered by what lies beside an including file. -/
def HitRule.Allows (rule : HitRule) (name : String) (kind : IncludeKind) (origin : Origin) : Prop :=
  ∃ hit, hit.origin = origin ∧
    (rule.listed name kind hit ∨ kind = .quoted ∧ ∃ directory, rule.beside directory name hit)

/-- All recorded hits are allowed by a rule. -/
structure SearchMemo.Records (rule : HitRule) (memo : SearchMemo) : Prop where
  listed {name : String} {kind : IncludeKind} {hit : Hit} :
    memo.cache.get? name kind = some (some hit) → rule.listed name kind hit
  beside {directory : DirHandle} {name : String} {hit : Hit} :
    memo.cache.getBeside? directory name = some (some hit) → rule.beside directory name hit

namespace SearchMemo.Records

variable {rule : HitRule} {memo : SearchMemo}

/-- Nothing is recorded before the first lookup. -/
theorem fresh (rule : HitRule) : SearchMemo.fresh.Records rule where
  listed remembered := by simp [SearchMemo.fresh] at remembered
  beside remembered := by simp [SearchMemo.fresh] at remembered

/-- An outcome of the list may be recorded if the rule allows it. -/
theorem insert (records : memo.Records rule) {name : String} {kind : IncludeKind}
    {outcome : Option Hit} (new : ∀ hit ∈ outcome, rule.listed name kind hit) :
    Records rule { memo with cache := memo.cache.insert name kind outcome } where
  listed remembered := by
    rw [LookupCache.get?_insert] at remembered
    split at remembered
    · next same =>
      obtain ⟨rfl, rfl⟩ := same
      exact new _ (Option.some.inj remembered)
    · exact records.listed remembered
  beside remembered := records.beside remembered

/-- An outcome beside an including file may be recorded if the rule allows it. -/
theorem insertBeside (records : memo.Records rule) {directory : DirHandle} {name : String}
    {outcome : Option Hit} (new : ∀ hit ∈ outcome, rule.beside directory name hit) :
    Records rule { memo with cache := memo.cache.insertBeside directory name outcome } where
  listed remembered := records.listed remembered
  beside remembered := by
    rw [LookupCache.getBeside?_insertBeside] at remembered
    split at remembered
    · next same =>
      obtain ⟨rfl, rfl⟩ := same
      exact new _ (Option.some.inj remembered)
    · exact records.beside remembered

end SearchMemo.Records

section Carrying

variable {α ω : Type} {m : Type → Type} [Monad m] [Runs m ω] {rule : HitRule}

/-- A computation that carries a memo keeps it to a rule and has an expected result. -/
def Recording (rule : HitRule) (computation : StateT SearchMemo m α) (expected : α → Prop) : Prop :=
  Runs.Always (fun state : SearchMemo × ω => state.1.Records rule) computation expected

namespace Recording

/-- What does not touch the memo keeps it to every rule. -/
theorem of_lift (computation : m α) :
    Recording rule (StateT.lift computation : StateT SearchMemo m α) fun _ => True := by
  intro state records
  rw [Runs.run_lift]
  exact ⟨records, trivial⟩

/-- The memo that is read keeps to the rule. -/
theorem of_get : Recording rule (get : StateT SearchMemo m SearchMemo) (·.Records rule) := by
  intro state records
  rw [Runs.run_get]
  exact ⟨records, records⟩

/-- A change that keeps the memo to the rule. -/
theorem of_modify {change : SearchMemo → SearchMemo}
    (keeps : ∀ memo : SearchMemo, memo.Records rule → (change memo).Records rule) :
    Recording rule (modify change : StateT SearchMemo m Unit) fun _ => True := by
  intro state records
  rw [Runs.run_modify]
  exact ⟨keeps _ records, trivial⟩

/-- Counting touches no recorded outcome. -/
theorem of_count (change : SearchStats → SearchStats) :
    Recording rule (modify fun memo => memo.count change : StateT SearchMemo m Unit)
      fun _ => True :=
  of_modify fun _ records => ⟨records.listed, records.beside⟩

/-- Counting a remembered answer touches no recorded outcome. -/
theorem of_countRemembered (remembered : Bool) :
    Recording rule
      (modify (SearchList.countRemembered remembered) : StateT SearchMemo m Unit) fun _ => True := by
  apply of_modify
  intro memo records
  cases remembered with
  | false => exact records
  | true => exact ⟨records.listed, records.beside⟩

end Recording

end Carrying

open Recording

variable {ω : Type} {m : Type → Type} [Monad m] [Runs m ω] [FileStore m] {rule : HitRule}

namespace SearchMemo

/-- Finding a bundle asks the store only. -/
theorem findBundle_records (directory : DirHandle) (framework : String) :
    Recording rule
      (Framework.findBundle directory framework : StateT SearchMemo m Bundle) fun _ => True := by
  refine (of_lift (FileStore.directoryPath directory)).bind fun above _ => ?_
  refine (of_lift (FileStore.directory? _)).bind fun root _ => ?_
  cases root with
  | none => exact .of_pure trivial
  | some root =>
    refine (of_lift (FileStore.directory? _)).bind fun headers _ => ?_
    refine (of_lift (FileStore.directory? _)).bind fun hidden _ => ?_
    exact .of_pure trivial

/-- Remembering a bundle touches no recorded outcome. -/
theorem bundleAt_records (index : Nat) (directory : DirHandle) (framework : String) :
    Recording rule
      (bundleAt index directory framework : StateT SearchMemo m Bundle) fun _ => True := by
  refine (of_get (m := m)).bind fun memo _ => ?_
  split
  · exact .of_pure trivial
  · refine (findBundle_records directory framework).bind fun bundle _ => ?_
    have remembering : Recording rule
        (modify fun memo => { memo with bundles := memo.bundles.insert (index, framework) bundle } :
          StateT SearchMemo m Unit) fun _ => True :=
      of_modify fun _ records => ⟨records.listed, records.beside⟩
    exact remembering.bind fun _ _ => .of_pure trivial

end SearchMemo

namespace SearchList

/-- Looking through the directories of a bundle asks the store only. Induct on the directories. -/
theorem firstHolding_records (name : String) (directories : List DirHandle) :
    Recording rule
      (Framework.firstHolding name directories :
        StateT SearchMemo m (Option (DirHandle × FileHandle))) fun _ => True := by
  induction directories with
  | nil => exact .of_pure trivial
  | cons directory directories inductionHypothesis =>
    refine (of_lift (FileStore.file? directory name)).bind fun file _ => ?_
    cases file with
    | none => exact inductionHypothesis
    | some file => exact .of_pure trivial

/-- Following a header map asks the store only. -/
theorem fileFor_records (map : HeaderMap) (name : String) :
    Recording rule (map.fileFor name : StateT SearchMemo m (Option FileHandle))
      fun _ => True := by
  unfold HeaderMap.fileFor
  split
  · exact .of_pure trivial
  · refine (of_lift (FileStore.directory? _)).bind fun directory _ => ?_
    cases directory with
    | none => exact .of_pure trivial
    | some directory => exact of_lift (FileStore.file? directory _)

/-- Looking into a header map asks the store only. What it finds has no search directory, and starts
    where the rest of the name does if it was found by the rest. -/
theorem headerMap_records (map : HeaderMap) (frameworks : List String) (isIndex : Bool)
    (name : String) :
    Recording rule
      (map.probe frameworks isIndex name : StateT SearchMemo m (Option PlaceHit))
      fun found => ∀ hit ∈ found, hit.Fits name (.headerMap map isIndex) := by
  refine (fileFor_records map name).bind fun whole _ => ?_
  cases whole with
  | some file =>
    refine .of_pure fun hit there => ?_
    obtain rfl := Option.some.inj there
    exact ⟨.inl rfl, rfl⟩
  | none =>
    dsimp only
    split
    · next split =>
      refine (fileFor_records map _).bind fun rest _ => ?_
      refine .of_pure fun hit there => ?_
      obtain ⟨file, -, rfl⟩ := Option.map_eq_some_iff.mp there
      exact ⟨.inr (Framework.past_first_slash split), rfl⟩
    · exact .of_pure fun _ none => absurd none (Option.not_mem_none _)

/-- The search path of a place is found by asking the store only. -/
theorem searchPath_records (place : SearchPlace) (searchDirectory : Option DirHandle) :
    Recording rule (place.searchPath searchDirectory : StateT SearchMemo m String)
      fun _ => True := by
  unfold SearchPlace.searchPath
  split
  · refine (of_lift (FileStore.directoryPath _)).bind fun path _ => ?_
    exact .of_pure trivial
  · exact .of_pure trivial

variable (list : SearchList)

/-- Looking into an entry remembers bundles at most, and finds what the sort of its place may find. -/
theorem probeAt_records (entry : SearchEntry) (index : Nat) (name : String) :
    Recording rule
      (list.probeAt entry index name : StateT SearchMemo m (Option PlaceHit))
      fun found => ∀ hit ∈ found, hit.Fits name entry.place := by
  unfold probeAt SearchPlace.probe
  cases entry.place with
  | directory handle configured =>
    refine (of_lift (FileStore.file? handle name)).bind fun found _ => ?_
    refine .of_pure fun hit there => ?_
    obtain ⟨file, -, rfl⟩ := Option.map_eq_some_iff.mp there
    exact ⟨.inl rfl, rfl⟩
  | framework handle configured =>
    dsimp only
    split
    · exact .of_pure fun _ none => absurd none (Option.not_mem_none _)
    · next owner rest split =>
      refine (SearchMemo.bundleAt_records index handle owner).bind fun bundle _ => ?_
      refine (firstHolding_records rest _).bind fun found _ => ?_
      refine .of_pure fun hit there => ?_
      obtain ⟨pair, -, rfl⟩ := Option.map_eq_some_iff.mp there
      exact ⟨.inr (Framework.past_first_slash split), rfl⟩
  | headerMap map isIndex => exact headerMap_records map _ isIndex name

/-- A scan of entries finds what one of them may find. Induct on the entries. -/
theorem scan_records (name : String) (items : List (SearchEntry × Nat)) :
    Recording rule (list.scan name items : StateT SearchMemo m (Option Hit))
      fun found => ∀ hit ∈ found, ∃ item ∈ items, ∃ place : PlaceHit,
        place.Fits name item.1.place ∧ hit = .ofPlace item.1 item.2 place := by
  induction items with
  | nil => exact .of_pure fun _ none => absurd none (Option.not_mem_none _)
  | cons item items inductionHypothesis =>
    refine (of_count _).bind fun _ _ => ?_
    refine (list.probeAt_records item.1 item.2 name).bind fun found fits => ?_
    cases found with
    | none =>
      apply inductionHypothesis.weaken
      intro found each hit there
      obtain ⟨other, member, place⟩ := each hit there
      exact ⟨other, List.mem_cons_of_mem item member, place⟩
    | some found =>
      refine .of_pure fun hit there => ?_
      obtain rfl := Option.some.inj there
      exact ⟨item, List.mem_cons_self, found, fits found rfl, rfl⟩

/-- What a scan for a kind of include finds is allowed. -/
theorem scan_listed (admits : rule.Admits list) (name : String) (kind : IncludeKind) :
    Recording rule (list.scan name (list.eligible kind) : StateT SearchMemo m (Option Hit))
      fun outcome => ∀ hit ∈ outcome, rule.listed name kind hit := by
  apply (list.scan_records name (list.eligible kind)).weaken
  intro outcome found hit there
  obtain ⟨item, member, place, fits, rfl⟩ := found hit there
  exact admits.listed member fits

/-- What the list answers is allowed, whether it was remembered or is found now. -/
theorem lookInList_records (admits : rule.Admits list) (name : String) (kind : IncludeKind) :
    Recording rule (list.lookInList name kind : StateT SearchMemo m (Option Hit × Bool))
      fun outcome => ∀ hit ∈ outcome.1, rule.listed name kind hit := by
  refine of_get.bind fun memo records => ?_
  split
  · next outcome remembered =>
    refine .of_pure fun hit there => ?_
    exact records.listed (remembered.trans (congrArg some there))
  · refine (list.scan_listed admits name kind).bind fun outcome new => ?_
    refine (of_modify fun _ records => records.insert new).bind fun _ _ => ?_
    exact .of_pure new

/-- What lies beside an including file is allowed, but for the characteristic, which is always that of the
    file that includes now. -/
theorem lookBeside_records (admits : rule.Admits list) (name : String) (includer : Includer) :
    Recording rule (lookBeside name includer : StateT SearchMemo m (Option Hit × Bool))
      fun outcome => ∀ hit ∈ outcome.1, ∃ kept, rule.beside includer.directory name kept ∧
        hit = { kept with characteristic := includer.characteristic } := by
  refine of_get.bind fun memo records => ?_
  split
  · next outcome remembered =>
    refine .of_pure fun hit there => ?_
    obtain ⟨kept, here, rfl⟩ := Option.map_eq_some_iff.mp there
    exact ⟨kept, records.beside (remembered.trans (congrArg some here)), rfl⟩
  · refine (of_lift (FileStore.file? _ name)).bind fun file _ => ?_
    have new (hit : Hit) (there : hit ∈ file.map (Hit.beside includer.directory
        includer.characteristic)) : rule.beside includer.directory name hit := by
      obtain ⟨found, -, rfl⟩ := Option.map_eq_some_iff.mp there
      exact admits.beside
    refine (of_modify fun _ records => records.insertBeside new).bind fun _ _ => ?_
    refine .of_pure fun hit there => ?_
    obtain ⟨kept, here, rfl⟩ := Option.map_eq_some_iff.mp there
    exact ⟨kept, new kept here, rfl⟩

/-- Only a quoted include with an including file looks beside that file. -/
theorem lookBesideFor_records (admits : rule.Admits list) (name : String) (kind : IncludeKind)
    (includer : Option Includer) :
    Recording rule
      (lookBesideFor name kind includer : StateT SearchMemo m (Option Hit × Bool))
      fun outcome => ∀ hit ∈ outcome.1, kind = .quoted ∧ ∃ directory kept characteristic,
        rule.beside directory name kept ∧ hit = { kept with characteristic } := by
  unfold lookBesideFor
  split
  · next includer =>
    apply (list.lookBeside_records admits name includer).weaken
    intro outcome each hit there
    obtain ⟨kept, allowed, same⟩ := each hit there
    exact ⟨rfl, includer.directory, kept, includer.characteristic, allowed, same⟩
  · exact .of_pure fun _ none => absurd none (Option.not_mem_none _)

/-- The search path of a hit is found by asking the store only. -/
theorem searchPathOf_records (hit : Hit) :
    Recording rule (list.searchPathOf hit : StateT SearchMemo m String) fun _ => True := by
  unfold searchPathOf
  split
  · split
    · exact searchPath_records _ _
    · exact .of_pure trivial
  · refine (of_lift (FileStore.directoryPath _)).bind fun path _ => ?_
    exact .of_pure trivial
  · exact .of_pure trivial

variable [LawfulMonad m]

/-- An answer comes from where the hit that it is made of comes from. -/
theorem answer_records (name : String) (want : PathRequest) (hit : Hit) :
    Recording rule (list.answer name want hit : StateT SearchMemo m FoundHeader)
      fun header => header.origin = hit.origin := by
  unfold answer
  cases want.searchPath with
  | false =>
    simp only [Bool.false_eq_true, if_false, pure_bind]
    exact .of_pure rfl
  | true =>
    simp only [if_true, bind_map_left]
    refine (list.searchPathOf_records hit).bind fun path _ => ?_
    exact .of_pure rfl

/-- A lookup is answered by a hit that the rule allows. -/
theorem resolve_records (admits : rule.Admits list) (name : String) (kind : IncludeKind)
    (includer : Option Includer) (want : PathRequest) :
    Recording rule
      (list.resolve name kind includer want : StateT SearchMemo m (Option FoundHeader))
      fun answer => ∀ header ∈ answer, rule.Allows name kind header.origin := by
  have answered (hit : Hit) (allowed : rule.Allows name kind hit.origin) :
      Recording rule
        (some <$> list.answer name want hit : StateT SearchMemo m (Option FoundHeader))
        fun answer => ∀ header ∈ answer, rule.Allows name kind header.origin := by
    refine Runs.Always.map ((list.answer_records name want hit).weaken fun header same => ?_)
    intro other there
    obtain rfl := Option.some.inj there
    rw [same]
    exact allowed
  refine (of_count _).bind fun _ _ => ?_
  refine (list.lookBesideFor_records admits name kind includer).bind fun outcome allowed => ?_
  obtain ⟨beside, remembered⟩ := outcome
  cases beside with
  | some hit =>
    refine (of_count _).bind fun _ _ => ?_
    refine (of_countRemembered remembered).bind fun _ _ => ?_
    obtain ⟨quoted, directory, kept, characteristic, here, rfl⟩ := allowed hit rfl
    exact answered _ ⟨kept, rfl, .inr ⟨quoted, directory, here⟩⟩
  | none =>
    refine (list.lookInList_records admits name kind).bind fun outcome listed => ?_
    obtain ⟨found, remembered⟩ := outcome
    refine (of_countRemembered remembered).bind fun _ _ => ?_
    cases found with
    | some hit => exact answered hit ⟨hit, rfl, .inl (listed hit rfl)⟩
    | none =>
      refine (of_count _).bind fun _ _ => ?_
      exact .of_pure fun _ none => absurd none (Option.not_mem_none _)

/-- A call records only hits that the rule allows. -/
theorem perform_records (admits : rule.Admits list) (call : SearchCall) :
    Recording rule (list.perform call : StateT SearchMemo m Unit) fun _ => True := by
  cases call with
  | resolve name kind includer want =>
    refine (list.resolve_records admits name kind includer want).bind fun _ _ => ?_
    exact .of_pure trivial
  | lookup index name want =>
    suffices looked : Recording rule
        (list.lookupIn index name want : StateT SearchMemo m (Option EntryMatch))
        fun _ => True from looked.bind fun _ _ => .of_pure trivial
    unfold lookupIn
    split
    · refine (list.probeAt_records _ index name).bind fun found _ => ?_
      cases found with
      | none => exact .of_pure trivial
      | some found =>
        cases want.searchPath with
        | false =>
          simp only [Bool.false_eq_true, if_false, pure_bind]
          exact .of_pure trivial
        | true =>
          simp only [if_true, bind_map_left]
          refine (searchPath_records _ _).bind fun path _ => ?_
          exact .of_pure trivial
    · exact .of_pure trivial

end SearchList

/-- A memo that calls on a list leave behind. Whatever else happens to a store between two calls is left
    open: each call may find another store in any state. -/
inductive SearchList.Remembers (list : SearchList) : SearchMemo → Prop where
  | fresh : Remembers list .fresh
  | call {m : Type → Type} {ω : Type} [Monad m] [LawfulMonad m] [Runs m ω] [FileStore m]
      {memo : SearchMemo} (remembers : Remembers list memo) (call : SearchCall) (state : ω) :
      Remembers list
        (Runs.run (list.perform call : StateT SearchMemo m Unit) (memo, state)).2.1

/-- What calls on a list leave behind keeps to every rule that admits the list. -/
theorem SearchList.Remembers.records {list : SearchList} {memo : SearchMemo}
    (admits : rule.Admits list) (remembers : list.Remembers memo) : memo.Records rule := by
  induction remembers with
  | fresh => exact .fresh rule
  | @call m ω _ _ _ _ memo _ call state inductionHypothesis =>
    exact (list.perform_records (m := m) admits call (memo, state) inductionHypothesis).1

end HeaderSearch
