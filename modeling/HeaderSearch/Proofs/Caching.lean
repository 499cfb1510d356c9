import HeaderSearch.Proofs.Lookups

/-!
# Calls on a search list leave no trace

A list is called in two ways: a lookup over the whole list, and a lookup in one of its entries alone.
Both share one memo. Over a view the memo recalls the list after any calls, so that the next call
answers as the first call on the new list would, and as the search without memory does.
-/

namespace HeaderSearch

/-- A call on a search list. -/
inductive SearchCall where
  /-- A lookup of a name of a kind, included by a file if one is given. -/
  | resolve (name : String) (kind : IncludeKind) (includer : Option Includer) (want : PathRequest)
  /-- A lookup of a name in the entry at a position alone. -/
  | lookup (index : Nat) (name : String) (want : PathRequest)
deriving DecidableEq, Repr

namespace SearchList

section Calling

variable {m : Type → Type} [Monad m] [FileStore m] (list : SearchList)

/-- Looks up a name in the entry at a position alone, if there is such an entry. -/
def lookupIn (index : Nat) (name : String) (want : PathRequest) :
    StateT SearchMemo m (Option EntryMatch) :=
  match list.entries[index]? with
  | some entry => list.lookupAt entry index name want
  | none => return none

/-- Makes a call and drops its answer. -/
def perform : SearchCall → StateT SearchMemo m Unit
  | .resolve name kind includer want => do
    let _ ← list.resolve name kind includer want
    return ()
  | .lookup index name want => do
    let _ ← list.lookupIn index name want
    return ()

/-- Makes calls in their order. -/
def performAll : List SearchCall → StateT SearchMemo m Unit
  | [] => return ()
  | call :: calls => do
    list.perform call
    performAll calls

end Calling

variable (view : FileView) (list : SearchList)

/-- The answer of the list to a lookup that follows some calls on the new list. -/
def answerAfter (calls : List SearchCall) (name : String) (kind : IncludeKind)
    (includer : Option Includer) (want : PathRequest) : Option FoundHeader :=
  let computation : StateT SearchMemo (Observed view) (Option FoundHeader) := do
    list.performAll calls
    list.resolve name kind includer want
  (computation.run .fresh).value.1

/-- The answer of an entry alone to a lookup that follows some calls on the new list. -/
def matchAfter (calls : List SearchCall) (index : Nat) (name : String) (want : PathRequest) :
    Option EntryMatch :=
  let computation : StateT SearchMemo (Observed view) (Option EntryMatch) := do
    list.performAll calls
    list.lookupIn index name want
  (computation.run .fresh).value.1

end SearchList

/-- A lookup in one entry finds what the view has in the entry that it stands for. -/
theorem Reading.lookup_in_yields {ω : Type} {reading : Reading ω} {m : Type → Type} [Monad m]
    [LawfulMonad m] [Runs m ω] [FileStore m] {view : FileView} {list meant : SearchList}
    {state : SearchMemo × ω} (faithful : reading.Faithful m view) (index : Nat) (name : String)
    (want : PathRequest) (sound : (reading.carrying view meant).sound state)
    (same : (reading.naming state.2).ListAs list meant) :
    (reading.carrying view meant).Yields
      (list.lookupIn index name want : StateT SearchMemo m (Option EntryMatch)) state
      fun after found => Option.Rel (reading.naming after.2).MatchAs found
        (meant.entries[index]?.bind fun entry =>
          view.matchIn meant.systemFrameworks entry name want) := by
  unfold SearchList.lookupIn
  rcases related_cases (same.entry_at index) with ⟨absent, nowhere⟩ | ⟨entry, _, here, there, as⟩
  · rw [absent, nowhere]
    exact .of_pure sound .none
  · rw [here, there]
    exact lookup_at_yields faithful name want sound same.systemFrameworks as there

namespace Naming

/-- The naming under which every handle stands for itself. -/
def itself : Naming := ⟨some, some⟩

/-- An entry corresponds to itself when every handle stands for itself. -/
theorem entry_as_itself (entry : SearchEntry) : itself.EntryAs entry entry := by
  refine ⟨?_, rfl, rfl⟩
  cases entry.place with
  | directory handle name => exact .directory name rfl
  | framework handle name => exact .framework name rfl
  | headerMap map isIndex => exact .headerMap map isIndex

/-- A list corresponds to itself when every handle stands for itself. -/
theorem list_as_itself (list : SearchList) : itself.ListAs list list where
  entries := List.forall₂_same.mpr fun entry _ => entry_as_itself entry
  angledStart := rfl
  systemFrameworks := rfl

end Naming

namespace Reading

/-- The reading of a view in itself. -/
def itself : Reading (List Query) where
  sound _ := True
  naming _ := .itself

variable {view : FileView} {list : SearchList} {state : SearchMemo × List Query}

theorem itself_faithful : itself.Faithful (Observed view) view where
  directory? path _ := by
    have same : Option.Rel Naming.itself.DirectoryAs (view.directory? path)
        (view.directory? path) := by
      apply related_self
      exact fun _ => rfl
    exact ⟨trivial, Naming.Keeps.refl _, same⟩
  file? {_ handle _} name _ known := by
    obtain rfl := Option.some.inj known
    have same : Option.Rel Naming.itself.FileAs (view.file? handle name)
        (view.file? handle name) := by
      apply related_self
      exact fun _ => rfl
    exact ⟨trivial, Naming.Keeps.refl _, same⟩
  directoryPath _ known := by
    obtain rfl := Option.some.inj known
    exact ⟨trivial, Naming.Keeps.refl _, rfl⟩
  filePath _ known := by
    obtain rfl := Option.some.inj known
    exact ⟨trivial, Naming.Keeps.refl _, rfl⟩

/-- A lookup over the list answers as the search without memory does. -/
theorem resolve_itself (name : String) (kind : IncludeKind) (includer : Option Includer)
    (want : PathRequest) (sound : (itself.carrying view list).sound state) :
    (itself.carrying view list).Yields
      (list.resolve name kind includer want : StateT SearchMemo (Observed view) _) state
      fun _ answer => answer = list.plainAnswer view name kind includer want := by
  have known : Option.Rel Naming.itself.IncluderAs includer includer :=
    related_self (fun _ => ⟨rfl, rfl⟩) includer
  refine (resolve_yields itself_faithful name kind want sound (Naming.list_as_itself list)
    known).weaken fun answer after _ held => ?_
  refine related_eq held fun header headerMeant same => ?_
  have sameFile : header.file = headerMeant.file := Option.some.inj same.file
  rw [← same.rest, ← sameFile]

/-- A lookup in one entry answers as the entry does without memory. -/
theorem lookup_in_itself (index : Nat) (name : String) (want : PathRequest)
    (sound : (itself.carrying view list).sound state) :
    (itself.carrying view list).Yields
      (list.lookupIn index name want : StateT SearchMemo (Observed view) _) state
      fun _ found => found = list.entries[index]?.bind fun entry =>
        view.matchIn list.systemFrameworks entry name want := by
  refine (lookup_in_yields itself_faithful index name want sound
    (Naming.list_as_itself list)).weaken fun answer after _ held => ?_
  refine related_eq held fun found foundMeant same => ?_
  have sameFile : found.file = foundMeant.file := Option.some.inj same.file
  rw [← same.rest, ← sameFile]

/-- The memo recalls the list after a call if it did before. -/
theorem perform_yields (call : SearchCall) (sound : (itself.carrying view list).sound state) :
    (itself.carrying view list).Yields
      (list.perform call : StateT SearchMemo (Observed view) Unit) state fun _ _ => True := by
  cases call with
  | resolve name kind includer want =>
    refine (resolve_itself name kind includer want sound).bind fun _ after sound _ _ => ?_
    exact .of_pure sound trivial
  | lookup index name want =>
    refine (lookup_in_itself index name want sound).bind fun _ after sound _ _ => ?_
    exact .of_pure sound trivial

/-- The memo recalls the list after any calls. Induct on the calls. -/
theorem perform_all_yields (calls : List SearchCall)
    (sound : (itself.carrying view list).sound state) :
    (itself.carrying view list).Yields
      (list.performAll calls : StateT SearchMemo (Observed view) Unit) state fun _ _ => True := by
  induction calls generalizing state with
  | nil => exact .of_pure sound trivial
  | cons call calls inductionHypothesis =>
    exact (perform_yields call sound).bind fun _ after sound _ _ => inductionHypothesis sound

end Reading

namespace SearchList

variable (view : FileView) (list : SearchList)

/-- After any calls a lookup answers as the search without memory does. -/
theorem answer_after_eq (calls : List SearchCall) (name : String) (kind : IncludeKind)
    (includer : Option Includer) (want : PathRequest) :
    list.answerAfter view calls name kind includer want =
      list.plainAnswer view name kind includer want := by
  have new : (Reading.itself.carrying view list).sound (SearchMemo.fresh, []) :=
    ⟨trivial, Naming.Recalls.fresh⟩
  have answered := (Reading.perform_all_yields calls new).bind fun _ after sound _ _ =>
    Reading.resolve_itself name kind includer want sound
  exact answered.result

/-- After any calls an entry answers as it does without memory. -/
theorem match_after_eq (calls : List SearchCall) (index : Nat) (name : String)
    (want : PathRequest) :
    list.matchAfter view calls index name want =
      list.entries[index]?.bind fun entry =>
        view.matchIn list.systemFrameworks entry name want := by
  have new : (Reading.itself.carrying view list).sound (SearchMemo.fresh, []) :=
    ⟨trivial, Naming.Recalls.fresh⟩
  have answered := (Reading.perform_all_yields calls new).bind fun _ after sound _ _ =>
    Reading.lookup_in_itself index name want sound
  exact answered.result

/-- What an entry answers in a lookup over the list is what it answers alone. -/
theorem entry_answer_eq_some_iff {name : String} {kind : IncludeKind} {want : PathRequest}
    {entry : SearchEntry} {index : Nat} {header : FoundHeader}
    (here : list.entries[index]? = some entry) :
    list.entryAnswer view name kind want entry index = some header ↔
      list.looksInto kind index = true ∧ ∃ found,
        list.matchAfter view [] index name want = some found ∧
          FoundHeader.ofMatch entry index found = header := by
  rw [match_after_eq, here, Option.bind_some, entryAnswer]
  by_cases looks : list.looksInto kind index = true
  · simp [looks]
  · simp [looks]

/-- An entry that a kind of include does not look into, or that answers nothing alone, is silent. -/
theorem entry_answer_eq_none_iff {name : String} {kind : IncludeKind} {want : PathRequest}
    {entry : SearchEntry} {index : Nat} (here : list.entries[index]? = some entry) :
    list.entryAnswer view name kind want entry index = none ↔
      (list.looksInto kind index = true → list.matchAfter view [] index name want = none) := by
  rw [match_after_eq, here, Option.bind_some, entryAnswer]
  by_cases looks : list.looksInto kind index = true
  · simp [looks]
  · simp [looks]

/-- Caching never changes an answer, and the first eligible entry wins. After any calls a lookup
    answers what the directory of the including file of this lookup holds, and otherwise what the
    entry at the least position that the kind of include looks into answers alone on the new list. -/
theorem calls_never_change_answers (calls : List SearchCall) (name : String) (kind : IncludeKind)
    (includer : Option Includer) (want : PathRequest) :
    list.answerAfter view calls name kind includer want =
        (view.besideAnswer name kind includer want).or (list.firstAnswer view name kind want) ∧
      ∀ header, list.firstAnswer view name kind want = some header ↔
        ∃ index entry found, list.entries[index]? = some entry ∧
          list.looksInto kind index = true ∧
          list.matchAfter view [] index name want = some found ∧
          (∀ earlier < index, list.looksInto kind earlier = true →
            list.matchAfter view [] earlier name want = none) ∧
          FoundHeader.ofMatch entry index found = header := by
  refine ⟨list.answer_after_eq view calls name kind includer want, fun header => ?_⟩
  rw [first_answer_iff]
  constructor
  · rintro ⟨index, entry, here, answered, silent⟩
    obtain ⟨looks, found, matched, same⟩ := (list.entry_answer_eq_some_iff view here).mp answered
    refine ⟨index, entry, found, here, looks, matched, ?_, same⟩
    intro earlier below looksEarlier
    have inside : earlier < list.entries.length :=
      Nat.lt_trans below (List.getElem?_eq_some_iff.mp here).1
    have there := List.getElem?_eq_getElem inside
    exact (list.entry_answer_eq_none_iff view there).mp (silent earlier below _ there) looksEarlier
  · rintro ⟨index, entry, found, here, looks, matched, silent, same⟩
    refine ⟨index, entry, here, ?_, ?_⟩
    · exact (list.entry_answer_eq_some_iff view here).mpr ⟨looks, found, matched, same⟩
    · intro earlier below other there
      exact (list.entry_answer_eq_none_iff view there).mpr (silent earlier below)

end SearchList

end HeaderSearch
