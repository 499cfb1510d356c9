import Mathlib.Data.List.Nodup
import HeaderSearch.Proofs.Asking

/-!
# Calls ask only what is new

A run of calls asks its view exactly what the calls before each call have left unasked. A question that
was asked before is not asked again, whether its answer was a file or a miss, and over the whole run
the bundle of a framework is asked for at most once for each entry.
-/

namespace HeaderSearch

namespace Reading

variable {view : FileView} {list : SearchList} {memo : SearchMemo} {log : List Query}

/-- A lookup in one entry asks for its name there, the bundle being asked for only if it is new. -/
theorem run_lookup_in (log : List Query) (index : Nat) (name : String) (want : PathRequest)
    (recalls : Naming.itself.Recalls view list memo) {known : Known}
    (holds : memo.Holds view list known) :
    let call := SearchCall.lookup index name want
    ∃ value after, Runs.run
        (list.lookupIn index name want :
          StateT SearchMemo (Observed view) (Option EntryMatch)) (memo, log) =
        (value, after, log ++ (list.askings view call known).flatMap view.questions) ∧
      after.stats = memo.stats ∧ after.Holds view list (list.learn view known call) := by
  intro call
  have asks : list.askings view call known =
      SearchList.entryAskings name (list.visits view call) known.bundles := rfl
  have learnt : list.learn view known call =
      { known with
        bundles := known.bundles ++ SearchList.bundleKeys name (list.visits view call) } := by
    simp [SearchList.learn, call, SearchCall.besideQuestion?, SearchCall.listQuestion?,
      SearchCall.name]
  rw [asks, learnt]
  unfold SearchList.lookupIn
  cases here : list.entries[index]? with
  | none =>
    have nowhere : list.visits view call = [] := by simp [SearchList.visits, call, here]
    refine ⟨none, memo, ?_, rfl, ?_⟩
    · simp [nowhere, SearchList.entryAskings]
    · simpa [nowhere, SearchList.bundleKeys] using holds
  | some entry =>
    have visits : list.visits view call = [(entry, index)] := by
      simp [SearchList.visits, call, here]
    obtain ⟨after, ran, cache, stats, bundles⟩ :=
      run_probe_at log name here recalls holds.bundles
    have holdsAfter := holds.withBundles cache bundles
    rw [visits, SearchList.entryAskings, List.flatMap_singleton, SearchList.bundleKeys,
      List.flatMap_singleton]
    unfold SearchList.lookupAt
    simp only [Runs.run_bind, ran]
    cases view.probe list.systemFrameworks entry.place name with
    | none => exact ⟨_, after, by rw [Runs.run_pure], stats, holdsAfter⟩
    | some found =>
      cases want.searchPath with
      | false => exact ⟨_, after, by simp; rfl, stats, holdsAfter⟩
      | true => exact ⟨_, after, by simp; rfl, stats, holdsAfter⟩

/-- A call asks what is not known, and what it has asked is known. -/
theorem run_perform (log : List Query) (call : SearchCall)
    (recalls : Naming.itself.Recalls view list memo)
    {known : Known} (holds : memo.Holds view list known) :
    ∃ after, Runs.run (list.perform call : StateT SearchMemo (Observed view) Unit) (memo, log) =
        ((), after, log ++ (list.askings view call known).flatMap view.questions) ∧
      Naming.itself.Recalls view list after ∧
      after.stats = list.counted view call known memo.stats ∧
      after.Holds view list (list.learn view known call) := by
  cases call with
  | resolve name kind includer want =>
    obtain ⟨after, ran, stats, holdsAfter⟩ :=
      run_resolve log name kind includer want recalls holds
    refine ⟨after, ?_, recalls_after (resolve_itself name kind includer want ⟨trivial, recalls⟩) ran,
      stats, holdsAfter⟩
    simp [SearchList.perform, ran]
  | lookup index name want =>
    obtain ⟨value, after, ran, stats, holdsAfter⟩ :=
      run_lookup_in log index name want recalls holds
    refine ⟨after, ?_, recalls_after (lookup_in_itself index name want ⟨trivial, recalls⟩) ran,
      stats, holdsAfter⟩
    simp [SearchList.perform, ran]

end Reading

namespace SearchList

variable (view : FileView) (list : SearchList)

/-- What calls ask, one after the other. -/
def allAskings (known : Known) : List SearchCall → List Asking
  | [] => []
  | call :: calls =>
    list.askings view call known ++ allAskings (list.learn view known call) calls

end SearchList

namespace Reading

variable {view : FileView} {list : SearchList} {memo : SearchMemo} {log : List Query}

/-- Calls ask what is not known when it comes to them. Induct on the calls: what the first one asks is
    known to the rest. -/
theorem run_perform_all (log : List Query) (earlier calls : List SearchCall)
    (recalls : Naming.itself.Recalls view list memo)
    (holds : memo.Holds view list (list.known view earlier)) :
    ∃ after, Runs.run (list.performAll calls : StateT SearchMemo (Observed view) Unit) (memo, log) =
        ((), after,
          log ++ (list.allAskings view (list.known view earlier) calls).flatMap view.questions) ∧
      Naming.itself.Recalls view list after ∧
      after.Holds view list (list.known view (earlier ++ calls)) := by
  induction calls generalizing memo log earlier with
  | nil =>
    rw [List.append_nil]
    exact ⟨memo, by simp [SearchList.performAll, SearchList.allAskings], recalls, holds⟩
  | cons call calls inductionHypothesis =>
    obtain ⟨between, performed, recallsBetween, -, holdsBetween⟩ :=
      run_perform log call recalls holds
    rw [← SearchList.known_snoc] at holdsBetween
    obtain ⟨after, ran, recallsAfter, holdsAfter⟩ :=
      inductionHypothesis _ (earlier ++ [call]) recallsBetween holdsBetween
    refine ⟨after, ?_, recallsAfter, by simpa using holdsAfter⟩
    simp only [SearchList.performAll, Runs.run_bind, performed, SearchList.allAskings,
      List.flatMap_append, ← List.append_assoc, ← SearchList.known_snoc]
    exact ran

end Reading

namespace SearchList

variable {view : FileView} {list : SearchList}

/-- The bundles that an entry asks for are those that it needs and that are not known. -/
theorem bundles_of_askings (entry : SearchEntry) (index : Nat) (name : String)
    (known : List (Nat × String)) :
    (entry.askings index name known).filterMap Asking.bundle? =
      (entry.bundleKeys index name).filter (· ∉ known) := by
  unfold SearchEntry.askings SearchEntry.bundleKeys
  cases entry.bundle? name with
  | none => rfl
  | some needed =>
    by_cases member : (index, needed.2) ∈ known <;> simp [member, Asking.bundle?]

/-- The bundles that entries ask for are those that they need and that are not known. -/
theorem bundles_of_entry_askings (name : String) (items : List (SearchEntry × Nat))
    (known : List (Nat × String)) :
    (entryAskings name items known).filterMap Asking.bundle? =
      (bundleKeys name items).filter (· ∉ known) := by
  unfold entryAskings bundleKeys
  rw [List.filterMap_flatMap, List.filter_flatMap]
  simp only [bundles_of_askings]

/-- Nothing that a call asks beside the including file is a bundle. -/
theorem bundles_of_beside_askings (call : SearchCall) (known : Known) :
    (besideAskings call known).filterMap Asking.bundle? = [] := by
  unfold besideAskings
  split
  · split <;> rfl
  · rfl

/-- The entries that a call looks into stand at different positions. -/
theorem searched_apart (call : SearchCall) (known : Known) :
    ((list.searched view call known).map Prod.snd).Nodup := by
  unfold searched visits
  split
  · exact List.nodup_nil
  · cases call with
    | lookup index name want =>
      dsimp only
      cases list.entries[index]? <;> simp
    | resolve name kind includer want =>
      dsimp only
      split
      · exact List.nodup_nil
      · exact ((Reading.visited_begins name _).sublist.map Prod.snd).nodup
          (Reading.eligible_apart list kind)

/-- Entries at different positions need no bundle together. -/
theorem bundle_keys_nodup (name : String) {items : List (SearchEntry × Nat)}
    (apart : (items.map Prod.snd).Nodup) : (bundleKeys name items).Nodup := by
  have position {item : SearchEntry × Nat} {key : Nat × String}
      (needed : key ∈ item.1.bundleKeys item.2 name) : key.1 = item.2 := by
    obtain ⟨bundle, -, rfl⟩ := Option.map_eq_some_iff.mp (Option.mem_toList.mp needed)
    rfl
  refine List.nodup_flatMap.mpr ⟨fun item _ => ?_, ?_⟩
  · unfold SearchEntry.bundleKeys
    cases (item.1.bundle? name).map fun needed => (item.2, needed.2) <;> simp
  · refine (List.pairwise_map.mp apart).imp fun {one other} differ key here there => ?_
    exact differ ((position here).symm.trans (position there))

/-- The bundles that a call asks for are not known, each is asked for once, and they are known then. -/
theorem bundles_of_call (view : FileView) (list : SearchList) (call : SearchCall) (known : Known) :
    let asked := (list.askings view call known).filterMap Asking.bundle?
    asked.Nodup ∧ asked.Disjoint known.bundles ∧ asked ⊆ (list.learn view known call).bundles := by
  intro asked
  have same : asked =
      (bundleKeys call.name (list.searched view call known)).filter (· ∉ known.bundles) := by
    simp only [asked, askings, List.filterMap_append, bundles_of_beside_askings,
      bundles_of_entry_askings, List.nil_append]
  rw [same]
  refine ⟨(bundle_keys_nodup _ (searched_apart call known)).filter _, ?_, ?_⟩
  · intro key member isKnown
    simpa [isKnown] using (List.mem_filter.mp member).2
  · intro key member
    refine List.mem_append_right _ ?_
    have needed := List.mem_of_mem_filter member
    unfold searched at needed
    split at needed
    · simp [bundleKeys] at needed
    · exact needed

/-- Over a run no bundle is asked for twice for one entry. Induct on the calls: what the first one
    asks for is known to the rest. -/
theorem bundles_of_run (known : Known) (calls : List SearchCall) :
    let asked := (list.allAskings view known calls).filterMap Asking.bundle?
    asked.Nodup ∧ asked.Disjoint known.bundles := by
  induction calls generalizing known with
  | nil => exact ⟨List.nodup_nil, List.disjoint_nil_left _⟩
  | cons call calls inductionHypothesis =>
    obtain ⟨once, new, learnt⟩ := bundles_of_call view list call known
    obtain ⟨onceLater, newLater⟩ := inductionHypothesis (list.learn view known call)
    simp only [allAskings, List.filterMap_append]
    refine ⟨List.Nodup.append once onceLater ?_, List.disjoint_append_left.mpr ⟨new, ?_⟩⟩
    · exact fun key first later => newLater later (learnt first)
    · exact fun key later member => newLater later (List.mem_append_left _ member)

variable (view list)

/-- The questions of the calls on a new list. -/
def queriesOf (calls : List SearchCall) : List Query :=
  let computation : StateT SearchMemo (Observed view) Unit := list.performAll calls
  (computation.run .fresh).queries

/-- The questions of a call that follows some calls on the new list. -/
def queriesAfter (earlier : List SearchCall) (call : SearchCall) : List Query :=
  let before : StateT SearchMemo (Observed view) Unit := list.performAll earlier
  let next : StateT SearchMemo (Observed view) Unit := list.perform call
  (next.run (before.run .fresh).value.2).queries

/-- The questions of a run are those of its askings. -/
theorem queries_of_eq (calls : List SearchCall) :
    list.queriesOf view calls =
      (list.allAskings view (list.known view []) calls).flatMap view.questions := by
  obtain ⟨after, ran, -, -⟩ := Reading.run_perform_all [] [] calls
    Naming.Recalls.fresh (SearchMemo.Holds.fresh view list)
  exact congrArg (fun ended => ended.2.2) ran

/-- The questions of a call are those of its askings when what the calls before it asked is known. -/
theorem queries_after_eq (earlier : List SearchCall) (call : SearchCall) :
    list.queriesAfter view earlier call =
      (list.askings view call (list.known view earlier)).flatMap view.questions := by
  obtain ⟨between, ran, recalls, holds⟩ := Reading.run_perform_all [] [] earlier
    Naming.Recalls.fresh (SearchMemo.Holds.fresh view list)
  obtain ⟨after, performed, -, -⟩ := Reading.run_perform [] call recalls holds
  obtain rfl : _ = between := congrArg (fun ended => ended.2.1) ran
  exact congrArg (fun ended => ended.2.2) performed

variable {view list}

/-- A lookup asks nothing if one of the same name and kind, from the same directory, was made before.
    Neither the characteristic of the including file nor the wanted texts matter. -/
theorem askings_of_repeated {earlier : List SearchCall} {name : String} {kind : IncludeKind}
    {includer again : Option Includer} {want wanted : PathRequest}
    (made : .resolve name kind includer wanted ∈ earlier)
    (alike : again.map Includer.directory = includer.map Includer.directory) :
    list.askings view (.resolve name kind again want) (list.known view earlier) = [] := by
  have sameBeside : (SearchCall.resolve name kind again want).besideQuestion? =
      (SearchCall.resolve name kind includer wanted).besideQuestion? := by
    cases kind <;> cases again <;> cases includer <;> simp_all [SearchCall.besideQuestion?]
  have sameAnswered : (SearchCall.resolve name kind again want).answeredBeside view =
      (SearchCall.resolve name kind includer wanted).answeredBeside view := by
    rw [SearchCall.answeredBeside, sameBeside, SearchCall.answeredBeside]
  have nothingBeside :
      besideAskings (.resolve name kind again want) (list.known view earlier) = [] := by
    unfold besideAskings
    cases question : (SearchCall.resolve name kind again want).besideQuestion? with
    | none => rfl
    | some asked => exact if_pos (List.mem_filterMap.mpr ⟨_, made, sameBeside.symm.trans question⟩)
  have nowhere :
      list.searched view (.resolve name kind again want) (list.known view earlier) = [] := by
    cases answered : (SearchCall.resolve name kind again want).answeredBeside view with
    | true => exact searched_of_answered answered
    | false =>
      rw [searched_of_unanswered answered]
      exact if_pos (List.mem_filterMap.mpr
        ⟨_, made, list_question_of_unanswered (sameAnswered.symm.trans answered)⟩)
  simp [askings, nothingBeside, nowhere, entryAskings]

variable (view list)

/-- Which questions calls ask. After any calls a lookup asks whether the directory of the including
    file holds the name, exactly if the lookup is quoted, has an including file and no earlier one
    asked this. Then, exactly if that directory does not hold it and no earlier lookup took the name
    and kind to the list, it asks what the entries ask that the kind looks into, up to the first that
    has the name, but not for bundles that these entries needed before. So a repeated lookup asks
    nothing. The questions of a whole run are those of its askings, among which there is at most one
    for the bundle of a framework in an entry. -/
theorem calls_ask_only_what_is_new (earlier : List SearchCall) :
    (∀ name kind includer want,
      let call := SearchCall.resolve name kind includer want
      list.queriesAfter view earlier call =
        (match call.besideQuestion? with
          | some (directory, name) =>
            if (directory, name) ∈ earlier.filterMap SearchCall.besideQuestion? then []
            else [.file directory name]
          | none => []) ++
        if call.answeredBeside view = true ∨
            (name, kind) ∈ earlier.filterMap (SearchCall.listQuestion? view) then []
        else (list.visited view name (list.eligible kind)).flatMap fun item =>
          (item.1.askings item.2 name (earlier.flatMap fun call =>
            bundleKeys call.name (list.visits view call))).flatMap view.questions) ∧
    (∀ name kind includer again want wanted,
      .resolve name kind includer wanted ∈ earlier →
      again.map Includer.directory = includer.map Includer.directory →
      list.queriesAfter view earlier (.resolve name kind again want) = []) ∧
    list.queriesOf view earlier =
      (list.allAskings view (list.known view []) earlier).flatMap view.questions ∧
    ((list.allAskings view (list.known view []) earlier).filterMap Asking.bundle?).Nodup := by
  refine ⟨fun name kind includer want => ?_,
    fun name kind includer again want wanted made alike => ?_, queries_of_eq view list earlier,
    (bundles_of_run _ earlier).1⟩
  · intro call
    rw [queries_after_eq, askings, List.flatMap_append]
    congr 1
    · unfold besideAskings
      cases call.besideQuestion? with
      | none => rfl
      | some question =>
        by_cases made : question ∈ earlier.filterMap SearchCall.besideQuestion?
        · simp [known, made]
        · simp [known, made, FileView.questions]
    · cases answered : call.answeredBeside view with
      | true => simp [searched_of_answered answered, entryAskings]
      | false =>
        rw [searched_of_unanswered answered]
        by_cases made : (name, kind) ∈ earlier.filterMap (SearchCall.listQuestion? view)
        · simp [known, made, entryAskings]
        · simp [known, made, entryAskings, List.flatMap_assoc, call, SearchCall.name]
  · rw [queries_after_eq, askings_of_repeated made alike, List.flatMap_nil]

end SearchList

end HeaderSearch
