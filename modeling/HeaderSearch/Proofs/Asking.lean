import HeaderSearch.Proofs.Questions

/-!
# What a call asks after other calls

Three things need not be asked again: whether the directory of an including file holds a name, what
the list answers to a name of a kind, and the bundle that an entry has of a framework. `Known` lists
what is known of each sort. After some calls this is exactly what these calls have asked, whether
something was found or not, and the next call asks for the rest and for nothing else.
-/

namespace HeaderSearch

/-- What was asked before and is not asked again. -/
structure Known where
  /-- The names asked for beside including files, with the directories. -/
  beside : List (DirHandle × String)
  /-- The names searched for in the list, with the kinds. -/
  listed : List (String × IncludeKind)
  /-- The frameworks whose bundles were needed, with the positions of the entries. -/
  bundles : List (Nat × String)

namespace SearchCall

/-- The name that a call asks for. -/
def name : SearchCall → String
  | resolve name _ _ _ => name
  | lookup _ name _ => name

/-- The question that a call has beside the including file: a quoted lookup with an including file has
    one. -/
def besideQuestion? : SearchCall → Option (DirHandle × String)
  | resolve name .quoted (some includer) _ => some (includer.directory, name)
  | _ => none

/-- Whether the directory of the including file answers a call. -/
def answeredBeside (view : FileView) (call : SearchCall) : Bool :=
  call.besideQuestion?.any fun question => (view.file? question.1 question.2).isSome

/-- The question that a call takes to the list: a lookup over the list has one unless it is answered
    beside the including file. -/
def listQuestion? (view : FileView) (call : SearchCall) : Option (String × IncludeKind) :=
  match call with
  | resolve name kind _ _ => if call.answeredBeside view then none else some (name, kind)
  | lookup _ _ _ => none

end SearchCall

namespace SearchList

variable (view : FileView) (list : SearchList)

/-- The entries that a search for a name looks into: those up to the first that has it. -/
def visited (name : String) : List (SearchEntry × Nat) → List (SearchEntry × Nat)
  | [] => []
  | item :: others =>
    item :: if (view.probe list.systemFrameworks item.1.place name).isSome then []
      else visited name others

/-- The entries that have to be looked into to answer a call when nothing is known. -/
def visits (call : SearchCall) : List (SearchEntry × Nat) :=
  match call with
  | .resolve name kind _ _ =>
    if call.answeredBeside view then [] else list.visited view name (list.eligible kind)
  | .lookup index _ _ => (list.entries[index]?.map fun entry => (entry, index)).toList

/-- The bundles that are needed to look into entries for a name. -/
def bundleKeys (name : String) (items : List (SearchEntry × Nat)) : List (Nat × String) :=
  items.flatMap fun item => item.1.bundleKeys item.2 name

/-- What is asked to look into entries for a name. -/
def entryAskings (name : String) (items : List (SearchEntry × Nat)) (known : List (Nat × String)) :
    List Asking :=
  items.flatMap fun item => item.1.askings item.2 name known

/-- What a call asks beside the including file. -/
def besideAskings (call : SearchCall) (known : Known) : List Asking :=
  match call.besideQuestion? with
  | some (directory, name) =>
    if (directory, name) ∈ known.beside then [] else [.beside directory name]
  | none => []

/-- The entries that a call looks into: none if it takes a known question to the list. -/
def searched (call : SearchCall) (known : Known) : List (SearchEntry × Nat) :=
  if (call.listQuestion? view).any (· ∈ known.listed) then [] else list.visits view call

/-- What a call asks. -/
def askings (call : SearchCall) (known : Known) : List Asking :=
  besideAskings call known ++
    entryAskings call.name (list.searched view call known) known.bundles

/-- What some calls have asked. -/
def known (calls : List SearchCall) : Known where
  beside := calls.filterMap SearchCall.besideQuestion?
  listed := calls.filterMap (SearchCall.listQuestion? view)
  bundles := calls.flatMap fun call => bundleKeys call.name (list.visits view call)

/-- What is known after one more call. -/
def learn (known : Known) (call : SearchCall) : Known where
  beside := known.beside ++ call.besideQuestion?.toList
  listed := known.listed ++ (call.listQuestion? view).toList
  bundles := known.bundles ++ bundleKeys call.name (list.visits view call)

theorem known_snoc (calls : List SearchCall) (call : SearchCall) :
    list.known view (calls ++ [call]) = list.learn view (list.known view calls) call := by
  have single {α : Type} (ask? : SearchCall → Option α) :
      [call].filterMap ask? = (ask? call).toList := by
    cases asked : ask? call <;> simp [asked]
  simp only [known, learn, List.filterMap_append, single, List.flatMap_append,
    List.flatMap_singleton]

/-- Whether the step that answers a lookup is known. -/
def remembers (call : SearchCall) (known : Known) : Bool :=
  if call.answeredBeside view then call.besideQuestion?.any (· ∈ known.beside)
  else (call.listQuestion? view).any (· ∈ known.listed)

/-- The counts after a call. A lookup in one entry alone is not counted. -/
def counted (call : SearchCall) (known : Known) (stats : SearchStats) : SearchStats :=
  match call with
  | .resolve name kind includer want =>
    { lookups := stats.lookups + 1
      cacheHits := stats.cacheHits + if remembers view call known then 1 else 0
      includerHits := stats.includerHits + if call.answeredBeside view then 1 else 0
      entryProbes := stats.entryProbes + (list.searched view call known).length
      misses := stats.misses +
        if list.plainAnswer view name kind includer want = none then 1 else 0 }
  | .lookup _ _ _ => stats

section Answered

variable {view list} {call : SearchCall} {known : Known}

/-- A call that is answered beside the including file takes nothing to the list. -/
theorem list_question_of_answered (answered : call.answeredBeside view = true) :
    call.listQuestion? view = none := by
  cases call with
  | lookup index name want => rfl
  | resolve name kind includer want => exact if_pos answered

theorem visits_of_answered (answered : call.answeredBeside view = true) :
    list.visits view call = [] := by
  cases call with
  | lookup index name want => exact absurd answered Bool.false_ne_true
  | resolve name kind includer want => exact if_pos answered

theorem searched_of_answered (answered : call.answeredBeside view = true) :
    list.searched view call known = [] := by
  simp [searched, visits_of_answered answered]

theorem learn_of_answered (answered : call.answeredBeside view = true) :
    list.learn view known call =
      { known with beside := known.beside ++ call.besideQuestion?.toList } := by
  simp [learn, list_question_of_answered answered, visits_of_answered answered, bundleKeys]

theorem remembers_of_answered (answered : call.answeredBeside view = true) :
    remembers view call known = call.besideQuestion?.any (· ∈ known.beside) := if_pos answered

variable {name : String} {kind : IncludeKind} {includer : Option Includer} {want : PathRequest}
variable {stats : SearchStats}

theorem counted_of_answered
    (answered : (SearchCall.resolve name kind includer want).answeredBeside view = true)
    (found : list.plainAnswer view name kind includer want ≠ none) :
    list.counted view (.resolve name kind includer want) known stats =
      { stats with
        lookups := stats.lookups + 1
        cacheHits := stats.cacheHits +
          if (SearchCall.resolve name kind includer want).besideQuestion?.any (· ∈ known.beside)
          then 1 else 0
        includerHits := stats.includerHits + 1 } := by
  simp [counted, remembers_of_answered answered, searched_of_answered answered, answered, found]

/-- A lookup that is not answered beside the including file is taken to the list. -/
theorem list_question_of_unanswered
    (unanswered : (SearchCall.resolve name kind includer want).answeredBeside view = false) :
    (SearchCall.resolve name kind includer want).listQuestion? view = some (name, kind) :=
  if_neg (by simp [unanswered])

theorem visits_of_unanswered
    (unanswered : (SearchCall.resolve name kind includer want).answeredBeside view = false) :
    list.visits view (.resolve name kind includer want) =
      list.visited view name (list.eligible kind) :=
  if_neg (by simp [unanswered])

theorem searched_of_unanswered
    (unanswered : (SearchCall.resolve name kind includer want).answeredBeside view = false) :
    list.searched view (.resolve name kind includer want) known =
      if (name, kind) ∈ known.listed then []
      else list.visited view name (list.eligible kind) := by
  simp [searched, list_question_of_unanswered unanswered, visits_of_unanswered unanswered]

theorem learn_of_unanswered
    (unanswered : (SearchCall.resolve name kind includer want).answeredBeside view = false) :
    list.learn view known (.resolve name kind includer want) =
      { beside := known.beside ++
          (SearchCall.resolve name kind includer want).besideQuestion?.toList
        listed := known.listed ++ [(name, kind)]
        bundles := known.bundles ++
          bundleKeys name (list.visited view name (list.eligible kind)) } := by
  rw [learn, list_question_of_unanswered unanswered, visits_of_unanswered unanswered]
  rfl

theorem remembers_of_unanswered
    (unanswered : (SearchCall.resolve name kind includer want).answeredBeside view = false) :
    remembers view (.resolve name kind includer want) known =
      decide ((name, kind) ∈ known.listed) := by
  simp [remembers, unanswered, list_question_of_unanswered unanswered]

theorem counted_of_unanswered
    (unanswered : (SearchCall.resolve name kind includer want).answeredBeside view = false) :
    list.counted view (.resolve name kind includer want) known stats =
      { stats with
        lookups := stats.lookups + 1
        cacheHits := stats.cacheHits + if (name, kind) ∈ known.listed then 1 else 0
        entryProbes := stats.entryProbes +
          (if (name, kind) ∈ known.listed then []
            else list.visited view name (list.eligible kind)).length
        misses := stats.misses +
          if list.plainAnswer view name kind includer want = none then 1 else 0 } := by
  simp [counted, remembers_of_unanswered unanswered, searched_of_unanswered unanswered, unanswered]

end Answered

end SearchList

/-- The memo remembers what is known, and the answers to known questions need known bundles only. -/
structure SearchMemo.Holds (memo : SearchMemo) (view : FileView) (list : SearchList)
    (known : Known) : Prop where
  beside (directory : DirHandle) (name : String) :
    (memo.cache.getBeside? directory name).isSome ↔ (directory, name) ∈ known.beside
  listed (name : String) (kind : IncludeKind) :
    (memo.cache.get? name kind).isSome ↔ (name, kind) ∈ known.listed
  bundles : memo.HoldsBundles known.bundles
  needed {name : String} {kind : IncludeKind} : (name, kind) ∈ known.listed →
    SearchList.bundleKeys name (list.visited view name (list.eligible kind)) ⊆ known.bundles

namespace SearchMemo.Holds

variable {view : FileView} {list : SearchList} {memo : SearchMemo} {known : Known}

/-- The memo before the first call holds nothing. -/
theorem fresh (view : FileView) (list : SearchList) :
    SearchMemo.fresh.Holds view list (list.known view []) where
  beside _ _ := by simp [SearchMemo.fresh, SearchList.known]
  listed _ _ := by simp [SearchMemo.fresh, SearchList.known]
  bundles _ := by simp [SearchMemo.fresh, SearchList.known]
  needed member := by simp [SearchList.known] at member

/-- Whatever is known already may be listed again. -/
theorem again (holds : memo.Holds view list known) (more : Known)
    (beside : more.beside ⊆ known.beside) (listed : more.listed ⊆ known.listed)
    (bundles : more.bundles ⊆ known.bundles) :
    memo.Holds view list
      { beside := known.beside ++ more.beside
        listed := known.listed ++ more.listed
        bundles := known.bundles ++ more.bundles } where
  beside directory name := by
    rw [holds.beside, List.mem_append, or_iff_left_of_imp fun member => beside member]
  listed name kind := by
    rw [holds.listed, List.mem_append, or_iff_left_of_imp fun member => listed member]
  bundles key := by
    rw [holds.bundles, List.mem_append, or_iff_left_of_imp fun member => bundles member]
  needed member := by
    rw [List.mem_append, or_iff_left_of_imp fun member => listed member] at member
    exact List.subset_append_of_subset_left _ (holds.needed member)

/-- A memo that has only learnt bundles holds these besides. -/
theorem withBundles (holds : memo.Holds view list known) {after : SearchMemo}
    {more : List (Nat × String)} (cache : after.cache = memo.cache)
    (bundles : after.HoldsBundles (known.bundles ++ more)) :
    after.Holds view list { known with bundles := known.bundles ++ more } where
  beside := by
    rw [cache]
    exact holds.beside
  listed := by
    rw [cache]
    exact holds.listed
  bundles := bundles
  needed member := List.subset_append_of_subset_left _ (holds.needed member)

/-- The counts do not matter. -/
theorem count (holds : memo.Holds view list known) (change : SearchStats → SearchStats) :
    (memo.count change).Holds view list known :=
  ⟨holds.beside, holds.listed, holds.bundles, holds.needed⟩

theorem countRemembered (holds : memo.Holds view list known) (remembered : Bool) :
    (SearchList.countRemembered remembered memo).Holds view list known := by
  cases remembered with
  | false => exact holds
  | true => exact holds.count fun stats => { stats with cacheHits := stats.cacheHits + 1 }

end SearchMemo.Holds

/-- A remembered answer is counted by one. -/
theorem SearchMemo.stats_countRemembered (memo : SearchMemo) (remembered : Bool) :
    (SearchList.countRemembered remembered memo).stats =
      { memo.stats with cacheHits := memo.stats.cacheHits + if remembered then 1 else 0 } := by
  cases remembered <;> rfl

namespace Reading

variable {view : FileView} {list : SearchList} {memo : SearchMemo} {log : List Query}

/-- A memo in which a sound run ends recalls the list. -/
theorem recalls_after {α : Type} {computation : StateT SearchMemo (Observed view) α} {value : α}
    {after : SearchMemo} {longer : List Query} {expected : SearchMemo × List Query → α → Prop}
    (yielded : (itself.carrying view list).Yields computation (memo, log) expected)
    (ran : Runs.run computation (memo, log) = (value, after, longer)) :
    Naming.itself.Recalls view list after := by
  have sound := yielded.sound
  rw [ran] at sound
  exact sound.2

/-- The entries that a search looks into are the first ones of those given. -/
theorem visited_begins (name : String) (items : List (SearchEntry × Nat)) :
    list.visited view name items <+: items := by
  induction items with
  | nil => exact List.prefix_rfl
  | cons item items inductionHypothesis =>
    refine List.prefix_cons_inj item |>.mpr ?_
    split
    · exact List.nil_prefix
    · exact inductionHypothesis

/-- Entries ask the same when more bundles are known of the entry at another position. -/
theorem entry_askings_append {entry : SearchEntry} {index : Nat} {name : String}
    {items : List (SearchEntry × Nat)} {known : List (Nat × String)}
    (apart : index ∉ items.map Prod.snd) :
    SearchList.entryAskings name items (known ++ entry.bundleKeys index name) =
      SearchList.entryAskings name items known := by
  refine List.flatMap_congr fun item member => ?_
  have absent (framework : String) :
      (item.2, framework) ∉ entry.bundleKeys index name := by
    intro needed
    obtain ⟨bundle, -, same⟩ := Option.map_eq_some_iff.mp (Option.mem_toList.mp needed)
    exact apart (List.mem_map.mpr ⟨item, member, (Prod.mk.inj same).1.symm⟩)
  unfold SearchEntry.askings
  simp only [List.mem_append, absent, or_false]

/-- Searching entries asks what the entries up to the first hit ask, and leaves the bundles that these
    needed. Induct on the entries: those at other positions ask no less because of the bundles that
    the first one has left. -/
theorem run_scan (log : List Query) (name : String) {items : List (SearchEntry × Nat)}
    {known : List (Nat × String)}
    (placed : ∀ item ∈ items, list.entries[item.2]? = some item.1)
    (apart : (items.map Prod.snd).Nodup)
    (recalls : Naming.itself.Recalls view list memo) (holds : memo.HoldsBundles known) :
    ∃ after, Runs.run (list.scan name items : StateT SearchMemo (Observed view) (Option Hit))
        (memo, log) =
        (list.plainScan view name items, after,
          log ++ (SearchList.entryAskings name (list.visited view name items) known).flatMap
            view.questions) ∧
      after.cache = memo.cache ∧
      after.stats = { memo.stats with
        entryProbes := memo.stats.entryProbes + (list.visited view name items).length } ∧
      after.HoldsBundles
        (known ++ SearchList.bundleKeys name (list.visited view name items)) := by
  induction items generalizing memo log known with
  | nil =>
    refine ⟨memo, ?_, rfl, rfl, ?_⟩
    · simp [SearchList.scan, SearchList.plainScan, SearchList.visited, SearchList.entryAskings]
    · simpa [SearchList.visited, SearchList.bundleKeys] using holds
  | cons item items inductionHypothesis =>
    obtain ⟨entry, index⟩ := item
    have here := placed _ List.mem_cons_self
    have recallsCounted := recalls.count fun stats =>
      { stats with entryProbes := stats.entryProbes + 1 }
    have holdsCounted : (memo.count fun stats =>
      { stats with entryProbes := stats.entryProbes + 1 }).HoldsBundles known := holds
    obtain ⟨probed, ran, cache, stats, holdsProbed⟩ :=
      run_probe_at log name here recallsCounted holdsCounted
    have recallsProbed : Naming.itself.Recalls view list probed :=
      recalls_after (probe_at_yields itself_faithful name ⟨trivial, recallsCounted⟩ rfl
        (Naming.entry_as_itself entry) here) ran
    unfold SearchList.scan SearchList.plainScan SearchList.visited
    simp only [Runs.run_bind, Runs.run_modify, ran, List.findSome?_cons]
    cases view.probe list.systemFrameworks entry.place name with
    | some found =>
      refine ⟨probed, ?_, cache, by rw [stats]; rfl, ?_⟩
      · simp [SearchList.entryAskings, Hit.ofPlace]
      · simpa [SearchList.bundleKeys] using holdsProbed
    | none =>
      obtain ⟨after, scanned, cacheAfter, statsAfter, holdsAfter⟩ :=
        inductionHypothesis (log ++ (entry.askings index name known).flatMap view.questions)
          (fun other member => placed other (List.mem_cons_of_mem _ member))
          (List.nodup_cons.mp apart).2 recallsProbed holdsProbed
      have others : index ∉ (list.visited view name items).map Prod.snd := fun member =>
        (List.nodup_cons.mp apart).1 (List.map_subset _ (visited_begins name items).subset member)
      rw [entry_askings_append others] at scanned
      refine ⟨after, ?_, cacheAfter.trans cache, ?_, ?_⟩
      · simpa [SearchList.plainScan, SearchList.entryAskings] using scanned
      · rw [statsAfter, stats]
        simp [SearchMemo.count, Nat.add_assoc, Nat.add_comm 1]
      · simpa [SearchList.bundleKeys] using holdsAfter

/-- The entries that a kind of include looks into stand at their positions. -/
theorem eligible_placed (list : SearchList) (kind : IncludeKind) :
    ∀ item ∈ list.eligible kind, list.entries[item.2]? = some item.1 := by
  intro item member
  rw [SearchList.eligible_eq_filter] at member
  exact List.mem_zipIdx_iff_getElem?.mp (List.mem_of_mem_filter member)

/-- The entries that a kind of include looks into stand at different positions. -/
theorem eligible_apart (list : SearchList) (kind : IncludeKind) :
    ((list.eligible kind).map Prod.snd).Nodup := by
  rw [SearchList.eligible_eq_filter]
  refine List.Nodup.sublist (List.filter_sublist.map Prod.snd) ?_
  rw [List.zipIdx_map_snd]
  exact List.nodup_range' _

/-- Taking a name to the list searches the entries unless the outcome is known, and remembers it. -/
theorem run_look_in_list (log : List Query) (name : String) (kind : IncludeKind)
    (recalls : Naming.itself.Recalls view list memo) {known : Known}
    (holds : memo.Holds view list known) :
    let visited := list.visited view name (list.eligible kind)
    let searched := if (name, kind) ∈ known.listed then [] else visited
    ∃ after, Runs.run
        (list.lookInList name kind : StateT SearchMemo (Observed view) (Option Hit × Bool))
        (memo, log) =
        ((list.plainHit view name kind, decide ((name, kind) ∈ known.listed)), after,
          log ++ (SearchList.entryAskings name searched known.bundles).flatMap view.questions) ∧
      after.stats =
        { memo.stats with entryProbes := memo.stats.entryProbes + searched.length } ∧
      after.Holds view list
        { known with
          listed := known.listed ++ [(name, kind)]
          bundles := known.bundles ++ SearchList.bundleKeys name visited } := by
  intro visited searched
  unfold SearchList.lookInList
  simp only [Runs.run_bind, Runs.run_get]
  cases held : memo.cache.get? name kind with
  | some outcome =>
    have isKnown : (name, kind) ∈ known.listed := (holds.listed _ _).mp (by simp [held])
    have same : outcome = list.plainHit view name kind :=
      related_eq (recalls.listed held) fun _ _ => Naming.HitAs.eq
    have nowhere : searched = [] := if_pos isKnown
    refine ⟨memo, by simp [isKnown, nowhere, same, SearchList.entryAskings], by simp [nowhere], ?_⟩
    have holdsAgain := holds.again
      ⟨[], [(name, kind)], SearchList.bundleKeys name visited⟩
      (List.nil_subset _) (by simpa using isKnown) (holds.needed isKnown)
    simpa only [List.append_nil] using holdsAgain
  | none =>
    have isNew : (name, kind) ∉ known.listed := fun member => by
      simpa [held] using (holds.listed _ _).mpr member
    obtain ⟨scanned, ran, cache, stats, bundles⟩ := run_scan log name
      (eligible_placed list kind) (eligible_apart list kind) recalls holds.bundles
    have everywhere : searched = visited := if_neg isNew
    simp only [Runs.run_bind, ran, Runs.run_modify, Runs.run_pure, isNew, everywhere, decide_false]
    refine ⟨_, rfl, stats, ?_, ?_, bundles, ?_⟩
    · intro directory other
      rw [LookupCache.getBeside?_insert, cache]
      exact holds.beside directory other
    · intro other wanted
      rw [LookupCache.get?_insert, cache, List.mem_append, List.mem_singleton, Prod.mk.injEq,
        ← holds.listed]
      by_cases same : other = name ∧ wanted = kind <;> simp [same]
    · intro other wanted member
      rw [List.mem_append, List.mem_singleton, Prod.mk.injEq] at member
      rcases member with member | ⟨rfl, rfl⟩
      · exact List.subset_append_of_subset_left _ (holds.needed member)
      · exact List.subset_append_right _ _

/-- The directory of an including file is asked for a name unless the outcome is known, and the
    outcome is remembered. -/
theorem run_look_beside (log : List Query) (name : String) (includer : Includer)
    (recalls : Naming.itself.Recalls view list memo) {known : Known}
    (holds : memo.Holds view list known) :
    ∃ after, Runs.run
        (SearchList.lookBeside name includer :
          StateT SearchMemo (Observed view) (Option Hit × Bool)) (memo, log) =
        ((SearchList.plainBeside view name .quoted (some includer),
            decide ((includer.directory, name) ∈ known.beside)), after,
          log ++ if (includer.directory, name) ∈ known.beside then []
            else [.file includer.directory name]) ∧
      after.stats = memo.stats ∧
      after.Holds view list
        { known with beside := known.beside ++ [(includer.directory, name)] } := by
  unfold SearchList.lookBeside SearchList.plainBeside
  simp only [Runs.run_bind, Runs.run_get]
  cases held : memo.cache.getBeside? includer.directory name with
  | some outcome =>
    have isKnown : (includer.directory, name) ∈ known.beside :=
      (holds.beside _ _).mp (by simp [held])
    obtain ⟨meaning, known, related⟩ := recalls.beside held
    obtain rfl : includer.directory = meaning := Option.some.inj known
    have adapted : outcome.map (fun hit => { hit with characteristic := includer.characteristic }) =
        (view.file? includer.directory name).map
          (Hit.beside includer.directory includer.characteristic) := by
      have same : Option.Rel Naming.itself.HitAs
          (outcome.map fun hit => { hit with characteristic := includer.characteristic })
          ((view.file? includer.directory name).map
            (Hit.beside includer.directory includer.characteristic)) :=
        related_map related fun hit file here => { here with characteristic := rfl }
      exact related_eq same fun _ _ => Naming.HitAs.eq
    refine ⟨memo, ?_, rfl, ?_⟩
    · simp [isKnown, ← adapted]
    · have holdsAgain := holds.again ⟨[(includer.directory, name)], [], []⟩
        (by simpa using isKnown) (List.nil_subset _) (List.nil_subset _)
      simpa only [List.append_nil] using holdsAgain
  | none =>
    have isNew : (includer.directory, name) ∉ known.beside := fun member => by
      simpa [held] using (holds.beside _ _).mpr member
    simp only [Runs.run_bind, run_file?, Runs.run_modify, Runs.run_pure, isNew, if_false,
      decide_false]
    let outcome := (view.file? includer.directory name).map
      (Hit.beside includer.directory includer.characteristic)
    refine ⟨{ memo with cache := memo.cache.insertBeside includer.directory name outcome }, ?_, rfl,
      ?_, ?_, holds.bundles, holds.needed⟩
    · rw [Option.map_map]
      rfl
    · intro directory other
      rw [LookupCache.getBeside?_insertBeside, List.mem_append, List.mem_singleton, Prod.mk.injEq,
        ← holds.beside]
      by_cases same : directory = includer.directory ∧ other = name <;> simp [same]
    · intro other wanted
      exact holds.listed other wanted

/-- A lookup looks beside the including file first, if it is quoted and has one. -/
theorem run_look_beside_for (log : List Query) (name : String) (kind : IncludeKind)
    (includer : Option Includer) (want : PathRequest)
    (recalls : Naming.itself.Recalls view list memo) {known : Known}
    (holds : memo.Holds view list known) :
    let call := SearchCall.resolve name kind includer want
    ∃ after, Runs.run
        (SearchList.lookBesideFor name kind includer :
          StateT SearchMemo (Observed view) (Option Hit × Bool)) (memo, log) =
        ((SearchList.plainBeside view name kind includer,
            call.besideQuestion?.any (· ∈ known.beside)), after,
          log ++ (SearchList.besideAskings call known).flatMap view.questions) ∧
      after.stats = memo.stats ∧
      after.Holds view list
        { known with beside := known.beside ++ call.besideQuestion?.toList } := by
  have unasked : ∃ after, Runs.run
      (pure (none, false) : StateT SearchMemo (Observed view) (Option Hit × Bool)) (memo, log) =
        ((none, false), after, log ++ ([] : List Asking).flatMap view.questions) ∧
      after.stats = memo.stats ∧
      after.Holds view list { known with beside := known.beside ++ [] } := by
    refine ⟨memo, by simp, rfl, ?_⟩
    rw [List.append_nil]
    exact holds
  cases kind with
  | angled => exact unasked
  | quoted =>
    cases includer with
    | none => exact unasked
    | some includer =>
      obtain ⟨after, ran, stats, holdsAfter⟩ :=
        run_look_beside log name includer recalls holds
      refine ⟨after, ?_, stats, holdsAfter⟩
      refine ran.trans ?_
      by_cases member : (includer.directory, name) ∈ known.beside <;>
        simp [SearchCall.besideQuestion?, SearchList.besideAskings, FileView.questions, member]

/-- Naming the search path of a file asks nothing. -/
@[simp] theorem run_search_path (place : SearchPlace) (directory : Option DirHandle) :
    Runs.run (place.searchPath directory : StateT SearchMemo (Observed view) String) (memo, log) =
      (view.searchPath place directory, memo, log) := by
  unfold FileView.searchPath SearchPlace.searchPath
  split <;> simp

/-- Making the answer of a hit asks nothing. -/
theorem run_answer (name : String) (want : PathRequest) (hit : Hit) :
    Runs.run (list.answer name want hit : StateT SearchMemo (Observed view) FoundHeader)
      (memo, log) = (list.plainHeader view name want hit, memo, log) := by
  have path : Runs.run (list.searchPathOf hit : StateT SearchMemo (Observed view) String)
      (memo, log) = ((list.searchPathOf hit : Observed view String).value, memo, log) := by
    unfold SearchList.searchPathOf
    split
    · split
      · exact run_search_path _ _
      · simp
    · simp
    · simp
  unfold SearchList.plainHeader SearchList.answer
  cases want.searchPath <;> simp [path]

/-- The directory of the including file answers exactly when it holds the name. -/
theorem plain_beside_isSome (view : FileView) (name : String) (kind : IncludeKind)
    (includer : Option Includer) (want : PathRequest) :
    (SearchCall.resolve name kind includer want).answeredBeside view =
      (SearchList.plainBeside view name kind includer).isSome := by
  cases kind with
  | angled => cases includer <;> rfl
  | quoted =>
    cases includer with
    | none => rfl
    | some includer => exact (Option.isSome_map ..).symm

/-- A lookup asks what is not known, remembers it and is counted. -/
theorem run_resolve (log : List Query) (name : String) (kind : IncludeKind)
    (includer : Option Includer) (want : PathRequest)
    (recalls : Naming.itself.Recalls view list memo) {known : Known}
    (holds : memo.Holds view list known) :
    let call := SearchCall.resolve name kind includer want
    ∃ after, Runs.run
        (list.resolve name kind includer want :
          StateT SearchMemo (Observed view) (Option FoundHeader)) (memo, log) =
        (list.plainAnswer view name kind includer want, after,
          log ++ (list.askings view call known).flatMap view.questions) ∧
      after.stats = list.counted view call known memo.stats ∧
      after.Holds view list (list.learn view known call) := by
  intro call
  have recallsCounted := recalls.count fun stats => { stats with lookups := stats.lookups + 1 }
  have holdsCounted := holds.count fun stats => { stats with lookups := stats.lookups + 1 }
  obtain ⟨beside, asked, stats, holdsBeside⟩ :=
    run_look_beside_for log name kind includer want recallsCounted holdsCounted
  have recallsBeside := recalls_after (look_beside_for_yields itself_faithful name kind
    ⟨trivial, recallsCounted⟩ (related_self (fun _ => ⟨rfl, rfl⟩) includer)) asked
  have answer : list.plainAnswer view name kind includer want =
      ((SearchList.plainBeside view name kind includer).map (list.plainHeader view name want)).or
        ((list.plainHit view name kind).map (list.plainHeader view name want)) := by
    rw [SearchList.plainAnswer, list.beside_answer_eq view, list.first_answer_eq view]
  have answered : call.answeredBeside view = _ :=
    plain_beside_isSome view name kind includer want
  unfold SearchList.resolve
  simp only [Runs.run_bind, Runs.run_modify, asked]
  cases found : SearchList.plainBeside view name kind includer with
  | some hit =>
    rw [found, Option.isSome_some] at answered
    rw [found, Option.map_some, Option.some_or] at answer
    have asks : list.askings view call known = SearchList.besideAskings call known := by
      simp [SearchList.askings, SearchList.entryAskings, SearchList.searched_of_answered answered]
    simp only [Runs.run_bind, Runs.run_modify, Runs.run_map, run_answer]
    rw [answer, asks, SearchList.learn_of_answered answered]
    refine ⟨_, rfl, ?_, (holdsBeside.count _).countRemembered _⟩
    rw [SearchMemo.stats_countRemembered, SearchList.counted_of_answered answered (by simp [answer])]
    simp [SearchMemo.count, stats]
  | none =>
    rw [found, Option.isSome_none] at answered
    rw [found, Option.map_none, Option.none_or] at answer
    obtain ⟨listed, looked, statsListed, holdsListed⟩ := run_look_in_list
      (log ++ (SearchList.besideAskings call known).flatMap view.questions) name kind
      recallsBeside holdsBeside
    have holdsEnd := holdsListed.countRemembered (decide ((name, kind) ∈ known.listed))
    rw [SearchList.counted_of_unanswered answered, answer, SearchList.askings,
      SearchList.searched_of_unanswered answered, SearchList.learn_of_unanswered answered,
      List.flatMap_append, ← List.append_assoc]
    simp only [Runs.run_bind]
    rw [looked]
    simp only [Runs.run_modify]
    cases list.plainHit view name kind with
    | some hit =>
      simp only [Runs.run_map, run_answer]
      refine ⟨_, rfl, ?_, holdsEnd⟩
      rw [SearchMemo.stats_countRemembered, statsListed, stats]
      simp [SearchMemo.count]
    | none =>
      simp only [Runs.run_bind, Runs.run_modify, Runs.run_pure]
      refine ⟨_, rfl, ?_, holdsEnd.count _⟩
      simp [SearchMemo.count, SearchMemo.stats_countRemembered, statsListed, stats]

end Reading

end HeaderSearch
