import HeaderSearch.Proofs.Building
import HeaderSearch.Proofs.Lookups
import HeaderSearch.Report.Lookups

/-!
# Lists and reports under a reading

A list that was built over a store corresponds to a list over the view: its places stand for the places
that a survey of the view comes to. What a report then says about a name is what the view says, as a
text without any handle, so that reports of different stores can be compared directly.
-/

namespace HeaderSearch

namespace Naming

variable {naming : Naming}

/-- What is left of a configuration corresponds when the surveyed places do. Induct on the entries. -/
theorem kept_among_as {places placesMeant : List (Option SearchPlace)}
    (same : List.Forall₂ (Option.Rel naming.PlaceAs) places placesMeant)
    (index : Nat) (entries : List ConfigEntry) :
    List.Forall₂ naming.EntryAs
      ((ConfigEntry.keptAmong index entries places).map Prod.snd)
      ((ConfigEntry.keptAmong index entries placesMeant).map Prod.snd) := by
  induction entries generalizing index places placesMeant with
  | nil =>
    unfold ConfigEntry.keptAmong
    exact .nil
  | cons entry entries inductionHypothesis =>
    cases same with
    | nil =>
      unfold ConfigEntry.keptAmong
      exact .nil
    | cons first rest =>
      have later := inductionHypothesis rest (index + 1)
      cases first with
      | none => exact later
      | some place => exact .cons ⟨place, rfl, rfl⟩ later

end Naming

namespace Reading

variable {α β ω : Type} {reading : Reading ω}
variable {m : Type → Type} [Monad m] [Runs m ω] {view : FileView} {state after : ω}

/-- A computation made for each item of a list yields the expected results in their order. Induct on
    the items: each starts where the one before it ended. -/
theorem Yields.mapM [LawfulMonad m] {computation : α → m β} {expected : α → β} {items : List α}
    (sound : reading.sound state)
    (each : ∀ item ∈ items, ∀ later, reading.sound later →
      (reading.naming state).Keeps (reading.naming later) →
      reading.Yields (computation item) later fun _ result => result = expected item) :
    reading.Yields (items.mapM computation) state fun _ results =>
      results = items.map expected := by
  induction items generalizing state with
  | nil =>
    rw [List.mapM_nil]
    exact .of_pure sound rfl
  | cons item items inductionHypothesis =>
    rw [List.mapM_cons]
    have first := each item List.mem_cons_self state sound (.refl _)
    refine first.bind fun result between sound keeps same => ?_
    subst same
    have rest := inductionHypothesis sound fun other member later soundLater keepsLater =>
      each other (List.mem_cons_of_mem _ member) later soundLater (keeps.trans keepsLater)
    refine rest.bind fun results after sound _ same => ?_
    subst same
    exact .of_pure sound rfl

variable [FileStore m]

/-- Surveying an entry comes to the place that the view has for it. -/
theorem survey_yields (faithful : reading.Faithful m view) (maps : HeaderMapSet)
    (entry : ConfigEntry) (sound : reading.sound state) :
    reading.Yields (entry.survey maps : m _) state fun after place =>
      Option.Rel (reading.naming after).PlaceAs place (entry.survey maps : Observed view _).value := by
  unfold ConfigEntry.survey
  cases entry.location with
  | directory path =>
    refine (faithful.directory? path sound).bind fun found after sound _ held => ?_
    refine .of_pure sound ?_
    simp only [Observed.value_bind, Observed.value_directory?, Observed.value_pure]
    exact related_map held fun _ _ known => .directory path.shown known
  | framework path =>
    refine (faithful.directory? path sound).bind fun found after sound _ held => ?_
    refine .of_pure sound ?_
    simp only [Observed.value_bind, Observed.value_directory?, Observed.value_pure]
    exact related_map held fun _ _ known => .framework path.shown known
  | headerMap path =>
    refine .of_pure sound ?_
    simp only [Observed.value_pure]
    cases maps.get? path entry.loadOptions with
    | none => exact .none
    | some map => exact .some (.headerMap map _)

/-- Surveying all entries comes to the places that the view has for them. -/
theorem survey_all_yields (faithful : reading.Faithful m view) (maps : HeaderMapSet)
    (entries : List ConfigEntry) (sound : reading.sound state) :
    reading.Yields (ConfigEntry.surveyAll maps entries : m _) state fun after places =>
      List.Forall₂ (Option.Rel (reading.naming after).PlaceAs) places
        (ConfigEntry.surveyAll maps entries : Observed view _).value := by
  induction entries generalizing state with
  | nil => exact .of_pure sound .nil
  | cons entry entries inductionHypothesis =>
    unfold ConfigEntry.surveyAll
    refine (survey_yields faithful maps entry sound).bind fun place between sound _ held => ?_
    refine (inductionHypothesis sound).bind fun places after sound keeps rest => ?_
    have first := related_grow held fun _ _ same => same.keep keeps
    exact .of_pure sound (.cons first rest)

/-- A list that was built corresponds to a list over the view. -/
theorem build_as (faithful : reading.Faithful m view) {config : Config} {maps : HeaderMapSet}
    {list : SearchList} (sound : reading.sound state)
    (built : Runs.run (config.build maps : m _) state = (.ok list, after)) :
    reading.sound after ∧ ∃ meant, (reading.naming after).ListAs list meant := by
  obtain ⟨places, _, surveyed, _, _, _, _, leaves⟩ := Config.build_leaves built
  have yielded := survey_all_yields faithful maps config.entries sound
  have soundAfter := yielded.sound
  have held := yielded.result
  rw [surveyed] at soundAfter held
  have entries := Naming.kept_among_as held 0 config.entries
  rw [← Config.kept, ← leaves.entries] at entries
  exact ⟨soundAfter, ⟨_, _, _⟩, entries, rfl, rfl⟩

end Reading

namespace SearchList

variable (view : FileView) (list : SearchList)

/-- The item of the answer to a lookup when nothing is remembered. -/
def plainItem (name : String) (kind : IncludeKind) (includer : Option Includer)
    (want : PathRequest) : Item :=
  (Item.ofLookup name kind (list.plainAnswer view name kind includer want) : Observed view _).value

/-- The item of a spelled name when nothing is remembered. -/
def plainSpelled (kind : IncludeKind) (includer : Option Includer) (spelled : String) : Item :=
  let (name, selected) := IncludeKind.readSpelled spelled
  list.plainItem view name (selected.getD kind) includer .all

/-- The item of a directive when nothing is remembered. -/
def plainDirective (includer : Includer) (directive : Directive) : Item :=
  { list.plainItem view directive.name directive.kind (some includer) .all with
    line := some directive.line }

end SearchList

namespace Reading

variable {ω : Type} {reading : Reading ω}
variable {m : Type → Type} [Monad m] [Runs m ω] [FileStore m] {view : FileView}

/-- The item of an answer has no handle, and is the one of the answer that it stands for. -/
theorem of_lookup_yields {state : ω} (faithful : reading.Faithful m view) (name : String)
    (kind : IncludeKind) {found foundMeant : Option FoundHeader} (sound : reading.sound state)
    (same : Option.Rel (reading.naming state).HeaderAs found foundMeant) :
    reading.Yields (Item.ofLookup name kind found : m Item) state fun _ item =>
      item = (Item.ofLookup name kind foundMeant : Observed view _).value := by
  cases same with
  | none => exact .of_pure sound rfl
  | @some header meant same =>
    obtain ⟨file, rest⟩ := same
    refine (faithful.filePath sound file).bind fun path after sound _ shown => ?_
    subst shown
    refine .of_pure sound ?_
    rw [← rest]
    rfl

variable {meant list : SearchList} {state : SearchMemo × ω} [LawfulMonad m]

/-- Reporting a lookup gives the item that the view gives without memory. -/
theorem report_yields (faithful : reading.Faithful m view) (name : String) (kind : IncludeKind)
    {includer includerMeant : Option Includer} (want : PathRequest)
    (sound : (reading.carrying view meant).sound state)
    (same : (reading.naming state.2).ListAs list meant)
    (known : Option.Rel (reading.naming state.2).IncluderAs includer includerMeant) :
    (reading.carrying view meant).Yields
      (list.report name kind includer want : StateT SearchMemo m Item) state
      fun _ item => item = meant.plainItem view name kind includerMeant want := by
  unfold SearchList.report
  refine (resolve_yields faithful name kind want sound same known).bind
    fun answer after sound _ held => ?_
  exact of_lookup_yields (faithful.carrying meant) name kind sound held

/-- Reporting names gives the items that the view gives for them, one by one. -/
theorem resolve_names_yields (faithful : reading.Faithful m view) (names : List String)
    (kind : IncludeKind) {includer includerMeant : Option Includer}
    (sound : (reading.carrying view meant).sound state)
    (same : (reading.naming state.2).ListAs list meant)
    (known : Option.Rel (reading.naming state.2).IncluderAs includer includerMeant) :
    (reading.carrying view meant).Yields
      (list.resolveNames names kind includer : StateT SearchMemo m (List Item)) state
      fun _ items => items = names.map (meant.plainSpelled view kind includerMeant) := by
  refine Yields.mapM sound fun spelled _ later sound keeps => ?_
  exact report_yields faithful _ _ .all sound (same.keep keeps)
    (related_grow known fun _ _ here => here.keep keeps)

/-- Reporting directives gives the items that the view gives for them, one by one. -/
theorem resolve_directives_yields (faithful : reading.Faithful m view)
    (directives : List Directive) {includer includerMeant : Includer}
    (sound : (reading.carrying view meant).sound state)
    (same : (reading.naming state.2).ListAs list meant)
    (known : (reading.naming state.2).IncluderAs includer includerMeant) :
    (reading.carrying view meant).Yields
      (list.resolveDirectives includer directives : StateT SearchMemo m (List Item)) state
      fun _ items => items = directives.map (meant.plainDirective view includerMeant) := by
  refine Yields.mapM sound fun directive _ later sound keeps => ?_
  refine (report_yields faithful directive.name directive.kind .all sound (same.keep keeps)
    (.some (known.keep keeps))).bind fun item after sound _ same => ?_
  subst same
  exact .of_pure sound rfl

end Reading

end HeaderSearch
