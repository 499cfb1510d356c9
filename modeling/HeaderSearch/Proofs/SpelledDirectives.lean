import HeaderSearch.Proofs.ReportItems

/-!
# Directives and their spelled names

The names of directives can be looked up in two ways: as the directives that they stand in, with their
lines, or as spelled names. Reading undoes spelling whatever the name is, so item by item both ways make
the same lookup, which starts where the one before it ended. The reports therefore differ in the lines
alone, and whatever the store and the list keep is the same afterwards.
-/

namespace HeaderSearch

namespace Runs

variable {α β γ ω : Type} {m : Type → Type} [Monad m] [LawfulMonad m] [Runs m ω]

/-- The results for a list are that of its first item and then, from where that one ended, those of the
    others. -/
theorem run_mapM_cons (computation : α → m β) (item : α) (items : List α) (state : ω) :
    run ((item :: items).mapM computation) state =
      ((run (computation item) state).1 ::
          (run (items.mapM computation) (run (computation item) state).2).1,
        (run (items.mapM computation) (run (computation item) state).2).2) := by
  rw [List.mapM_cons]
  simp only [run_bind, run_pure]

/-- If each item's computation ends where that of the item's form ends, with a result adjusted to the
    item, then so do the computations for a list and for the forms of its items. Induct on the items
    from any state, since each computation starts where the one before it ended. -/
theorem run_mapM_adjusted {computation : α → m γ} {form : α → β} {formed : β → m γ}
    {adjust : α → γ → γ}
    (each : ∀ item state, run (computation item) state =
      (adjust item (run (formed (form item)) state).1, (run (formed (form item)) state).2))
    (items : List α) (state : ω) :
    run (items.mapM computation) state =
      (List.zipWith adjust items (run ((items.map form).mapM formed) state).1,
        (run ((items.map form).mapM formed) state).2) := by
  induction items generalizing state with
  | nil => simp
  | cons item items inductionHypothesis =>
    rw [List.map_cons, run_mapM_cons, run_mapM_cons, each]
    simp only [inductionHypothesis, List.zipWith_cons_cons]

end Runs

/-- The item of a report with the line that its include stands on. -/
def Item.onLine (item : Item) (line : Nat) : Item := { item with line := some line }

/-- A directive's name between the delimiters of its kind. -/
def Directive.spelled (directive : Directive) : String := directive.kind.spell directive.name

variable {ω : Type} {m : Type → Type} [Monad m] [Runs m ω] [FileStore m]

/-- The item of an answer has no line, whatever the answer and the store are. -/
theorem Item.ofLookup_unnumbered (name : String) (kind : IncludeKind) (found : Option FoundHeader)
    (state : ω) : (Runs.run (Item.ofLookup name kind found : m Item) state).1.line = none := by
  cases found with
  | none => simp [Item.ofLookup, Item.missing]
  | some header => simp [Item.ofLookup, Item.header]

namespace SearchList

variable (list : SearchList)

/-- The report of a name in the form of a directive is the one of the directive itself, but for the
    line, and leaves the same behind. Reading undoes the spelling, so that the kind which bare names are
    given has no part in it. -/
theorem run_report_directive (includer : Includer) (kind : IncludeKind) (directive : Directive)
    (state : SearchMemo × ω) :
    let spelled := Runs.run (list.reportSpelled kind (some includer) directive.spelled :
      StateT SearchMemo m Item) state
    Runs.run (list.reportDirective includer directive : StateT SearchMemo m Item) state =
      (spelled.1.onLine directive.line, spelled.2) := by
  have same : (list.reportSpelled kind (some includer) directive.spelled : StateT SearchMemo m Item) =
      list.report directive.name directive.kind (some includer) .all := by
    simp only [reportSpelled, Directive.spelled, IncludeKind.readSpelled_spell, Option.getD_some]
  rw [same]
  simp only [reportDirective, Runs.run_bind, Runs.run_pure]
  rfl

variable [LawfulMonad m]

/-- A report of spelled names has one item for each of them, without line. -/
theorem resolveNames_unnumbered (names : List String) (kind : IncludeKind)
    (includer : Option Includer) :
    Runs.Always (fun _ => True)
      (list.resolveNames names kind includer : StateT SearchMemo m (List Item))
      (List.Forall₂ (fun _ item => item.line = none) names) := by
  apply Runs.Always.mapM
  intro spelled _ state _
  constructor
  · trivial
  · simp only [reportSpelled, report, Runs.run_bind]
    apply Item.ofLookup_unnumbered

end SearchList

/-- Looking up directives and looking up their spelled names come to the same, over any store and from
    any state of the list and the store. Both leave the same counts and remembered outcomes behind and
    have asked the store the same. There is one item for each directive, in order, and the items are
    equal but for the line, which those of the directives carry and those of the names do not. Neither
    the kind for names without delimiters matters nor what the names are, since every name that is
    spelled as a kind reads as that name and kind. -/
theorem SearchList.directives_agree_with_spelled_names [LawfulMonad m] (list : SearchList)
    (includer : Includer) (directives : List Directive) (kind : IncludeKind)
    (state : SearchMemo × ω) :
    let ofDirectives := Runs.run
      (list.resolveDirectives includer directives : StateT SearchMemo m (List Item)) state
    let ofNames := Runs.run
      (list.resolveNames (directives.map Directive.spelled) kind (some includer) :
        StateT SearchMemo m (List Item)) state
    ofDirectives.2 = ofNames.2 ∧
      ofNames.1.length = directives.length ∧
      (∀ item ∈ ofNames.1, item.line = none) ∧
      ofDirectives.1 = List.zipWith (fun directive item => item.onLine directive.line) directives
        ofNames.1 ∧
      ∀ (spelling : IncludeKind) (name : String),
        IncludeKind.readSpelled (spelling.spell name) = (name, some spelling) := by
  intro ofDirectives ofNames
  have same : ofDirectives = (List.zipWith (fun directive item => item.onLine directive.line)
      directives ofNames.1, ofNames.2) :=
    Runs.run_mapM_adjusted (list.run_report_directive includer kind) directives state
  have unnumbered := (list.resolveNames_unnumbered (m := m)
    (directives.map Directive.spelled) kind (some includer) state trivial).2
  have counted : ofNames.1.length = directives.length := by
    rw [← List.length_map Directive.spelled]
    exact unnumbered.length_eq.symm
  constructor
  · rw [same]
  · refine ⟨counted, ?_, congrArg Prod.fst same, IncludeKind.readSpelled_spell⟩
    exact forall_of_related unnumbered fun _ _ _ none => none

/-- The names may hold delimiters themselves, here a quoted name that is spelled as an angled one and an
    empty one. The second lookup of the same name is answered from memory in either report. -/
theorem SearchList.hostile_directives_agree :
    let view := FileView.listing ["src"] ["src/<a>", "src/b.h"]
    let list : SearchList := ⟨[⟨.directory ⟨0⟩ "src", .user, false⟩], 0, []⟩
    let directives : List Directive := [⟨1, "<a>", .quoted⟩, ⟨5, "", .angled⟩, ⟨7, "<a>", .quoted⟩]
    let start : SearchMemo × List Query := (.fresh, [])
    let ofDirectives := Runs.run
      (list.resolveDirectives ⟨⟨0⟩, .user⟩ directives : StateT SearchMemo (Observed view) _) start
    let ofNames := Runs.run
      (list.resolveNames (directives.map Directive.spelled) .angled (some ⟨⟨0⟩, .user⟩) :
        StateT SearchMemo (Observed view) _) start
    directives.map Directive.spelled = ["\"<a>\"", "<>", "\"<a>\""] ∧
      LawfulMonad (Observed view) ∧ ofDirectives.2 = ofNames.2 ∧
      ofDirectives.1 = List.zipWith (fun directive item => item.onLine directive.line) directives
        ofNames.1 ∧
      ofNames.1.map (fun item => item.path) = [some "src/<a>", none, some "src/<a>"] ∧
      ofNames.2.1.stats.cacheHits = 1 := by
  intro view list directives start ofDirectives ofNames
  obtain ⟨left, -, -, items, -⟩ := directives_agree_with_spelled_names (m := Observed view) list
    ⟨⟨0⟩, .user⟩ directives .angled start
  refine ⟨?_, inferInstance, left, items, ?_, ?_⟩
  · decide
  · decide +kernel
  · decide +kernel

end HeaderSearch
