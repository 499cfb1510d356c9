import HeaderSearch.Proofs.Origins
import HeaderSearch.Proofs.ReportRecords
import HeaderSearch.Report.Listing
import HeaderSearch.Report.Lookups

/-!
# What a report consists of

A report of names or directives has one item for each of them, in order, and that item is about it: it
tells the header that was found or that none was. A listing has one item for each entry and one that
sums the list up. Whatever a list reports, over any store and after any calls, can be written and read
back item by item.
-/

namespace HeaderSearch

open StaysWithin

variable {ω : Type} {m : Type → Type} [Monad m] [Runs m ω] [FileStore m] {size : Nat}

namespace IncludeKind

/-- What stands between the delimiters of a kind is the name that the text spells. -/
theorem strip?_eq_some_iff {kind : IncludeKind} {text name : String} :
    kind.strip? text = some name ↔ text = kind.spell name := by
  constructor
  · intro stripped
    unfold strip? at stripped
    cases letters : text.toList with
    | nil => simp [letters] at stripped
    | cons first rest =>
      simp only [letters] at stripped
      split at stripped
      · next delimited =>
        obtain ⟨rfl, last⟩ := delimited
        obtain rfl := Option.some.inj stripped
        have ended : rest.dropLast ++ [kind.closing] = rest := List.dropLast_append_getLast? _ last
        rw [spell, String.toList_ofList, List.cons_append, ended, ← letters, String.ofList_toList]
      · cases stripped
  · rintro rfl
    simp [strip?, spell]

/-- A text asks for a name of a kind. It spells the name between the delimiters of the kind, or it has no
    pair of delimiters and is itself the name, of the kind that is asked for otherwise. -/
inductive Asks (otherwise : IncludeKind) : String → String → IncludeKind → Prop where
  | spelled (kind : IncludeKind) (name : String) : Asks otherwise (kind.spell name) name kind
  | bare {text : String} (plain : ∀ kind name, text ≠ spell kind name) :
      Asks otherwise text text otherwise

/-- A text asks for what is read from it. -/
theorem asks_readSpelled (otherwise : IncludeKind) (text : String) :
    otherwise.Asks text (readSpelled text).1 ((readSpelled text).2.getD otherwise) := by
  unfold readSpelled
  cases brackets : angled.strip? text with
  | some name =>
    obtain rfl := strip?_eq_some_iff.1 brackets
    exact .spelled angled name
  | none =>
    cases quotes : quoted.strip? text with
    | some name =>
      obtain rfl := strip?_eq_some_iff.1 quotes
      exact .spelled quoted name
    | none =>
      refine .bare fun kind name same => ?_
      cases kind with
      | angled => cases brackets.symm.trans (strip?_eq_some_iff.2 same)
      | quoted => cases quotes.symm.trans (strip?_eq_some_iff.2 same)

end IncludeKind

/-- An item answers a name of a kind, looked up in a list of some size: it tells the header that was
    found, with the entry that led to it, or that none was found. -/
structure Item.Answers (size : Nat) (name : String) (kind : IncludeKind) (line : Option Nat)
    (item : Item) : Prop where
  named : item.name = some name
  spelled : item.includeKind = some kind
  numbered : item.line = line
  outcome : (item.kind = .header ∧ item.path.isSome ∧ item.errors = []) ∨
    (item.kind = .notFound ∧ item.path = none ∧ item.errors = [Item.missingError name])
  data : ∀ document ∈ item.data, ∃ index < size,
    document = .ofSortedFields [("entry", .ofNat index)]

/-- The item of an answer that comes from within a list answers the name. -/
theorem Item.ofLookup_stays (name : String) (kind : IncludeKind) {found : Option FoundHeader}
    {bound : Nat} (within : ∀ header ∈ found, header.origin.Within bound) :
    StaysWithin size (Item.ofLookup name kind found : StateT SearchMemo m Item)
      (Item.Answers bound name kind none) := by
  cases found with
  | none =>
    refine .of_pure ⟨rfl, rfl, rfl, .inr ⟨rfl, rfl, rfl⟩, ?_⟩
    exact fun _ none => absurd none (Option.not_mem_none _)
  | some header =>
    refine (of_lift (FileStore.filePath _)).bind fun path _ => ?_
    refine .of_pure ⟨rfl, rfl, rfl, .inl ⟨rfl, rfl, rfl⟩, fun document there => ?_⟩
    have origin := within header rfl
    generalize header.origin = from' at origin there
    cases from' with
    | includer => exact absurd there (Option.not_mem_none _)
    | entry index => exact ⟨index, origin, (Option.some.inj there).symm⟩

namespace SearchList

variable [LawfulMonad m] (list : SearchList)

/-- The report of a lookup answers the name. -/
theorem report_stays (name : String) (kind : IncludeKind) (includer : Option Includer)
    (want : PathRequest) :
    StaysWithin list.size (list.report name kind includer want : StateT SearchMemo m Item)
      (Item.Answers list.size name kind none) := by
  refine (list.resolve_stays name kind includer want).bind fun found within => ?_
  exact Item.ofLookup_stays name kind within

/-- The report of spelled names has one item for each, in order, that answers the name and kind that it
    asks for. -/
theorem resolveNames_stays (names : List String) (kind : IncludeKind)
    (includer : Option Includer) :
    StaysWithin list.size
      (list.resolveNames names kind includer : StateT SearchMemo m (List Item))
      (List.Forall₂ (fun spelled item => ∃ name asked, kind.Asks spelled name asked ∧
        item.Answers list.size name asked none) names) := by
  refine Runs.Always.mapM fun spelled _ => ?_
  apply (list.report_stays _ _ includer .all).weaken
  intro item answers
  exact ⟨_, _, kind.asks_readSpelled spelled, answers⟩

/-- The report of directives has one item for each, in order, that answers its name on its line. -/
theorem resolveDirectives_stays (includer : Includer) (directives : List Directive) :
    StaysWithin list.size
      (list.resolveDirectives includer directives : StateT SearchMemo m (List Item))
      (List.Forall₂ (fun directive => Item.Answers list.size directive.name directive.kind
        (some directive.line)) directives) := by
  refine Runs.Always.mapM fun directive _ => ?_
  refine (list.report_stays directive.name directive.kind (some includer) .all).bind
    fun item answers => ?_
  exact .of_pure ⟨answers.named, answers.spelled, rfl, answers.outcome, answers.data⟩

end SearchList

/-- The items that a list can report: those of names and those of directives after any calls on the
    list, over any store, and its own listing. -/
inductive SearchList.Reports (list : SearchList) : List Item → Prop where
  | names {m : Type → Type} {ω : Type} [Monad m] [LawfulMonad m] [Runs m ω] [FileStore m]
      {memo : SearchMemo} (remembers : list.Remembers memo) (state : ω) (names : List String)
      (kind : IncludeKind) (includer : Option Includer) :
      Reports list (Runs.run
        (list.resolveNames names kind includer : StateT SearchMemo m (List Item)) (memo, state)).1
  | directives {m : Type → Type} {ω : Type} [Monad m] [LawfulMonad m] [Runs m ω] [FileStore m]
      {memo : SearchMemo} (remembers : list.Remembers memo) (state : ω) (includer : Includer)
      (directives : List Directive)
      (lines : ∀ directive ∈ directives, directive.line < Item.lineBound) :
      Reports list (Runs.run
        (list.resolveDirectives includer directives : StateT SearchMemo m (List Item))
        (memo, state)).1
  | listing : Reports list list.listing

/-- An item that answers a name can be written if its positions and its line can. -/
theorem Item.Answers.writable {name : String} {kind : IncludeKind} {line : Option Nat} {item : Item}
    (answers : item.Answers size name kind line) (fits : size < UInt64.size)
    (lines : ∀ number ∈ line, number < Item.lineBound) : item.Writable where
  line := answers.numbered ▸ lines
  data document there := by
    obtain ⟨index, below, rfl⟩ := answers.data document there
    refine .record fun field inside => ?_
    obtain rfl := List.mem_singleton.mp inside
    exact .natural (Nat.lt_trans below fits)

namespace SearchList

variable (list : SearchList)

/-- The items of a listing can be written if the positions of the list can. -/
theorem listing_writable (fits : list.size < UInt64.size)
    (start : list.angledStart < UInt64.size) : ∀ item ∈ list.listing, item.Writable := by
  intro item there
  rcases List.mem_append.mp there with entry | summary
  · obtain ⟨index, inside, rfl⟩ := List.mem_mapIdx.mp entry
    have position : index < UInt64.size := Nat.lt_trans inside fits
    refine ⟨fun _ none => absurd none (Option.not_mem_none _), fun document there => ?_⟩
    obtain rfl := Option.some.inj there
    refine .record ?_
    simp only [List.forall_mem_cons]
    exact ⟨.natural position, .text _, .bool _, .bool _, .bool _, List.forall_mem_nil _⟩
  · obtain rfl := List.mem_singleton.mp summary
    refine ⟨fun _ none => absurd none (Option.not_mem_none _), fun document there => ?_⟩
    obtain rfl := Option.some.inj there
    have frameworks : Json.Settled (.array (list.systemFrameworks.map .ofText)) := by
      refine .list fun document there => ?_
      obtain ⟨name, -, rfl⟩ := List.mem_map.mp there
      exact .text name
    refine .record ?_
    simp only [List.forall_mem_cons]
    exact ⟨.natural fits, .natural start, frameworks, .text _, List.forall_mem_nil _⟩

/-- The items of related lists have a property if each related item has it. -/
theorem forall_of_related {α β : Type} {related : α → β → Prop} {sources : List α} {items : List β}
    {property : β → Prop} (all : List.Forall₂ related sources items)
    (each : ∀ source ∈ sources, ∀ item, related source item → property item) :
    ∀ item ∈ items, property item := by
  induction all with
  | nil => exact List.forall_mem_nil _
  | cons first _ inductionHypothesis =>
    refine List.forall_mem_cons.mpr ⟨each _ List.mem_cons_self _ first, ?_⟩
    exact inductionHypothesis fun source there => each source (List.mem_cons_of_mem _ there)

/-- Whatever a list reports can be written. -/
theorem Reports.writable {list : SearchList} {items : List Item} (reports : list.Reports items)
    (fits : list.size < UInt64.size) (start : list.angledStart < UInt64.size) :
    ∀ item ∈ items, item.Writable := by
  cases reports with
  | @names m _ _ _ _ _ memo remembers state names kind includer =>
    have reported := list.resolveNames_stays (m := m) names kind includer (memo, state)
      remembers.within
    refine forall_of_related reported.2 fun spelled _ item answered => ?_
    obtain ⟨_, _, -, answers⟩ := answered
    exact answers.writable fits fun _ none => absurd none (Option.not_mem_none _)
  | @directives m _ _ _ _ _ memo remembers state includer directives lines =>
    have reported := list.resolveDirectives_stays (m := m) includer directives (memo, state)
      remembers.within
    refine forall_of_related reported.2 fun directive there item answers => ?_
    refine answers.writable fits fun line same => ?_
    obtain rfl := Option.some.inj same
    exact lines directive there
  | listing => exact list.listing_writable fits start

end SearchList

end HeaderSearch
