import HeaderSearch.CommandLine.Run
import HeaderSearch.Proofs.Caching
import HeaderSearch.Proofs.CanonicalStore
import HeaderSearch.Proofs.Reports

/-!
# Sessions without history

A session is a search list with what its lookups and its store remember. It is opened over a file
system that does not change, and then answers requests, in any order and mixed with lookups in single
entries and questions about directories. Including files are named by their directories, whose handles
come from the store of the session. Every item is the one that a session opened anew gives when it is
asked for that item only, although the two number what they see in different orders.
-/

namespace HeaderSearch

/-- A search list with what its lookups and its store remember. -/
structure Session where
  /-- The search list. -/
  list : SearchList
  /-- What its lookups remember. -/
  lookups : SearchMemo
  /-- What its store remembers. -/
  files : FileMemo

/-- An including file, by the path of its directory, as a session holds it. -/
structure HeldIncluder where
  /-- The path of its directory. -/
  path : Path
  /-- The including file, with the handle that the session has for the directory. -/
  includer : Includer
deriving DecidableEq, Repr

/-- A request for items. -/
inductive Request where
  /-- The items of spelled names, as the given kind if they have no delimiters. -/
  | names (names : List String) (kind : IncludeKind) (includer : Option HeldIncluder)
  /-- The items of the directives of a file. -/
  | directives (includer : HeldIncluder) (directives : List Directive)
deriving DecidableEq, Repr

section Asking

variable {m : Type → Type} [Monad m] [FileStore m]

namespace HeldIncluder

/-- The including file with a handle that is asked for now. -/
def obtain? (held : HeldIncluder) : m (Option Includer) := do
  let found ← FileStore.directory? held.path
  return found.map fun directory => ⟨directory, held.includer.characteristic⟩

end HeldIncluder

namespace Request

/-- The including files that a request names. -/
def includers : Request → List HeldIncluder
  | names _ _ includer => includer.toList
  | directives includer _ => [includer]

/-- The requests for each of the items alone. -/
def singles : Request → List Request
  | names spelled kind includer => spelled.map fun name => names [name] kind includer
  | directives includer found => found.map fun directive => directives includer [directive]

/-- Answers a request with the handles that are held. -/
def answer (list : SearchList) : Request → StateT SearchMemo m (List Item)
  | names spelled kind includer =>
    list.resolveNames spelled kind (includer.map HeldIncluder.includer)
  | directives includer found => list.resolveDirectives includer.includer found

/-- Answers a request with handles that are asked for now. There is no answer if the directory of the
    including file is not there. -/
def answerAnew (list : SearchList) : Request → StateT SearchMemo m (Option (List Item))
  | names spelled kind none => some <$> list.resolveNames spelled kind none
  | names spelled kind (some held) => do
    match ← held.obtain? with
    | none => return none
    | some includer => some <$> list.resolveNames spelled kind (some includer)
  | directives held found => do
    match ← held.obtain? with
    | none => return none
    | some includer => some <$> list.resolveDirectives includer found

end Request

end Asking

namespace Session

variable (facts : FileFacts)

/-- Opens a session: loads the header maps and builds the list over a store that has seen nothing. -/
def open? (config : Config) : Option Session :=
  match (config.loadMaps : FileFacts.Given facts _).result with
  | .error _ => none
  | .ok maps =>
    match ((config.build maps : StateT FileMemo (FileFacts.Given facts) _).run .fresh).result with
    | (.error _, _) => none
    | (.ok list, files) => some ⟨list, .fresh, files⟩

variable {facts}

/-- Runs a computation in a session. -/
def run {α : Type} (session : Session)
    (computation : CommandLine.SessionM (FileFacts.Given facts) α) : α × Session :=
  let ((value, lookups), files) := ((computation.run session.lookups).run session.files).result
  (value, { session with lookups, files })

variable (facts)

/-- The items with which a session answers a request, and the session afterwards. -/
def ask (session : Session) (request : Request) : List Item × Session :=
  session.run (request.answer session.list : CommandLine.SessionM (FileFacts.Given facts) _)

/-- The answer of a session of the configuration that is opened anew and asked nothing else. -/
def askAnew (config : Config) (request : Request) : Option (List Item) := do
  let session ← open? facts config
  (session.run (request.answerAnew session.list : CommandLine.SessionM (FileFacts.Given facts) _)).1

/-- The session after a question about a directory, and the handle that it gave out. -/
def askDirectory (session : Session) (path : Path) : Option DirHandle × Session :=
  session.run (FileStore.directory? path : CommandLine.SessionM (FileFacts.Given facts) _)

/-- The session after a lookup in the entry at a position alone. -/
def lookIn (session : Session) (index : Nat) (name : String) (want : PathRequest) :
    Option EntryMatch × Session :=
  session.run (session.list.lookupIn index name want :
    CommandLine.SessionM (FileFacts.Given facts) _)

end Session

/-- The including files of a request are named by paths that were asked about, and have the handles
    that were given out for these. -/
def Request.Obtained (request : Request) (held : List (Path × DirHandle)) : Prop :=
  ∀ includer ∈ request.includers, (includer.path, includer.includer.directory) ∈ held

/-- A session can be reached from another, with the handles that were given out on the way and the
    paths that they were given out for. -/
inductive Session.Reached (facts : FileFacts) (start : Session) :
    Session → List (Path × DirHandle) → Prop where
  | start : Reached facts start start []
  | directory {session : Session} {held : List (Path × DirHandle)} (path : Path)
      (reached : Reached facts start session held) :
      Reached facts start (session.askDirectory facts path).2
        (((session.askDirectory facts path).1.map fun handle => (path, handle)).toList ++ held)
  | lookup {session : Session} {held : List (Path × DirHandle)} (index : Nat) (name : String)
      (want : PathRequest) (reached : Reached facts start session held) :
      Reached facts start (session.lookIn facts index name want).2 held
  | request {session : Session} {held : List (Path × DirHandle)} (request : Request)
      (obtained : request.Obtained held) (reached : Reached facts start session held) :
      Reached facts start (session.ask facts request).2 held

namespace Request

variable (view : FileView) (meant : SearchList)

/-- The items of a request over a view when nothing is remembered. -/
def plain : Request → List Item
  | names spelled kind includer =>
    spelled.map (meant.plainSpelled view kind
      (includer.bind fun held => (held.obtain? : Observed view _).value))
  | directives held found =>
    ((held.obtain? : Observed view _).value.map fun includer =>
      found.map (meant.plainDirective view includer)).getD []

/-- The requests for single items name the including file of the whole request. -/
theorem includers_of_single (request : Request) {single : Request}
    (member : single ∈ request.singles) : single.includers = request.includers := by
  cases request with
  | names spelled kind includer =>
    obtain ⟨name, _, rfl⟩ := List.mem_map.mp member
    rfl
  | directives includer found =>
    obtain ⟨directive, _, rfl⟩ := List.mem_map.mp member
    rfl

/-- The items of a request are those of the requests for each of them alone. -/
theorem plain_singles (request : Request)
    (there : ∀ held ∈ request.includers, (held.obtain? : Observed view _).value.isSome) :
    request.singles.map (plain view meant) = (request.plain view meant).map fun item => [item] := by
  cases request with
  | names spelled kind includer =>
    simp only [singles, plain, List.map_map]
    rfl
  | directives held found =>
    obtain ⟨includer, present⟩ := Option.isSome_iff_exists.mp (there held List.mem_cons_self)
    rw [singles, plain, present, Option.map_some, Option.getD_some, List.map_map, List.map_map]
    refine List.map_congr_left fun directive _ => ?_
    rw [Function.comp_apply, plain, present]
    rfl

end Request

namespace Session

variable {facts : FileFacts} {meant : SearchList} {session start : Session}
variable {held : List (Path × DirHandle)}

/-- What a session remembers, as a state of its computations. -/
def state (session : Session) : SearchMemo × FileMemo × Unit :=
  (session.lookups, session.files, ())

/-- A session agrees with the view of canonical paths: its memo recalls a list of the view that its own
    list stands for, and the handles that it gave out stand for what the view has. -/
structure Means (session : Session) (facts : FileFacts) (meant : SearchList)
    (held : List (Path × DirHandle)) : Prop where
  sound : (facts.reading.carrying facts.view meant).sound session.state
  list : session.files.naming.ListAs session.list meant
  held {path : Path} {handle : DirHandle} : (path, handle) ∈ held →
    ∃ meaning, facts.view.directory? path = some meaning ∧
      session.files.naming.DirectoryAs handle meaning

/-- Whatever a computation yields, it yields in a session that agrees with the view, and the session
    still agrees afterwards. -/
theorem Means.run {α : Type} (means : session.Means facts meant held)
    {computation : CommandLine.SessionM (FileFacts.Given facts) α}
    {expected : SearchMemo × FileMemo × Unit → α → Prop}
    (yielded : (facts.reading.carrying facts.view meant).Yields computation session.state expected) :
    (session.run computation).2.Means facts meant held ∧
      expected (session.run computation).2.state (session.run computation).1 := by
  have keeps : session.files.naming.Keeps (session.run computation).2.files.naming := yielded.keeps
  refine ⟨⟨yielded.sound, means.list.keep keeps, ?_⟩, yielded.result⟩
  intro path handle member
  obtain ⟨meaning, there, known⟩ := means.held member
  exact ⟨meaning, there, keeps.directory known⟩

/-- A session that was just opened agrees with the view. -/
theorem open_means (coherent : facts.Coherent) {config : Config}
    (opened : open? facts config = some start) : ∃ meant, start.Means facts meant [] := by
  unfold open? at opened
  split at opened
  · simp at opened
  · next maps loaded =>
    split at opened
    · simp at opened
    · next list files built =>
      obtain rfl := Option.some.inj opened
      have ran : Runs.run (config.build maps : StateT FileMemo (FileFacts.Given facts) _)
          (FileMemo.fresh, ()) = (.ok list, files, ()) :=
        congrArg (fun ended => (ended.1, ended.2, ())) built
      have new : facts.reading.sound (FileMemo.fresh, ()) := FileMemo.Agrees.fresh
      obtain ⟨agrees, meant, same⟩ := Reading.build_as (facts.reading_faithful coherent) new ran
      exact ⟨meant, ⟨agrees, .fresh⟩, same, by simp⟩

/-- An including file that a session holds stands for the one that the view has. -/
theorem Means.includer (means : session.Means facts meant held) {includer : HeldIncluder}
    (member : (includer.path, includer.includer.directory) ∈ held) :
    ∃ includerMeant, (includer.obtain? : Observed facts.view _).value = some includerMeant ∧
      session.files.naming.IncluderAs includer.includer includerMeant := by
  obtain ⟨meaning, there, known⟩ := means.held member
  refine ⟨⟨meaning, includer.includer.characteristic⟩, ?_, known, rfl⟩
  simp only [HeldIncluder.obtain?, Observed.value_bind, Observed.value_directory?,
    Observed.value_pure, there, Option.map_some]

/-- Answering a request with handles that were given out gives the items of the view. -/
theorem Means.answer (means : session.Means facts meant held) (coherent : facts.Coherent)
    {request : Request} (obtained : request.Obtained held) :
    (facts.reading.carrying facts.view meant).Yields
      (request.answer session.list : CommandLine.SessionM (FileFacts.Given facts) _) session.state
      fun _ items => items = request.plain facts.view meant := by
  have faithful := facts.reading_faithful coherent
  cases request with
  | names spelled kind includer =>
    cases includer with
    | none => exact Reading.resolve_names_yields faithful spelled kind means.sound means.list .none
    | some includer =>
      obtain ⟨includerMeant, there, known⟩ :=
        means.includer (obtained includer List.mem_cons_self)
      rw [Request.plain, Option.bind_some, there]
      exact Reading.resolve_names_yields faithful spelled kind means.sound means.list
        (.some known)
  | directives includer found =>
    obtain ⟨includerMeant, there, known⟩ := means.includer (obtained includer List.mem_cons_self)
    rw [Request.plain, there, Option.map_some, Option.getD_some]
    exact Reading.resolve_directives_yields faithful found means.sound means.list known

/-- Asking for the handle of an including file that the view has gives one that stands for it. -/
theorem obtain_yields (coherent : facts.Coherent) {includer : HeldIncluder} {includerMeant : Includer}
    {state : SearchMemo × FileMemo × Unit}
    (sound : (facts.reading.carrying facts.view meant).sound state)
    (there : (includer.obtain? : Observed facts.view _).value = some includerMeant) :
    (facts.reading.carrying facts.view meant).Yields
      (includer.obtain? : CommandLine.SessionM (FileFacts.Given facts) _) state
      fun after found => ∃ obtained, found = some obtained ∧
        (facts.reading.naming after.2).IncluderAs obtained includerMeant := by
  have faithful := (facts.reading_faithful coherent).carrying meant
  simp only [HeldIncluder.obtain?, Observed.value_bind, Observed.value_directory?,
    Observed.value_pure, Option.map_eq_some_iff] at there
  obtain ⟨meaning, present, rfl⟩ := there
  unfold HeldIncluder.obtain?
  refine (faithful.directory? includer.path sound).bind fun found after sound _ same => ?_
  rw [present] at same
  rcases related_cases same with ⟨_, absent⟩ | ⟨handle, _, rfl, here, known⟩
  · simp at absent
  · obtain rfl := Option.some.inj here
    exact .of_pure sound ⟨_, rfl, known, rfl⟩

/-- Answering a request with handles that are asked for now gives the items of the view. -/
theorem Means.answer_anew (means : session.Means facts meant held) (coherent : facts.Coherent)
    {request : Request}
    (there : ∀ includer ∈ request.includers,
      (includer.obtain? : Observed facts.view _).value.isSome) :
    (facts.reading.carrying facts.view meant).Yields
      (request.answerAnew session.list : CommandLine.SessionM (FileFacts.Given facts) _)
      session.state fun _ items => items = some (request.plain facts.view meant) := by
  have faithful := facts.reading_faithful coherent
  cases request with
  | names spelled kind includer =>
    cases includer with
    | none =>
      refine Reading.Yields.map ?_
      refine (Reading.resolve_names_yields faithful spelled kind means.sound means.list
        .none).weaken fun items after _ same => ?_
      rw [same]
      rfl
    | some includer =>
      obtain ⟨includerMeant, present⟩ :=
        Option.isSome_iff_exists.mp (there includer List.mem_cons_self)
      refine (obtain_yields coherent means.sound present).bind fun found after sound keeps held => ?_
      obtain ⟨obtained, rfl, known⟩ := held
      refine Reading.Yields.map ?_
      refine (Reading.resolve_names_yields faithful spelled kind sound (means.list.keep keeps)
        (.some known)).weaken fun items after _ same => ?_
      rw [same, Request.plain, Option.bind_some, present]
  | directives includer found =>
    obtain ⟨includerMeant, present⟩ :=
      Option.isSome_iff_exists.mp (there includer List.mem_cons_self)
    refine (obtain_yields coherent means.sound present).bind fun result after sound keeps held => ?_
    obtain ⟨obtained, rfl, known⟩ := held
    refine Reading.Yields.map ?_
    refine (Reading.resolve_directives_yields faithful found sound (means.list.keep keeps)
      known).weaken fun items after _ same => ?_
    rw [same, Request.plain, present]
    rfl

/-- The session agrees with the view wherever it is reached. Induct on the way there: a question about a
    directory adds a handle that stands for what the view has, and nothing else adds any. -/
theorem Means.reached (means : start.Means facts meant []) (coherent : facts.Coherent)
    (reached : Reached facts start session held) : session.Means facts meant held := by
  induction reached with
  | start => exact means
  | @directory session held path _ inductionHypothesis =>
    have faithful := (facts.reading_faithful coherent).carrying meant
    obtain ⟨after, same⟩ := inductionHypothesis.run
      (faithful.directory? path inductionHypothesis.sound)
    refine ⟨after.sound, after.list, ?_⟩
    intro other handle member
    rcases List.mem_append.mp member with new | old
    · obtain ⟨given, answered, asked⟩ := Option.map_eq_some_iff.mp (Option.mem_toList.mp new)
      obtain ⟨rfl, rfl⟩ := Prod.mk.inj asked
      rcases related_cases same with ⟨absent, _⟩ | ⟨_, meaning, here, present, known⟩
      · exact (Option.some_ne_none given (answered.symm.trans absent)).elim
      · obtain rfl := Option.some.inj (answered.symm.trans here)
        exact ⟨meaning, present, known⟩
    · exact after.held old
  | lookup index name want _ inductionHypothesis =>
    exact (inductionHypothesis.run (Reading.lookup_in_yields (facts.reading_faithful coherent) index
      name want inductionHypothesis.sound inductionHypothesis.list)).1
  | request request obtained _ inductionHypothesis =>
    exact (inductionHypothesis.run (inductionHypothesis.answer coherent obtained)).1

/-- In a session that agrees with the view a request is answered with the items of the view. -/
theorem Means.ask (means : session.Means facts meant held) (coherent : facts.Coherent)
    {request : Request} (obtained : request.Obtained held) :
    (session.ask facts request).1 = request.plain facts.view meant :=
  (means.run (means.answer coherent obtained)).2

/-- A session opened anew answers a request with the items of the view. -/
theorem Means.ask_anew (means : start.Means facts meant []) (coherent : facts.Coherent)
    {config : Config} (opened : open? facts config = some start) {request : Request}
    (there : ∀ includer ∈ request.includers,
      (includer.obtain? : Observed facts.view _).value.isSome) :
    askAnew facts config request = some (request.plain facts.view meant) := by
  rw [askAnew, opened]
  exact (means.run (means.answer_anew coherent there)).2

/-- The items of a session do not depend on its history. Over a file system that answers spellings of a
    directory alike, each item of a request, made in whatever session was reached by requests, lookups
    in single entries and questions about directories, is the item that a session opened anew gives to
    the request for this item alone. So permuting the names of a request permutes its items with them,
    and changes no later item. -/
theorem items_do_not_depend_on_history {config : Config} (coherent : facts.Coherent)
    (opened : open? facts config = some start) (reached : Reached facts start session held) :
    (∀ request : Request, request.Obtained held →
      ((session.ask facts request).1.map fun item => some [item]) =
        request.singles.map (askAnew facts config)) ∧
    ∀ names permuted kind includer, (Request.names names kind includer).Obtained held →
      permuted.Perm names →
      let asked := session.ask facts (.names names kind includer)
      let askedPermuted := session.ask facts (.names permuted kind includer)
      (permuted.zip askedPermuted.1).Perm (names.zip asked.1) ∧
        ∀ later : Request, later.Obtained held →
          (askedPermuted.2.ask facts later).1 = (asked.2.ask facts later).1 := by
  obtain ⟨meant, means⟩ := open_means coherent opened
  have here := means.reached coherent reached
  constructor
  · intro request obtained
    have there : ∀ includer ∈ request.includers,
        (includer.obtain? : Observed facts.view _).value.isSome := by
      intro includer member
      obtain ⟨includerMeant, present, _⟩ := here.includer (obtained includer member)
      exact Option.isSome_iff_exists.mpr ⟨includerMeant, present⟩
    have anew : ∀ single ∈ request.singles,
        askAnew facts config single = some (single.plain facts.view meant) := by
      intro single member
      refine means.ask_anew coherent opened ?_
      rw [request.includers_of_single member]
      exact there
    rw [here.ask coherent obtained]
    calc (request.plain facts.view meant).map (fun item => some [item])
        = ((request.plain facts.view meant).map fun item => [item]).map some := by
          rw [List.map_map]
          rfl
      _ = (request.singles.map (Request.plain facts.view meant)).map some := by
          rw [request.plain_singles facts.view meant there]
      _ = request.singles.map (askAnew facts config) := by
          rw [List.map_map]
          exact (List.map_congr_left anew).symm
  · intro names permuted kind includer obtained same asked askedPermuted
    have obtainedPermuted : (Request.names permuted kind includer).Obtained held := obtained
    constructor
    · have items : asked.1 = _ := here.ask coherent obtained
      have itemsPermuted : askedPermuted.1 = _ := here.ask coherent obtainedPermuted
      rw [items, itemsPermuted, Request.plain, Request.plain, ← List.map_prod_left_eq_zip,
        ← List.map_prod_left_eq_zip]
      exact same.map _
    · intro later obtainedLater
      have after := (here.run (here.answer coherent obtained)).1
      have afterPermuted := (here.run (here.answer coherent obtainedPermuted)).1
      exact (afterPermuted.ask coherent obtainedLater).trans
        (after.ask coherent obtainedLater).symm

/-- Two directories that hold a header of one name. -/
def twoHeaders : FileFacts :=
  .listing [⟨"/include"⟩, ⟨"/source"⟩] [⟨"/include/a.h"⟩, ⟨"/source/a.h"⟩]

/-- A configuration with the first of the two directories. -/
def oneDirectory : Config where
  entries := [{ location := .directory ⟨"/include/"⟩ }]

/-- After the directory of an including file was asked for by another spelling and a header was looked
    up, two items are those of sessions opened anew. -/
theorem two_items_without_history :
    ∃ start session held, open? twoHeaders oneDirectory = some start ∧
      Reached twoHeaders start session held ∧
      let includer : HeldIncluder := ⟨⟨"/source//."⟩, ⟨1⟩, .user⟩
      ((session.ask twoHeaders (.names ["a.h", "<a.h>"] .quoted (some includer))).1.map
          fun item => some [item]) =
        [askAnew twoHeaders oneDirectory (.names ["a.h"] .quoted (some includer)),
          askAnew twoHeaders oneDirectory (.names ["<a.h>"] .quoted (some includer))] := by
  obtain ⟨start, opened, given⟩ : ∃ start, open? twoHeaders oneDirectory = some start ∧
      ((start.lookIn twoHeaders 0 "a.h" .all).2.askDirectory twoHeaders ⟨"/source//."⟩).1 =
        some ⟨1⟩ := ⟨⟨_, _, _⟩, rfl, rfl⟩
  have reached : Reached twoHeaders start _ _ := (Reached.start.lookup 0 "a.h" .all).directory
    ⟨"/source//."⟩
  have history := (items_do_not_depend_on_history (FileFacts.listing_coherent _ _) opened reached).1
  refine ⟨start, _, _, opened, reached, ?_⟩
  intro includer
  refine history (.names ["a.h", "<a.h>"] .quoted (some includer)) ?_
  intro other member
  obtain rfl : other = includer := List.mem_singleton.mp member
  rw [given]
  exact List.mem_cons_self

end Session

end HeaderSearch
