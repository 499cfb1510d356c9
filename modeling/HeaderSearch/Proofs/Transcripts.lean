import HeaderSearch.Proofs.DirectiveLines
import HeaderSearch.Proofs.Listings
import HeaderSearch.Proofs.Mirroring
import HeaderSearch.Proofs.ReportItems

/-!
# What a command writes

Each command has one place where it writes, behind everything that can fail. `Writes` says so of a
command and of a silent computation of the items that it reports: the command asks the same and ends
in the same state, and the report of the items is all that it writes. Everything before is mirrored.
The statistics come after that, so a failure leaves both streams untouched.
-/

namespace HeaderSearch.CommandLine

open Runs

variable {ω : Type} {m : Type → Type} [Monad m] [Runs m ω]

/-- The state of a session with a transcript beside it. -/
def beside (written : Transcript) :
    SearchMemo × FileMemo × ω → SearchMemo × FileMemo × Transcript × ω :=
  Prod.map id (Prod.map id (Prod.mk written))

/-- The transcript with one more line on the standard stream. -/
def Transcript.line (written : Transcript) (text : String) : Transcript :=
  { written with standard := written.standard ++ (text ++ "\n") }

/-- A command asks and ends as a silent computation of items does, and writes the report of the items,
    or nothing if there is a failure. -/
def Writes (style : ReportStyle) (command : SessionM (StateT Transcript m) (Except Failure Unit))
    (items : SessionM m (Except Failure (List Item))) : Prop :=
  ∀ written state, run command (beside written state) =
    match run items state with
    | (.error failure, after) => (.error failure, beside written after)
    | (.ok items, after) => (.ok (), beside (written.line (style.render items)) after)

namespace Writes

variable {style : ReportStyle}

/-- A failure writes nothing. -/
theorem of_failure (failure : Failure) :
    Writes (m := m) style (pure (.error failure)) (pure (.error failure)) := by
  intro written state
  rw [run_pure, run_pure]

/-- The report of items is one line. -/
theorem of_items (items : List Item) :
    Writes (m := m) style
      (do (printLine (style.render items) : StateT Transcript m Unit); return .ok ())
      (pure (.ok items)) := by
  intro written state
  have printed (text : String) :
      run (StateT.lift (StateT.lift (printLine text : StateT Transcript m Unit)) :
        SessionM (StateT Transcript m) Unit) (beside written state) =
      ((), beside (written.line text) state) := by
    rw [run_lift, run_lift, printLine]
    simp only [Console.print, run_modify]
    rfl
  rw [run_pure, run_bind]
  change run _ (run (StateT.lift (StateT.lift (printLine (style.render items)))) _).2 = _
  rw [printed, run_pure]

/-- What is mirrored may come first. -/
theorem after {α : Type} {large : SessionM (StateT Transcript m) α} {small : SessionM m α}
    {command : α → SessionM (StateT Transcript m) (Except Failure Unit)}
    {items : α → SessionM m (Except Failure (List Item))}
    (mirrored : ∀ written, Mirrors (beside written) large small)
    (writes : ∀ value, Writes style (command value) (items value)) :
    Writes style (large >>= command) (small >>= items) := by
  intro written state
  rw [run_bind, run_bind, mirrored written state]
  exact writes _ written _

end Writes

/-- What is asked without writing anything may be asked in a session. -/
theorem lifted_silent {α : Type} {large : StateT Transcript m α} {small : m α}
    {written : Transcript} (mirrored : Mirrors (Prod.mk written) large small) :
    Mirrors (beside written) (StateT.lift (StateT.lift large) : SessionM (StateT Transcript m) α)
      (StateT.lift (StateT.lift small) : SessionM m α) :=
  .of_lift (.of_lift mirrored)

section Commands

variable [FileSystem m]

/-- The file system beside a transcript is asked without writing anything. -/
theorem mirrored_beside (written : Transcript) :
    FileSystem.Mirrored (StateT Transcript m) m (Prod.mk written : ω → Transcript × ω) where
  kind? path state := run_lift (FileSystem.kind? path) (written, state)
  canonical? path state := run_lift (FileSystem.canonical? path) (written, state)
  read path state := run_lift (FileSystem.read path) (written, state)

/-- The including file of a path is found without writing anything. -/
theorem includerOf_silent (path : Path) (isSystem : Bool) (written : Transcript) :
    Mirrors (beside written) (includerOf path isSystem : SessionM (StateT Transcript m) _)
      (includerOf path isSystem : SessionM m _) := by
  have mirrored := mirrored_beside (m := m) written
  refine (lifted_silent (mirrored.kind? path)).bind fun kind => ?_
  refine (mirrored.remembering.carryingMemo.ofPath path _ isSystem).bind fun answer => ?_
  cases answer with
  | error directory => exact .of_pure _
  | ok includer => exact .of_pure _

/-- The including file of a path, if there is a path, is found without writing anything. -/
theorem includerOf?_silent (path : Option Path) (isSystem : Bool) (written : Transcript) :
    Mirrors (beside written) (includerOf? path isSystem : SessionM (StateT Transcript m) _)
      (includerOf? path isSystem : SessionM m _) := by
  cases path with
  | none => exact .of_pure _
  | some path => exact (includerOf_silent path isSystem written).bind fun answer => .of_pure _

/-- The items that a command reports over a search list. -/
def Command.report (list : SearchList) : Command → SessionM m (Except Failure (List Item))
  | .resolve names isQuoted path includerIsSystem => do
    match ← includerOf? path includerIsSystem with
    | .error failure => return .error failure
    | .ok includer =>
      let items ← list.resolveNames names (if isQuoted then .quoted else .angled) includer
      return .ok items
  | .list => return .ok list.listing
  | .deps source => do
    match ← (FileSystem.read source : m _) with
    | .error cause => return .error (.sourceUnreadable source cause)
    | .ok text =>
      match ← includerOf source false with
      | .error failure => return .error failure
      | .ok includer =>
        let items ← list.resolveDirectives includer (Directive.scan text)
        return .ok items

variable [LawfulMonad m]

/-- Each command writes its items as one line, or fails before it writes. -/
theorem Command.run_writes (command : Command) (style : ReportStyle) (list : SearchList) :
    Writes style (command.run style list : SessionM (StateT Transcript m) _)
      (command.report list : SessionM m _) := by
  have lookups (written : Transcript) := (mirrored_beside (m := m) written).remembering
  cases command with
  | resolve names isQuoted path includerIsSystem =>
    refine .after (includerOf?_silent path includerIsSystem) fun answer => ?_
    cases answer with
    | error failure => exact .of_failure failure
    | ok includer =>
      refine .after (fun written => (lookups written).resolveNames list _ _ includer) fun items => ?_
      exact .of_items items
  | list => exact .of_items list.listing
  | deps source =>
    refine .after (fun written => lifted_silent ((mirrored_beside written).read source))
      fun answer => ?_
    cases answer with
    | error cause => exact .of_failure _
    | ok text =>
      refine .after (includerOf_silent source false) fun answer => ?_
      cases answer with
      | error failure => exact .of_failure failure
      | ok includer =>
        refine .after (fun written => (lookups written).resolveDirectives list includer _)
          fun items => ?_
        exact .of_items items

end Commands

section Unchanging

variable {facts : FileFacts}

/-- Items are complete for a command over a search list. For names there is one item for each, in order,
    that answers what the name asks for; for a source one for each of its directives, in order, that
    answers the directive; and for a listing one for each entry and one that sums the list up. -/
def Command.IsAnsweredBy (facts : FileFacts) (list : SearchList) : Command → List Item → Prop
  | .resolve names isQuoted _ _, items =>
    List.Forall₂ (fun spelled item => ∃ name kind,
      IncludeKind.Asks (if isQuoted then .quoted else .angled) spelled name kind ∧
        item.Answers list.size name kind none) names items
  | .list, items => list.IsListedBy items
  | .deps source, items =>
    ∃ text directives, facts.read source = .ok text ∧ Directive.AreThoseOf text directives ∧
      List.Forall₂ (fun directive => Item.Answers list.size directive.name directive.kind
        (some directive.line)) directives items

/-- The including file of a path is found without touching what a list remembers. -/
theorem includerOf_stays {size : Nat} (path : Path) (isSystem : Bool) :
    StaysWithin size
      (includerOf path isSystem : SessionM (FileFacts.Given facts) _) fun _ => True := by
  refine (StaysWithin.of_lift (StateT.lift (FileSystem.kind? path))).bind fun kind _ => ?_
  have asked : StaysWithin size
      (Includer.ofPath path (kind = some .directory) isSystem : SessionM (FileFacts.Given facts) _)
      fun _ => True := by
    refine (StaysWithin.of_lift (FileStore.directory? _)).bind fun found _ => ?_
    cases found with
    | none => exact .of_pure trivial
    | some handle => exact .of_pure trivial
  refine asked.bind fun answer _ => ?_
  cases answer with
  | error directory => exact .of_pure trivial
  | ok includer => exact .of_pure trivial

/-- What a command reports is complete. -/
theorem Command.report_is_complete (command : Command) (facts : FileFacts) (list : SearchList) :
    StaysWithin list.size (command.report list : SessionM (FileFacts.Given facts) _)
      fun answer => ∀ items, answer = .ok items → command.IsAnsweredBy facts list items := by
  cases command with
  | resolve names isQuoted path includerIsSystem =>
    have found : StaysWithin list.size
        (includerOf? path includerIsSystem : SessionM (FileFacts.Given facts) _)
        fun _ => True := by
      cases path with
      | none => exact .of_pure trivial
      | some path => exact (includerOf_stays path includerIsSystem).bind fun _ _ => .of_pure trivial
    refine found.bind fun answer _ => ?_
    cases answer with
    | error failure => exact .of_pure fun _ none => nomatch none
    | ok includer =>
      refine (list.resolveNames_stays names _ includer).bind fun items complete => ?_
      exact .of_pure fun _ same => Except.ok.inj same ▸ complete
  | list => exact .of_pure fun _ same => Except.ok.inj same ▸ list.isListedBy_listing
  | deps source =>
    have read : StaysWithin list.size
        (StateT.lift (StateT.lift (FileSystem.read source)) : SessionM (FileFacts.Given facts) _)
        fun answer => answer = facts.read source := fun state within => ⟨within, rfl⟩
    refine read.bind fun answer told => ?_
    cases answer with
    | error cause => exact .of_pure fun _ none => nomatch none
    | ok text =>
      refine (includerOf_stays source false).bind fun answer _ => ?_
      cases answer with
      | error failure => exact .of_pure fun _ none => nomatch none
      | ok includer =>
        refine (list.resolveDirectives_stays includer _).bind fun items complete => ?_
        exact .of_pure fun _ same =>
          ⟨text, _, told.symm, Directive.areThoseOf_scan text, Except.ok.inj same ▸ complete⟩

/-- The summary is not empty. -/
theorem summary_ne_empty (stats : SearchStats) (counts : QueryCounts) :
    summary stats counts ≠ "" := by
  intro none
  have first := congrArg String.length none
  simp [summary, summaryLines, String.join] at first

/-- A mirrored computation has the result of the silent one and leaves the transcript as it is. -/
theorem result_beside {α : Type} {large : StateT Transcript (FileFacts.Given facts) α}
    {small : FileFacts.Given facts α} {written : Transcript}
    (mirrored : Mirrors (Prod.mk written) large small) :
    (large.run written).result = (small.result, written) := by
  obtain ⟨result, rest⟩ := Prod.mk.inj (mirrored ())
  exact Prod.ext result (Prod.mk.inj rest).1

/-- A run of a session with a transcript beside it, taken apart. -/
theorem result_of_run {α : Type} {computation : SessionM (StateT Transcript (FileFacts.Given facts)) α}
    {memo memoAfter : SearchMemo} {files filesAfter : FileMemo} {written writtenAfter : Transcript}
    {answer : α}
    (ran : run computation (memo, files, written, ()) =
      (answer, memoAfter, filesAfter, writtenAfter, ())) :
    (((computation.run memo).run files).run written).result =
      (((answer, memoAfter), filesAfter), writtenAfter) := by
  obtain ⟨answered, ran⟩ := Prod.mk.inj ran
  obtain ⟨remembered, ran⟩ := Prod.mk.inj ran
  obtain ⟨asked, ran⟩ := Prod.mk.inj ran
  exact Prod.ext (Prod.ext (Prod.ext answered remembered) asked) (Prod.mk.inj ran).1

/-- A command over a new search memo ends as the silent computation of its items does, and has written
    their report if it has not failed. -/
theorem Writes.result {style : ReportStyle}
    {command : SessionM (StateT Transcript (FileFacts.Given facts)) (Except Failure Unit)}
    {items : SessionM (FileFacts.Given facts) (Except Failure (List Item))}
    (writes : Writes style command items) (files : FileMemo) (written : Transcript) :
    (((command.run .fresh).run files).run written).result =
      match ((items.run .fresh).run files).result with
      | ((.error failure, memo), after) => (((.error failure, memo), after), written)
      | ((.ok items, memo), after) =>
        (((.ok (), memo), after), written.line (style.render items)) := by
  have ran := writes written (.fresh, files, ())
  cases ended : ((items.run .fresh).run files).result with
  | mk answered after =>
    obtain ⟨answer, memo⟩ := answered
    have silent : run items (.fresh, files, ()) = (answer, memo, after, ()) :=
      congrArg (fun ended => (ended.1.1, ended.1.2, ended.2, ())) ended
    rw [silent] at ran
    cases answer with
    | error failure => exact result_of_run ran
    | ok items => exact result_of_run ran

/-- What an invocation writes that reports items, given what the list and the store remember then. -/
def Invocation.transcript (invocation : Invocation) (items : List Item) (memo : SearchMemo)
    (files : FileMemo) : Transcript where
  standard := invocation.style.render items ++ "\n"
  error := if invocation.showsStats then summary memo.stats files.counts else ""

/-- Over a configuration and its header maps nothing is written if the list is not built or the command
    fails, and else the report of the items and the statistics that are shown. -/
theorem Invocation.runOver_outcome (invocation : Invocation) (facts : FileFacts)
    (config : Config) (maps : HeaderMapSet) :
    let ran := ((invocation.runOver config maps :
      StateT Transcript (FileFacts.Given facts) _).run {}).result
    (∃ failure, ran = (.error failure, {})) ∨
      ∃ list files items memo after,
        ((config.build maps : StateT FileMemo (FileFacts.Given facts) _).run .fresh).result =
          (.ok list, files) ∧
        (((invocation.command.report list : SessionM (FileFacts.Given facts) _).run .fresh).run
          files).result = ((.ok items, memo), after) ∧
        ran = (.ok (), invocation.transcript items memo after) := by
  have silent := mirrored_beside (m := FileFacts.Given facts) {}
  have built := result_beside ((silent.remembering.build config maps).carrying .fresh)
  dsimp only
  simp only [Invocation.runOver, StateT.run_bind, FileFacts.Given.result_bind, built]
  cases opened : ((config.build maps : StateT FileMemo (FileFacts.Given facts) _).run .fresh).result with
  | mk built files =>
    cases built with
    | error failure => exact .inl ⟨_, rfl⟩
    | ok list =>
      have ran := (invocation.command.run_writes (m := FileFacts.Given facts) invocation.style
        list).result files {}
      simp only [StateT.run_bind, FileFacts.Given.result_bind, ran]
      cases reported : (((invocation.command.report list :
          SessionM (FileFacts.Given facts) _).run .fresh).run files).result with
      | mk answer after =>
        obtain ⟨answer, memo⟩ := answer
        cases answer with
        | error failure => exact .inl ⟨_, rfl⟩
        | ok items =>
          refine .inr ⟨list, files, items, memo, after, rfl, reported, ?_⟩
          rw [Invocation.transcript]
          cases invocation.showsStats with
          | false => simp [Transcript.line]
          | true => simp [Transcript.line, Console.printError]

/-- A search list is the one of an invocation over a file system, with the store that has answered what
    was asked to build it. -/
def Invocation.Opens (invocation : Invocation) (facts : FileFacts) (list : SearchList)
    (files : FileMemo) : Prop :=
  ∃ config maps, (invocation.searchConfig : FileFacts.Given facts _).result = .ok config ∧
    (config.loadMaps : FileFacts.Given facts _).result = .ok maps ∧
    ((config.build maps : StateT FileMemo (FileFacts.Given facts) _).run .fresh).result =
      (.ok list, files)

/-- An invocation fails without writing anything, or its list is opened and its command reports items,
    and then the report and the statistics that are shown are all that is written. -/
theorem Invocation.run_outcome (invocation : Invocation) (facts : FileFacts) :
    let ran := ((invocation.run : StateT Transcript (FileFacts.Given facts) _).run {}).result
    (∃ failure, ran = (.error failure, {})) ∨
      ∃ list files items memo after, invocation.Opens facts list files ∧
        (((invocation.command.report list : SessionM (FileFacts.Given facts) _).run .fresh).run
          files).result = ((.ok items, memo), after) ∧
        ran = (.ok (), invocation.transcript items memo after) := by
  have silent := mirrored_beside (m := FileFacts.Given facts) {}
  dsimp only
  simp only [Invocation.run, StateT.run_bind, FileFacts.Given.result_bind,
    result_beside (silent.searchConfig invocation)]
  cases configured : (invocation.searchConfig : FileFacts.Given facts _).result with
  | error failure => exact .inl ⟨failure, rfl⟩
  | ok config =>
    have loading : Mirrors (Prod.mk {})
        (config.loadMaps : StateT Transcript (FileFacts.Given facts) _) config.loadMaps :=
      silent.loadAll _ _
    simp only [StateT.run_bind, FileFacts.Given.result_bind, result_beside loading]
    cases loaded : (config.loadMaps : FileFacts.Given facts _).result with
    | error failure => exact .inl ⟨_, rfl⟩
    | ok maps =>
      rcases invocation.runOver_outcome facts config maps with failed | answered
      · exact .inl failed
      · obtain ⟨list, files, items, memo, after, built, reported, ran⟩ := answered
        exact .inr ⟨list, files, items, memo, after, ⟨config, maps, configured, loaded, built⟩,
          reported, ran⟩

/-- A command answers completely or writes nothing. Over every file system, an invocation that fails has
    written to neither stream. One that succeeds has opened its search list, and on the standard stream
    is the report of what its command finds there, complete and followed by one line feed, and nothing
    else. On the error stream is something exactly if the statistics are shown. -/
theorem invocation_answers_completely_or_writes_nothing (invocation : Invocation)
    (facts : FileFacts) :
    let (outcome, written) :=
      ((invocation.run : StateT Transcript (FileFacts.Given facts) _).run {}).result
    match outcome with
    | .error _ => written = {}
    | .ok () => ∃ list files items memo after, invocation.Opens facts list files ∧
        (((invocation.command.report list : SessionM (FileFacts.Given facts) _).run .fresh).run
          files).result = ((.ok items, memo), after) ∧
        invocation.command.IsAnsweredBy facts list items ∧
        written.standard = invocation.style.render items ++ "\n" ∧
        (written.error ≠ "" ↔ invocation.showsStats = true) := by
  rcases invocation.run_outcome facts with ⟨failure, ran⟩ | ⟨list, files, items, memo, after, opened,
    reported, ran⟩
  · rw [ran]
  · rw [ran]
    have complete := (invocation.command.report_is_complete facts list
      (.fresh, files, ()) (.fresh list.size)).2 items
    refine ⟨list, files, items, memo, after, opened, reported, ?_, rfl, ?_⟩
    · exact complete (congrArg (fun ended => ended.1.1) reported)
    · rw [Invocation.transcript]
      cases invocation.showsStats with
      | false => simp
      | true => simp [summary_ne_empty]

example :
    ((Invocation.run ⟨"raw", false, true, some ⟨"missing.json"⟩, {}, .list⟩ :
      StateT Transcript (FileFacts.Given .nothing) _).run {}).result =
      (.error (.configUnreadable ⟨"missing.json"⟩ .notFound), {}) := by decide

example :
    ((Invocation.run ⟨"raw", false, false, none, {}, .resolve ["a.h", "<b.h>"] false none false⟩ :
      StateT Transcript (FileFacts.Given .nothing) _).run {}).result =
      (.ok (), { standard := "a.h\nb.h\n" }) := by decide

end Unchanging

end HeaderSearch.CommandLine
