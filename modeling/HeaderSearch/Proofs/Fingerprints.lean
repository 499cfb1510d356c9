import HeaderSearch.Proofs.Building
import HeaderSearch.Proofs.FingerprintRows
import HeaderSearch.Proofs.History
import HeaderSearch.Proofs.Sorting

/-!
# Fingerprinted texts and search lists

Two lists that search alike have one fingerprinted text, and two lists of legible names that have
one text search alike. A name that holds the end of a row makes a list that has the text of another
one. The order in which the system frameworks are configured, how often each of them is, and what a
list was asked before do not matter.
-/

namespace HeaderSearch

/-- Lists of words with the same words have the same distinct words. -/
theorem SortedPairs.distinctWords_eq_of_mem_iff {words others : List String}
    (same : ∀ word, word ∈ words ↔ word ∈ others) : distinctWords words = distinctWords others := by
  have distinct (words : List String) : (distinctWords words).Nodup :=
    (ascending_distinctWords words).imp fun less => String.ne_of_lt less
  have permuted : (distinctWords words).Perm (distinctWords others) := by
    refine (List.perm_ext_iff_of_nodup (distinct words) (distinct others)).2 fun word => ?_
    rw [mem_distinctWords, mem_distinctWords, same]
  apply List.Perm.eq_of_pairwise _ (ascending_distinctWords words) (ascending_distinctWords others)
    permuted
  intro first second _ _ less greater
  exact absurd greater (String.lt_asymm less)

/-- A session keeps its list, whatever it is asked. Induct on what it was asked. -/
theorem Session.Reached.list_eq {facts : FileFacts} {start session : Session}
    {held : List (Path × DirHandle)}
    (reached : Session.Reached facts start session held) : session.list = start.list := by
  induction reached with
  | start => rfl
  | directory path _ inductionHypothesis => exact inductionHypothesis
  | lookup index name want _ inductionHypothesis => exact inductionHypothesis
  | request request _ _ inductionHypothesis => exact inductionHypothesis

namespace SearchList

/-- Two lists search alike: they look into places of the same sorts and names, in the same order and
    for the same includes, and have the same system frameworks. -/
structure SearchesAs (list other : SearchList) : Prop where
  entries : list.entries.map SearchEntry.traits = other.entries.map SearchEntry.traits
  angledStart : list.angledStart = other.angledStart
  systemFrameworks : ∀ name, name ∈ list.systemFrameworks ↔ name ∈ other.systemFrameworks

/-- The text is made of what is told of the entries, the start and the frameworks. -/
theorem fingerprintText_eq {list other : SearchList}
    (entries : list.entries.map SearchEntry.traits = other.entries.map SearchEntry.traits)
    (angledStart : list.angledStart = other.angledStart)
    (systemFrameworks : list.systemFrameworks = other.systemFrameworks) :
    list.fingerprintText = other.fingerprintText := by
  have rows : list.entries.map SearchEntry.fingerprintRow =
      other.entries.map SearchEntry.fingerprintRow := by
    rw [← List.forall₂_eq_eq_eq, List.forall₂_map_left_iff, List.forall₂_map_right_iff] at entries ⊢
    exact entries.imp fun _ _ => SearchEntry.fingerprintRow_eq_of_traits
  rw [fingerprintText, fingerprintText, rows, angledStart, systemFrameworks]

end SearchList

namespace Config

variable {ω : Type} {m : Type → Type} [Monad m] [Runs m ω] [FileStore m]
variable {config : Config} {maps : HeaderMapSet} {list : SearchList} {state after : ω}

/-- With other system frameworks the same entries are built from the same questions. -/
theorem build_with_frameworks (built : Runs.run (config.build maps : m _) state = (.ok list, after))
    (words : List String) :
    Runs.run (build { config with systemFrameworks := words } maps : m _) state =
      (.ok { list with systemFrameworks := SortedPairs.distinctWords words }, after) := by
  have start : Config.start { config with systemFrameworks := words } = config.start := rfl
  unfold build at built ⊢
  dsimp only at built ⊢
  rw [start]
  split at built
  · simp at built
  · next inside =>
    rw [if_neg inside]
    rw [Runs.run_bind] at built ⊢
    cases entered : Runs.run
        (ConfigEntry.enterAll maps config.start 0 {} config.entries : m _) state with
    | mk outcome between =>
      rw [entered] at built
      cases outcome with
      | error failure => simp at built
      | ok partialList =>
        simp only [Runs.run_pure, Prod.mk.injEq, Except.ok.injEq] at built
        obtain ⟨rfl, rfl⟩ := built
        simp

/-- The fingerprinted text of a list that was built tells what the list searches. Lists that search
    alike have one text. Lists that have one text search alike if their names are legible: no name
    of an entry holds the end of a row, and no name of a system framework has a line that starts as
    the row of one does. With the same system frameworks in another order, or some of them more
    than once, a list with the same text is built. A session that was asked anything has the text
    that it was opened with. -/
theorem fingerprinted_texts_of_legible_names_tell_lists_apart {σ : Type} {n : Type → Type} [Monad n]
    [Runs n σ] [FileStore n] {other : Config} {otherMaps : HeaderMapSet} {otherList : SearchList}
    {otherState otherAfter : σ}
    (built : Runs.run (config.build maps : m _) state = (.ok list, after))
    (otherBuilt : Runs.run (other.build otherMaps : n _) otherState = (.ok otherList, otherAfter)) :
    (list.SearchesAs otherList → list.fingerprintText = otherList.fingerprintText) ∧
    (list.Legible → otherList.Legible → list.fingerprintText = otherList.fingerprintText →
      list.SearchesAs otherList) ∧
    (∀ words, (∀ word, word ∈ words ↔ word ∈ config.systemFrameworks) → ∃ again,
      Runs.run (build { config with systemFrameworks := words } maps : m _) state =
        (.ok again, after) ∧ again.fingerprintText = list.fingerprintText) ∧
    ∀ facts start session held, Session.open? facts config = some start →
      Session.Reached facts start session held →
      session.list.fingerprintText = start.list.fingerprintText := by
  obtain ⟨_, -, -, -, -, -, -, leaves⟩ := build_leaves built
  obtain ⟨_, -, -, -, -, -, -, otherLeaves⟩ := build_leaves otherBuilt
  refine ⟨?_, ?_, ?_, ?_⟩
  · intro alike
    have frameworks : list.systemFrameworks = otherList.systemFrameworks := by
      rw [leaves.systemFrameworks, otherLeaves.systemFrameworks]
      apply SortedPairs.distinctWords_eq_of_mem_iff
      intro word
      have same := alike.systemFrameworks word
      rwa [leaves.systemFrameworks, otherLeaves.systemFrameworks, SortedPairs.mem_distinctWords,
        SortedPairs.mem_distinctWords] at same
    exact SearchList.fingerprintText_eq alike.entries alike.angledStart frameworks
  · intro legible otherLegible same
    obtain ⟨entries, start, frameworks⟩ := SearchList.read_back legible otherLegible same
    exact ⟨entries, start, fun name => by rw [frameworks]⟩
  · intro words same
    refine ⟨_, build_with_frameworks built words, ?_⟩
    refine SearchList.fingerprintText_eq rfl rfl ?_
    rw [leaves.systemFrameworks]
    exact SortedPairs.distinctWords_eq_of_mem_iff same
  · intro facts start session held _ reached
    rw [reached.list_eq]

/-- A configuration of directories with the given paths. -/
def ofDirectories (paths : List String) (frameworks : List String) : Config where
  entries := paths.map fun path => { location := .directory ⟨path⟩ }
  systemFrameworks := frameworks

/-- A directory whose name has bars and a line that looks like a row is told from two directories,
    and frameworks in any order, one of them twice, are the same frameworks. -/
theorem legible_names_are_told_apart :
    ∃ list log other otherLog,
      Runs.run ((ofDirectories ["/a\ndir|/b"] ["B", "A", "B"]).build .empty :
        Observed (.listing ["/a\ndir|/b"] []) _) [] = (.ok list, log) ∧
      Runs.run ((ofDirectories ["/a", "/b"] ["A"]).build .empty :
        Observed (.listing ["/a", "/b"] []) _) [] = (.ok other, otherLog) ∧
      list.fingerprintText ≠ other.fingerprintText ∧
      ∃ again, Runs.run ((ofDirectories ["/a\ndir|/b"] ["A", "B"]).build .empty :
        Observed (.listing ["/a\ndir|/b"] []) _) [] = (.ok again, log) ∧
        again.fingerprintText = list.fingerprintText := by
  obtain ⟨list, log, other, otherLog, built, otherBuilt, names, frameworks, otherNames,
      otherFrameworks⟩ :
      ∃ list log other otherLog,
        Runs.run ((ofDirectories ["/a\ndir|/b"] ["B", "A", "B"]).build .empty :
          Observed (.listing ["/a\ndir|/b"] []) _) [] = (.ok list, log) ∧
        Runs.run ((ofDirectories ["/a", "/b"] ["A"]).build .empty :
          Observed (.listing ["/a", "/b"] []) _) [] = (.ok other, otherLog) ∧
        list.entries.map (·.place.name) = ["/a\ndir|/b"] ∧ list.systemFrameworks = ["A", "B"] ∧
        other.entries.map (·.place.name) = ["/a", "/b"] ∧ other.systemFrameworks = ["A"] :=
    ⟨⟨_, _, _⟩, _, ⟨_, _, _⟩, _, rfl, rfl, rfl, rfl, rfl, rfl⟩
  have lined : SearchEntry.LegibleName "/a\ndir|/b" := by
    intro characteristic quoteOnly isIndexMap
    cases characteristic <;> cases quoteOnly <;> cases isIndexMap <;> decide
  have legible : list.Legible := by
    constructor
    · intro entry member
      have named : entry.place.name ∈ list.entries.map (·.place.name) := List.mem_map_of_mem member
      rw [names, List.mem_singleton] at named
      rwa [named]
    · rw [frameworks]
      unfold SearchList.LegibleFramework
      decide
  have otherLegible : other.Legible := by
    constructor
    · intro entry member
      have named : entry.place.name ∈ other.entries.map (·.place.name) := List.mem_map_of_mem member
      apply SearchEntry.legible_of_not_mem
      rw [otherNames] at named
      revert named
      generalize entry.place.name = name
      revert name
      decide
    · rw [otherFrameworks]
      unfold SearchList.LegibleFramework
      decide
  obtain ⟨-, told, again, -⟩ :=
    fingerprinted_texts_of_legible_names_tell_lists_apart built otherBuilt
  have words (word : String) : word ∈ ["A", "B"] ↔ word ∈ ["B", "A", "B"] := by
    simp only [List.mem_cons, List.not_mem_nil, or_false]
    tauto
  refine ⟨list, log, other, otherLog, built, otherBuilt, ?_, again ["A", "B"] words⟩
  intro same
  have entries := congrArg List.length (told legible otherLegible same).entries
  have sizes := congrArg List.length names
  have otherSizes := congrArg List.length otherNames
  simp only [List.length_map] at entries sizes otherSizes
  rw [sizes, otherSizes] at entries
  exact absurd entries (by decide)

/-- A directory whose name holds the end of a row, which makes one row look like two. -/
theorem two_rows_in_one_name :
    ∃ list log other otherLog,
      Runs.run ((ofDirectories ["/a|user|false|false\ndir|/b"] []).build .empty :
        Observed (.listing ["/a|user|false|false\ndir|/b"] []) _) [] = (.ok list, log) ∧
      Runs.run ((ofDirectories ["/a", "/b"] []).build .empty :
        Observed (.listing ["/a", "/b"] []) _) [] = (.ok other, otherLog) ∧
      list.fingerprintText = other.fingerprintText ∧ ¬list.SearchesAs other := by
  refine ⟨⟨_, _, _⟩, _, ⟨_, _, _⟩, _, rfl, rfl, by decide, ?_⟩
  intro alike
  exact absurd (congrArg List.length alike.entries) (by decide)

end Config

end HeaderSearch
