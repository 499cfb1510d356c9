import HeaderSearch.Proofs.Offences
import HeaderSearch.Proofs.Runs

/-!
# Why a configuration is refused

Over any store, also one that contradicts itself, building a list fails for one of four reasons: angled
includes start past the last entry, an entry is marked as an index map and is none, an entry names a
header map that is not in the set, or an entry repeats an earlier one. The first three can be told from
the configuration and the set alone, so a configuration without them can only repeat an entry.
-/

namespace HeaderSearch

variable {ω : Type} {m : Type → Type} [Monad m] [Runs m ω] [FileStore m]
variable {maps : HeaderMapSet} {state after : ω} {failure : BuildError}

namespace ConfigEntry

/-- A failure fits an entry that is at a position of a configuration. -/
inductive Refused (maps : HeaderMapSet) (entry : ConfigEntry) (index : Nat) : BuildError → Prop where
  /-- The entry is marked as an index map and is none. -/
  | notAHeaderMap (marked : entry.indexMap = true) (isNone : entry.location.isHeaderMap = false) :
      Refused maps entry index (.notAHeaderMap index entry.shownName)
  /-- The entry names a header map that is not in the set. -/
  | notLoaded {path : Path} (named : entry.location = .headerMap path)
      (absent : maps.get? path entry.loadOptions = none) : Refused maps entry index (.notLoaded path)
  /-- The entry repeats the one at an earlier position. -/
  | duplicate (first : Nat) : Refused maps entry index (.duplicate entry.shownName first index)

variable {entry : ConfigEntry} {start index : Nat} {partialList : PartialList}

/-- An entry cannot be located only if its header map is not in the set. -/
theorem locate_refuses
    (failed : Runs.run (entry.locate maps : m _) state = (.error failure, after)) :
    entry.Refused maps index failure := by
  unfold locate at failed
  cases location : entry.location with
  | directory path => simp [location] at failed
  | framework path => simp [location] at failed
  | headerMap path =>
    simp only [location] at failed
    have both := maps.isSome_slot? path entry.loadOptions
    cases loaded : maps.get? path entry.loadOptions with
    | some map =>
      obtain ⟨slot, slotted⟩ := Option.isSome_iff_exists.mp (both.trans (by rw [loaded]; rfl))
      simp [loaded, slotted] at failed
    | none =>
      rw [loaded, Option.isSome_none, Option.isSome_eq_false_iff, Option.isNone_iff_eq_none] at both
      rw [both, loaded, Runs.run_pure] at failed
      obtain ⟨same, -⟩ := Prod.mk.inj failed
      obtain rfl := Except.error.inj same
      exact .notLoaded location loaded

/-- An entry is refused only with a failure that fits it. -/
theorem enter_refuses (failed : Runs.run (entry.enter maps start index partialList : m _) state =
    (.error failure, after)) : entry.Refused maps index failure := by
  unfold enter at failed
  split at failed
  · next marked =>
    simp only [Bool.and_eq_true, Bool.not_eq_true'] at marked
    simp only [Runs.run_pure, Prod.mk.injEq, Except.error.injEq] at failed
    obtain ⟨rfl, -⟩ := failed
    exact .notAHeaderMap marked.1 marked.2
  · rw [Runs.run_bind] at failed
    cases found : Runs.run (entry.locate maps : m _) state with
    | mk located between =>
      rw [found] at failed
      cases located with
      | error reason =>
        simp only [Runs.run_pure, Prod.mk.injEq, Except.error.injEq] at failed
        obtain ⟨rfl, -⟩ := failed
        exact locate_refuses found
      | ok located =>
        cases located with
        | none => simp at failed
        | some located =>
          dsimp only at failed
          split at failed
          · next first known =>
            simp only [Runs.run_pure, Prod.mk.injEq, Except.error.injEq] at failed
            obtain ⟨rfl, -⟩ := failed
            exact .duplicate first
          · simp at failed

/-- Entries are refused only with a failure that fits one of them. Induct on the entries: the first that
    is refused ends it. -/
theorem enter_all_refuses {entries : List ConfigEntry}
    (failed : Runs.run (enterAll maps start index partialList entries : m _) state =
      (.error failure, after)) :
    ∃ entry ∈ entries, ∃ position, entry.Refused maps position failure := by
  induction entries generalizing index partialList state with
  | nil => simp [enterAll] at failed
  | cons entry entries inductionHypothesis =>
    rw [enterAll, Runs.run_bind] at failed
    cases first : Runs.run (entry.enter maps start index partialList : m _) state with
    | mk outcome between =>
      rw [first] at failed
      cases outcome with
      | error reason =>
        simp only [Runs.run_pure, Prod.mk.injEq, Except.error.injEq] at failed
        obtain ⟨rfl, -⟩ := failed
        exact ⟨entry, List.mem_cons_self, index, enter_refuses first⟩
      | ok larger =>
        obtain ⟨other, member, fits⟩ := inductionHypothesis failed
        exact ⟨other, List.mem_cons_of_mem _ member, fits⟩

end ConfigEntry

namespace Config

variable {config : Config}

/-- A configuration is refused because of its start, or with a failure that fits one of its entries. -/
theorem build_refuses
    (failed : Runs.run (config.build maps : m _) state = (.error failure, after)) :
    (config.entries.length < config.start ∧
      failure = .startOutOfRange config.start config.entries.length) ∨
    ∃ entry ∈ config.entries, ∃ position, entry.Refused maps position failure := by
  unfold build at failed
  dsimp only at failed
  split at failed
  · next past =>
    simp only [Runs.run_pure, Prod.mk.injEq, Except.error.injEq] at failed
    exact .inl ⟨past, failed.1.symm⟩
  · rw [Runs.run_bind] at failed
    cases entered : Runs.run
        (ConfigEntry.enterAll maps config.start 0 {} config.entries : m _) state with
    | mk outcome between =>
      rw [entered] at failed
      cases outcome with
      | ok partialList => simp at failed
      | error reason =>
        simp only [Runs.run_pure, Prod.mk.injEq, Except.error.injEq] at failed
        obtain ⟨rfl, -⟩ := failed
        exact .inr (ConfigEntry.enter_all_refuses entered)

/-- A configuration passes the checks that need no file store: angled includes start at an entry or
    right after the last one, and only header maps are marked as index maps. -/
structure Checked (config : Config) : Prop where
  start : ∀ start ∈ config.angledStart, start ≤ config.entries.length
  marks : ∀ entry ∈ config.entries, entry.indexMap = true → entry.location.isHeaderMap = true

end Config

end HeaderSearch
