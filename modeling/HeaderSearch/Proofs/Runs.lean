import Mathlib.Data.List.Forall2
import HeaderSearch.FileStore.View
import HeaderSearch.FileSystem

/-!
# Runs of computations

A computation over a file store is run from a state of the store and ends in one. `Runs` says so for
any monad: a store with fixed answers ends in a longer log of questions, a store that remembers ends
in a larger memory, and a memo carried along is one more part of the state. What is proved of runs
therefore holds of every store, whatever it keeps to itself. `Always` is the contract of a computation
that keeps an invariant of the state.
-/

namespace HeaderSearch

/-- A monad whose computations are run from a state. Two computations in sequence are run one after
    the other, the second from where the first ended. -/
class Runs (m : Type → Type) (ω : outParam Type) [Monad m] where
  /-- The result of a computation and the state in which it ends. -/
  run {α : Type} : m α → ω → α × ω
  /-- A value that is just returned leaves the state alone. -/
  run_pure {α : Type} (value : α) (state : ω) : run (pure value) state = (value, state)
  /-- A computation that goes on after a first one starts where that one ended. -/
  run_bind {α β : Type} (first : m α) (next : α → m β) (state : ω) :
    run (first >>= next) state = run (next (run first state).1) (run first state).2

attribute [simp] Runs.run_pure Runs.run_bind

namespace Runs

variable {α β σ ω : Type} {m : Type → Type} [Monad m]

/-- A view is run with the questions that were asked of it so far. -/
instance {view : FileView} : Runs (Observed view) (List Query) where
  run computation log := (computation.value, log ++ computation.queries)
  run_pure value log := by simp
  run_bind first next log := by simp

/-- An unchanging file system has no state. -/
instance {facts : FileFacts} : Runs (FileFacts.Given facts) Unit where
  run computation state := (computation.result, state)
  run_pure _ _ := rfl
  run_bind _ _ _ := rfl

/-- A carried part of the state comes before the rest of it. -/
instance [Runs m ω] : Runs (StateT σ m) (σ × ω) where
  run computation state :=
    let ended := run (computation.run state.1) state.2
    (ended.1.1, ended.1.2, ended.2)
  run_pure value state := by simp
  run_bind first next state := by simp

/-- Changing a result afterwards does not change the run. -/
@[simp] theorem run_map [LawfulMonad m] [Runs m ω] (change : α → β) (computation : m α) (state : ω) :
    run (change <$> computation) state =
      (change (run computation state).1, (run computation state).2) := by
  rw [map_eq_pure_bind, run_bind, run_pure]

/-- Reading the carried part does not change anything. -/
@[simp] theorem run_get [Runs m ω] (state : σ × ω) :
    run (get : StateT σ m σ) state = (state.1, state) := by
  simp only [run, StateT.run_get, run_pure]

/-- Changing the carried part leaves the rest alone. -/
@[simp] theorem run_modify [Runs m ω] (change : σ → σ) (state : σ × ω) :
    run (modify change : StateT σ m Unit) state = ((), change state.1, state.2) := by
  simp only [run, StateT.run_modify, run_pure]

/-- A computation that does not touch the carried part runs on the rest. -/
theorem run_lift [Runs m ω] (computation : m α) (state : σ × ω) :
    run (StateT.lift computation : StateT σ m α) state =
      ((run computation state.2).1, state.1, (run computation state.2).2) := by
  have lifted : (StateT.lift computation : StateT σ m α).run state.1 =
      computation >>= fun value => pure (value, state.1) := rfl
  simp only [run, lifted, run_bind, run_pure]

/-- From every state in which an invariant holds a computation ends in such a state, with an expected
    result. -/
def Always [Runs m ω] (invariant : ω → Prop) (computation : m α) (expected : α → Prop) : Prop :=
  ∀ state, invariant state →
    invariant (run computation state).2 ∧ expected (run computation state).1

namespace Always

variable [Runs m ω] {invariant : ω → Prop}

/-- Returning a value that is expected already. -/
theorem of_pure {value : α} {expected : α → Prop} (result : expected value) :
    Always invariant (pure value : m α) expected := by
  intro state held
  rw [run_pure]
  exact ⟨held, result⟩

/-- The continuation may use whatever is expected of the first computation. -/
theorem bind {first : m α} {next : α → m β} {between : α → Prop} {expected : β → Prop}
    (started : Always invariant first between)
    (continued : ∀ value, between value → Always invariant (next value) expected) :
    Always invariant (first >>= next) expected := by
  intro state held
  obtain ⟨kept, result⟩ := started state held
  rw [run_bind]
  exact continued _ result _ kept

/-- A weaker expectation is met too. -/
theorem weaken {computation : m α} {stronger weaker : α → Prop}
    (always : Always invariant computation stronger)
    (implied : ∀ value, stronger value → weaker value) :
    Always invariant computation weaker :=
  fun state held => (always state held).imp_right (implied _)

/-- A result changed afterwards is expected if the result is expected to change so. -/
theorem map [LawfulMonad m] {computation : m α} {change : α → β} {expected : β → Prop}
    (always : Always invariant computation fun value => expected (change value)) :
    Always invariant (change <$> computation) expected := by
  intro state held
  rw [run_map]
  exact always state held

/-- The results of a computation made for each item of a list are expected item by item. -/
theorem mapM [LawfulMonad m] {computation : α → m β} {expected : α → β → Prop} {items : List α}
    (each : ∀ item ∈ items, Always invariant (computation item) (expected item)) :
    Always invariant (items.mapM computation) (List.Forall₂ expected items) := by
  induction items with
  | nil =>
    rw [List.mapM_nil]
    exact .of_pure .nil
  | cons item items inductionHypothesis =>
    rw [List.mapM_cons]
    refine (each item List.mem_cons_self).bind fun result first => ?_
    refine (inductionHypothesis fun other there =>
      each other (List.mem_cons_of_mem _ there)).bind fun results rest => ?_
    exact .of_pure (.cons first rest)

end Always

end Runs

end HeaderSearch
