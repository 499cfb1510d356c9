import Mathlib.Data.Finset.Card
import Mathlib.Data.List.Pairwise
import HeaderSearch.FileStore.Memo

/-!
# Numbers for paths

A store gives out numbers for paths and remembers what it answered. The paths are numbered in the order
in which they were first seen, each once; a table has exactly the answers that were given. Both hold of
the questions and answers so far, whatever sort they are of, and are kept when a question is asked again
and when a new one is learnt.
-/

namespace HeaderSearch.FileMemo

/-- A number stands for a path if a spelling of the path is listed under it. -/
def Names (paths : List Path) (number : Nat) (path : Path) : Prop :=
  ∃ stored, paths[number]? = some stored ∧ stored.components = path.components

/-- Paths are listed in the order in which their numbers were first given out, each path once. -/
structure Numbered (paths : List Path) (issued : List Nat) : Prop where
  apart : paths.Pairwise fun one other => one.components ≠ other.components
  order : issued.eraseDups = List.range paths.length

namespace Numbered

variable {paths : List Path} {issued : List Nat}

/-- The numbers that were given out are those of the listed paths. -/
theorem mem_iff (numbered : Numbered paths issued) {number : Nat} :
    number ∈ issued ↔ number < paths.length := by
  rw [← List.mem_eraseDups, numbered.order, List.mem_range]

/-- Different numbers stand for different paths. -/
theorem same_iff (numbered : Numbered paths issued) {one other : Nat} (first : one < paths.length)
    (second : other < paths.length) (missing : Path) :
    one = other ↔ (paths.getD one missing).components = (paths.getD other missing).components := by
  rw [List.getD_eq_getElem?_getD, List.getElem?_eq_getElem first, List.getD_eq_getElem?_getD,
    List.getElem?_eq_getElem second, Option.getD_some, Option.getD_some]
  constructor
  · rintro rfl
    rfl
  · intro same
    rcases Nat.lt_trichotomy one other with less | equal | more
    · exact absurd same (List.pairwise_iff_getElem.mp numbered.apart one other first second less)
    · exact equal
    · exact absurd same.symm (List.pairwise_iff_getElem.mp numbered.apart other one second first more)

/-- A number that was given out before is not seen for the first time. -/
theorem again (numbered : Numbered paths issued) {number : Nat} (member : number ∈ issued) :
    Numbered paths (issued ++ [number]) where
  apart := numbered.apart
  order := by
    have old : ([number] : List Nat).removeAll issued = [] := by
      simp [List.removeAll, member]
    rw [List.eraseDups_append, old, numbered.order]
    simp

/-- Interning a path gives out the number of the path, and a new number for a new path. -/
theorem intern (numbered : Numbered paths issued) (path : Path) :
    Numbered (FileMemo.intern paths path).1 (issued ++ [(FileMemo.intern paths path).2]) ∧
      Names (FileMemo.intern paths path).1 (FileMemo.intern paths path).2 path ∧
      paths <+: (FileMemo.intern paths path).1 := by
  unfold FileMemo.intern
  cases found : paths.findIdx? (·.same path) with
  | some position =>
    obtain ⟨inside, same, -⟩ := List.findIdx?_eq_some_iff_getElem.mp found
    refine ⟨numbered.again (numbered.mem_iff.mpr inside), ⟨paths[position], ?_, ?_⟩,
      List.prefix_rfl⟩
    · exact List.getElem?_eq_getElem inside
    · simpa [Path.same] using same
  | none =>
    have new : ∀ stored ∈ paths, stored.components ≠ path.components := by
      intro stored member same
      have differs := List.findIdx?_eq_none_iff.mp found stored member
      simp [Path.same, same] at differs
    refine ⟨⟨?_, ?_⟩, ⟨path, by simp, rfl⟩, List.prefix_append _ _⟩
    · rw [List.pairwise_append]
      refine ⟨numbered.apart, List.pairwise_singleton _ _, ?_⟩
      intro stored member other last
      rw [List.mem_singleton.mp last]
      exact new stored member
    · have unused : paths.length ∉ issued := fun member =>
        Nat.lt_irrefl _ (numbered.mem_iff.mp member)
      have fresh : ([paths.length] : List Nat).removeAll issued = [paths.length] := by
        simp [List.removeAll, unused]
      rw [List.eraseDups_append, fresh, numbered.order, List.length_append, List.length_singleton,
        List.range_succ]
      rfl

end Numbered

/-- What a number stands for it stands for in a longer list. -/
theorem Names.grow {paths longer : List Path} {number : Nat} {path : Path}
    (names : Names paths number path) (leads : paths <+: longer) : Names longer number path := by
  obtain ⟨stored, here, same⟩ := names
  obtain ⟨added, rfl⟩ := leads
  refine ⟨stored, ?_, same⟩
  rw [List.getElem?_append_left (List.getElem?_eq_some_iff.mp here).1, here]

/-- The path under a number that stands for a path is a spelling of it. -/
theorem Names.listed {paths : List Path} {number : Nat} {path : Path}
    (names : Names paths number path) (missing : Path) :
    (paths.getD number missing).components = path.components := by
  obtain ⟨stored, here, same⟩ := names
  rw [List.getD_eq_getElem?_getD, here, Option.getD_some, same]

/-- A longer list has the same path under a number that was given out. -/
theorem listed_grow {paths longer : List Path} {number : Nat} (leads : paths <+: longer)
    (given : number < paths.length) (missing : Path) :
    longer.getD number missing = paths.getD number missing := by
  obtain ⟨added, rfl⟩ := leads
  rw [List.getD_eq_getElem?_getD, List.getElem?_append_left given, List.getD_eq_getElem?_getD]

/-- The paths with one that was found among them. -/
def enlisted (paths : List Path) (found : Option Path) : List Path :=
  found.elim paths fun canonical => (intern paths canonical).1

/-- The number that a path gets when it is found. -/
def numberFor? (paths : List Path) (found : Option Path) : Option Nat :=
  found.map fun canonical => (intern paths canonical).2

/-- The number for a path that was found stands for it, and what is listed stays where it is. -/
theorem Numbered.enlist {paths : List Path} {issued : List Nat} (numbered : Numbered paths issued)
    (found : Option Path) :
    Numbered (enlisted paths found) (issued ++ (numberFor? paths found).toList) ∧
      Option.Rel (Names (enlisted paths found)) (numberFor? paths found) found ∧
      paths <+: enlisted paths found := by
  cases found with
  | none =>
    refine ⟨?_, .none, List.prefix_rfl⟩
    simpa [numberFor?, enlisted] using numbered
  | some canonical =>
    obtain ⟨longer, names, leads⟩ := numbered.intern canonical
    exact ⟨longer, .some names, leads⟩

section Remembering

variable {κ ν : Type}

/-- The handles that were given out, in order. -/
def issued (asked : List (κ × Option ν)) : List ν := asked.filterMap Prod.snd

/-- The different questions. -/
def questions [DecidableEq κ] (asked : List (κ × Option ν)) : Finset κ :=
  (asked.map Prod.fst).toFinset

variable [DecidableEq κ]

/-- A table and a list of paths remember one sort of exchanges. -/
structure Remembers (number : ν → Nat) (answers : Table κ (Option ν)) (paths : List Path)
    (asked : List (κ × Option ν)) : Prop where
  /-- The table has the answers that were given. -/
  answers {key : κ} {answer : Option ν} :
    answers.get? key = some answer ↔ (key, answer) ∈ asked
  /-- The paths are those behind the handles that were given out. -/
  numbered : Numbered paths ((issued asked).map number)

namespace Remembers

variable {number : ν → Nat} {answers : Table κ (Option ν)} {paths : List Path}
variable {asked : List (κ × Option ν)} {key : κ} {answer : Option ν}

omit [DecidableEq κ] in
theorem issued_snoc (key : κ) (answer : Option ν) :
    (issued (asked ++ [(key, answer)])).map number =
      (issued asked).map number ++ (answer.map number).toList := by
  cases answer <;> simp [issued]

/-- Questions that the table has an answer for are those that were asked. -/
theorem mem_questions (remembers : Remembers number answers paths asked) :
    key ∈ questions asked ↔ (answers.get? key).isSome := by
  simp only [questions, List.mem_toFinset, List.mem_map, Prod.exists, exists_and_right,
    exists_eq_right, Option.isSome_iff_exists, remembers.answers]

theorem questions_snoc (key : κ) (answer : Option ν) :
    questions (asked ++ [(key, answer)]) = insert key (questions asked) := by
  ext other
  simp [questions]

/-- A question that has an answer is not a different one. -/
theorem questions_again (remembers : Remembers number answers paths asked)
    (known : answers.get? key = some answer) :
    questions (asked ++ [(key, answer)]) = questions asked := by
  rw [questions_snoc, Finset.insert_eq_of_mem (remembers.mem_questions.mpr (by simp [known]))]

/-- A question that has no answer is one more. -/
theorem card_questions_new (remembers : Remembers number answers paths asked)
    (unknown : answers.get? key = none) (answer : Option ν) :
    (questions (asked ++ [(key, answer)])).card = (questions asked).card + 1 := by
  have new : key ∉ questions asked := fun member => by
    simpa [unknown] using remembers.mem_questions.mp member
  rw [questions_snoc, Finset.card_insert_of_notMem new]

/-- Giving a remembered answer again. -/
theorem again (remembers : Remembers number answers paths asked)
    (known : answers.get? key = some answer) :
    Remembers number answers paths (asked ++ [(key, answer)]) where
  answers {other given} := by
    rw [List.mem_append, List.mem_singleton, remembers.answers]
    refine ⟨.inl, fun either => either.elim id fun same => ?_⟩
    rw [same]
    exact remembers.answers.mp known
  numbered := by
    rw [issued_snoc]
    cases answer with
    | none => simpa using remembers.numbered
    | some handle =>
      have given : handle ∈ issued asked :=
        List.mem_filterMap.mpr ⟨_, remembers.answers.mp known, rfl⟩
      exact remembers.numbered.again (List.mem_map_of_mem given)

/-- Remembering the answer to a new question. -/
theorem learn (remembers : Remembers number answers paths asked)
    (unknown : answers.get? key = none) {longer : List Path}
    (numbered : Numbered longer ((issued asked).map number ++ (answer.map number).toList)) :
    Remembers number (answers.insert key answer) longer (asked ++ [(key, answer)]) where
  answers {other given} := by
    rw [Table.get?_insert, List.mem_append, List.mem_singleton, Prod.mk.injEq]
    by_cases same : other = key
    · subst same
      have absent : (other, given) ∉ asked := fun member => by
        simpa [unknown] using remembers.answers.mpr member
      simp [absent, eq_comm]
    · simp [same, remembers.answers]
  numbered := by
    rw [issued_snoc]
    exact numbered

end Remembers

end Remembering

end HeaderSearch.FileMemo
