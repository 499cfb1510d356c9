import Mathlib.Data.List.Forall2
import Mathlib.Logic.Relation

/-!
# Lists related item by item

Reading the items of a list one after the other relates the list to the results, item by item. Such
relations compose, lead from each item to one of the other list, and are split where a list is.
-/

namespace HeaderSearch

/-- The items of a list are read one by one, and each gives the result in its place. -/
theorem mapM_eq_some_iff {α β : Type} {read : α → Option β} {items : List α} {results : List β} :
    items.mapM read = some results ↔
      List.Forall₂ (fun item result => read item = some result) items results := by
  induction items generalizing results with
  | nil =>
    rw [List.forall₂_nil_left_iff]
    exact Option.some_inj.trans eq_comm
  | cons item items inductionHypothesis =>
    rw [List.mapM_cons, List.forall₂_cons_left_iff]
    simp only [Option.bind_eq_bind, Option.bind_eq_some_iff]
    constructor
    · rintro ⟨result, here, others, there, same⟩
      exact ⟨result, others, here, inductionHypothesis.1 there, (Option.some.inj same).symm⟩
    · rintro ⟨result, others, here, there, rfl⟩
      exact ⟨result, here, others, inductionHypothesis.2 there, rfl⟩

/-- Two relations one after the other relate two lists exactly if they do so by way of a third list. -/
theorem forall₂_comp_iff {α β γ : Type} {first : α → β → Prop} {second : β → γ → Prop}
    {items : List α} {results : List γ} :
    List.Forall₂ (Relation.Comp first second) items results ↔
      ∃ middle, List.Forall₂ first items middle ∧ List.Forall₂ second middle results := by
  constructor
  · intro each
    induction each with
    | nil => exact ⟨[], .nil, .nil⟩
    | cons here _ inductionHypothesis =>
      obtain ⟨between, before, after⟩ := here
      obtain ⟨middle, leads, follows⟩ := inductionHypothesis
      exact ⟨between :: middle, .cons before leads, .cons after follows⟩
  · rintro ⟨middle, before, after⟩
    induction before generalizing results with
    | nil =>
      cases after
      exact .nil
    | cons here _ inductionHypothesis =>
      cases after with
      | cons there rest => exact .cons ⟨_, here, there⟩ (inductionHypothesis rest)

/-- An item of a list is related to an item of every list to which the list is related. -/
theorem exists_of_forall₂ {α β : Type} {related : α → β → Prop} {items : List α} {others : List β}
    (each : List.Forall₂ related items others) {item : α} (member : item ∈ items) :
    ∃ other ∈ others, related item other := by
  induction each with
  | nil => cases member
  | cons here _ inductionHypothesis =>
    rcases List.mem_cons.1 member with rfl | later
    · exact ⟨_, List.mem_cons_self, here⟩
    · obtain ⟨other, there, holds⟩ := inductionHypothesis later
      exact ⟨other, List.mem_cons_of_mem _ there, holds⟩

/-- What is related to a list is split where the list is. -/
theorem forall₂_split {α β : Type} {related : α → β → Prop} {before after : List α} {item : α}
    {others : List β} (each : List.Forall₂ related (before ++ item :: after) others) :
    ∃ first other rest, others = first ++ other :: rest ∧ List.Forall₂ related before first ∧
      related item other ∧ List.Forall₂ related after rest := by
  induction before generalizing others with
  | nil =>
    obtain ⟨other, rest, here, follows, rfl⟩ := List.forall₂_cons_left_iff.1 each
    exact ⟨[], other, rest, rfl, .nil, here, follows⟩
  | cons one before inductionHypothesis =>
    obtain ⟨another, tail, leads, others, rfl⟩ := List.forall₂_cons_left_iff.1 each
    obtain ⟨first, other, rest, rfl, preceding, here, follows⟩ := inductionHypothesis others
    exact ⟨another :: first, other, rest, rfl, .cons leads preceding, here, follows⟩

end HeaderSearch
