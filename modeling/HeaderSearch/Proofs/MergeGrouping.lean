import HeaderSearch.Proofs.Merging

/-!
# Configurations merged in any grouping

Several configurations are merged one after the other, and it does not matter which two are merged
first. The entries are appended, which is associative. The start of angled includes comes from the first
configuration that has an entry, whichever side of a merge that one is on. The framework names of the
right side are offered one by one to a list that grows; offering the names that another list has
gathered comes to the same as offering the names that were offered to it.
-/

namespace HeaderSearch

namespace Config

/-- A word that is there is not appended. -/
theorem append_new_cons_of_mem {word : String} {words : List String} (rest : List String)
    (there : word ∈ words) : appendNew words (word :: rest) = appendNew words rest := by
  have contained : words.contains word = true := List.contains_iff_mem.2 there
  rw [appendNew, if_pos contained]

/-- A word that is not there becomes the last one. -/
theorem append_new_cons_of_not_mem {word : String} {words : List String} (rest : List String)
    (absent : word ∉ words) :
    appendNew words (word :: rest) = appendNew (words ++ [word]) rest := by
  have missing : ¬words.contains word = true := fun contained =>
    absent (List.contains_iff_mem.1 contained)
  rw [appendNew, if_neg missing]

/-- The words stay as they are, repeated ones too. After them comes each of the others that is not among
    them, once, in the order in which they first occur. -/
theorem append_new_eq (words others : List String) :
    appendNew words others = words ++ (others.filter (· ∉ words)).eraseDups := by
  induction others generalizing words with
  | nil => exact (List.append_nil words).symm
  | cons other others inductionHypothesis =>
    by_cases there : other ∈ words
    · rw [append_new_cons_of_mem others there, inductionHypothesis,
        List.filter_cons_of_neg (by simpa using there)]
    · -- What is appended later is neither among the words nor the one that was just appended.
      have later : others.filter (· ∉ words ++ [other]) =
          (others.filter (· ∉ words)).filter fun word => !word == other := by
        rw [List.filter_filter]
        apply List.filter_congr
        intro word _
        by_cases same : word = other
        · simp [same]
        · simp [same]
      rw [append_new_cons_of_not_mem others there, inductionHypothesis, later, List.append_assoc,
        List.filter_cons_of_pos (by simpa using there), List.eraseDups_cons, List.singleton_append]

/-- Words are offered in turn, so two lists of them may be offered one after the other. -/
theorem append_new_append (words others more : List String) :
    appendNew words (others ++ more) = appendNew (appendNew words others) more := by
  induction others generalizing words with
  | nil => rfl
  | cons other others inductionHypothesis => exact inductionHypothesis _

/-- A word that is offered is there afterwards. -/
theorem mem_append_new_of_offered {word : String} {others : List String} (words : List String)
    (offered : word ∈ others) : word ∈ appendNew words others := by
  by_cases there : word ∈ words
  · exact mem_append_new others there
  · rw [append_new_eq]
    apply List.mem_append_right
    rw [List.mem_eraseDups, List.mem_filter]
    exact ⟨offered, decide_eq_true there⟩

/-- Offering the words that a list has gathered comes to the same as offering the list and then what was
    offered to it. Induct on the latter: a word that the list has is offered as part of it already, and
    one that it lacks becomes its last word. -/
theorem append_new_append_new (words others more : List String) :
    appendNew words (appendNew others more) = appendNew (appendNew words others) more := by
  induction more generalizing others with
  | nil => rfl
  | cons word more inductionHypothesis =>
    by_cases there : word ∈ others
    · have known : word ∈ appendNew words others := mem_append_new_of_offered words there
      rw [append_new_cons_of_mem more there, append_new_cons_of_mem more known]
      exact inductionHypothesis others
    · rw [append_new_cons_of_not_mem more there, inductionHypothesis, append_new_append]
      rfl

/-- The start of angled includes comes from the first of three configurations that has an entry, and from
    the last one if none has. -/
theorem angledStart_merge_merge (first second third : Config) :
    ((first.merge second).merge third).angledStart =
      if first.entries ≠ [] then first.angledStart
      else if second.entries ≠ [] then second.angledStart
      else third.angledStart := by
  by_cases leads : first.entries = []
  · simp [merge, leads]
  · simp [merge, leads]

/-- Three configurations may be merged from the left or from the right. Either way the entries come one
    after the other, angled includes start where the first configuration with an entry says, and the
    frameworks are those of the first one as they are, followed by every other name of the second and the
    third, once, in the order in which they first occur. -/
theorem merge_is_associative (first second third : Config) :
    let merged := (first.merge second).merge third
    first.merge (second.merge third) = merged ∧
      merged.entries = first.entries ++ second.entries ++ third.entries ∧
      merged.angledStart =
        (if first.entries ≠ [] then first.angledStart
        else if second.entries ≠ [] then second.angledStart
        else third.angledStart) ∧
      merged.systemFrameworks = first.systemFrameworks ++
        ((second.systemFrameworks ++ third.systemFrameworks).filter
          (· ∉ first.systemFrameworks)).eraseDups := by
  intro merged
  have entries : (first.merge (second.merge third)).entries = merged.entries :=
    (List.append_assoc first.entries second.entries third.entries).symm
  have start : (first.merge (second.merge third)).angledStart = merged.angledStart := by
    -- With nothing in the first configuration both groupings ask the other two.
    by_cases leads : first.entries = []
    · simp [merged, merge, leads]
    · simp [merged, merge, leads]
  have frameworks : (first.merge (second.merge third)).systemFrameworks = merged.systemFrameworks :=
    append_new_append_new first.systemFrameworks second.systemFrameworks third.systemFrameworks
  refine ⟨?_, rfl, angledStart_merge_merge first second third, ?_⟩
  · calc first.merge (second.merge third)
        = ⟨(first.merge (second.merge third)).entries, (first.merge (second.merge third)).angledStart,
            (first.merge (second.merge third)).systemFrameworks⟩ := rfl
      _ = merged := by rw [entries, start, frameworks]
  · calc merged.systemFrameworks
        = appendNew (appendNew first.systemFrameworks second.systemFrameworks)
            third.systemFrameworks := rfl
      _ = appendNew first.systemFrameworks (second.systemFrameworks ++ third.systemFrameworks) :=
          (append_new_append first.systemFrameworks second.systemFrameworks
            third.systemFrameworks).symm
      _ = _ := append_new_eq first.systemFrameworks _

/-- A name that the first configuration repeats stays repeated; one that the second repeats is taken
    once. -/
example : (merge { systemFrameworks := ["A", "A"] }
    { systemFrameworks := ["B", "A", "B"] }).systemFrameworks = ["A", "A", "B"] := by decide

end Config

end HeaderSearch
