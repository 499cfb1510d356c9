import HeaderSearch.Proofs.CacheSize

/-!
# What a cache holds

A cache is told by the outcomes that were put into it, one after the other. A question has the last
outcome that was put in for it, be it a hit or a miss, and none at all if there was none. So a cache is
two finite maps, one for the names and kinds that a search list was asked for and one for the names that
including directories were asked for, and neither disturbs the other. The induction is always on what was
put in last.
-/

namespace HeaderSearch

namespace LookupCache

/-- A question that a cache may hold an outcome for. -/
inductive Question where
  /-- What a search list answers to a name of a kind. -/
  | listed (name : String) (kind : IncludeKind)
  /-- Whether an including directory holds a name. -/
  | beside (directory : DirHandle) (name : String)
deriving DecidableEq, Repr

namespace Question

/-- The name and kind that a search list is asked for. -/
def listed? : Question → Option (String × IncludeKind)
  | listed name kind => some (name, kind)
  | beside _ _ => none

/-- The name that a directory is asked for, after the directory. -/
def beside? : Question → Option (DirHandle × String)
  | listed _ _ => none
  | beside directory name => some (directory, name)

theorem listed?_eq_some_iff {question : Question} {name : String} {kind : IncludeKind} :
    question.listed? = some (name, kind) ↔ question = .listed name kind := by
  cases question <;> simp [listed?]

theorem beside?_eq_some_iff {question : Question} {directory : DirHandle} {name : String} :
    question.beside? = some (directory, name) ↔ question = .beside directory name := by
  cases question <;> simp [beside?]

/-- Every question is of one of the two sorts. -/
theorem of_neither {question : Question} (unlisted : question.listed? = none) :
    question.beside? ≠ none := by
  cases question with
  | listed name kind => simp [listed?] at unlisted
  | beside directory name => simp [beside?]

end Question

/-- An outcome that is put into a cache. -/
structure Insertion (α : Type) where
  /-- The question that it belongs to. -/
  question : Question
  /-- The hit, or none for a miss. -/
  outcome : Option α

variable {α : Type}

/-- The outcome of a question, if the cache holds one. -/
def outcome? (cache : LookupCache α) : Question → Option (Option α)
  | .listed name kind => cache.get? name kind
  | .beside directory name => cache.getBeside? directory name

/-- The cache after an outcome was put in. -/
def put (cache : LookupCache α) (insertion : Insertion α) : LookupCache α :=
  match insertion.question with
  | .listed name kind => cache.insert name kind insertion.outcome
  | .beside directory name => cache.insertBeside directory name insertion.outcome

/-- The cache after some outcomes were put in. -/
def putAll (cache : LookupCache α) (insertions : List (Insertion α)) : LookupCache α :=
  insertions.foldl put cache

theorem putAll_concat (cache : LookupCache α) (insertions : List (Insertion α))
    (last : Insertion α) : cache.putAll (insertions ++ [last]) = (cache.putAll insertions).put last := by
  simp [putAll]

theorem putAll_append (cache : LookupCache α) (insertions more : List (Insertion α)) :
    cache.putAll (insertions ++ more) = (cache.putAll insertions).putAll more :=
  List.foldl_append

/-- Putting an outcome in changes the answer to its own question alone. -/
theorem outcome?_put (cache : LookupCache α) (insertion : Insertion α) (question : Question) :
    (cache.put insertion).outcome? question =
      if question = insertion.question then some insertion.outcome else cache.outcome? question := by
  obtain ⟨asked, outcome⟩ := insertion
  cases asked with
  | listed name kind =>
    cases question with
    | listed other wanted => simp [outcome?, put, get?_insert]
    | beside directory other => simp [outcome?, put]
  | beside directory name =>
    cases question with
    | listed other wanted => simp [outcome?, put]
    | beside asked other => simp [outcome?, put, getBeside?_insertBeside]

/-- A question has the last outcome that was put in for it. Induct on what was put in last. -/
theorem outcome?_putAll (insertions : List (Insertion α)) (question : Question) :
    (empty.putAll insertions).outcome? question =
      (insertions.reverse.find? fun insertion => insertion.question = question).map
        Insertion.outcome := by
  induction insertions using List.reverseRecOn with
  | nil => cases question <;> rfl
  | append_singleton insertions last inductionHypothesis =>
    rw [putAll_concat, outcome?_put, inductionHypothesis, List.reverse_append,
      List.reverse_singleton, List.singleton_append, List.find?_cons]
    by_cases same : last.question = question
    · simp [same]
    · simp [same, Ne.symm same]

/-- There is an outcome for the questions that one was put in for. -/
theorem isSome_outcome?_putAll (insertions : List (Insertion α)) (question : Question) :
    ((empty.putAll insertions).outcome? question).isSome ↔
      question ∈ insertions.map Insertion.question := by
  rw [outcome?_putAll, Option.isSome_map, List.find?_isSome]
  simp

/-- The names and kinds that an outcome was put in for. -/
def listedOf (insertions : List (Insertion α)) : Finset (String × IncludeKind) :=
  (insertions.filterMap fun insertion => insertion.question.listed?).toFinset

/-- The directories and names that an outcome was put in for. -/
def besideOf (insertions : List (Insertion α)) : Finset (DirHandle × String) :=
  (insertions.filterMap fun insertion => insertion.question.beside?).toFinset

theorem mem_listedOf {insertions : List (Insertion α)} {name : String} {kind : IncludeKind} :
    (name, kind) ∈ listedOf insertions ↔
      .listed name kind ∈ insertions.map Insertion.question := by
  simp [listedOf, Question.listed?_eq_some_iff]

theorem mem_besideOf {insertions : List (Insertion α)} {directory : DirHandle} {name : String} :
    (directory, name) ∈ besideOf insertions ↔
      .beside directory name ∈ insertions.map Insertion.question := by
  simp [besideOf, Question.beside?_eq_some_iff]

/-- The size counts the different questions of each sort. -/
theorem size_putAll (insertions : List (Insertion α)) :
    (empty.putAll insertions).size = (listedOf insertions).card + (besideOf insertions).card := by
  apply size_eq_card
  · intro name kind
    rw [mem_listedOf]
    exact isSome_outcome?_putAll insertions (.listed name kind)
  · intro directory name
    rw [mem_besideOf]
    exact isSome_outcome?_putAll insertions (.beside directory name)

/-- Nothing that is put in makes a cache smaller. -/
theorem size_putAll_le (insertions more : List (Insertion α)) :
    (empty.putAll insertions).size ≤ (empty.putAll (insertions ++ more)).size := by
  have listed : listedOf insertions ⊆ listedOf (insertions ++ more) := by
    intro question there
    rw [mem_listedOf, List.map_append, List.mem_append]
    exact .inl (mem_listedOf.mp there)
  have beside : besideOf insertions ⊆ besideOf (insertions ++ more) := by
    intro question there
    rw [mem_besideOf, List.map_append, List.mem_append]
    exact .inl (mem_besideOf.mp there)
  rw [size_putAll, size_putAll]
  exact Nat.add_le_add (Finset.card_le_card listed) (Finset.card_le_card beside)

/-- A cache is empty as long as nothing was put in. -/
theorem size_putAll_eq_zero_iff (insertions : List (Insertion α)) :
    (empty.putAll insertions).size = 0 ↔ insertions = [] := by
  constructor
  · intro nothing
    rw [size_putAll, Nat.add_eq_zero_iff, Finset.card_eq_zero, Finset.card_eq_zero, listedOf, besideOf,
      List.toFinset_eq_empty_iff, List.toFinset_eq_empty_iff, List.filterMap_eq_nil_iff,
      List.filterMap_eq_nil_iff] at nothing
    obtain ⟨unlisted, unheld⟩ := nothing
    apply List.eq_nil_iff_forall_not_mem.mpr
    intro insertion there
    exact Question.of_neither (unlisted insertion there) (unheld insertion there)
  · rintro rfl
    rfl

/-- A cache that outcomes were put into one after the other. Each of its two maps has for each of its keys
    the last outcome that was put in for it, a miss as well as a hit, and nothing exactly for the keys that
    none was put in for. One more outcome changes the answer for its own key alone: neither another name,
    nor the other kind of the same name, nor the other map is touched. The size is the number of different
    keys of both maps. It never falls, and is zero only before the first outcome. -/
theorem cache_is_two_finite_maps (insertions : List (Insertion α)) :
    let cache : LookupCache α := empty.putAll insertions
    (∀ name kind, cache.get? name kind =
      (insertions.reverse.find? fun insertion => insertion.question = .listed name kind).map
        Insertion.outcome) ∧
    (∀ directory name, cache.getBeside? directory name =
      (insertions.reverse.find? fun insertion => insertion.question = .beside directory name).map
        Insertion.outcome) ∧
    (∀ name kind, cache.get? name kind = none ↔
      .listed name kind ∉ insertions.map Insertion.question) ∧
    (∀ directory name, cache.getBeside? directory name = none ↔
      .beside directory name ∉ insertions.map Insertion.question) ∧
    (∀ name kind outcome,
      (∀ other wanted, (cache.insert name kind outcome).get? other wanted =
        if other = name ∧ wanted = kind then some outcome else cache.get? other wanted) ∧
      ∀ directory other, (cache.insert name kind outcome).getBeside? directory other =
        cache.getBeside? directory other) ∧
    (∀ directory name outcome,
      (∀ asked other, (cache.insertBeside directory name outcome).getBeside? asked other =
        if asked = directory ∧ other = name then some outcome else cache.getBeside? asked other) ∧
      ∀ other kind, (cache.insertBeside directory name outcome).get? other kind =
        cache.get? other kind) ∧
    cache.size = (listedOf insertions).card + (besideOf insertions).card ∧
    (∀ more, cache.size ≤ (cache.putAll more).size) ∧
    (cache.size = 0 ↔ insertions = []) ∧
    (cache.isEmpty = true ↔ insertions = []) := by
  intro cache
  have absent (question : Question) :
      cache.outcome? question = none ↔ question ∉ insertions.map Insertion.question := by
    rw [← isSome_outcome?_putAll, Option.not_isSome_iff_eq_none]
  refine ⟨?_, ?_, ?_, ?_, ?_, ?_, size_putAll insertions, ?_, ?_, ?_⟩
  · intro name kind
    exact outcome?_putAll insertions (.listed name kind)
  · intro directory name
    exact outcome?_putAll insertions (.beside directory name)
  · intro name kind
    exact absent (.listed name kind)
  · intro directory name
    exact absent (.beside directory name)
  · intro name kind outcome
    constructor
    · intro other wanted
      exact get?_insert cache name other kind wanted outcome
    · intro directory other
      exact getBeside?_insert cache name other kind directory outcome
  · intro directory name outcome
    constructor
    · intro asked other
      exact getBeside?_insertBeside cache directory asked name other outcome
    · intro other kind
      exact get?_insertBeside cache directory name other kind outcome
  · intro more
    rw [← putAll_append]
    exact size_putAll_le insertions more
  · exact size_putAll_eq_zero_iff insertions
  · rw [isEmpty, decide_eq_true_eq]
    exact size_putAll_eq_zero_iff insertions

/-- A miss that is put in over a hit is remembered, and the other kind of the name stays unasked. -/
example :
    let cache : LookupCache Nat := empty.putAll [
      ⟨.listed "a.h" .quoted, some 7⟩, ⟨.beside ⟨0⟩ "a.h", some 8⟩, ⟨.listed "a.h" .quoted, none⟩]
    cache.get? "a.h" .quoted = some none ∧ cache.get? "a.h" .angled = none ∧
      cache.getBeside? ⟨0⟩ "a.h" = some (some 8) ∧ cache.size = 2 := by
  decide

end LookupCache

end HeaderSearch
