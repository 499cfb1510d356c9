/-!
# Pairs in the order of their keys

A list of pairs is put into the ascending order of its keys, by code points. Of several values under
one key the last one stays.
-/

namespace HeaderSearch.SortedPairs

variable {α : Type}

/-- Puts a value under a key into pairs that are in ascending order, in place of a value that is
    under that key already. -/
def insert (key : String) (value : α) : List (String × α) → List (String × α)
  | [] => [(key, value)]
  | (other, kept) :: rest =>
    if key < other then (key, value) :: (other, kept) :: rest
    else if key = other then (key, value) :: rest
    else (other, kept) :: insert key value rest

/-- Inserting adds its key and keeps all others. -/
theorem mem_keys_insert (key other : String) (value : α) (pairs : List (String × α)) :
    other ∈ (insert key value pairs).map Prod.fst ↔ other = key ∨ other ∈ pairs.map Prod.fst := by
  induction pairs with
  | nil => simp [insert]
  | cons pair rest inductionHypothesis =>
    rw [insert]
    split
    · simp
    · split
      · next same =>
        subst same
        simp
      · rw [List.map_cons, List.mem_cons, inductionHypothesis, List.map_cons, List.mem_cons]
        exact or_left_comm

/-- The pairs in ascending order of their keys, each key once and with its last value. -/
def ofList (pairs : List (String × α)) : List (String × α) :=
  pairs.foldl (fun sorted pair => insert pair.1 pair.2 sorted) []

/-- Inserting adds no pair but its own. -/
theorem mem_of_mem_insert {key : String} {value : α} {pairs : List (String × α)}
    {pair : String × α} (member : pair ∈ insert key value pairs) :
    pair = (key, value) ∨ pair ∈ pairs := by
  induction pairs with
  | nil => exact .inl (List.mem_singleton.mp member)
  | cons first rest inductionHypothesis =>
    rw [insert] at member
    split at member
    · exact List.mem_cons.mp member
    · split at member
      · rcases List.mem_cons.mp member with same | later
        · exact .inl same
        · exact .inr (List.mem_cons_of_mem _ later)
      · rcases List.mem_cons.mp member with same | later
        · exact .inr (List.mem_cons.mpr (.inl same))
        · exact (inductionHypothesis later).imp_right (List.mem_cons_of_mem _)

/-- Inserting keeps the keys in ascending order. -/
theorem ascending_insert (key : String) (value : α) {pairs : List (String × α)}
    (ascending : pairs.Pairwise fun first second => first.1 < second.1) :
    (insert key value pairs).Pairwise fun first second => first.1 < second.1 := by
  induction pairs with
  | nil => exact List.pairwise_singleton _ _
  | cons first rest inductionHypothesis =>
    obtain ⟨before, sorted⟩ := List.pairwise_cons.mp ascending
    rw [insert]
    split
    · next less =>
      refine List.pairwise_cons.mpr ⟨fun pair member => ?_, ascending⟩
      rcases List.mem_cons.mp member with rfl | later
      · exact less
      · exact String.lt_trans less (before pair later)
    · split
      · next same =>
        subst same
        exact List.pairwise_cons.mpr ⟨before, sorted⟩
      · next notLess differs =>
        have greater : first.1 < key := Decidable.byContradiction fun notGreater =>
          differs (String.le_antisymm (String.not_lt.mp notGreater) (String.not_lt.mp notLess))
        refine List.pairwise_cons.mpr ⟨fun pair member => ?_, inductionHypothesis sorted⟩
        rcases mem_of_mem_insert member with rfl | later
        · exact greater
        · exact before pair later

/-- A key above all others is put at the end. -/
theorem insert_last {key : String} (value : α) {pairs : List (String × α)}
    (above : ∀ pair ∈ pairs, pair.1 < key) :
    insert key value pairs = pairs ++ [(key, value)] := by
  induction pairs with
  | nil => rfl
  | cons first rest inductionHypothesis =>
    have less := above first List.mem_cons_self
    rw [insert, if_neg (String.lt_asymm less), if_neg fun same => String.ne_of_lt less same.symm,
      inductionHypothesis fun pair member => above pair (List.mem_cons_of_mem _ member)]
    rfl

/-- The distinct words of a list in ascending order. -/
def distinctWords (words : List String) : List String :=
  (ofList (words.map fun word => (word, ()))).map Prod.fst

/-- Sorting keeps only pairs that were there. -/
theorem mem_of_mem_ofList {pairs : List (String × α)} {pair : String × α}
    (member : pair ∈ ofList pairs) : pair ∈ pairs := by
  suffices folded : ∀ sorted : List (String × α),
      pair ∈ pairs.foldl (fun sorted pair => insert pair.1 pair.2 sorted) sorted →
        pair ∈ sorted ∨ pair ∈ pairs from
    (folded [] member).resolve_left List.not_mem_nil
  clear member
  induction pairs with
  | nil => exact fun sorted member => .inl member
  | cons first rest inductionHypothesis =>
    intro sorted member
    rcases inductionHypothesis _ member with inserted | later
    · rcases mem_of_mem_insert inserted with rfl | before
      · exact .inr List.mem_cons_self
      · exact .inl before
    · exact .inr (List.mem_cons_of_mem _ later)

/-- Sorted pairs are in ascending order of their keys. -/
theorem ascending_ofList (pairs : List (String × α)) :
    (ofList pairs).Pairwise fun first second => first.1 < second.1 := by
  suffices folded : ∀ sorted : List (String × α),
      (sorted.Pairwise fun first second => first.1 < second.1) →
        (pairs.foldl (fun sorted pair => insert pair.1 pair.2 sorted) sorted).Pairwise
          fun first second => first.1 < second.1 from folded [] .nil
  induction pairs with
  | nil => exact fun sorted ascending => ascending
  | cons first rest inductionHypothesis =>
    exact fun sorted ascending => inductionHypothesis _ (ascending_insert _ _ ascending)

/-- Pairs in ascending order of their keys are left as they are. -/
theorem ofList_of_ascending {pairs : List (String × α)}
    (ascending : pairs.Pairwise fun first second => first.1 < second.1) :
    ofList pairs = pairs := by
  suffices folded : ∀ sorted : List (String × α), (∀ pair ∈ sorted, ∀ other ∈ pairs,
      pair.1 < other.1) →
        pairs.foldl (fun sorted pair => insert pair.1 pair.2 sorted) sorted = sorted ++ pairs from
    folded [] fun _ member => absurd member List.not_mem_nil
  induction pairs with
  | nil => exact fun sorted _ => (List.append_nil sorted).symm
  | cons first rest inductionHypothesis =>
    intro sorted below
    obtain ⟨before, ascending⟩ := List.pairwise_cons.mp ascending
    have last : insert first.1 first.2 sorted = sorted ++ [first] :=
      insert_last first.2 fun pair member => below pair member first List.mem_cons_self
    rw [List.foldl_cons, last, inductionHypothesis ascending, List.append_assoc,
      List.singleton_append]
    intro pair member other there
    rcases List.mem_append.mp member with earlier | same
    · exact below pair earlier other (List.mem_cons_of_mem _ there)
    · rw [List.mem_singleton.mp same]
      exact before other there

/-- Sorting sorted pairs again changes nothing. -/
@[simp] theorem ofList_ofList (pairs : List (String × α)) : ofList (ofList pairs) = ofList pairs :=
  ofList_of_ascending (ascending_ofList pairs)

/-- The distinct words of a list are its words. -/
@[simp] theorem mem_distinctWords {word : String} {words : List String} :
    word ∈ distinctWords words ↔ word ∈ words := by
  have folded (sorted : List (String × Unit)) :
      word ∈ ((words.map fun word => (word, ())).foldl
        (fun sorted pair => insert pair.1 pair.2 sorted) sorted).map Prod.fst ↔
        word ∈ sorted.map Prod.fst ∨ word ∈ words := by
    induction words generalizing sorted with
    | nil => simp
    | cons first rest inductionHypothesis =>
      rw [List.map_cons, List.foldl_cons, inductionHypothesis, mem_keys_insert, List.mem_cons]
      constructor
      · rintro ((same | member) | member)
        · exact .inr (.inl same)
        · exact .inl member
        · exact .inr (.inr member)
      · rintro (member | same | member)
        · exact .inl (.inr member)
        · exact .inl (.inl same)
        · exact .inr member
  rw [distinctWords, ofList, folded]
  simp

end HeaderSearch.SortedPairs
