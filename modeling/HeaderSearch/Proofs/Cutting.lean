/-!
# Cutting joined texts

Texts that were joined with a separator between them are found again by cutting at the separator, if
none of them has it inside and none of them can make up one together with what follows. A text is free
of a separator in this sense if no ending of it can be the start of one, and that is kept when texts
are put one after the other.
-/

namespace HeaderSearch.Text

/-- The pieces of a text between the occurrences of a separator of at least one character. They are found
    from left to right, each after the end of the one before. -/
def cut (separator : List Char) : List Char → List (List Char)
  | [] => [[]]
  | letter :: rest =>
    if separator.isPrefixOf (letter :: rest) then
      [] :: cut separator (rest.drop (separator.length - 1))
    else (cut separator rest).modifyHead (letter :: ·)
termination_by text => text.length

/-- Occurrences of the separator do not overlap. -/
example : cut ['\n', '\n'] ['a', '\n', '\n', '\n', 'b'] = [['a'], ['\n', 'b']] := by cbv

/-- A text is not comparable with a separator if neither is the start of the other. -/
def Apart (separator text : List Char) : Prop := ¬separator <+: text ∧ ¬text <+: separator

/-- No separator starts inside a text, whatever follows the text: each ending of it that is not empty
    differs from the separator before either ends. -/
def FreeOf (separator text : List Char) : Prop :=
  ∀ ending, ending <:+ text → ending ≠ [] → Apart separator ending

namespace FreeOf

variable {separator : List Char}

theorem nil : FreeOf separator [] :=
  fun _ ending some => absurd (List.suffix_nil.mp ending) some

/-- A letter before a free text is no start of a separator if the whole is apart from it. -/
theorem cons {letter : Char} {rest : List Char} (apart : Apart separator (letter :: rest))
    (free : FreeOf separator rest) : FreeOf separator (letter :: rest) := by
  intro ending isEnding some
  rcases List.suffix_cons_iff.mp isEnding with rfl | inside
  · exact apart
  · exact free ending inside some

/-- A free text is apart from the separator, and so is what follows its first letter. -/
theorem uncons {letter : Char} {rest : List Char} (free : FreeOf separator (letter :: rest)) :
    Apart separator (letter :: rest) ∧ FreeOf separator rest :=
  ⟨free _ (List.suffix_refl _) (List.cons_ne_nil _ _),
    fun ending isEnding => free ending (isEnding.trans (List.suffix_cons letter rest))⟩

/-- A text that lacks the first letter of the separator is free of it. -/
theorem of_not_mem {first : Char} {more text : List Char} (absent : first ∉ text) :
    FreeOf (first :: more) text := by
  intro ending isEnding some
  obtain ⟨letter, rest, rfl⟩ := List.exists_cons_of_ne_nil some
  have differs : first ≠ letter := fun same =>
    absent (isEnding.mem (same ▸ List.mem_cons_self))
  exact ⟨fun start => differs (List.cons_prefix_cons.mp start).1,
    fun start => differs (List.cons_prefix_cons.mp start).1.symm⟩

/-- Two free texts in sequence are free: a separator that started in the first one would be comparable
    with the rest of it. -/
theorem append {first second : List Char} (free : FreeOf separator first)
    (freeAfter : FreeOf separator second) : FreeOf separator (first ++ second) := by
  induction first with
  | nil => exact freeAfter
  | cons letter rest inductionHypothesis =>
    obtain ⟨⟨longer, shorter⟩, later⟩ := free.uncons
    have whole : letter :: rest <+: letter :: rest ++ second := List.prefix_append _ second
    refine cons ⟨fun start => ?_, fun start => ?_⟩ (inductionHypothesis later)
    · rcases List.prefix_or_prefix_of_prefix start whole with inside | inside
      · exact longer inside
      · exact shorter inside
    · exact shorter (whole.trans start)

end FreeOf

/-- A text that is free of the separator is one piece, and a separator after it ends the piece. -/
theorem cut_append {separator text : List Char} (free : FreeOf separator text)
    (some : separator ≠ []) (rest : List Char) :
    cut separator (text ++ separator ++ rest) = text :: cut separator rest := by
  induction text with
  | nil =>
    obtain ⟨first, more, rfl⟩ := List.exists_cons_of_ne_nil some
    rw [List.nil_append, List.cons_append, cut, if_pos (by simp)]
    simp
  | cons letter text inductionHypothesis =>
    obtain ⟨⟨longer, shorter⟩, later⟩ := free.uncons
    have notHere : ¬separator.isPrefixOf (letter :: (text ++ separator ++ rest)) = true := by
      rw [List.isPrefixOf_iff_prefix]
      intro start
      have whole : letter :: text <+: letter :: (text ++ separator ++ rest) := by simp
      rcases List.prefix_or_prefix_of_prefix start whole with inside | inside
      · exact longer inside
      · exact shorter inside
    rw [List.cons_append, List.cons_append, cut, if_neg notHere, inductionHypothesis later]
    rfl

/-- A text that is free of the separator is one piece. -/
theorem cut_of_free {separator text : List Char} (free : FreeOf separator text) :
    cut separator text = [text] := by
  induction text with
  | nil => rw [cut]
  | cons letter text inductionHypothesis =>
    obtain ⟨apart, later⟩ := free.uncons
    rw [cut, if_neg (by rw [List.isPrefixOf_iff_prefix]; exact apart.1),
      inductionHypothesis later]
    rfl

/-- Cutting at a separator undoes joining with it if the pieces are free of it. -/
theorem cut_intercalate {separator : List Char} {pieces : List (List Char)}
    (some : separator ≠ []) (given : pieces ≠ [])
    (free : ∀ piece ∈ pieces, FreeOf separator piece) :
    cut separator (separator.intercalate pieces) = pieces := by
  induction pieces with
  | nil => exact absurd rfl given
  | cons piece pieces inductionHypothesis =>
    have here := free piece List.mem_cons_self
    cases pieces with
    | nil => rw [List.intercalate_singleton, cut_of_free here]
    | cons next others =>
      have rest := inductionHypothesis (List.cons_ne_nil _ _)
        fun other there => free other (List.mem_cons_of_mem _ there)
      rw [List.intercalate_cons_cons, cut_append here some, rest]

/-- The pieces of a text between the occurrences of a separator, as texts. -/
def pieces (separator text : String) : List String :=
  (cut separator.toList text.toList).map String.ofList

/-- Texts that are free of a separator are the pieces of the text joined from them. -/
theorem pieces_intercalate {separator : String} {texts : List String}
    (some : separator.toList ≠ []) (given : texts ≠ [])
    (free : ∀ text ∈ texts, FreeOf separator.toList text.toList) :
    pieces separator (separator.intercalate texts) = texts := by
  have apart : cut separator.toList (separator.toList.intercalate (texts.map String.toList)) =
      texts.map String.toList := by
    refine cut_intercalate some (by simpa using given) fun piece there => ?_
    obtain ⟨text, member, rfl⟩ := List.mem_map.mp there
    exact free text member
  rw [pieces, String.toList_intercalate, apart, List.map_map]
  exact List.map_id'' (fun _ => String.ofList_toList) texts

end HeaderSearch.Text
