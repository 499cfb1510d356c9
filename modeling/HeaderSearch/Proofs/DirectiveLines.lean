import Mathlib.Data.List.Basic
import Mathlib.Data.List.TakeWhile
import HeaderSearch.Include.Directive

/-!
# Lines that are directives

The lines of a text are described by how the text is put together from them, and a directive by how its
line is written. A text has one list of lines in this sense, a line can be read as a directive in one
way at most, and scanning a text finds exactly the directives among its lines. Directives that are
written one per line are therefore found again.
-/

namespace HeaderSearch

namespace Text

/-- A text is put together from lines. Each ends with a line feed, which a carriage return may precede,
    and only the last one may have no ending, unless it is empty. A line is free of line feeds, and does
    not end with a carriage return if a line feed follows. -/
inductive Lined : List Char → List (List Char) → Prop where
  | nothing : Lined [] []
  | last {line : List Char} (some : line ≠ []) (free : '\n' ∉ line) : Lined line [line]
  | ended {line rest : List Char} {lines : List (List Char)} (free : '\n' ∉ line)
      (plain : line.getLast? ≠ some '\r') (others : Lined rest lines) :
      Lined (line ++ '\n' :: rest) (line :: lines)
  | returned {line rest : List Char} {lines : List (List Char)} (free : '\n' ∉ line)
      (others : Lined rest lines) : Lined (line ++ '\r' :: '\n' :: rest) (line :: lines)

/-- A text without the separator is one piece. -/
theorem splitOn_of_not_mem {separator : Char} {text : List Char} (free : separator ∉ text) :
    splitOn separator text = [text] := by
  induction text with
  | nil => rfl
  | cons letter rest inductionHypothesis =>
    rw [List.mem_cons, not_or] at free
    rw [splitOn, if_neg (Ne.symm free.1), inductionHypothesis free.2]

/-- No piece has the separator inside. -/
theorem not_mem_of_mem_splitOn {separator : Char} {text piece : List Char}
    (member : piece ∈ splitOn separator text) : separator ∉ piece := by
  induction text generalizing piece with
  | nil =>
    rw [splitOn, List.mem_singleton] at member
    exact member ▸ List.not_mem_nil
  | cons letter rest inductionHypothesis =>
    rw [splitOn] at member
    split at member
    · rcases List.mem_cons.mp member with rfl | later
      · exact List.not_mem_nil
      · exact inductionHypothesis later
    · next differs =>
      cases pieces : splitOn separator rest with
      | nil => exact absurd pieces (splitOn_ne_nil separator rest)
      | cons first others =>
        rw [pieces] at member inductionHypothesis
        rcases List.mem_cons.mp member with rfl | later
        · rw [List.mem_cons, not_or]
          exact ⟨Ne.symm differs, inductionHypothesis List.mem_cons_self⟩
        · exact inductionHypothesis (List.mem_cons_of_mem first later)

/-- Pieces with line feeds between them are put together from the lines that are made of them. -/
theorem lined_of_pieces {pieces : List (List Char)} (free : ∀ piece ∈ pieces, '\n' ∉ piece) :
    Lined (joinWith '\n' pieces) (linesOfPieces pieces) := by
  induction pieces with
  | nil => exact .nothing
  | cons piece pieces inductionHypothesis =>
    have here := free piece List.mem_cons_self
    cases pieces with
    | nil =>
      rw [joinWith, linesOfPieces]
      split
      · next empty => exact empty ▸ .nothing
      · next some => exact .last some here
    | cons next others =>
      have rest := inductionHypothesis fun other member => free other (List.mem_cons_of_mem _ member)
      rw [joinWith, linesOfPieces, dropReturn]
      split
      · next ends =>
        obtain ⟨front, rfl⟩ := List.getLast?_eq_some_iff.mp ends
        rw [List.dropLast_concat, List.append_assoc]
        exact .returned (fun member => here (List.mem_append_left _ member)) rest
      · next plain => exact .ended here plain rest

/-- A line and its line feed at the start of a text give its first line. -/
theorem lines_append {line : List Char} (free : '\n' ∉ line) (rest : List Char) :
    lines (line ++ '\n' :: rest) = dropReturn line :: lines rest := by
  rw [lines, splitOn_append, splitOn_of_not_mem free, lines]
  cases pieces : splitOn '\n' rest with
  | nil => exact absurd pieces (splitOn_ne_nil '\n' rest)
  | cons first others => rfl

/-- A text is put together from its lines and from no other ones. -/
theorem lined_iff (text : List Char) (found : List (List Char)) :
    Lined text found ↔ found = lines text := by
  constructor
  · intro lined
    induction lined with
    | nothing => rfl
    | last some free => rw [lines, splitOn_of_not_mem free, linesOfPieces, if_neg some]
    | ended free plain _ inductionHypothesis =>
      rw [lines_append free, dropReturn, if_neg plain, inductionHypothesis]
    | @returned line rest found free _ inductionHypothesis =>
      have freeReturned : '\n' ∉ line ++ ['\r'] := by
        simpa using free
      rw [show line ++ '\r' :: '\n' :: rest = line ++ ['\r'] ++ '\n' :: rest by simp,
        lines_append freeReturned, dropReturn, if_pos List.getLast?_concat, List.dropLast_concat,
        inductionHypothesis]
  · rintro rfl
    have free : ∀ piece ∈ splitOn '\n' text, '\n' ∉ piece := fun _ => not_mem_of_mem_splitOn
    have lined := lined_of_pieces free
    rwa [joinWith_splitOn] at lined

/-- Lines with a line feed after each. -/
theorem lined_ended {found : List (List Char)} (free : ∀ line ∈ found, '\n' ∉ line)
    (plain : ∀ line ∈ found, line.getLast? ≠ some '\r') :
    Lined (found.flatMap (· ++ ['\n'])) found := by
  induction found with
  | nil => exact .nothing
  | cons line found inductionHypothesis =>
    rw [List.flatMap_cons, List.append_assoc]
    apply Lined.ended (free line List.mem_cons_self) (plain line List.mem_cons_self)
    apply inductionHypothesis
    · exact fun other member => free other (List.mem_cons_of_mem _ member)
    · exact fun other member => plain other (List.mem_cons_of_mem _ member)

/-- Lines that are not empty with a line feed between each two. -/
theorem lined_separated {found : List (List Char)} (some : ∀ line ∈ found, line ≠ [])
    (free : ∀ line ∈ found, '\n' ∉ line) (plain : ∀ line ∈ found, line.getLast? ≠ .some '\r') :
    Lined (['\n'].intercalate found) found := by
  induction found with
  | nil => exact .nothing
  | cons line found inductionHypothesis =>
    cases found with
    | nil =>
      rw [List.intercalate_singleton]
      exact .last (some line List.mem_cons_self) (free line List.mem_cons_self)
    | cons next others =>
      rw [List.intercalate_cons_cons, List.append_assoc]
      apply Lined.ended (free line List.mem_cons_self) (plain line List.mem_cons_self)
      apply inductionHypothesis
      · exact fun other member => some other (List.mem_cons_of_mem _ member)
      · exact fun other member => free other (List.mem_cons_of_mem _ member)
      · exact fun other member => plain other (List.mem_cons_of_mem _ member)

end Text

namespace Directive

/-- What comes before the delimited name of a directive: `#` and one of two words, with blanks before,
    between and after them. -/
inductive Introduces : List Char → Prop where
  | intro {indent gap word space : List Char}
      (indented : ∀ letter ∈ indent, Text.isBlank letter = true)
      (gapped : ∀ letter ∈ gap, Text.isBlank letter = true)
      (worded : word = "include".toList ∨ word = "import".toList)
      (spaced : ∀ letter ∈ space, Text.isBlank letter = true) :
      Introduces (indent ++ '#' :: (gap ++ (word ++ space)))

/-- A line is a directive with a name of a kind: the name follows the introduction between its delimiters,
    has a character, and does not have the closing delimiter inside. Anything may follow. -/
inductive Spells : List Char → List Char → IncludeKind → Prop where
  | angled {front name rest : List Char} (introduced : Introduces front) (some : name ≠ [])
      (free : '>' ∉ name) : Spells (front ++ '<' :: (name ++ '>' :: rest)) name .angled
  | quoted {front name rest : List Char} (introduced : Introduces front) (some : name ≠ [])
      (free : '"' ∉ name) : Spells (front ++ '"' :: (name ++ '"' :: rest)) name .quoted

/-- The two forms of a directive, by the delimiters of its kind. -/
theorem spells_iff {line name : List Char} {kind : IncludeKind} :
    Spells line name kind ↔
      ∃ front rest, Introduces front ∧ name ≠ [] ∧ kind.closing ∉ name ∧
        line = front ++ kind.opening :: (name ++ kind.closing :: rest) := by
  constructor
  · intro spells
    cases spells with
    | angled introduced some free => exact ⟨_, _, introduced, some, free, rfl⟩
    | quoted introduced some free => exact ⟨_, _, introduced, some, free, rfl⟩
  · rintro ⟨front, rest, introduced, some, free, rfl⟩
    cases kind with
    | angled => exact .angled introduced some free
    | quoted => exact .quoted introduced some free

section Skipping

/-- Blanks in front are skipped. -/
theorem skipBlanks_append {blanks : List Char}
    (blank : ∀ letter ∈ blanks, Text.isBlank letter = true) (rest : List Char) :
    skipBlanks (blanks ++ rest) = skipBlanks rest := List.dropWhile_append_of_pos blank

/-- Nothing is skipped before a character that is not blank. -/
theorem skipBlanks_cons {letter : Char} (solid : Text.isBlank letter = false) (rest : List Char) :
    skipBlanks (letter :: rest) = letter :: rest := by
  rw [skipBlanks, List.dropWhile_cons_of_neg (by simp [solid])]

/-- Only blanks are skipped. -/
theorem exists_skipped (text : List Char) :
    ∃ blanks, (∀ letter ∈ blanks, Text.isBlank letter = true) ∧ text = blanks ++ skipBlanks text :=
  ⟨text.takeWhile Text.isBlank, fun _ => List.mem_takeWhile_imp,
    List.takeWhile_append_dropWhile.symm⟩

end Skipping

/-- A word of a directive starts with a letter. -/
theorem skipBlanks_word {word : List Char} (worded : word = "include".toList ∨ word = "import".toList)
    (rest : List Char) : skipBlanks (word ++ rest) = word ++ rest := by
  rcases worded with rfl | rfl
  · exact skipBlanks_cons (by decide) _
  · exact skipBlanks_cons (by decide) _

/-- No text starts with both words. -/
theorem words_apart (text : List Char) :
    ¬("include".toList <+: text ∧ "import".toList <+: text) := by
  rintro ⟨⟨rest, rfl⟩, ⟨other, same⟩⟩
  simp at same

/-- What is left of a text that starts with a word of a directive. -/
theorem afterWord?_eq_some_iff (text after : List Char) :
    afterWord? text = some after ↔
      ∃ word, (word = "include".toList ∨ word = "import".toList) ∧ text = word ++ after := by
  have taken (word : List Char) :
      (if word.isPrefixOf text then some (text.drop word.length) else none) = some after ↔
        text = word ++ after := by
    split
    · next starts =>
      obtain ⟨rest, rfl⟩ := List.isPrefixOf_iff_prefix.mp starts
      simp
    · next differs =>
      constructor
      · intro impossible
        cases impossible
      · rintro rfl
        exact absurd (List.isPrefixOf_iff_prefix.mpr (List.prefix_append word after)) differs
  change [("include".toList), ("import".toList)].findSome? _ = some after ↔ _
  rw [List.findSome?_cons, List.findSome?_cons, List.findSome?_nil]
  constructor
  · intro found
    split at found
    · next here => exact ⟨_, .inl rfl, (taken _).mp (here.trans found)⟩
    · split at found
      · next here => exact ⟨_, .inr rfl, (taken _).mp (here.trans found)⟩
      · cases found
  · rintro ⟨word, rfl | rfl, split⟩
    · rw [(taken _).mpr split]
    · have other : ¬"include".toList.isPrefixOf text = true := by
        intro starts
        exact words_apart text ⟨List.isPrefixOf_iff_prefix.mp starts, after, split.symm⟩
      rw [if_neg other, (taken _).mpr split]

/-- A name up to the closing delimiter. -/
theorem nameUpTo?_eq_some_iff (kind : IncludeKind) (text : List Char) (name : String) :
    nameUpTo? kind text = some name ↔
      name.toList ≠ [] ∧ kind.closing ∉ name.toList ∧
        ∃ rest, text = name.toList ++ kind.closing :: rest := by
  unfold nameUpTo?
  constructor
  · intro found
    dsimp only at found
    split at found
    · cases found
    · next both =>
      rw [not_or] at both
      obtain rfl := Option.some.inj found
      rw [String.toList_ofList]
      refine ⟨both.1, ?_, ?_⟩
      · intro member
        simpa using List.mem_takeWhile_imp member
      · obtain ⟨letter, rest, left⟩ := List.exists_cons_of_ne_nil both.2
        have stopped := List.head?_dropWhile_not (· ≠ kind.closing) text
        rw [left] at stopped
        have closes : letter = kind.closing := by simpa using stopped
        refine ⟨rest, ?_⟩
        calc
          text = text.takeWhile (· ≠ kind.closing) ++ text.dropWhile (· ≠ kind.closing) :=
            List.takeWhile_append_dropWhile.symm
          _ = text.takeWhile (· ≠ kind.closing) ++ kind.closing :: rest := by rw [left, closes]
  · rintro ⟨some, free, rest, rfl⟩
    have inside : ∀ letter ∈ name.toList, decide (letter ≠ kind.closing) = true := by
      intro letter member
      simpa using fun same : letter = kind.closing => free (same ▸ member)
    have front : (name.toList ++ kind.closing :: rest).takeWhile (· ≠ kind.closing) =
        name.toList := by
      rw [List.takeWhile_append_of_pos inside]
      simp
    have back : (name.toList ++ kind.closing :: rest).dropWhile (· ≠ kind.closing) =
        kind.closing :: rest := by
      rw [List.dropWhile_append_of_pos inside]
      simp
    dsimp only
    rw [front, back, if_neg (by simp [some]), String.ofList_toList]

/-- After the opening delimiter of a kind a name of that kind is read. -/
theorem delimited?_opening (kind : IncludeKind) (rest : List Char) :
    delimited? (kind.opening :: rest) = (nameUpTo? kind rest).map (·, kind) := by
  cases kind <;> rfl

/-- A delimited name starts with the opening delimiter of its kind. -/
theorem exists_opening {text : List Char} {name : String} {kind : IncludeKind}
    (found : delimited? text = some (name, kind)) : ∃ rest, text = kind.opening :: rest := by
  unfold delimited? at found
  split at found
  · next rest =>
    obtain ⟨_, -, same⟩ := Option.map_eq_some_iff.mp found
    exact ⟨rest, (Prod.mk.inj same).2 ▸ rfl⟩
  · next rest =>
    obtain ⟨_, -, same⟩ := Option.map_eq_some_iff.mp found
    exact ⟨rest, (Prod.mk.inj same).2 ▸ rfl⟩
  · cases found

/-- A name between the delimiters of a kind. -/
theorem delimited?_eq_some_iff (text : List Char) (name : String) (kind : IncludeKind) :
    delimited? text = some (name, kind) ↔
      name.toList ≠ [] ∧ kind.closing ∉ name.toList ∧
        ∃ rest, text = kind.opening :: (name.toList ++ kind.closing :: rest) := by
  constructor
  · intro found
    obtain ⟨after, rfl⟩ := exists_opening found
    rw [delimited?_opening, Option.map_eq_some_iff] at found
    obtain ⟨_, named, same⟩ := found
    obtain ⟨rfl, -⟩ := Prod.mk.inj same
    obtain ⟨some, free, rest, rfl⟩ := (nameUpTo?_eq_some_iff _ _ _).mp named
    exact ⟨some, free, rest, rfl⟩
  · rintro ⟨some, free, rest, rfl⟩
    have named := (nameUpTo?_eq_some_iff kind _ name).mpr ⟨some, free, rest, rfl⟩
    rw [delimited?_opening, named]
    rfl

/-- After an introduction a line is read as a delimited name. -/
theorem ofLine?_append {front rest : List Char} {letter : Char} (introduced : Introduces front)
    (solid : Text.isBlank letter = false) :
    ofLine? (front ++ letter :: rest) = delimited? (letter :: rest) := by
  cases introduced with
  | @intro indent gap word space indented gapped worded spaced =>
    have hash : skipBlanks (indent ++ '#' :: (gap ++ (word ++ space)) ++ letter :: rest) =
        '#' :: (gap ++ (word ++ (space ++ letter :: rest))) := by
      rw [List.append_assoc, skipBlanks_append indented, List.cons_append,
        skipBlanks_cons (by decide)]
      simp
    rw [ofLine?, hash]
    change ((afterWord? (skipBlanks _)).bind fun after => delimited? (skipBlanks after)) = _
    rw [skipBlanks_append gapped, skipBlanks_word worded,
      (afterWord?_eq_some_iff _ _).mpr ⟨word, worded, rfl⟩, Option.bind_some,
      skipBlanks_append spaced, skipBlanks_cons solid]

/-- A line that is read as a directive starts with an introduction. -/
theorem exists_introduced {line : List Char} {found : String × IncludeKind}
    (read : ofLine? line = some found) :
    ∃ front rest, Introduces front ∧ line = front ++ rest ∧ delimited? rest = some found := by
  unfold ofLine? at read
  split at read
  · next rest left =>
    obtain ⟨after, worded, delimited⟩ := Option.bind_eq_some_iff.mp read
    obtain ⟨indent, indented, splitLine⟩ := exists_skipped line
    obtain ⟨gap, gapped, splitRest⟩ := exists_skipped rest
    obtain ⟨space, spaced, splitAfter⟩ := exists_skipped after
    obtain ⟨word, isWord, splitWord⟩ := (afterWord?_eq_some_iff _ _).mp worded
    refine ⟨_, _, .intro indented gapped isWord spaced, ?_, delimited⟩
    rw [List.append_assoc, List.cons_append, List.append_assoc, List.append_assoc, ← splitAfter,
      ← splitWord, ← splitRest, ← left, ← splitLine]
  · cases read

/-- A line is read as a directive exactly as it spells one. -/
theorem ofLine?_eq_some_iff (line : List Char) (name : String) (kind : IncludeKind) :
    ofLine? line = some (name, kind) ↔ Spells line name.toList kind := by
  rw [spells_iff]
  constructor
  · intro read
    obtain ⟨front, tail, introduced, rfl, delimited⟩ := exists_introduced read
    obtain ⟨some, free, rest, rfl⟩ := (delimited?_eq_some_iff _ _ _).mp delimited
    exact ⟨front, rest, introduced, some, free, rfl⟩
  · rintro ⟨front, rest, introduced, some, free, rfl⟩
    have solid : Text.isBlank kind.opening = false := by
      cases kind <;> decide
    rw [ofLine?_append introduced solid]
    exact (delimited?_eq_some_iff _ name kind).mpr ⟨some, free, rest, rfl⟩

/-- A line spells one directive at most. -/
theorem Spells.unique {line name other : List Char} {kind otherKind : IncludeKind}
    (spells : Spells line name kind) (again : Spells line other otherKind) :
    name = other ∧ kind = otherKind := by
  have read : ofLine? line = some (String.ofList name, kind) := by
    rwa [ofLine?_eq_some_iff, String.toList_ofList]
  have readAgain : ofLine? line = some (String.ofList other, otherKind) := by
    rwa [ofLine?_eq_some_iff, String.toList_ofList]
  obtain ⟨sameName, sameKind⟩ := Prod.mk.inj (Option.some.inj (read.symm.trans readAgain))
  exact ⟨String.ofList_injective sameName, sameKind⟩

/-- The directives of a text are those that its lines spell, with the numbers of these lines. -/
theorem mem_scan_iff (text : String) (directive : Directive) :
    directive ∈ scan text ↔
      ∃ place line, (Text.lines text.toList)[place]? = some line ∧ directive.line = place + 1 ∧
        Spells line directive.name.toList directive.kind := by
  rw [scan, List.mem_filterMap]
  constructor
  · rintro ⟨⟨line, place⟩, member, read⟩
    obtain ⟨⟨name, kind⟩, spelled, rfl⟩ := Option.map_eq_some_iff.mp read
    exact ⟨place, line, List.mk_mem_zipIdx_iff_getElem?.mp member, rfl,
      (ofLine?_eq_some_iff _ _ _).mp spelled⟩
  · rintro ⟨place, line, here, numbered, spells⟩
    refine ⟨(line, place), List.mk_mem_zipIdx_iff_getElem?.mpr here, ?_⟩
    dsimp only
    rw [(ofLine?_eq_some_iff _ _ _).mpr spells, Option.map_some, ← numbered]

/-- The directives of a text come in the order of their lines, and no two from one line. -/
theorem scan_ascending (text : String) :
    (scan text).Pairwise fun earlier later => earlier.line < later.line := by
  have places : (Text.lines text.toList).zipIdx.Pairwise fun earlier later =>
      earlier.2 < later.2 := by
    rw [← List.pairwise_map, List.zipIdx_map_snd]
    exact List.pairwise_lt_range'
  rw [scan, List.pairwise_filterMap]
  refine places.imp ?_
  rintro ⟨line, place⟩ ⟨other, later⟩ before directive read following readLater
  obtain ⟨_, _, rfl⟩ := Option.map_eq_some_iff.mp read
  obtain ⟨_, _, rfl⟩ := Option.map_eq_some_iff.mp readLater
  exact Nat.succ_lt_succ before

/-- Directives are those of a text: there is one for each of its lines that spells one, and for no other
    line, and they come in the order of the lines. -/
structure AreThoseOf (text : String) (directives : List Directive) : Prop where
  spelled : ∃ lines, Text.Lined text.toList lines ∧ ∀ directive, directive ∈ directives ↔
    ∃ place line, lines[place]? = some line ∧ directive.line = place + 1 ∧
      Spells line directive.name.toList directive.kind
  ascending : directives.Pairwise fun earlier later => earlier.line < later.line

/-- A text is scanned for the directives that are its. -/
theorem areThoseOf_scan (text : String) : AreThoseOf text (scan text) where
  spelled := ⟨Text.lines text.toList, (Text.lined_iff _ _).mpr rfl, mem_scan_iff text⟩
  ascending := scan_ascending text

/-- A name as a directive on a line of its own. -/
def written (name : String) (kind : IncludeKind) : String := "#include " ++ kind.spell name

/-- A name that can be written as a directive of a kind: it has a character, and has neither a line feed
    nor the closing delimiter inside. -/
structure Writable (name : String) (kind : IncludeKind) : Prop where
  nonempty : name ≠ ""
  oneLine : '\n' ∉ name.toList
  free : kind.closing ∉ name.toList

/-- Names with their kinds as the directives of lines from the first one on. -/
def numbered (named : List (String × IncludeKind)) : List Directive :=
  named.zipIdx.map fun (item, place) => ⟨place + 1, item.1, item.2⟩

theorem toList_written (name : String) (kind : IncludeKind) :
    (written name kind).toList =
      "#include ".toList ++ kind.opening :: (name.toList ++ [kind.closing]) := by
  simp [written, IncludeKind.spell]

namespace Writable

variable {name : String} {kind : IncludeKind}

/-- A name that can be written is spelled by the line. -/
theorem spells (writable : Writable name kind) :
    Spells (written name kind).toList name.toList kind := by
  have introduced : Introduces ([] ++ '#' :: ([] ++ ("include".toList ++ [' ']))) := by
    apply Introduces.intro (by simp) (by simp) (Or.inl rfl)
    rw [List.forall_mem_singleton]
    decide
  rw [spells_iff]
  exact ⟨_, [], introduced, by simpa using writable.nonempty, writable.free, toList_written name kind⟩

/-- The line is not empty. -/
theorem line_ne_nil (_ : Writable name kind) : (written name kind).toList ≠ [] := by
  rw [toList_written]
  simp

/-- The line has no line feed inside. -/
theorem lineFeed_not_mem (writable : Writable name kind) :
    '\n' ∉ (written name kind).toList := by
  have delimiters : '\n' ≠ kind.opening ∧ '\n' ≠ kind.closing := by
    cases kind <;> decide
  rw [toList_written]
  simp [writable.oneLine, delimiters]

/-- The line ends with a delimiter. -/
theorem getLast?_ne (_ : Writable name kind) : (written name kind).toList.getLast? ≠ some '\r' := by
  have last : (written name kind).toList.getLast? = some kind.closing := by
    rw [toList_written, List.append_cons, ← List.append_assoc, List.getLast?_concat]
  rw [last]
  cases kind <;> decide

end Writable

/-- Directives that are written one per line are found again. -/
theorem scan_of_lined {text : String} {named : List (String × IncludeKind)}
    (writable : ∀ item ∈ named, Writable item.1 item.2)
    (lined : Text.Lined text.toList (named.map fun item => (written item.1 item.2).toList)) :
    scan text = numbered named := by
  rw [scan, ← (Text.lined_iff _ _).mp lined, List.zipIdx_map, List.filterMap_map, numbered,
    ← List.filterMap_eq_map]
  apply List.filterMap_congr
  rintro ⟨item, place⟩ member
  have spelled := (writable item (List.fst_mem_of_mem_zipIdx member)).spells
  change (ofLine? (written item.1 item.2).toList).map _ = _
  rw [(ofLine?_eq_some_iff _ _ _).mpr spelled]
  rfl

/-- A text is scanned for exactly the directives among its lines. The text is put together from one list
    of lines. A directive is found for each line that spells one, with the name and the kind that it
    spells and the number of the line, counted from one, and for no other line; the directives come in the
    order of the lines, and their numbers fit into 32 bits if the number of lines does. A line
    spells one directive at most. Names that can be written as directives, written so one per line, are
    found again with their kinds, numbered from one, whether the last line has an ending or not. -/
theorem scan_finds_the_directive_lines :
    (∀ text, ∃ lines, (∀ found, Text.Lined text.toList found ↔ found = lines) ∧
      (∀ directive, directive ∈ scan text ↔
        ∃ place line, lines[place]? = some line ∧ directive.line = place + 1 ∧
          Spells line directive.name.toList directive.kind) ∧
      (scan text).Pairwise (fun earlier later => earlier.line < later.line) ∧
      (lines.length < UInt32.size → ∀ directive ∈ scan text, directive.line < UInt32.size)) ∧
    (∀ line name kind other otherKind, Spells line name kind → Spells line other otherKind →
      name = other ∧ kind = otherKind) ∧
    ∀ named : List (String × IncludeKind), (∀ item ∈ named, Writable item.1 item.2) →
      let lines := named.map fun item => written item.1 item.2
      scan (String.join (lines.map (· ++ "\n"))) = numbered named ∧
        scan ("\n".intercalate lines) = numbered named := by
  refine ⟨?_, fun _ _ _ _ _ spells again => spells.unique again, ?_⟩
  · intro text
    refine ⟨Text.lines text.toList, Text.lined_iff text.toList, mem_scan_iff text,
      scan_ascending text, ?_⟩
    intro few directive member
    obtain ⟨place, line, here, numbered, -⟩ := (mem_scan_iff text directive).mp member
    have inside : place < (Text.lines text.toList).length := (List.getElem?_eq_some_iff.mp here).1
    rw [numbered]
    exact Nat.lt_of_le_of_lt inside few
  · intro named writable lines
    have toLists : lines.map String.toList =
        named.map fun item => (written item.1 item.2).toList := by
      rw [List.map_map]
      rfl
    have each {holds : List Char → Prop}
        (held : ∀ item ∈ named, Writable item.1 item.2 → holds (written item.1 item.2).toList) :
        ∀ line ∈ lines.map String.toList, holds line := by
      rw [toLists, List.forall_mem_map]
      exact fun item member => held item member (writable item member)
    have free : ∀ line ∈ lines.map String.toList, '\n' ∉ line :=
      each fun _ _ able => able.lineFeed_not_mem
    have plain : ∀ line ∈ lines.map String.toList, line.getLast? ≠ some '\r' :=
      each fun _ _ able => able.getLast?_ne
    constructor
    · apply scan_of_lined writable
      rw [← toLists, String.toList_join, List.flatMap_map]
      have ended := Text.lined_ended free plain
      rw [List.flatMap_map] at ended
      simpa using ended
    · apply scan_of_lined writable
      rw [← toLists, String.toList_intercalate]
      exact Text.lined_separated (each fun _ _ able => able.line_ne_nil) free plain

-- The delimiters of the second line do not match, and the third has no ending.
example : scan "  # include<a\"b> x\r\n#include \"a>\n#import\u3000\"c.h\"" =
    [⟨1, "a\"b", .angled⟩, ⟨3, "c.h", .quoted⟩] := by decide

end Directive

end HeaderSearch
