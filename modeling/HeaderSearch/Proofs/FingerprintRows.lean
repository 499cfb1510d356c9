import HeaderSearch.Proofs.Offsets
import HeaderSearch.Proofs.Literals
import HeaderSearch.SearchList.Fingerprint

/-!
# What the fingerprinted text tells

The text has rows that end with a line feed, and fields between bars. Names stand in it as they are,
and may hold bars and line feeds themselves. A name that holds the end of a row cannot be told from
two rows, so that two different lists can have one text. Otherwise the rows are read back one after
the other: of two texts that begin with a legible row each, the shorter row would end within the
name of the longer one. So the text of legible names tells all that is fingerprinted.
-/

namespace HeaderSearch

namespace Text

variable {letter : Char}

/-- A separator that is not in what follows a text stands in the text. -/
theorem cut_within {before after text rest : List Char}
    (same : before ++ letter :: after = text ++ rest) (absent : letter ∉ rest) :
    ∃ more, text = before ++ letter :: more ∧ after = more ++ rest := by
  rcases List.append_eq_append_iff.1 same with ⟨middle, longer, shorter⟩ | ⟨middle, -, longer⟩
  · cases middle with
    | nil =>
      rw [List.nil_append] at shorter
      exact absurd (shorter ▸ List.mem_cons_self) absent
    | cons first more =>
      obtain ⟨rfl, remains⟩ := List.cons.inj shorter
      exact ⟨more, longer, remains⟩
  · exact absurd (longer ▸ List.mem_append_right _ List.mem_cons_self) absent

/-- A text is cut at the first separator in one way. -/
theorem first_cut_unique {before after other rest : List Char}
    (same : before ++ letter :: after = other ++ letter :: rest) (absent : letter ∉ before)
    (absentOther : letter ∉ other) : before = other ∧ after = rest := by
  have cut : splitFirst letter (before ++ letter :: after) = some (before, after) :=
    splitFirst_eq_some_iff.2 ⟨rfl, absent⟩
  have cutOther : splitFirst letter (before ++ letter :: after) = some (other, rest) :=
    splitFirst_eq_some_iff.2 ⟨same, absentOther⟩
  exact Prod.mk.inj (Option.some.inj (cut.symm.trans cutOther))

/-- A text is cut at the last separator in one way. -/
theorem last_cut_unique {before after other rest : List Char}
    (same : before ++ letter :: after = other ++ letter :: rest) (absent : letter ∉ after)
    (absentOther : letter ∉ rest) : before = other ∧ after = rest := by
  have turned := congrArg List.reverse same
  simp only [List.reverse_append, List.reverse_cons, List.append_assoc, List.singleton_append]
    at turned
  obtain ⟨afterSame, beforeSame⟩ := first_cut_unique turned (by simpa using absent)
    (by simpa using absentOther)
  exact ⟨List.reverse_inj.1 beforeSame, List.reverse_inj.1 afterSame⟩

end Text

/-- What the fingerprint is to tell of an entry. -/
structure EntryTraits where
  /-- The sort of the place. -/
  sort : String
  /-- The name of the place. -/
  name : String
  /-- What a file found there is classified as. -/
  characteristic : Characteristic
  /-- Whether only quoted includes look there. -/
  quoteOnly : Bool
  /-- Whether the place is a header map used as an index map. -/
  isIndexMap : Bool
deriving DecidableEq, Repr

namespace SearchEntry

/-- What the fingerprint is to tell of an entry. -/
def traits (entry : SearchEntry) : EntryTraits :=
  ⟨entry.place.sort, entry.place.name, entry.characteristic, entry.quoteOnly,
    entry.place.isIndexMap⟩

/-- What stands behind the name in the row of an entry. -/
def rowEnd (characteristic : Characteristic) (quoteOnly isIndexMap : Bool) : String :=
  "|" ++ characteristic.name ++ "|" ++ flagWord quoteOnly ++ "|" ++ flagWord isIndexMap ++ "\n"

/-- A name is legible in a row unless the end of a row stands in it. -/
def LegibleName (name : String) : Prop :=
  ∀ characteristic quoteOnly isIndexMap,
    ¬(rowEnd characteristic quoteOnly isIndexMap).toList <:+: name.toList

/-- A name without line feeds is legible. -/
theorem legible_of_not_mem {name : String} (absent : '\n' ∉ name.toList) : LegibleName name := by
  intro characteristic quoteOnly isIndexMap within
  exact absent (within.subset (by simp [rowEnd]))

variable {characteristic otherCharacteristic : Characteristic}
variable {quoteOnly isIndexMap otherQuoteOnly otherIsIndexMap : Bool}

theorem bar_not_mem_flagWord (flag : Bool) : '|' ∉ (flagWord flag).toList := by
  cases flag <;> decide

theorem flagWord_inj {flag other : Bool} (same : (flagWord flag).toList = (flagWord other).toList) :
    flag = other := by
  revert same
  cases flag <;> cases other <;> decide

theorem bar_not_mem_name (characteristic : Characteristic) : '|' ∉ characteristic.name.toList := by
  cases characteristic <;> decide

theorem characteristicName_inj
    (same : characteristic.name.toList = otherCharacteristic.name.toList) :
    characteristic = otherCharacteristic := by
  have read := congrArg Characteristic.ofName? (String.toList_inj.1 same)
  simpa using read

/-- The end of a row has its only line feed last. -/
theorem rowEnd_line (characteristic : Characteristic) (quoteOnly isIndexMap : Bool) :
    ∃ line, (rowEnd characteristic quoteOnly isIndexMap).toList = line ++ ['\n'] ∧ '\n' ∉ line := by
  refine ⟨("|" ++ characteristic.name ++ "|" ++ flagWord quoteOnly ++ "|" ++
    flagWord isIndexMap).toList, by simp [rowEnd], ?_⟩
  cases characteristic <;> cases quoteOnly <;> cases isIndexMap <;> decide

/-- A name and the end of its row are told apart from behind: the three last bars are those of the
    end. -/
theorem rowEnd_unique {name other : List Char}
    (same : name ++ (rowEnd characteristic quoteOnly isIndexMap).toList =
      other ++ (rowEnd otherCharacteristic otherQuoteOnly otherIsIndexMap).toList) :
    name = other ∧ characteristic = otherCharacteristic ∧ quoteOnly = otherQuoteOnly ∧
      isIndexMap = otherIsIndexMap := by
  have fields (text : List Char) (class' : Characteristic) (quoted index : Bool) :
      text ++ (rowEnd class' quoted index).toList =
        ((text ++ '|' :: class'.name.toList) ++ '|' :: (flagWord quoted).toList) ++
          '|' :: ((flagWord index).toList ++ ['\n']) := by
    simp [rowEnd]
  have closed (flag : Bool) : '|' ∉ (flagWord flag).toList ++ ['\n'] := by
    cases flag <;> decide
  rw [fields, fields] at same
  obtain ⟨same, last⟩ := Text.last_cut_unique same (closed _) (closed _)
  obtain ⟨same, middle⟩ :=
    Text.last_cut_unique same (bar_not_mem_flagWord _) (bar_not_mem_flagWord _)
  obtain ⟨names, first⟩ := Text.last_cut_unique same (bar_not_mem_name _) (bar_not_mem_name _)
  exact ⟨names, characteristicName_inj first, flagWord_inj middle,
    flagWord_inj (List.append_cancel_right last)⟩

/-- Behind a legible name the end of the row is the first that there is, so that a row of another
    name does not end before it. -/
theorem rowEnd_first {name : String} (legible : LegibleName name) {other more : List Char}
    (same : name.toList ++ (rowEnd characteristic quoteOnly isIndexMap).toList =
      other ++ (rowEnd otherCharacteristic otherQuoteOnly otherIsIndexMap).toList ++ more) :
    more = [] := by
  obtain ⟨line, ends, single⟩ := rowEnd_line characteristic quoteOnly isIndexMap
  obtain ⟨otherLine, otherEnds, -⟩ :=
    rowEnd_line otherCharacteristic otherQuoteOnly otherIsIndexMap
  rcases List.eq_nil_or_concat more with none | ⟨longer, last, rfl⟩
  · exact none
  · rw [ends, otherEnds, List.concat_eq_append] at same
    have cut : other ++ otherLine ++ '\n' :: longer = name.toList ++ line := by
      have behind : (other ++ otherLine ++ '\n' :: longer) ++ [last] =
          (name.toList ++ line) ++ ['\n'] := by simpa using same.symm
      exact (List.append_inj_left' behind rfl)
    obtain ⟨rest, held, -⟩ := Text.cut_within cut single
    refine absurd ⟨other, rest, ?_⟩
      (legible otherCharacteristic otherQuoteOnly otherIsIndexMap)
    rw [otherEnds, held]
    simp

/-- Of two texts that begin with a legible name and the end of a row, the names, the ends and what
    follows are the same if the texts are. -/
theorem name_read_back {name other : String} (legible : LegibleName name)
    (legibleOther : LegibleName other) {rest otherRest : List Char}
    (same : name.toList ++ (rowEnd characteristic quoteOnly isIndexMap).toList ++ rest =
      other.toList ++ (rowEnd otherCharacteristic otherQuoteOnly otherIsIndexMap).toList ++
        otherRest) :
    (name = other ∧ characteristic = otherCharacteristic ∧ quoteOnly = otherQuoteOnly ∧
      isIndexMap = otherIsIndexMap) ∧ rest = otherRest := by
  have ended : name.toList ++ (rowEnd characteristic quoteOnly isIndexMap).toList =
      other.toList ++ (rowEnd otherCharacteristic otherQuoteOnly otherIsIndexMap).toList ∧
        rest = otherRest := by
    rcases List.append_eq_append_iff.1 same with ⟨more, longer, shorter⟩ | ⟨more, longer, shorter⟩
    · obtain rfl := rowEnd_first legibleOther longer
      exact ⟨by simpa using longer.symm, by simpa using shorter⟩
    · obtain rfl := rowEnd_first legible longer
      exact ⟨by simpa using longer, by simpa using shorter.symm⟩
  obtain ⟨names, rest⟩ := ended
  obtain ⟨names, traits⟩ := rowEnd_unique names
  exact ⟨⟨String.toList_inj.1 names, traits⟩, rest⟩

/-- A row is the short word for the sort, a bar, the name and the end of the row. -/
theorem toList_fingerprintRow (entry : SearchEntry) :
    entry.fingerprintRow.toList = entry.place.shortSort.toList ++ '|' ::
      (entry.place.name.toList ++
        (rowEnd entry.characteristic entry.quoteOnly entry.place.isIndexMap).toList) := by
  simp [fingerprintRow, rowEnd]

theorem bar_not_mem_shortSort (place : SearchPlace) : '|' ∉ place.shortSort.toList := by
  cases place <;> simp [SearchPlace.shortSort]

/-- The short words tell the same sorts apart as the long ones. -/
theorem shortSort_eq_iff {place other : SearchPlace} :
    place.shortSort = other.shortSort ↔ place.sort = other.sort := by
  cases place <;> cases other <;> simp [SearchPlace.shortSort, SearchPlace.sort]

/-- No row starts as the row of the start of angled includes does. -/
theorem head?_fingerprintRow (entry : SearchEntry) (rest : List Char) :
    (entry.fingerprintRow.toList ++ rest).head? ≠ some 'a' := by
  rw [toList_fingerprintRow]
  cases entry.place <;> simp [SearchPlace.shortSort]

/-- Rows that are to tell the same are the same. -/
theorem fingerprintRow_eq_of_traits {entry other : SearchEntry}
    (same : entry.traits = other.traits) :
    entry.fingerprintRow = other.fingerprintRow := by
  obtain ⟨sort, name, characteristic, quoteOnly, isIndexMap⟩ := EntryTraits.mk.inj same
  rw [fingerprintRow, fingerprintRow, shortSort_eq_iff.2 sort, name, characteristic, quoteOnly,
    isIndexMap]

/-- Rows of legible names are read back, one after the other, up to what does not start as a row
    does. Induct on the entries. -/
theorem traits_read_back {entries others : List SearchEntry}
    (legible : ∀ entry ∈ entries, LegibleName entry.place.name)
    (legibleOthers : ∀ entry ∈ others, LegibleName entry.place.name) {rest otherRest : List Char}
    (starts : rest.head? = some 'a') (startsOther : otherRest.head? = some 'a')
    (same : entries.flatMap (fun entry => entry.fingerprintRow.toList) ++ rest =
      others.flatMap (fun entry => entry.fingerprintRow.toList) ++ otherRest) :
    entries.map traits = others.map traits ∧ rest = otherRest := by
  induction entries generalizing others with
  | nil =>
    cases others with
    | nil => exact ⟨rfl, same⟩
    | cons other others =>
      rw [List.flatMap_nil, List.nil_append, List.flatMap_cons, List.append_assoc] at same
      exact absurd (same ▸ starts) (other.head?_fingerprintRow _)
  | cons entry entries inductionHypothesis =>
    cases others with
    | nil =>
      rw [List.flatMap_nil, List.nil_append, List.flatMap_cons, List.append_assoc] at same
      exact absurd (same ▸ startsOther) (entry.head?_fingerprintRow _)
    | cons other others =>
      obtain ⟨legibleFirst, legible⟩ := List.forall_mem_cons.1 legible
      obtain ⟨legibleOther, legibleOthers⟩ := List.forall_mem_cons.1 legibleOthers
      simp only [List.flatMap_cons, toList_fingerprintRow, List.append_assoc, List.cons_append]
        at same
      obtain ⟨sorts, same⟩ := Text.first_cut_unique same (bar_not_mem_shortSort _)
        (bar_not_mem_shortSort _)
      rw [← List.append_assoc, ← List.append_assoc other.place.name.toList] at same
      obtain ⟨⟨name, characteristic, quoteOnly, isIndexMap⟩, same⟩ :=
        name_read_back legibleFirst legibleOther same
      simp only [← toList_fingerprintRow] at same
      obtain ⟨others, rest⟩ := inductionHypothesis legible legibleOthers same
      refine ⟨?_, rest⟩
      rw [List.map_cons, List.map_cons, others, traits, traits,
        shortSort_eq_iff.1 (String.toList_inj.1 sorts), name, characteristic, quoteOnly, isIndexMap]

end SearchEntry

namespace SearchList

/-- What the row of a system framework starts with. -/
def frameworkMark : String := "system-framework="

/-- The name of a system framework is legible unless a line in it starts as the row of a framework
    does. -/
def LegibleFramework (name : String) : Prop := ¬("\n" ++ frameworkMark).toList <:+: name.toList

/-- The rows of system frameworks. -/
def frameworkRows (names : List String) : List Char :=
  names.flatMap fun name => frameworkMark.toList ++ (name.toList ++ ['\n'])

/-- Rows of frameworks are empty or start with the mark. -/
theorem frameworkRows_cases (names : List String) :
    frameworkRows names = [] ∨ ∃ rest, frameworkRows names = frameworkMark.toList ++ rest := by
  cases names with
  | nil => exact .inl rfl
  | cons name names => exact .inr ⟨_, by rw [frameworkRows, List.flatMap_cons, List.append_assoc]⟩

/-- Behind a legible name the line feed is not followed by more of the name if rows of frameworks
    follow it. -/
theorem framework_ended {name : String} (legible : LegibleFramework name) {names : List String}
    {other more rest : List Char} (longer : name.toList = other ++ '\n' :: more)
    (same : frameworkRows names = more ++ '\n' :: rest) : False := by
  rcases frameworkRows_cases names with none | ⟨after, marked⟩
  · simp [none] at same
  · have absent : '\n' ∉ frameworkMark.toList := by decide
    rw [marked] at same
    -- The mark has no line feed, so it stands in what is left of the name.
    rcases List.append_eq_append_iff.1 same with ⟨middle, held, -⟩ | ⟨middle, held, behind⟩
    · refine legible ⟨other, middle, ?_⟩
      rw [longer, held]
      simp
    · cases middle with
      | nil =>
        refine legible ⟨other, [], ?_⟩
        rw [longer, ← List.append_nil more, ← held]
        simp
      | cons first middle =>
        obtain ⟨rfl, -⟩ := List.cons.inj behind
        exact absent (held ▸ List.mem_append_right _ List.mem_cons_self)

/-- Rows of legible framework names are read back. Induct on the names. -/
theorem frameworks_read_back {names others : List String}
    (legible : ∀ name ∈ names, LegibleFramework name)
    (legibleOthers : ∀ name ∈ others, LegibleFramework name)
    (same : frameworkRows names = frameworkRows others) : names = others := by
  induction names generalizing others with
  | nil =>
    cases others with
    | nil => rfl
    | cons other others => simp [frameworkRows, frameworkMark] at same
  | cons name names inductionHypothesis =>
    cases others with
    | nil => simp [frameworkRows, frameworkMark] at same
    | cons other others =>
      obtain ⟨legibleFirst, legible⟩ := List.forall_mem_cons.1 legible
      obtain ⟨legibleOther, legibleOthers⟩ := List.forall_mem_cons.1 legibleOthers
      have same : name.toList ++ '\n' :: frameworkRows names =
          other.toList ++ '\n' :: frameworkRows others := by
        simpa [frameworkRows] using same
      have ended : name.toList = other.toList ∧ frameworkRows names = frameworkRows others := by
        rcases List.append_eq_append_iff.1 same with
          ⟨more, longer, shorter⟩ | ⟨more, longer, shorter⟩
        · cases more with
          | nil => exact ⟨by simpa using longer.symm, (List.cons.inj shorter).2⟩
          | cons first more =>
            obtain ⟨rfl, behind⟩ := List.cons.inj shorter
            exact (framework_ended legibleOther longer behind).elim
        · cases more with
          | nil => exact ⟨by simpa using longer, (List.cons.inj shorter).2.symm⟩
          | cons first more =>
            obtain ⟨rfl, behind⟩ := List.cons.inj shorter
            exact (framework_ended legibleFirst longer behind).elim
      rw [String.toList_inj.1 ended.1, inductionHypothesis legible legibleOthers ended.2]

/-- All names of a list are legible. -/
structure Legible (list : SearchList) : Prop where
  entries : ∀ entry ∈ list.entries, SearchEntry.LegibleName entry.place.name
  systemFrameworks : ∀ name ∈ list.systemFrameworks, LegibleFramework name

/-- The text has the rows of the entries, the row of the start and the rows of the frameworks. -/
theorem toList_fingerprintText (list : SearchList) :
    list.fingerprintText.toList =
      list.entries.flatMap (fun entry => entry.fingerprintRow.toList) ++
        ("angled-start=".toList ++ (Decimal.digits list.angledStart ++
          '\n' :: frameworkRows list.systemFrameworks)) := by
  simp [fingerprintText, frameworkRows, frameworkMark, String.toList_join, List.flatMap_map,
    Decimal.text]

variable {list other : SearchList}

/-- The text of legible names tells what is searched, and the frameworks in their order. -/
theorem read_back (legible : list.Legible) (legibleOther : other.Legible)
    (same : list.fingerprintText = other.fingerprintText) :
    list.entries.map SearchEntry.traits = other.entries.map SearchEntry.traits ∧
      list.angledStart = other.angledStart ∧ list.systemFrameworks = other.systemFrameworks := by
  have letters := congrArg String.toList same
  rw [toList_fingerprintText, toList_fingerprintText] at letters
  obtain ⟨entries, letters⟩ := SearchEntry.traits_read_back legible.entries legibleOther.entries
    rfl rfl letters
  have undivided (n : Nat) : '\n' ∉ Decimal.digits n := fun member =>
    absurd (Decimal.isDigit_of_mem_digits member) (by decide)
  obtain ⟨numerals, rows⟩ := Text.first_cut_unique (List.append_cancel_left letters)
    (undivided _) (undivided _)
  have start := congrArg Decimal.value numerals
  rw [Decimal.value_digits, Decimal.value_digits] at start
  exact ⟨entries, start,
    frameworks_read_back legible.systemFrameworks legibleOther.systemFrameworks rows⟩

end SearchList

end HeaderSearch
