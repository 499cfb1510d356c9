import HeaderSearch.Proofs.Cutting
import HeaderSearch.Proofs.Documents
import HeaderSearch.Proofs.ReportItems
import HeaderSearch.Report.Render

/-!
# Report texts can be cut and read back

The JSON text of an item never holds what stands between items: there is no line feed in it when it is
on one line, and no empty line when it is spread over lines, because every line feed of the layout has
something after it and every other one is escaped. So a text of JSON lines is cut into its items
again, and a JSON array holds the same items.
-/

namespace HeaderSearch

namespace Json

/-- A line feed is no hexadecimal digit. -/
theorem ne_lineFeed_of_hexValue {letter : Char} (digit : (hexValue? letter).isSome) :
    '\n' ≠ letter := by
  rintro rfl
  simp [hexValue?] at digit

/-- A line feed is in no string, unless it is escaped. -/
theorem lineFeed_not_mem_body {body : List Char} (well : Body body) : '\n' ∉ body := by
  induction well with
  | nothing => exact List.not_mem_nil
  | coded digits _ inductionHypothesis =>
    simp only [List.forall_mem_cons] at digits
    obtain ⟨one, two, three, four, -⟩ := digits
    simp only [List.mem_cons, not_or]
    exact ⟨by decide, by decide, ne_lineFeed_of_hexValue one, ne_lineFeed_of_hexValue two,
      ne_lineFeed_of_hexValue three, ne_lineFeed_of_hexValue four, inductionHypothesis⟩
  | @named letter _ _ escaped _ inductionHypothesis =>
    have differs : '\n' ≠ letter := by
      rintro rfl
      simp [escapedLetter?] at escaped
    simp only [List.mem_cons, not_or]
    exact ⟨by decide, differs, inductionHypothesis⟩
  | @plain letter _ _ _ printable _ inductionHypothesis =>
    have differs : '\n' ≠ letter := by
      rintro rfl
      exact absurd printable (by decide)
    simp only [List.mem_cons, not_or]
    exact ⟨differs, inductionHypothesis⟩

/-- A line feed is in no string with its quotes. -/
theorem lineFeed_not_mem_quote {body : String} (well : isBody body.toList = true) :
    '\n' ∉ quote body := by
  obtain ⟨units, read⟩ := Option.isSome_iff_exists.mp well
  simp [quote, lineFeed_not_mem_body (.of_units read)]

/-- A line feed is in no numeral. -/
theorem lineFeed_not_mem_numeral {literal : String} (numeral : isNumeral literal.toList = true) :
    '\n' ∉ literal.toList := by
  have read : Numeral.parse? literal.toList ≠ none := Option.isSome_iff_ne_none.mp numeral
  intro member
  have letter := (Numeral.isLetter_of_parse read).2 _ member
  revert letter
  decide

namespace Layout

/-- What stands between documents that are written one after the other. -/
def separator : Layout → List Char
  | compact => ['\n']
  | indented => ['\n', '\n']

variable (layout : Layout)

/-- A text without line feed is free of the separator. -/
theorem free_of_lineFeed {text : List Char} (absent : '\n' ∉ text) :
    Text.FreeOf layout.separator text := by
  cases layout with
  | compact => exact .of_not_mem absent
  | indented => exact .of_not_mem absent

/-- A text that does not begin with a line feed is apart from the separator. -/
theorem apart_of_ne {letter : Char} {rest : List Char} (differs : letter ≠ '\n') :
    Text.Apart layout.separator (letter :: rest) := by
  cases layout <;>
    exact ⟨fun start => differs (List.cons_prefix_cons.mp start).1.symm,
      fun start => differs (List.cons_prefix_cons.mp start).1⟩

/-- A text that begins with something other than a line feed and is free of the separator. -/
structure Steady (text : List Char) : Prop where
  starts : ∃ letter rest, text = letter :: rest ∧ letter ≠ '\n'
  free : Text.FreeOf layout.separator text

variable {layout}

namespace Steady

/-- What follows a mark is part of a text that begins with the mark. -/
theorem mark {letter : Char} {rest : List Char} (differs : letter ≠ '\n')
    (free : Text.FreeOf layout.separator rest) : layout.Steady (letter :: rest) :=
  ⟨⟨letter, rest, rfl, differs⟩, .cons (layout.apart_of_ne differs) free⟩

/-- A free text may follow. -/
theorem append {first second : List Char} (steady : layout.Steady first)
    (free : Text.FreeOf layout.separator second) : layout.Steady (first ++ second) := by
  obtain ⟨letter, rest, rfl, differs⟩ := steady.starts
  exact ⟨⟨letter, rest ++ second, rfl, differs⟩, steady.free.append free⟩

/-- A text without line feed that is not empty. -/
theorem of_lineFeed {text : List Char} (some : text ≠ []) (absent : '\n' ∉ text) :
    layout.Steady text := by
  obtain ⟨letter, rest, rfl⟩ := List.exists_cons_of_ne_nil some
  exact ⟨⟨letter, rest, rfl, fun same => absent (same ▸ List.mem_cons_self)⟩,
    layout.free_of_lineFeed absent⟩

/-- A line break before a text makes up no separator with it, since the text does not begin with a line
    feed. -/
theorem free_lineBreak {text : List Char} (steady : layout.Steady text) (depth : Nat) :
    Text.FreeOf layout.separator (layout.lineBreak depth ++ text) := by
  cases layout with
  | compact => exact steady.free
  | indented =>
    have indented : Layout.indented.Steady (List.replicate (2 * depth) ' ' ++ text) := by
      cases Nat.eq_zero_or_pos depth with
      | inl none =>
        rw [none]
        exact steady
      | inr some =>
        refine (of_lineFeed ?_ ?_).append steady.free
        · simp only [ne_eq, List.replicate_eq_nil_iff]
          omega
        · simp [List.mem_replicate]
    obtain ⟨letter, rest, written, differs⟩ := indented.starts
    refine .cons ?_ indented.free
    change Text.Apart _ ('\n' :: (List.replicate (2 * depth) ' ' ++ text))
    rw [written]
    constructor
    · intro start
      have second := (List.cons_prefix_cons.mp (List.cons_prefix_cons.mp start).2).1
      exact differs second.symm
    · intro start
      have second := (List.cons_prefix_cons.mp (List.cons_prefix_cons.mp start).2).1
      exact differs second

end Steady

end Layout

open Layout

/-- The key of a member and what is written after it. -/
theorem steady_member (layout : Layout) {key : String} (well : isBody key.toList = true)
    {rest : List Char} (free : Text.FreeOf layout.separator rest) :
    layout.Steady (quote key ++ (layout.colon ++ rest)) := by
  have keyed : layout.Steady (quote key) :=
    .of_lineFeed (by simp [quote]) (lineFeed_not_mem_quote well)
  have colon : '\n' ∉ layout.colon := by cases layout <;> decide
  exact keyed.append ((layout.free_of_lineFeed colon).append free)

mutual

/-- The text of a document begins with something other than a line feed and is free of the separator. -/
theorem steady_write (layout : Layout) (depth : Nat) : (document : Json) → WellWritten document →
    layout.Steady (write layout depth document)
  | .null, _ => .of_lineFeed (by simp [write]) (by simp [write])
  | .bool true, _ => .of_lineFeed (by simp [write]) (by simp [write])
  | .bool false, _ => .of_lineFeed (by simp [write]) (by simp [write])
  | .number literal, .number numeral =>
    have read := Option.isSome_iff_ne_none.mp numeral
    .of_lineFeed (Numeral.isLetter_of_parse read).1 (lineFeed_not_mem_numeral numeral)
  | .string body, .string well =>
    .of_lineFeed (by simp [write, quote]) (lineFeed_not_mem_quote well)
  | .array [], _ => .of_lineFeed (by simp [write]) (by simp [write])
  | .array (first :: others), .array each => by
    have head := steady_write layout (depth + 1) first (each _ List.mem_cons_self)
    have tail := free_writeItems layout (depth + 1) others
      fun item member => each item (List.mem_cons_of_mem _ member)
    have close : layout.Steady [']'] := .of_lineFeed (by decide) (by decide)
    rw [write]
    simp only [List.cons_append, List.append_assoc]
    exact .mark (by decide) ((head.append (tail.append (close.free_lineBreak depth))).free_lineBreak _)
  | .object [], _ => .of_lineFeed (by simp [write]) (by simp [write])
  | .object ((key, value) :: others), .object keys each => by
    have head := steady_write layout (depth + 1) value (each _ List.mem_cons_self)
    have tail := free_writeMembers layout (depth + 1) others
      (fun member inside => keys member (List.mem_cons_of_mem _ inside))
      (fun member inside => each member (List.mem_cons_of_mem _ inside))
    have close : layout.Steady ['}'] := .of_lineFeed (by decide) (by decide)
    have start := steady_member layout (keys _ List.mem_cons_self)
      (head.append (tail.append (close.free_lineBreak depth))).free
    rw [write]
    simp only [List.cons_append, List.append_assoc]
    exact .mark (by decide) (start.free_lineBreak _)

/-- The texts of further items are free of the separator. -/
theorem free_writeItems (layout : Layout) (depth : Nat) : (items : List Json) →
    (∀ item ∈ items, WellWritten item) →
    Text.FreeOf layout.separator (writeItems layout depth items)
  | [], _ => by
    rw [writeItems]
    exact .nil
  | item :: others, each => by
    have head := steady_write layout depth item (each _ List.mem_cons_self)
    have tail := free_writeItems layout depth others
      fun other member => each other (List.mem_cons_of_mem _ member)
    rw [writeItems]
    simp only [List.cons_append, List.append_assoc]
    exact (Steady.mark (by decide) ((head.append tail).free_lineBreak depth)).free

/-- The texts of further members are free of the separator. -/
theorem free_writeMembers (layout : Layout) (depth : Nat) : (members : List (String × Json)) →
    (∀ member ∈ members, isBody member.1.toList = true) →
    (∀ member ∈ members, WellWritten member.2) →
    Text.FreeOf layout.separator (writeMembers layout depth members)
  | [], _, _ => by
    rw [writeMembers]
    exact .nil
  | (key, value) :: others, keys, each => by
    have head := steady_write layout depth value (each _ List.mem_cons_self)
    have tail := free_writeMembers layout depth others
      (fun member inside => keys member (List.mem_cons_of_mem _ inside))
      (fun member inside => each member (List.mem_cons_of_mem _ inside))
    have start := steady_member layout (keys _ List.mem_cons_self) (head.append tail).free
    rw [writeMembers]
    simp only [List.cons_append, List.append_assoc]
    exact (Steady.mark (by decide) (start.free_lineBreak depth)).free

end

mutual

/-- On one line it makes no difference how deep a document is. -/
theorem write_compact (depth : Nat) : (document : Json) →
    write .compact depth document = write .compact 0 document
  | .null => by simp only [write]
  | .bool true => by simp only [write]
  | .bool false => by simp only [write]
  | .number _ => by simp only [write]
  | .string _ => by simp only [write]
  | .array [] => by simp only [write]
  | .array (first :: others) => by
    simp only [write, write_compact (depth + 1) first, write_compact (0 + 1) first,
      writeItems_compact (depth + 1) others, writeItems_compact (0 + 1) others, lineBreak]
  | .object [] => by simp only [write]
  | .object ((key, value) :: others) => by
    simp only [write, write_compact (depth + 1) value, write_compact (0 + 1) value,
      writeMembers_compact (depth + 1) others, writeMembers_compact (0 + 1) others, lineBreak]

/-- On one line it makes no difference how deep items are. -/
theorem writeItems_compact (depth : Nat) : (items : List Json) →
    writeItems .compact depth items = writeItems .compact 0 items
  | [] => by simp only [writeItems]
  | item :: others => by
    simp only [writeItems, write_compact depth item, writeItems_compact depth others, lineBreak]

/-- On one line it makes no difference how deep members are. -/
theorem writeMembers_compact (depth : Nat) : (members : List (String × Json)) →
    writeMembers .compact depth members = writeMembers .compact 0 members
  | [] => by simp only [writeMembers]
  | (key, value) :: others => by
    simp only [writeMembers, write_compact depth value, writeMembers_compact depth others,
      lineBreak]

end

/-- On one line an array consists of the texts of its items with commas between them. -/
theorem write_compact_array (items : List Json) :
    write .compact 0 (.array items) =
      '[' :: [','].intercalate (items.map (write .compact 0)) ++ [']'] := by
  have further (first : List Char) (others : List Json) :
      first ++ writeItems .compact 0 others =
        [','].intercalate (first :: others.map (write .compact 0)) := by
    induction others generalizing first with
    | nil => simp [writeItems]
    | cons item others inductionHypothesis =>
      rw [writeItems, List.map_cons, List.intercalate_cons_cons, ← inductionHypothesis]
      simp [lineBreak]
  cases items with
  | nil => rfl
  | cons first others =>
    rw [write, write_compact, writeItems_compact, List.map_cons, ← further]
    simp [lineBreak]

/-- The text of an array on one line consists of those of its items with commas between them. -/
theorem toText_compact_array (items : List Json) :
    (array items).toText .compact =
      "[" ++ ",".intercalate (items.map (toText .compact)) ++ "]" := by
  have written : (items.map (toText .compact)).map String.toList =
      items.map (write .compact 0) := by
    simp [toText, Function.comp_def]
  rw [← String.toList_inj]
  simp only [String.toList_append, String.toList_intercalate, written]
  rw [toText, String.toList_ofList, write_compact_array]
  simp

end Json

namespace Report

open Json

/-- What stands between the documents of JSON lines. -/
def separator (pretty : Bool) : String := if pretty then "\n\n" else "\n"

theorem toList_separator (pretty : Bool) :
    (separator pretty).toList = (layoutOf pretty).separator := by
  cases pretty <;> rfl

/-- The document that a piece of a text of JSON lines is, as an item. -/
def itemOf? (piece : String) : Option Item := (parse? piece).bind Item.ofJson?

/-- JSON lines are cut into the texts of the items. -/
theorem pieces_renderJsonLines (pretty : Bool) {items : List Item} (some : items ≠ [])
    (writable : ∀ item ∈ items, item.Writable) :
    Text.pieces (separator pretty) (renderJsonLines pretty items) =
      items.map fun item => item.toJson.toText (layoutOf pretty) := by
  refine Text.pieces_intercalate ?_ (by simpa using some) fun text there => ?_
  · cases pretty <;> decide
  · obtain ⟨item, member, rfl⟩ := List.mem_map.mp there
    rw [toList_separator, toText, String.toList_ofList]
    exact (steady_write _ 0 _ (item.wellWritten_toJson (writable item member))).free

/-- Nothing is lost in JSON reports. Whatever a search list reports, cutting the JSON lines at every line
    feed, or at every empty line if they are indented, gives one piece for each item that is read as
    the item, in order; the JSON array is read as the same items; and on one line it consists of the
    JSON lines with commas between them. The list has to be one whose positions fit into 64 bits. -/
theorem json_reports_are_read_back {list : SearchList} {items : List Item}
    (reports : list.Reports items) (some : items ≠ []) (fits : list.size < UInt64.size)
    (start : list.angledStart < UInt64.size) :
    (∀ pretty,
      let pieces := Text.pieces (separator pretty) (render .jsonLines pretty items)
      pieces.length = items.length ∧ pieces.mapM itemOf? = .some items) ∧
    (∀ pretty, (parse? (render .json pretty items)).bind (asList? Item.ofJson?) = .some items) ∧
    render .json false items =
      "[" ++ ",".intercalate (Text.pieces "\n" (render .jsonLines false items)) ++ "]" := by
  have writable := reports.writable fits start
  have read : ∀ item ∈ items, Item.ofJson? item.toJson = .some item :=
    fun item member => item.ofJson?_toJson (writable item member)
  refine ⟨fun pretty => ?_, fun pretty => ?_, ?_⟩
  · rw [render, pieces_renderJsonLines pretty some writable]
    refine ⟨List.length_map _, mapM_read fun item member => ?_⟩
    rw [itemOf?, parse?_toText _ (item.wellWritten_toJson (writable item member)),
      Option.bind_some]
    exact read item member
  · have well : WellWritten (.array (items.map Item.toJson)) := by
      refine .array fun document there => ?_
      obtain ⟨item, member, rfl⟩ := List.mem_map.mp there
      exact item.wellWritten_toJson (writable item member)
    rw [render, renderJson, parse?_toText _ well, Option.bind_some]
    exact asList?_map read
  · have lines := pieces_renderJsonLines false some writable
    rw [separator, if_neg Bool.false_ne_true] at lines
    rw [render, render, lines, renderJson]
    change (array (items.map Item.toJson)).toText .compact = _
    rw [toText_compact_array, List.map_map]
    rfl

/-- A view with one header, whose name and directory have empty lines in them. -/
def emptyLines : FileView where
  directory? _ := none
  file? _ name := if name = "a\n\n.h" then some ⟨0⟩ else none
  directoryPath _ := ⟨"\n\n"⟩
  filePath _ := ⟨"\n\n/a\n\n.h"⟩

/-- A list with the directory of that header. -/
def oneEntry : SearchList where
  entries := [⟨.directory ⟨0⟩ "\n\n", .user, false⟩]
  angledStart := 0
  systemFrameworks := []

/-- A header with empty lines in its name and one that is missing are read back from indented JSON lines,
    which have empty lines between them. -/
theorem empty_lines_are_read_back :
    ∃ items, oneEntry.Reports items ∧ items.length = 2 ∧
      oneEntry.size < UInt64.size ∧ oneEntry.angledStart < UInt64.size ∧
      (Text.pieces "\n\n" (render .jsonLines true items)).mapM itemOf? = .some items ∧
      (parse? (render .json true items)).bind (asList? Item.ofJson?) = .some items := by
  have remembers : oneEntry.Remembers .fresh := .fresh
  have reports := SearchList.Reports.names (m := Observed emptyLines) remembers []
    ["a\n\n.h", "\"\n\"\""] .angled none
  have two : (Runs.run (oneEntry.resolveNames ["a\n\n.h", "\"\n\"\""] .angled none :
      StateT SearchMemo (Observed emptyLines) _) (.fresh, [])).1.length = 2 := rfl
  have some : (Runs.run (oneEntry.resolveNames ["a\n\n.h", "\"\n\"\""] .angled none :
      StateT SearchMemo (Observed emptyLines) _) (.fresh, [])).1 ≠ [] :=
    List.ne_nil_of_length_pos (two ▸ Nat.two_pos)
  have read := json_reports_are_read_back reports some (by decide) (by decide)
  exact ⟨_, reports, two, by decide, by decide, (read.1 true).2, read.2.1 true⟩

end Report

end HeaderSearch
