import HeaderSearch.Json.Parser
import HeaderSearch.Json.Printer
import HeaderSearch.Proofs.Literals

/-!
# Reading documents back

A document is well written if its numbers are numerals and its strings and keys are bodies of strings.
Its text in either layout is scanned into its tokens, and these are read as the document, so nothing
is lost between writing and reading. Both halves follow the document, with whatever comes after it
left open.
-/

namespace HeaderSearch.Json

/-- The body of a string is put together from escapes and from characters that need none. -/
inductive Body : List Char → Prop where
  | nothing : Body []
  | coded {first second third fourth : Char} {rest : List Char}
      (digits : ∀ digit ∈ [first, second, third, fourth], (hexValue? digit).isSome)
      (others : Body rest) : Body ('\\' :: 'u' :: first :: second :: third :: fourth :: rest)
  | named {letter meant : Char} {rest : List Char} (escaped : escapedLetter? letter = some meant)
      (others : Body rest) : Body ('\\' :: letter :: rest)
  | plain {letter : Char} {rest : List Char} (backslash : letter ≠ '\\') (quote : letter ≠ '"')
      (printable : 0x20 ≤ letter.toNat) (others : Body rest) : Body (letter :: rest)

/-- What stands for code units is the body of a string. Induct on the escapes. -/
theorem Body.of_units {body : List Char} {units : List Nat} (well : units? body = some units) :
    Body body := by
  fun_induction units? body generalizing units with
  | case1 => exact .nothing
  | case2 first second third fourth others inductionHypothesis =>
    simp only [Option.bind_eq_bind, Option.bind_eq_some_iff] at well
    obtain ⟨unit, digits, later, read, -⟩ := well
    simp only [hexUnit?, Option.bind_eq_bind, Option.bind_eq_some_iff] at digits
    obtain ⟨_, one, _, two, _, three, _, four, -⟩ := digits
    exact .coded (by simp [one, two, three, four]) (inductionHypothesis read)
  | case3 letter others _ inductionHypothesis =>
    simp only [Option.bind_eq_bind, Option.bind_eq_some_iff] at well
    obtain ⟨meant, escaped, later, read, -⟩ := well
    exact .named escaped (inductionHypothesis read)
  | case4 letter others wrong => simp at well
  | case5 letter others _ _ plain inductionHypothesis =>
    obtain ⟨later, read, -⟩ := Option.map_eq_some_iff.mp well
    simp only [not_or, Nat.not_lt] at plain
    exact .plain plain.1 plain.2.1 plain.2.2 (inductionHypothesis read)

namespace Token

/-- The characters that end a word. -/
theorem mem_of_endsWord {letter : Char} (ends : endsWord letter = true) :
    letter ∈ [' ', '\n', '\t', '\r', '[', ']', '{', '}', ':', ',', '"'] := by
  by_contra outside
  simp only [List.mem_cons, List.not_mem_nil, or_false, not_or] at outside
  simp [endsWord, isBlank, mark?, outside] at ends

/-- What the letters of a list have in common is found out letter by letter. -/
theorem forall_of_all {letters : List Char} {property : Char → Bool} {value : Bool}
    (all : (letters.all fun letter => property letter == value) = true) :
    ∀ letter ∈ letters, property letter = value :=
  fun letter member => eq_of_beq (List.all_eq_true.mp all letter member)

/-- A letter of a numeral does not end a word. -/
theorem not_endsWord_of_letter {letter : Char} (inside : Numeral.isLetter letter = true) :
    endsWord letter = false := by
  have apart : ∀ other ∈ [' ', '\n', '\t', '\r', '[', ']', '{', '}', ':', ',', '"'],
      Numeral.isLetter other = false := forall_of_all (by decide)
  rw [← Bool.not_eq_true]
  intro ends
  exact Bool.false_ne_true ((apart letter (mem_of_endsWord ends)).symm.trans inside)

/-- Whether a word may end before a text. -/
def MayEnd (rest : List Char) : Prop := ∀ letter ∈ rest.head?, endsWord letter = true

/-- A word may end before a character that ends it. -/
theorem MayEnd.cons {letter : Char} (ends : endsWord letter = true) (rest : List Char) :
    MayEnd (letter :: rest) := by
  intro other same
  obtain rfl : letter = other := by simpa using same
  exact ends

/-- Blanks between tokens are passed over. -/
theorem scan_blanks {gap : List Char} (blank : ∀ letter ∈ gap, isBlank letter = true)
    (rest : List Char) : scanFrom .between (gap ++ rest) = scanFrom .between rest := by
  induction gap with
  | nil => rfl
  | cons letter gap inductionHypothesis =>
    have first := blank letter List.mem_cons_self
    rw [List.cons_append, scanFrom, start, if_pos first]
    simp only [List.nil_append, Option.map_id']
    exact inductionHypothesis fun other member => blank other (List.mem_cons_of_mem _ member)

/-- A mark is one token. -/
theorem scan_mark {letter : Char} {token : Token} (blank : isBlank letter = false)
    (mark : mark? letter = some token) (rest : List Char) :
    scanFrom .between (letter :: rest) = (scanFrom .between rest).map (token :: ·) := by
  rw [scanFrom, start, blank, if_neg Bool.false_ne_true, mark]
  rfl

/-- A word goes on up to a character that ends it. -/
theorem scan_in_word {letters : List Char} (inside : ∀ letter ∈ letters, endsWord letter = false)
    {rest : List Char} (ends : MayEnd rest) (before : List Char) :
    scanFrom (.inWord before) (letters ++ rest) =
      (ofWord? (before.reverse ++ letters)).bind fun token =>
        (scanFrom .between rest).map (token :: ·) := by
  induction letters generalizing before with
  | nil =>
    rw [List.nil_append, List.append_nil]
    cases rest with
    | nil =>
      simp only [scanFrom]
      cases ofWord? before.reverse <;> rfl
    | cons letter rest =>
      have last := ends letter rfl
      simp only [scanFrom, last, if_true]
      cases ofWord? before.reverse with
      | none => rfl
      | some token => cases scanFrom (start letter).2 rest <;> rfl
  | cons letter letters inductionHypothesis =>
    rw [List.cons_append, scanFrom, inside letter List.mem_cons_self, if_neg Bool.false_ne_true,
      inductionHypothesis fun other member => inside other (List.mem_cons_of_mem _ member)]
    rw [List.reverse_cons, List.append_assoc, List.singleton_append]

/-- A word is one token. -/
theorem scan_word (letters : List Char) {token : Token} (some : letters ≠ [])
    (inside : ∀ letter ∈ letters, endsWord letter = false) (word : ofWord? letters = .some token)
    {rest : List Char} (ends : MayEnd rest) :
    scanFrom .between (letters ++ rest) = (scanFrom .between rest).map (token :: ·) := by
  cases letters with
  | nil => exact absurd rfl some
  | cons letter letters =>
    have first := inside letter List.mem_cons_self
    simp only [endsWord, Bool.or_eq_false_iff, Option.isSome_eq_false_iff, Option.isNone_iff_eq_none,
      decide_eq_false_iff_not] at first
    obtain ⟨⟨blank, mark⟩, quote⟩ := first
    have later := scan_in_word (fun other member => inside other (List.mem_cons_of_mem _ member))
      ends [letter]
    rw [List.reverse_singleton, List.singleton_append, word] at later
    rw [List.cons_append, scanFrom, start, blank, if_neg Bool.false_ne_true, mark]
    simp only [if_neg quote, later, Option.bind_some, List.nil_append, Option.map_id']

/-- A hexadecimal digit in a string is one more character of it. -/
theorem scan_hex {letter : Char} (digit : (hexValue? letter).isSome) (rest before : List Char) :
    scanFrom (.inString before) (letter :: rest) = scanFrom (.inString (letter :: before)) rest := by
  have quote : letter ≠ '"' := by
    rintro rfl
    simp [hexValue?] at digit
  have backslash : letter ≠ '\\' := by
    rintro rfl
    simp [hexValue?] at digit
  rw [scanFrom, if_neg quote, if_neg backslash]

/-- The body of a string goes on up to a quote that is not escaped. -/
theorem scan_in_string {body : List Char} (well : Body body) (rest before : List Char) :
    scanFrom (.inString before) (body ++ rest) =
      scanFrom (.inString (body.reverse ++ before)) rest := by
  induction well generalizing before with
  | nothing => rfl
  | coded digits _ inductionHypothesis =>
    simp only [List.forall_mem_cons] at digits
    obtain ⟨one, two, three, four, -⟩ := digits
    simp only [List.cons_append, List.reverse_cons, List.append_assoc, List.nil_append]
    rw [scanFrom, if_neg (by decide), if_pos rfl, scanFrom, scan_hex one, scan_hex two,
      scan_hex three, scan_hex four, inductionHypothesis]
  | named _ _ inductionHypothesis =>
    simp only [List.cons_append, List.reverse_cons, List.append_assoc, List.nil_append]
    rw [scanFrom, if_neg (by decide), if_pos rfl, scanFrom, inductionHypothesis]
  | plain backslash quote _ _ inductionHypothesis =>
    simp only [List.cons_append, List.reverse_cons, List.append_assoc, List.nil_append]
    rw [scanFrom, if_neg quote, if_neg backslash, inductionHypothesis]

/-- A string in quotes is one token. -/
theorem scan_string {body : String} (well : isBody body.toList = true) (rest : List Char) :
    scanFrom .between (quote body ++ rest) = (scanFrom .between rest).map (.string body :: ·) := by
  obtain ⟨units, read⟩ := Option.isSome_iff_exists.mp well
  have opened : scanFrom .between (quote body ++ rest) =
      (scanFrom (.inString []) (body.toList ++ '"' :: rest)).map id := by
    simp [quote, scanFrom, start, isBlank, mark?]
  rw [opened, scan_in_string (.of_units read)]
  simp only [scanFrom, ofBody?, List.append_nil, List.reverse_reverse, well]
  cases scanFrom .between rest <;> simp

end Token

/-- A document whose numbers are numerals and whose strings and keys are well formed. -/
inductive WellWritten : Json → Prop where
  | null : WellWritten .null
  | bool (value : Bool) : WellWritten (.bool value)
  | number {literal : String} (numeral : isNumeral literal.toList = true) :
      WellWritten (.number literal)
  | string {body : String} (well : isBody body.toList = true) : WellWritten (.string body)
  | array {items : List Json} (each : ∀ item ∈ items, WellWritten item) :
      WellWritten (.array items)
  | object {members : List (String × Json)}
      (keys : ∀ member ∈ members, isBody member.1.toList = true)
      (each : ∀ member ∈ members, WellWritten member.2) : WellWritten (.object members)

mutual

/-- The tokens of a document. -/
def tokens : Json → List Token
  | .null => [.word .null]
  | .bool value => [.word (.bool value)]
  | .number literal => [.word (.number literal)]
  | .string body => [.string body]
  | .array [] => [.openArray, .closeArray]
  | .array (first :: others) => .openArray :: tokens first ++ itemTokens others ++ [.closeArray]
  | .object [] => [.openObject, .closeObject]
  | .object ((key, value) :: others) =>
    .openObject :: .string key :: .colon :: tokens value ++ memberTokens others ++ [.closeObject]

/-- The tokens of the items after the first. -/
def itemTokens : List Json → List Token
  | [] => []
  | item :: others => .comma :: tokens item ++ itemTokens others

/-- The tokens of the members after the first. -/
def memberTokens : List (String × Json) → List Token
  | [] => []
  | (key, value) :: others =>
    .comma :: .string key :: .colon :: tokens value ++ memberTokens others

end

namespace Layout

/-- Only blanks stand before an item, member or closing mark. -/
theorem blank_lineBreak (layout : Layout) (depth : Nat) :
    ∀ letter ∈ layout.lineBreak depth, Token.isBlank letter = true := by
  cases layout with
  | compact => simp [lineBreak]
  | indented =>
    intro letter member
    rcases List.mem_cons.mp member with rfl | space
    · rfl
    · rw [List.eq_of_mem_replicate space]
      rfl

end Layout

namespace Token

/-- A line break and a mark after it are the token of the mark. -/
theorem scan_break {letter : Char} {token : Token} (blank : isBlank letter = false)
    (mark : mark? letter = some token) (layout : Layout) (depth : Nat) (rest : List Char) :
    scanFrom .between (layout.lineBreak depth ++ letter :: rest) =
      (scanFrom .between rest).map (token :: ·) := by
  rw [scan_blanks (layout.blank_lineBreak depth), scan_mark blank mark]

/-- The colon after a key is a token in either layout. -/
theorem scan_colon (layout : Layout) (rest : List Char) :
    scanFrom .between (layout.colon ++ rest) = (scanFrom .between rest).map (.colon :: ·) := by
  cases layout with
  | compact => exact scan_mark rfl rfl rest
  | indented =>
    have blank : ∀ letter ∈ [' '], isBlank letter = true := forall_of_all (by decide)
    rw [← scan_blanks blank rest]
    exact scan_mark rfl rfl (' ' :: rest)

/-- A word may end before a line break with a mark after it. -/
theorem mayEnd_lineBreak {letter : Char} (ends : endsWord letter = true) (layout : Layout)
    (depth : Nat) (rest : List Char) : MayEnd (layout.lineBreak depth ++ letter :: rest) := by
  cases layout with
  | compact => exact .cons ends rest
  | indented => exact .cons rfl _

/-- Whatever is written after an item ends a word if what follows the items does. -/
theorem mayEnd_items (layout : Layout) (depth : Nat) (items : List Json) {rest : List Char}
    (ends : MayEnd rest) :
    MayEnd (writeItems layout depth items ++ rest) := by
  cases items with
  | nil => exact ends
  | cons item items =>
    rw [writeItems]
    exact .cons rfl _

/-- Whatever is written after a member ends a word if what follows the members does. -/
theorem mayEnd_members (layout : Layout) (depth : Nat) (members : List (String × Json))
    {rest : List Char} (ends : MayEnd rest) :
    MayEnd (writeMembers layout depth members ++ rest) := by
  cases members with
  | nil => exact ends
  | cons member members =>
    rw [writeMembers]
    exact .cons rfl _

/-- A numeral is one token. -/
theorem scan_numeral {literal : String} (numeral : isNumeral literal.toList = true)
    {rest : List Char} (ends : MayEnd rest) :
    scanFrom .between (literal.toList ++ rest) =
      (scanFrom .between rest).map (.word (.number literal) :: ·) := by
  obtain ⟨some, inside⟩ := Numeral.isLetter_of_parse (Option.isSome_iff_ne_none.mp numeral)
  have apart {word : List Char} (letter : ∃ other ∈ word, Numeral.isLetter other = false) :
      literal.toList ≠ word := by
    rintro rfl
    obtain ⟨other, member, outside⟩ := letter
    exact Bool.false_ne_true (outside.symm.trans (inside other member))
  refine scan_word _ some (fun letter member => not_endsWord_of_letter (inside letter member)) ?_ ends
  rw [ofWord?, if_neg (apart ⟨'n', by decide⟩), if_neg (apart ⟨'t', by decide⟩),
    if_neg (apart ⟨'f', by decide⟩), if_pos numeral, String.ofList_toList]

mutual

/-- The text of a document is scanned into its tokens, whatever follows that may end a word. -/
theorem scan_write (layout : Layout) (depth : Nat) : (document : Json) → WellWritten document →
    {rest : List Char} → MayEnd rest →
    scanFrom .between (write layout depth document ++ rest) =
      (scanFrom .between rest).map (tokens document ++ ·)
  | .null, _, rest, ends =>
    scan_word ['n', 'u', 'l', 'l'] (by decide) (forall_of_all (by decide)) rfl ends
  | .bool true, _, rest, ends =>
    scan_word ['t', 'r', 'u', 'e'] (by decide) (forall_of_all (by decide)) rfl ends
  | .bool false, _, rest, ends =>
    scan_word ['f', 'a', 'l', 's', 'e'] (by decide) (forall_of_all (by decide)) rfl ends
  | .number literal, .number numeral, rest, ends => scan_numeral numeral ends
  | .string body, .string well, rest, ends => scan_string well rest
  | .array [], _, rest, ends => by
    rw [write, List.cons_append, scan_mark rfl rfl, List.singleton_append, scan_mark rfl rfl,
      Option.map_map]
    rfl
  | .array (first :: others), .array each, rest, ends => by
    have last := mayEnd_lineBreak (show endsWord ']' = true from rfl) layout depth rest
    have head := scan_write layout (depth + 1) first (each _ List.mem_cons_self)
      (mayEnd_items layout (depth + 1) others last)
    have tail := scan_writeItems layout (depth + 1) others
      (fun item member => each item (List.mem_cons_of_mem _ member)) last
    simp only [write, List.cons_append, List.append_assoc, List.nil_append]
    rw [scan_mark rfl rfl, scan_blanks (layout.blank_lineBreak _), head, tail, scan_break rfl rfl]
    simp [tokens, Function.comp_def]
  | .object [], _, rest, ends => by
    rw [write, List.cons_append, scan_mark rfl rfl, List.singleton_append, scan_mark rfl rfl,
      Option.map_map]
    rfl
  | .object ((key, value) :: others), .object keys each, rest, ends => by
    have last := mayEnd_lineBreak (show endsWord '}' = true from rfl) layout depth rest
    have head := scan_write layout (depth + 1) value (each _ List.mem_cons_self)
      (mayEnd_members layout (depth + 1) others last)
    have tail := scan_writeMembers layout (depth + 1) others
      (fun member inside => keys member (List.mem_cons_of_mem _ inside))
      (fun member inside => each member (List.mem_cons_of_mem _ inside)) last
    simp only [write, List.cons_append, List.append_assoc, List.nil_append]
    rw [scan_mark rfl rfl, scan_blanks (layout.blank_lineBreak _),
      scan_string (keys _ List.mem_cons_self), scan_colon, head, tail, scan_break rfl rfl]
    simp [tokens, Function.comp_def]

/-- The texts of further items are scanned into their tokens. -/
theorem scan_writeItems (layout : Layout) (depth : Nat) : (items : List Json) →
    (∀ item ∈ items, WellWritten item) →
    {rest : List Char} → MayEnd rest →
    scanFrom .between (writeItems layout depth items ++ rest) =
      (scanFrom .between rest).map (itemTokens items ++ ·)
  | [], _, rest, ends => by
    rw [writeItems, List.nil_append]
    cases scanFrom .between rest <;> rfl
  | item :: others, each, rest, ends => by
    have head := scan_write layout depth item (each _ List.mem_cons_self)
      (mayEnd_items layout depth others ends)
    have tail := scan_writeItems layout depth others
      (fun other member => each other (List.mem_cons_of_mem _ member)) ends
    simp only [writeItems, List.cons_append, List.append_assoc]
    rw [scan_mark rfl rfl, scan_blanks (layout.blank_lineBreak _), head, tail]
    simp [itemTokens, Function.comp_def]

/-- The texts of further members are scanned into their tokens. -/
theorem scan_writeMembers (layout : Layout) (depth : Nat) : (members : List (String × Json)) →
    (∀ member ∈ members, isBody member.1.toList = true) →
    (∀ member ∈ members, WellWritten member.2) → {rest : List Char} → MayEnd rest →
    scanFrom .between (writeMembers layout depth members ++ rest) =
      (scanFrom .between rest).map (memberTokens members ++ ·)
  | [], _, _, rest, ends => by
    rw [writeMembers, List.nil_append]
    cases scanFrom .between rest <;> rfl
  | (key, value) :: others, keys, each, rest, ends => by
    have head := scan_write layout depth value (each _ List.mem_cons_self)
      (mayEnd_members layout depth others ends)
    have tail := scan_writeMembers layout depth others
      (fun member inside => keys member (List.mem_cons_of_mem _ inside))
      (fun member inside => each member (List.mem_cons_of_mem _ inside)) ends
    simp only [writeMembers, List.cons_append, List.append_assoc]
    rw [scan_mark rfl rfl, scan_blanks (layout.blank_lineBreak _),
      scan_string (keys _ List.mem_cons_self), scan_colon, head, tail]
    simp [memberTokens, Function.comp_def]

end

end Token

namespace Reading

/-- The first item of an array is read like any value. -/
theorem run_first_item (document : Json) (outer : List Frame) (rest : List Token) :
    run (.firstItem outer) (tokens document ++ rest) =
      run (.value (.items [] :: outer)) (tokens document ++ rest) := by
  cases document with
  | null => rfl
  | bool value => rfl
  | number literal => rfl
  | string body => rfl
  | array items =>
    cases items with
    | nil => rw [tokens]; rfl
    | cons first others => rw [tokens]; rfl
  | object members =>
    cases members with
    | nil => rw [tokens]; rfl
    | cons first others => rw [tokens]; rfl

mutual

/-- The tokens of a document are read as the document. -/
theorem run_tokens : (document : Json) → (outer : List Frame) → (rest : List Token) →
    run (.value outer) (tokens document ++ rest) = run (deliver document outer) rest
  | .null, outer, rest => rfl
  | .bool value, outer, rest => rfl
  | .number literal, outer, rest => rfl
  | .string body, outer, rest => rfl
  | .array [], outer, rest => by
    rw [tokens]
    rfl
  | .array (first :: others), outer, rest => by
    have head := run_tokens first (.items [] :: outer)
      (itemTokens others ++ .closeArray :: rest)
    have tail := run_itemTokens others [first] outer rest
    calc run (.value outer) (tokens (.array (first :: others)) ++ rest)
        = run (.firstItem outer) (tokens first ++ (itemTokens others ++ .closeArray :: rest)) := by
          simp only [tokens, List.cons_append, List.append_assoc, List.nil_append]
          rfl
      _ = run (deliver (.array (first :: others)) outer) rest := by
          rw [run_first_item, head]
          exact tail
  | .object [], outer, rest => by
    rw [tokens]
    rfl
  | .object ((key, value) :: others), outer, rest => by
    have head := run_tokens value (.members [] key :: outer)
      (memberTokens others ++ .closeObject :: rest)
    have tail := run_memberTokens others [(key, value)] outer rest
    calc run (.value outer) (tokens (.object ((key, value) :: others)) ++ rest)
        = run (.value (.members [] key :: outer))
            (tokens value ++ (memberTokens others ++ .closeObject :: rest)) := by
          simp only [tokens, List.cons_append, List.append_assoc, List.nil_append]
          rfl
      _ = run (deliver (.object ((key, value) :: others)) outer) rest := by
          rw [head]
          exact tail

/-- The tokens of further items are read as items after those before. -/
theorem run_itemTokens : (items before : List Json) → (outer : List Frame) → (rest : List Token) →
    run (.afterItem before outer) (itemTokens items ++ .closeArray :: rest) =
      run (deliver (.array (before.reverse ++ items)) outer) rest
  | [], before, outer, rest => by
    rw [itemTokens, List.append_nil]
    rfl
  | item :: items, before, outer, rest => by
    have head := run_tokens item (.items before :: outer)
      (itemTokens items ++ .closeArray :: rest)
    have tail := run_itemTokens items (item :: before) outer rest
    rw [List.reverse_cons, List.append_assoc, List.singleton_append] at tail
    calc run (.afterItem before outer) (itemTokens (item :: items) ++ .closeArray :: rest)
        = run (.value (.items before :: outer))
            (tokens item ++ (itemTokens items ++ .closeArray :: rest)) := by
          simp only [itemTokens, List.cons_append, List.append_assoc]
          rfl
      _ = run (deliver (.array (before.reverse ++ item :: items)) outer) rest := by
          rw [head]
          exact tail

/-- The tokens of further members are read as members after those before. -/
theorem run_memberTokens : (members before : List (String × Json)) → (outer : List Frame) →
    (rest : List Token) →
    run (.afterMember before outer) (memberTokens members ++ .closeObject :: rest) =
      run (deliver (.object (before.reverse ++ members)) outer) rest
  | [], before, outer, rest => by
    rw [memberTokens, List.append_nil]
    rfl
  | (key, value) :: members, before, outer, rest => by
    have head := run_tokens value (.members before key :: outer)
      (memberTokens members ++ .closeObject :: rest)
    have tail := run_memberTokens members ((key, value) :: before) outer rest
    rw [List.reverse_cons, List.append_assoc, List.singleton_append] at tail
    calc run (.afterMember before outer) (memberTokens ((key, value) :: members) ++
          .closeObject :: rest)
        = run (.value (.members before key :: outer))
            (tokens value ++ (memberTokens members ++ .closeObject :: rest)) := by
          simp only [memberTokens, List.cons_append, List.append_assoc]
          rfl
      _ = run (deliver (.object (before.reverse ++ (key, value) :: members)) outer) rest := by
          rw [head]
          exact tail

end

end Reading

/-- A well written document is read back from its text in either layout. -/
theorem parse?_toText (layout : Layout) {document : Json} (well : WellWritten document) :
    parse? (document.toText layout) = some document := by
  have ended : Token.MayEnd [] := fun letter member => absurd member (Option.not_mem_none letter)
  have scanned := Token.scan_write layout 0 document well ended
  have read := Reading.run_tokens document [] []
  rw [List.append_nil] at scanned read
  rw [parse?, toText, String.toList_ofList, Token.scan, scanned]
  simp only [Token.scanFrom, Option.map_some, List.append_nil, Option.bind_eq_bind,
    Option.bind_some, read]
  rfl

end HeaderSearch.Json
