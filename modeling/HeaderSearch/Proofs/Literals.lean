import Mathlib.Data.List.TakeWhile
import Mathlib.Tactic.SplitIfs
import HeaderSearch.Json.Value

/-!
# Reading texts and numbers back

What `escape` writes for a text is the body of a string and denotes that text, whatever characters the
text has. The decimal digits of a natural number are a numeral, and denote the number as long as it
fits into 64 bits. Numerals consist of a few letters only, none of which means anything else in JSON.
-/

namespace HeaderSearch

namespace Decimal

/-- A numeral of digits consists of digits. -/
theorem isDigit_of_mem_digits {n : Nat} {letter : Char} (member : letter ∈ digits n) :
    isDigit letter = true := by
  have digit : letter.isDigit = true := Nat.isDigit_of_mem_toDigits (by decide) (by decide) member
  exact digit

/-- The digits of a number denote the number. -/
@[simp] theorem value_digits (n : Nat) : value (digits n) = n := by
  have read := Nat.ofDigitChars_ten_toDigits (n := n)
  rw [Nat.ofDigitChars_eq_foldl] at read
  simpa only [value, digits, digitValue, Nat.mul_comm 10] using read

/-- The digits of a positive number do not start with a zero. Induct on the number without its last
    digit. -/
theorem head?_digits_ne {n : Nat} (positive : 0 < n) : (digits n).head? ≠ some '0' := by
  induction n using Nat.strongRecOn with
  | ind n inductionHypothesis =>
    by_cases small : n < 10
    · rw [digits, Nat.toDigits_of_lt_base small, List.head?_cons, ne_eq, Option.some_inj,
        Nat.digitChar_eq_zero]
      exact Nat.ne_of_gt positive
    · have shorter := inductionHypothesis (n / 10) (by omega) (by omega)
      obtain ⟨first, others, written⟩ := List.exists_cons_of_ne_nil
        (Nat.toDigits_ne_nil : Nat.toDigits 10 (n / 10) ≠ [])
      rw [digits, written] at shorter
      rw [digits, Nat.toDigits_of_base_le (by decide) (by omega), written]
      exact shorter

end Decimal

namespace Json

/-- A hexadecimal digit is read as the number that it was written for. -/
theorem hexValue?_hexDigit {n : Nat} (below : n < 16) : hexValue? (hexDigit n) = some n := by
  revert n
  decide

/-- An escape of one letter other than `u` stands for one character. -/
theorem units?_escaped {letter meant : Char} (rest : List Char) (differs : letter ≠ 'u')
    (escaped : escapedLetter? letter = some meant) :
    units? ('\\' :: letter :: rest) = (units? rest).map (meant.toNat :: ·) := by
  rw [units?, escaped]
  · cases units? rest <;> rfl
  · intro _ _ _ _ _ same
    exact absurd same differs

/-- An escape of four digits stands for their code unit. -/
theorem units?_hex {first second third fourth : Char} {unit : Nat} (rest : List Char)
    (digits : hexUnit? first second third fourth = some unit) :
    units? ('\\' :: 'u' :: first :: second :: third :: fourth :: rest) =
      (units? rest).map (unit :: ·) := by
  rw [units?, digits]
  cases units? rest <;> rfl

/-- A character that needs no escape stands for itself. -/
theorem units?_plain {letter : Char} (rest : List Char) (backslash : letter ≠ '\\')
    (quote : letter ≠ '"') (printable : 0x20 ≤ letter.toNat) :
    units? (letter :: rest) = (units? rest).map (letter.toNat :: ·) := by
  rw [units?]
  · rw [if_neg (by simp [backslash, quote]; omega)]
  · intro _ _ _ _ _ same
    exact absurd same backslash
  · intro _ _ same
    exact absurd same backslash

/-- A character is written as an escape of one letter, as an escape of four digits, or as it is. -/
theorem escapeLetter_cases (letter : Char) :
    (∃ name, escapeLetter letter = ['\\', name] ∧ name ≠ 'u' ∧ escapedLetter? name = some letter) ∨
    (∃ high low, escapeLetter letter = ['\\', 'u', '0', '0', high, low] ∧
      hexUnit? '0' '0' high low = some letter.toNat) ∨
    (escapeLetter letter = [letter] ∧ letter ≠ '\\' ∧ letter ≠ '"' ∧ 0x20 ≤ letter.toNat) := by
  unfold escapeLetter
  split_ifs with quote backslash feed carriage tab back form control
  · exact .inl ⟨_, rfl, by decide, by rw [quote]; rfl⟩
  · exact .inl ⟨_, rfl, by decide, by rw [backslash]; rfl⟩
  · exact .inl ⟨_, rfl, by decide, by rw [feed]; rfl⟩
  · exact .inl ⟨_, rfl, by decide, by rw [carriage]; rfl⟩
  · exact .inl ⟨_, rfl, by decide, by rw [tab]; rfl⟩
  · exact .inl ⟨_, rfl, by decide, by rw [back]; rfl⟩
  · exact .inl ⟨_, rfl, by decide, by rw [form]; rfl⟩
  · have zero : hexValue? '0' = some 0 := rfl
    have high := hexValue?_hexDigit (show letter.toNat / 16 < 16 by omega)
    have low := hexValue?_hexDigit (show letter.toNat % 16 < 16 by omega)
    refine .inr (.inl ⟨_, _, rfl, ?_⟩)
    simp only [hexUnit?, zero, high, low, Option.bind_eq_bind, Option.bind_some, Option.pure_def]
    congr 1
    omega
  · exact .inr (.inr ⟨rfl, backslash, quote, by omega⟩)

/-- What is written for a character stands for its code point. -/
theorem units?_escapeLetter (letter : Char) (rest : List Char) :
    units? (escapeLetter letter ++ rest) = (units? rest).map (letter.toNat :: ·) := by
  rcases escapeLetter_cases letter with ⟨name, written, differs, meant⟩ |
    ⟨high, low, written, unit⟩ | ⟨written, backslash, quote, printable⟩
  · rw [written]
    exact units?_escaped rest differs meant
  · rw [written]
    exact units?_hex rest unit
  · rw [written]
    exact units?_plain rest backslash quote printable

/-- The code units of an escaped text are its code points. -/
theorem units?_escape (text : String) :
    units? (escape text).toList = some (text.toList.map Char.toNat) := by
  rw [escape, String.toList_ofList]
  induction text.toList with
  | nil => rfl
  | cons letter rest inductionHypothesis =>
    rw [List.flatMap_cons, units?_escapeLetter, inductionHypothesis]
    rfl

/-- A character is no surrogate. -/
theorem not_surrogate (letter : Char) :
    isLeading letter.toNat = false ∧ isTrailing letter.toNat = false := by
  have valid : letter.toNat.isValidChar := letter.valid
  unfold isLeading isTrailing
  simp only [Bool.and_eq_false_iff, decide_eq_false_iff_not]
  unfold Nat.isValidChar at valid
  omega

/-- The code points of characters are read as the characters. -/
theorem textOfUnits?_map (letters : List Char) :
    textOfUnits? (letters.map Char.toNat) = some letters := by
  induction letters with
  | nil => rfl
  | cons letter rest inductionHypothesis =>
    obtain ⟨leading, trailing⟩ := not_surrogate letter
    cases rest with
    | nil => simp [textOfUnits?, leading, trailing]
    | cons next others =>
      rw [List.map_cons] at inductionHypothesis
      simp [textOfUnits?, leading, trailing, inductionHypothesis]

/-- What is written for a text denotes the text. -/
@[simp] theorem text?_escape (text : String) : text? (escape text) = some text := by
  simp [text?, units?_escape, textOfUnits?_map]

/-- What is written for a text may stand between quotes. -/
@[simp] theorem isBody_escape (text : String) : isBody (escape text).toList = true := by
  rw [isBody, units?_escape, Option.isSome_some]

/-- Digits are a numeral without sign, fraction and exponent. -/
theorem parse?_digits (n : Nat) :
    Numeral.parse? (Decimal.digits n) = some ⟨false, Decimal.digits n, [], none⟩ := by
  have all : ∀ letter ∈ Decimal.digits n, Decimal.isDigit letter = true :=
    fun _ => Decimal.isDigit_of_mem_digits
  have some : Decimal.digits n ≠ [] := Nat.toDigits_ne_nil
  have unsigned : (Decimal.digits n).head? ≠ Option.some '-' := by
    intro minus
    have digit := all _ (List.mem_of_head? minus)
    revert digit
    decide
  have leading : ¬(Decimal.digits n = [] ∨
      ((Decimal.digits n).head? = Option.some '0' ∧ Decimal.digits n ≠ ['0'])) := by
    rintro (none | ⟨zero, more⟩)
    · exact some none
    · rcases Nat.eq_zero_or_pos n with rfl | positive
      · exact more rfl
      · exact Decimal.head?_digits_ne positive zero
  simp only [Numeral.parse?, if_neg unsigned, List.takeWhile_eq_self_iff.mpr all,
    List.dropWhile_eq_nil_iff.mpr all]
  rw [if_neg leading]
  rfl

/-- The literal of a natural number is a numeral. -/
theorem isNumeral_natural (n : Nat) : isNumeral (Number.natural n).toLiteral.toList = true := by
  rw [Number.toLiteral, Decimal.text, String.toList_ofList, isNumeral, parse?_digits,
    Option.isSome_some]

/-- The literal of a natural number denotes the number if it fits into 64 bits. -/
theorem ofLiteral?_natural {n : Nat} (fits : n < UInt64.size) :
    Number.ofLiteral? (Number.natural n).toLiteral = some (.natural n) := by
  rw [Number.ofLiteral?, Number.toLiteral, Decimal.text, String.toList_ofList, parse?_digits]
  simp [Number.ofNumeral?, Nat.not_le_of_lt fits]

namespace Numeral

/-- Whether a character may stand in a numeral. -/
def isLetter (letter : Char) : Bool :=
  Decimal.isDigit letter || ['-', '+', '.', 'e', 'E'].contains letter

/-- A digit may stand in a numeral. -/
theorem isLetter_of_digit {letter : Char} (digit : Decimal.isDigit letter = true) :
    isLetter letter = true := by
  rw [isLetter, digit, Bool.true_or]

/-- Digits with letters of a numeral after them are letters of a numeral. -/
theorem isLetter_of_rest {text : List Char}
    (rest : ∀ letter ∈ text.dropWhile Decimal.isDigit, isLetter letter = true) :
    ∀ letter ∈ text, isLetter letter = true := by
  intro letter member
  rw [← List.takeWhile_append_dropWhile (p := Decimal.isDigit) (l := text)] at member
  rcases List.mem_append.mp member with digit | later
  · exact isLetter_of_digit (List.mem_takeWhile_imp digit)
  · exact rest letter later

/-- A sign with digits after it consists of letters of a numeral. -/
theorem isLetter_of_splitSign {text : List Char}
    (digits : (splitSign text).2.all Decimal.isDigit = true) :
    ∀ letter ∈ text, isLetter letter = true := by
  rw [List.all_eq_true] at digits
  unfold splitSign at digits
  intro letter member
  split at digits
  · rcases List.mem_cons.mp member with rfl | later
    · rfl
    · exact isLetter_of_digit (digits letter later)
  · rcases List.mem_cons.mp member with rfl | later
    · rfl
    · exact isLetter_of_digit (digits letter later)
  · exact isLetter_of_digit (digits letter member)

/-- An exponent consists of letters of a numeral. -/
theorem isLetter_of_exponent {text : List Char} (read : exponent? text ≠ none) :
    ∀ letter ∈ text, isLetter letter = true := by
  cases text with
  | nil => simp
  | cons first rest =>
    rw [exponent?, ite_ne_right_iff] at read
    obtain ⟨⟨start, -, digits⟩, -⟩ := read
    intro letter member
    rcases List.mem_cons.mp member with rfl | later
    · rcases start with rfl | rfl <;> rfl
    · exact isLetter_of_splitSign digits letter later

/-- A numeral consists of letters of a numeral, of at least one. -/
theorem isLetter_of_parse {text : List Char} (read : parse? text ≠ none) :
    text ≠ [] ∧ ∀ letter ∈ text, isLetter letter = true := by
  have some : text ≠ [] := by
    rintro rfl
    exact read rfl
  refine ⟨some, ?_⟩
  -- The body is the text after its sign; the sign is a letter of a numeral.
  suffices body : ∀ letter ∈ (if text.head? = Option.some '-' then (true, text.tail)
      else (false, text)).2, isLetter letter = true by
    split at body
    · next minus =>
      obtain ⟨rest, rfl⟩ := List.head?_eq_some_iff.mp minus
      exact List.forall_mem_cons.mpr ⟨rfl, body⟩
    · exact body
  unfold parse? at read
  generalize (if text.head? = Option.some '-' then (true, text.tail) else (false, text)) = parts
    at read ⊢
  obtain ⟨negative, body⟩ := parts
  refine isLetter_of_rest ?_
  dsimp only at read ⊢
  split at read
  · exact absurd rfl read
  · split at read
    · next rest fraction =>
      rw [fraction]
      refine List.forall_mem_cons.mpr ⟨rfl, isLetter_of_rest (isLetter_of_exponent ?_)⟩
      rintro none
      rw [none] at read
      split at read <;> exact read rfl
    · refine isLetter_of_exponent ?_
      rintro none
      rw [none] at read
      exact read rfl

end Numeral

end Json

end HeaderSearch
