import HeaderSearch.Json.Text
import HeaderSearch.Json.Number

/-!
# Tokens of a JSON text

The text is cut into marks, strings and words. A word is whatever stands between blanks, marks and
strings; it has to be `null`, `true`, `false` or a numeral. A string ends at the first quote that is
not escaped.
-/

namespace HeaderSearch.Json

/-- A token of a JSON text. -/
inductive Token where
  /-- The mark that opens an array. -/
  | openArray
  /-- The mark that closes an array. -/
  | closeArray
  /-- The mark that opens an object. -/
  | openObject
  /-- The mark that closes an object. -/
  | closeObject
  /-- The mark between a key and its value. -/
  | colon
  /-- The mark between two items or members. -/
  | comma
  /-- A string, by the characters between its quotes. -/
  | string (body : String)
  /-- A word, by the document that it is. -/
  | word (value : Json)
deriving Repr

namespace Token

/-- Whether a character may stand between tokens. -/
def isBlank (letter : Char) : Bool :=
  letter = ' ' || letter = '\n' || letter = '\t' || letter = '\r'

/-- The mark that a character is. -/
def mark? (letter : Char) : Option Token :=
  if letter = '[' then some openArray
  else if letter = ']' then some closeArray
  else if letter = '{' then some openObject
  else if letter = '}' then some closeObject
  else if letter = ':' then some colon
  else if letter = ',' then some comma
  else none

/-- Whether a character ends a word. -/
def endsWord (letter : Char) : Bool :=
  isBlank letter || (mark? letter).isSome || letter = '"'

/-- The token of a word, if it is one. -/
def ofWord? (letters : List Char) : Option Token :=
  if letters = ['n', 'u', 'l', 'l'] then some (word .null)
  else if letters = ['t', 'r', 'u', 'e'] then some (word (.bool true))
  else if letters = ['f', 'a', 'l', 's', 'e'] then some (word (.bool false))
  else if isNumeral letters then some (word (.number (String.ofList letters)))
  else none

/-- The token of a string, if its body is well formed. -/
def ofBody? (letters : List Char) : Option Token :=
  if isBody letters then some (string (String.ofList letters)) else none

/-- What the scanner is in the middle of, with the characters so far in reverse order. -/
inductive Mode where
  /-- Between two tokens. -/
  | between
  /-- In a word. -/
  | inWord (letters : List Char)
  /-- In a string. -/
  | inString (letters : List Char)
  /-- In a string, right after a backslash that starts an escape. -/
  | inEscape (letters : List Char)

/-- The token that a character between two tokens is, if any, and what the scanner is in then. -/
def start (letter : Char) : List Token × Mode :=
  if isBlank letter then ([], .between)
  else
    match mark? letter with
    | some token => ([token], .between)
    | none => if letter = '"' then ([], .inString []) else ([], .inWord [letter])

/-- The tokens of the rest of a text. -/
def scanFrom : Mode → List Char → Option (List Token)
  | .between, [] => some []
  | .inWord letters, [] => (ofWord? letters.reverse).map fun token => [token]
  | .inString _, [] => none
  | .inEscape _, [] => none
  | .between, letter :: rest =>
    let (tokens, mode) := start letter
    (scanFrom mode rest).map (tokens ++ ·)
  | .inWord letters, letter :: rest =>
    if endsWord letter then do
      let word ← ofWord? letters.reverse
      let (tokens, mode) := start letter
      let others ← scanFrom mode rest
      return word :: tokens ++ others
    else scanFrom (.inWord (letter :: letters)) rest
  | .inString letters, letter :: rest =>
    if letter = '"' then do
      let string ← ofBody? letters.reverse
      let others ← scanFrom .between rest
      return string :: others
    else if letter = '\\' then scanFrom (.inEscape (letter :: letters)) rest
    else scanFrom (.inString (letter :: letters)) rest
  | .inEscape letters, letter :: rest => scanFrom (.inString (letter :: letters)) rest

/-- The tokens of a text, or `none` if a string or a word in it is malformed. -/
def scan (text : List Char) : Option (List Token) := scanFrom .between text

end Token

end HeaderSearch.Json
