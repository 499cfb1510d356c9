import HeaderSearch.Json.Token

/-!
# Reading JSON texts

The reader takes one token at a time. Its state says what may come next and keeps the arrays and
objects that are still open, innermost first, so no depth of nesting is too much for it.
-/

namespace HeaderSearch.Json

namespace Reading

/-- An array or object around the value that is being read, with what came before the value in
    reverse order. -/
inductive Frame where
  /-- The items before the value. -/
  | items (before : List Json)
  /-- The members before the value, and the key of the value. -/
  | members (before : List (String × Json)) (key : String)

/-- What the reader expects, and what is open around it. -/
inductive State where
  /-- A value. -/
  | value (outer : List Frame)
  /-- The first item of an array, or its end. -/
  | firstItem (outer : List Frame)
  /-- A comma or the end of an array, after an item. -/
  | afterItem (items : List Json) (outer : List Frame)
  /-- The first key of an object, or its end. -/
  | firstKey (outer : List Frame)
  /-- A key, after a comma. -/
  | nextKey (members : List (String × Json)) (outer : List Frame)
  /-- The colon after a key. -/
  | colon (members : List (String × Json)) (key : String) (outer : List Frame)
  /-- A comma or the end of an object, after a member. -/
  | afterMember (members : List (String × Json)) (outer : List Frame)
  /-- The end of the text. -/
  | done (document : Json)

/-- The state after a value. -/
def deliver (value : Json) : List Frame → State
  | [] => .done value
  | .items before :: outer => .afterItem (value :: before) outer
  | .members before key :: outer => .afterMember ((key, value) :: before) outer

/-- The state after the first token of a value. -/
def beginValue (outer : List Frame) : Token → Option State
  | .openArray => some (.firstItem outer)
  | .openObject => some (.firstKey outer)
  | .string body => some (deliver (.string body) outer)
  | .word value => some (deliver value outer)
  | _ => none

/-- The state after a token, or `none` if the token may not come there. -/
def step : State → Token → Option State
  | .value outer, token => beginValue outer token
  | .firstItem outer, .closeArray => some (deliver (.array []) outer)
  | .firstItem outer, token => beginValue (.items [] :: outer) token
  | .afterItem items outer, .comma => some (.value (.items items :: outer))
  | .afterItem items outer, .closeArray => some (deliver (.array items.reverse) outer)
  | .firstKey outer, .closeObject => some (deliver (.object []) outer)
  | .firstKey outer, .string key => some (.colon [] key outer)
  | .nextKey members outer, .string key => some (.colon members key outer)
  | .colon members key outer, .colon => some (.value (.members members key :: outer))
  | .afterMember members outer, .comma => some (.nextKey members outer)
  | .afterMember members outer, .closeObject => some (deliver (.object members.reverse) outer)
  | _, _ => none

/-- The state after a list of tokens. -/
def run (state : State) (tokens : List Token) : Option State := tokens.foldlM step state

end Reading

/-- The document that a text is, or `none` if it is not JSON. -/
def parse? (text : String) : Option Json := do
  let tokens ← Token.scan text.toList
  match ← Reading.run (.value []) tokens with
  | .done document => some document
  | _ => none

end HeaderSearch.Json
