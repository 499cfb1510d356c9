import HeaderSearch.HeaderMap.Basic
import HeaderSearch.Json.Parser
import HeaderSearch.Json.Record

/-!
# Texts of header maps

A header map is written as a JSON document in one of two forms. The flat form is an object from keys
to paths. The detailed form is a record, or an array with its fields in order, that also declares how
keys are compared and whether the map is an index map. The entries are taken in the order of their
keys, of repeated keys the last, so the order in which they are written does not matter.
-/

namespace HeaderSearch.HeaderMap

/-- What the text of a header map declares. -/
structure Declaration where
  /-- The rule of comparison, if one is declared. -/
  caseRule : Option CaseRule
  /-- Whether the map is declared as an index map. -/
  isIndex : Bool
  /-- The entries in the order of their keys, each key once. -/
  entries : List (String × String)
deriving DecidableEq, Repr

namespace Declaration

/-- The rule that the field for case sensitivity stands for. -/
def ruleOf (sensitive : Bool) : CaseRule := if sensitive then .sensitive else .insensitive

/-- The entries that an object from keys to paths stands for. -/
def entries? : Json → Option (List (String × String))
  | .object members => do
    let fields ← Json.fields? members
    let pairs ← fields.mapM fun (key, path) => path.asText?.map (key, ·)
    return SortedPairs.ofList pairs
  | _ => none

/-- The declared rule, which may be left open by `null`. -/
def rule? (document : Json) : Option (Option CaseRule) :=
  (document.asOption? Json.asBool?).map (·.map ruleOf)

/-- The names of the fields of the detailed form. -/
def fieldNames : List String := ["case_sensitive", "index", "entries"]

/-- The declaration in the detailed form. -/
def ofDetailed? : Json → Option Declaration
  | .object members => do
    let fields ← Json.fields? members
    if !fields.all fun field => fieldNames.contains field.1 then none
    let caseRule ← Json.fieldOr? fields "case_sensitive" none rule?
    let isIndex ← Json.fieldOr? fields "index" false Json.asBool?
    let entries ← Json.field? fields "entries" entries?
    return { caseRule, isIndex, entries }
  | .array [sensitive, index, paths] => do
    let caseRule ← rule? sensitive
    let isIndex ← index.asBool?
    let entries ← entries? paths
    return { caseRule, isIndex, entries }
  | _ => none

/-- The declaration in the flat form, which leaves everything but the entries open. -/
def ofFlat? (document : Json) : Option Declaration :=
  (entries? document).map fun entries => { caseRule := none, isIndex := false, entries }

/-- The declaration that a document is, in either form. -/
def ofJson? (document : Json) : Option Declaration :=
  (ofDetailed? document).orElse fun _ => ofFlat? document

/-- The declaration that a text is. The text is read as a whole before its form is looked at, so
    every part of it has to denote a value. -/
def ofText? (text : String) : Option Declaration := do
  let document ← Json.parse? text
  if document.isHeld Json.nestingLimit then ofJson? document else none

end Declaration

/-- The header map that is declared, with what the configuration demands put first. -/
def ofDeclaration (name : String) (options : LoadOptions) (declared : Declaration) :
    Except Error HeaderMap :=
  let caseRule := (options.caseRule.orElse fun _ => declared.caseRule).getD default
  ofEntries name caseRule (options.isIndex || declared.isIndex) declared.entries

/-- The header map that a text is. -/
def ofText (name : String) (text : String) (options : LoadOptions) : Except Error HeaderMap :=
  match Declaration.ofText? text with
  | none => .error (.malformed name)
  | some declared => ofDeclaration name options declared

/-- The header map in a file. -/
def load {m : Type → Type} [Monad m] [FileSystem m] (path : Path) (options : LoadOptions) :
    m (Except Error HeaderMap) := do
  match ← FileSystem.read path with
  | .error cause => return .error (.unreadable path cause)
  | .ok text => return ofText path.shown text options

end HeaderSearch.HeaderMap
