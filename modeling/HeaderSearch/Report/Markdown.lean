import HeaderSearch.Json.Printer
import HeaderSearch.Numeral.Decimal
import HeaderSearch.Report.Item

/-!
# Reports in Markdown

The items are put into sections by what they are about: entries of the search list, numbered from one,
headers, includes that were not found, and statistics. A section without items is left out, and each
section ends with an empty line.
-/

namespace HeaderSearch

namespace Item

/-- The name of an item as code, with the delimiters of its kind. -/
def spelled (item : Item) : String :=
  let name := item.name.getD ""
  let inner := match item.includeKind with
    | some kind => kind.spell name
    | none => name
  "`" ++ inner ++ "`"

/-- The note about the line of a directive. -/
def lineNote (item : Item) : String :=
  match item.line with
  | some line => " (line " ++ String.ofList (Decimal.digits line) ++ ")"
  | none => ""

/-- The Markdown row of an entry, numbered from one. -/
def entryRow (item : Item) (place : Nat) : String :=
  String.ofList (Decimal.digits (place + 1)) ++ ". `" ++ item.name.getD "" ++ "`" ++
    (match item.characteristic with
      | some characteristic => " (" ++ characteristic.name ++ ")"
      | none => "") ++ "\n"

/-- The Markdown row of a header. -/
def headerRow (item : Item) : String :=
  "- " ++ item.spelled ++
    (match item.path with
      | some path => " → `" ++ path ++ "`"
      | none => "") ++
    (match item.characteristic with
      | some characteristic => " [" ++ characteristic.name ++ "]"
      | none => "") ++
    (if item.systemFramework then " [system framework]" else "") ++ item.lineNote ++ "\n"

/-- The Markdown row of an include that was not found. -/
def missingRow (item : Item) : String := "- " ++ item.spelled ++ item.lineNote ++ "\n"

/-- The Markdown rows of statistics: the fields of an object, and nothing for other content. -/
def statsRows (item : Item) : String :=
  match item.data with
  | some (.object members) =>
    String.join (members.map fun (key, value) =>
      "- " ++ (Json.text? key).getD key ++ ": " ++ value.compact ++ "\n")
  | _ => ""

end Item

namespace Report

/-- A Markdown section, left out if it has no items. -/
def titled (title : String) (rows : List String) : String :=
  if rows = [] then "" else "## " ++ title ++ "\n\n" ++ String.join rows ++ "\n"

/-- The items of a kind. -/
def ofKind (kind : ItemKind) (items : List Item) : List Item :=
  items.filter fun item => item.kind = kind

/-- The items in sections by kind. -/
def renderMarkdown (items : List Item) : String :=
  titled "Search List" ((ofKind .entry items).mapIdx fun place item => item.entryRow place) ++
    titled "Headers" ((ofKind .header items).map Item.headerRow) ++
    titled "Not Found" ((ofKind .notFound items).map Item.missingRow) ++
    titled "Statistics" ((ofKind .stats items).map Item.statsRows)

end Report

end HeaderSearch
