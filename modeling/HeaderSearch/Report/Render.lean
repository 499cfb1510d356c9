import HeaderSearch.Json.Printer
import HeaderSearch.Report.Format
import HeaderSearch.Report.Markdown
import HeaderSearch.Report.Record

/-!
# Texts of reports

The text of a report in each of the formats. Indentation concerns the two JSON formats only.
-/

namespace HeaderSearch

namespace Report

/-- How the JSON formats are laid out. -/
def layoutOf (pretty : Bool) : Json.Layout := if pretty then .indented else .compact

/-- The items as one JSON document each. Indented documents have an empty line between them. -/
def renderJsonLines (pretty : Bool) (items : List Item) : String :=
  (if pretty then "\n\n" else "\n").intercalate
    (items.map fun item => item.toJson.toText (layoutOf pretty))

/-- The items as one JSON array. -/
def renderJson (pretty : Bool) (items : List Item) : String :=
  (Json.array (items.map Item.toJson)).toText (layoutOf pretty)

/-- The path of each item, or its name if it has no path. -/
def renderRaw (items : List Item) : String :=
  "\n".intercalate (items.filterMap fun item => item.path.orElse fun _ => item.name)

/-- The text of a report. -/
def render (format : ReportFormat) (pretty : Bool) (items : List Item) : String :=
  match format with
  | .jsonLines => renderJsonLines pretty items
  | .json => renderJson pretty items
  | .markdown => renderMarkdown items
  | .raw => renderRaw items

end Report

end HeaderSearch
