import HeaderSearch.Text.Case

/-!
# Formats of reports

A report is written as one JSON document per item, as one JSON array, as Markdown for people to read,
or as bare paths, one on each line. A format is asked for by its name, in letters of any case.
-/

namespace HeaderSearch

/-- A format of reports. -/
inductive ReportFormat where
  /-- One JSON document per item. -/
  | jsonLines
  /-- One JSON array. -/
  | json
  /-- Markdown. -/
  | markdown
  /-- Bare paths. -/
  | raw
deriving DecidableEq, Repr

namespace ReportFormat

instance : Inhabited ReportFormat := ⟨jsonLines⟩

/-- The format that a word stands for, in letters of any case. -/
def ofName? (word : String) : Option ReportFormat :=
  let lowered := String.ofList (word.toList.map Text.lowerToAscii)
  if lowered = "jsonl" then some jsonLines
  else if lowered = "json" then some json
  else if lowered = "md" ∨ lowered = "markdown" then some markdown
  else if lowered = "raw" then some raw
  else none

/-- The message about a word that stands for no format. -/
def unknownMessage (word : String) : String := "Unknown format: " ++ word

end ReportFormat

end HeaderSearch
