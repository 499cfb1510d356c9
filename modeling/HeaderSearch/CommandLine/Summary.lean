import HeaderSearch.FileStore.Memo
import HeaderSearch.Numeral.Decimal
import HeaderSearch.SearchStats

/-!
# Summary of statistics

After a command, the counts of the search list and of the file store are shown in a short block. The
share of remembered answers is a percentage with one decimal.
-/

namespace HeaderSearch.CommandLine

/-- The share of remembered answers as a percentage, the product being rounded to binary64. -/
def hitPercentage (stats : SearchStats) : String :=
  let hundred := (Binary64.ofNat? 100).getD .zero
  Decimal.tenths ((stats.hitRate.mul? hundred).getD .zero)

/-- The lines of the summary. -/
def summaryLines (stats : SearchStats) (counts : QueryCounts) : List String := [
  "Header search statistics",
  "   Lookups: " ++ Decimal.text stats.lookups,
  "   Cache hits: " ++ Decimal.text stats.cacheHits ++ " (" ++ hitPercentage stats ++ "%)",
  "   Includer hits: " ++ Decimal.text stats.includerHits,
  "   Entries probed: " ++ Decimal.text stats.entryProbes,
  "   Misses: " ++ Decimal.text stats.misses,
  "   File system: " ++ Decimal.text counts.directories ++ " dir queries, " ++
    Decimal.text counts.files ++ " file queries, " ++ Decimal.text counts.asked ++ " stats"]

/-- The summary, each line ended by a line feed. -/
def summary (stats : SearchStats) (counts : QueryCounts) : String :=
  String.join ((summaryLines stats counts).map (· ++ "\n"))

end HeaderSearch.CommandLine
