import HeaderSearch.Json.Record
import HeaderSearch.Numeral.Binary64

/-!
# Statistics of lookups

A search list counts how it answered. The counts of two runs can be added, and are written as a record
of five numbers of 64 bits.
-/

namespace HeaderSearch

/-- How often a search list was asked, and what the answers took. -/
structure SearchStats where
  /-- Lookups. -/
  lookups : Nat := 0
  /-- Lookups whose answer was remembered. -/
  cacheHits : Nat := 0
  /-- Quoted lookups that the directory of the including file answered. -/
  includerHits : Nat := 0
  /-- Entries of the list that were looked into. -/
  entryProbes : Nat := 0
  /-- Lookups that found nothing. -/
  misses : Nat := 0
deriving DecidableEq, Repr, Inhabited

namespace SearchStats

/-- The bound of a written count. -/
def countBound : Nat := UInt64.size

/-- The share of the lookups whose answer was remembered, the two counts being rounded to binary64
    before they are divided. It is zero as long as there was no lookup. -/
def hitRate (stats : SearchStats) : Binary64 :=
  if stats.lookups = 0 then .zero
  else
    (do
      let hits ← Binary64.ofNat? stats.cacheHits
      let lookups ← Binary64.ofNat? stats.lookups
      hits.div? lookups).getD .zero

/-- The counts of two runs together, as numbers of 64 bits. -/
def add (first second : SearchStats) : SearchStats where
  lookups := (first.lookups + second.lookups) % countBound
  cacheHits := (first.cacheHits + second.cacheHits) % countBound
  includerHits := (first.includerHits + second.includerHits) % countBound
  entryProbes := (first.entryProbes + second.entryProbes) % countBound
  misses := (first.misses + second.misses) % countBound

/-- The record of the counts. -/
def toJson (stats : SearchStats) : Json :=
  .ofFields [("lookups", .ofNat stats.lookups), ("cache_hits", .ofNat stats.cacheHits),
    ("includer_hits", .ofNat stats.includerHits), ("entry_probes", .ofNat stats.entryProbes),
    ("misses", .ofNat stats.misses)]

/-- A written count. -/
def count? (document : Json) : Option Nat := document.asNatBelow? countBound

/-- The counts that a record holds. Every count has to be there; other fields do not matter. An array
    of the five counts stands for the record. -/
def ofJson? : Json → Option SearchStats
  | .object members => do
    let fields ← Json.fields? members
    let lookups ← Json.field? fields "lookups" count?
    let cacheHits ← Json.field? fields "cache_hits" count?
    let includerHits ← Json.field? fields "includer_hits" count?
    let entryProbes ← Json.field? fields "entry_probes" count?
    let misses ← Json.field? fields "misses" count?
    return { lookups, cacheHits, includerHits, entryProbes, misses }
  | .array items => do
    match ← items.mapM count? with
    | [lookups, cacheHits, includerHits, entryProbes, misses] =>
      return { lookups, cacheHits, includerHits, entryProbes, misses }
    | _ => none
  | _ => none

end SearchStats

end HeaderSearch
