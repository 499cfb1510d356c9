import HeaderSearch.Include.Directive
import HeaderSearch.Report.Item
import HeaderSearch.SearchList.Lookup

/-!
# Reports of lookups

Every lookup gives one item: the header that was found, or the include that was not. Names may be
spelled with delimiters, which then select the kind of the include. The item of a directive also has
the number of its line.
-/

namespace HeaderSearch

variable {m : Type → Type} [Monad m] [FileStore m]

/-- The further content of a header found through an entry: the position of that entry. -/
def Item.originData? : Origin → Option Json
  | .includer => none
  | .entry index => some (.ofSortedFields [("entry", .ofNat index)])

/-- The item of the answer to a lookup. -/
def Item.ofLookup (name : String) (kind : IncludeKind) (found : Option FoundHeader) : m Item := do
  match found with
  | none => return .missing name kind
  | some header =>
    let path ← FileStore.filePath header.file
    return { Item.header name kind path.shown with
      characteristic := some header.characteristic
      searchPath := header.searchPath
      relativePath := header.relativePath
      systemFramework := header.isSystemFramework
      data := originData? header.origin }

namespace SearchList

variable (list : SearchList)

/-- Looks up a name and reports the answer. -/
def report (name : String) (kind : IncludeKind) (includer : Option Includer)
    (want : PathRequest) : StateT SearchMemo m Item := do
  let found ← list.resolve name kind includer want
  Item.ofLookup name kind found

/-- Looks up a spelled name, as the given kind if it has no delimiters, and reports the answer. -/
def reportSpelled (kind : IncludeKind) (includer : Option Includer) (spelled : String) :
    StateT SearchMemo m Item :=
  let (name, selected) := IncludeKind.readSpelled spelled
  list.report name (selected.getD kind) includer .all

/-- Looks up the name of a directive and reports the answer with its line. -/
def reportDirective (includer : Includer) (directive : Directive) : StateT SearchMemo m Item := do
  let item ← list.report directive.name directive.kind (some includer) .all
  return { item with line := some directive.line }

/-- Looks up spelled names in order. -/
def resolveNames (names : List String) (kind : IncludeKind) (includer : Option Includer) :
    StateT SearchMemo m (List Item) :=
  names.mapM (list.reportSpelled kind includer)

/-- Looks up the names of directives in order. -/
def resolveDirectives (includer : Includer) (directives : List Directive) :
    StateT SearchMemo m (List Item) :=
  directives.mapM (list.reportDirective includer)

end SearchList

end HeaderSearch
