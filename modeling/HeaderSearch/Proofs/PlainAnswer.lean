import HeaderSearch.FileStore.View
import HeaderSearch.SearchList.Lookup

/-!
# Answers without memory

What a search list answers over a view when nothing is remembered: every question is asked anew. A
quoted include is answered by the directory of the including file if that holds the name, and
otherwise, like an angled one, by the first entry that the kind of include looks into and that has
the name. The lookups of a list are measured against these answers.
-/

namespace HeaderSearch

namespace FileView

/-- The view of the directories and files with the given paths, each known by its position. -/
def listing (directories files : List String) : FileView where
  directory? path := (directories.findIdx? (· = path.text)).map DirHandle.mk
  file? directory name :=
    let base := Path.mk (directories.getD directory.number "")
    (files.findIdx? (· = (base.join name).text)).map FileHandle.mk
  directoryPath directory := ⟨directories.getD directory.number ""⟩
  filePath file := ⟨files.getD file.number ""⟩

variable (view : FileView)

/-- The bundle of a framework below a directory of the view. -/
def bundle (directory : DirHandle) (framework : String) : Bundle :=
  (Framework.findBundle directory framework : Observed view Bundle).value

/-- What a place of the view has under a name. -/
def probe (frameworks : List String) (place : SearchPlace) (name : String) : Option PlaceHit :=
  (place.probe Framework.findBundle frameworks name : Observed view (Option PlaceHit)).value

/-- The search path of a file found in a place of the view. -/
def searchPath (place : SearchPlace) (searchDirectory : Option DirHandle) : String :=
  (place.searchPath searchDirectory : Observed view String).value

/-- What the entry alone answers to a name, its place being asked anew. -/
def matchIn (frameworks : List String) (entry : SearchEntry) (name : String) (want : PathRequest) :
    Option EntryMatch :=
  (view.probe frameworks entry.place name).map fun found =>
    { file := found.file
      searchPath :=
        if want.searchPath then some (view.searchPath entry.place found.searchDirectory) else none
      relativePath :=
        if want.relativePath then Text.suffixFrom? name found.relativeStart else none
      isSystemFramework := found.isSystemFramework }

/-- What the directory of the including file answers. Only a quoted include asks it. -/
def besideAnswer (name : String) (kind : IncludeKind) (includer : Option Includer)
    (want : PathRequest) : Option FoundHeader :=
  match kind, includer with
  | .quoted, some includer =>
    (view.file? includer.directory name).map fun file =>
      { file
        searchPath :=
          if want.searchPath then some (view.directoryPath includer.directory).shown else none
        relativePath := if want.relativePath then some name else none
        isSystemFramework := false
        characteristic := includer.characteristic
        origin := .includer }
  | _, _ => none

end FileView

/-- Passing over the first positions leaves those from there on. Induct on the list from any position
    on, since the positions count up along it. -/
theorem drop_positions {α : Type} (items : List α) (start count : Nat) :
    (items.zipIdx start).drop count =
      (items.zipIdx start).filter fun item => start + count ≤ item.2 := by
  induction items generalizing start count with
  | nil => simp
  | cons item items inductionHypothesis =>
    cases count with
    | zero =>
      rw [List.drop_zero, eq_comm, List.filter_eq_self]
      intro other member
      simpa using List.le_snd_of_mem_zipIdx member
    | succ count =>
      rw [List.zipIdx_cons, List.drop_succ_cons, inductionHypothesis, List.filter_cons_of_neg (by simp)]
      simp only [Nat.add_assoc, Nat.add_comm 1 count]

/-- The first result over a list is that of the least position that has one. -/
theorem first_result_iff {α β : Type} {items : List α} {result? : α → Option β} {result : β} :
    items.findSome? result? = some result ↔
      ∃ (index : Nat) (item : α), items[index]? = some item ∧ result? item = some result ∧
        ∀ earlier < index, ∀ other, items[earlier]? = some other → result? other = none := by
  rw [List.findSome?_eq_some_iff]
  constructor
  · rintro ⟨before, item, after, rfl, resulted, silent⟩
    refine ⟨before.length, item, by simp, resulted, ?_⟩
    intro earlier below other there
    rw [List.getElem?_append_left below] at there
    exact silent other (List.mem_of_getElem? there)
  · rintro ⟨index, item, here, resulted, silent⟩
    obtain ⟨inside, rfl⟩ := List.getElem?_eq_some_iff.mp here
    refine ⟨items.take index, items[index], items.drop (index + 1), ?_, resulted, ?_⟩
    · rw [List.getElem_cons_drop, List.take_append_drop]
    · intro other member
      obtain ⟨earlier, there⟩ := List.mem_iff_getElem?.mp member
      have below : earlier < index := by
        have bound := (List.getElem?_eq_some_iff.mp there).1
        rw [List.length_take] at bound
        omega
      exact silent earlier below other (by rwa [List.getElem?_take_of_lt below] at there)

/-- The header that a file found by the entry at a position alone stands for. -/
def FoundHeader.ofMatch (entry : SearchEntry) (index : Nat) (found : EntryMatch) : FoundHeader where
  file := found.file
  searchPath := found.searchPath
  relativePath := found.relativePath
  isSystemFramework := found.isSystemFramework
  characteristic := entry.characteristic
  origin := .entry index

namespace SearchList

/-- Whether an include of a kind looks into the entry at a position: a quoted one looks everywhere, an
    angled one from its start on and not into entries for quoted includes only. -/
def looksInto (list : SearchList) (kind : IncludeKind) (index : Nat) : Bool :=
  match kind with
  | .quoted => true
  | .angled => list.angledStart ≤ index && !list.isQuoteOnly index

/-- The mark of an entry is that of the list for its position. -/
theorem isQuoteOnly_at (list : SearchList) {index : Nat} {entry : SearchEntry}
    (here : list.entries[index]? = some entry) : list.isQuoteOnly index = entry.quoteOnly := by
  rw [isQuoteOnly, here]
  rfl

/-- The entries that a kind of include searches are those that it looks into, in their order. -/
theorem eligible_eq_filter (list : SearchList) (kind : IncludeKind) :
    list.eligible kind = list.entries.zipIdx.filter fun item => list.looksInto kind item.2 := by
  have quoteOnly (item : SearchEntry × Nat) (member : item ∈ list.entries.zipIdx) :
      list.isQuoteOnly item.2 = item.1.quoteOnly :=
    list.isQuoteOnly_at (List.mk_mem_zipIdx_iff_getElem?.mp member)
  rw [eligible, drop_positions, List.filter_filter]
  refine List.filter_congr fun item member => ?_
  cases kind with
  | quoted => simp [looksInto, startOf]
  | angled => simp [looksInto, startOf, quoteOnly item member, Bool.and_comm]

variable (view : FileView) (list : SearchList)

/-- What the entry at a position answers, if the kind of include looks there. -/
def entryAnswer (name : String) (kind : IncludeKind) (want : PathRequest) (entry : SearchEntry)
    (index : Nat) : Option FoundHeader :=
  if list.looksInto kind index then
    (view.matchIn list.systemFrameworks entry name want).map (.ofMatch entry index)
  else none

/-- The answer of the first entry that has one. -/
def firstAnswer (name : String) (kind : IncludeKind) (want : PathRequest) : Option FoundHeader :=
  list.entries.zipIdx.findSome? fun item => list.entryAnswer view name kind want item.1 item.2

/-- The answer to a lookup when nothing is remembered. -/
def plainAnswer (name : String) (kind : IncludeKind) (includer : Option Includer)
    (want : PathRequest) : Option FoundHeader :=
  (view.besideAnswer name kind includer want).or (list.firstAnswer view name kind want)

/-- An answer is that of the entry at the least position that answers. -/
theorem first_answer_iff {name : String} {kind : IncludeKind} {want : PathRequest}
    {header : FoundHeader} :
    list.firstAnswer view name kind want = some header ↔
      ∃ index entry, list.entries[index]? = some entry ∧
        list.entryAnswer view name kind want entry index = some header ∧
        ∀ earlier < index, ∀ other, list.entries[earlier]? = some other →
          list.entryAnswer view name kind want other earlier = none := by
  rw [firstAnswer, first_result_iff]
  have placed (index : Nat) : list.entries.zipIdx[index]? =
      list.entries[index]?.map fun entry => (entry, index) := by
    simp
  simp only [placed, Option.map_eq_some_iff]
  constructor
  · rintro ⟨index, item, ⟨entry, here, rfl⟩, answered, silent⟩
    exact ⟨index, entry, here, answered, fun earlier below other there =>
      silent earlier below _ ⟨other, there, rfl⟩⟩
  · rintro ⟨index, entry, here, answered, silent⟩
    refine ⟨index, (entry, index), ⟨entry, here, rfl⟩, answered, ?_⟩
    rintro earlier below _ ⟨other, there, rfl⟩
    exact silent earlier below other there

end SearchList

end HeaderSearch
