import HeaderSearch.Proofs.Probing

/-!
# What a search list remembers is what it would find

A memo recalls a list over a view if each outcome in it, misses included, is the outcome that a search
without memory comes to, and each bundle in it is the bundle of the view. `carrying` is the reading
of a store that carries such a memo along. Every lookup keeps the memo so, since it adds only what a
search over the view has found, and answers as the search without memory does.
-/

namespace HeaderSearch

/-- The hit of a file found in the place of the entry at a position. -/
def Hit.ofPlace (entry : SearchEntry) (index : Nat) (found : PlaceHit) : Hit where
  file := found.file
  origin := .entry index
  searchDirectory := found.searchDirectory
  relativeStart := found.relativeStart
  isSystemFramework := found.isSystemFramework
  characteristic := entry.characteristic

/-- The hit of a file found in the directory of an including file. -/
def Hit.beside (directory : DirHandle) (characteristic : Characteristic) (file : FileHandle) : Hit where
  file := file
  origin := .includer
  searchDirectory := some directory
  relativeStart := 0
  isSystemFramework := false
  characteristic := characteristic

namespace SearchList

variable (view : FileView) (list : SearchList)

/-- The hit of the first of some entries whose place has a name. -/
def plainScan (name : String) (items : List (SearchEntry × Nat)) : Option Hit :=
  items.findSome? fun item =>
    (view.probe list.systemFrameworks item.1.place name).map (Hit.ofPlace item.1 item.2)

/-- The outcome of a name and kind in the list when nothing is remembered. -/
def plainHit (name : String) (kind : IncludeKind) : Option Hit :=
  list.plainScan view name (list.eligible kind)

/-- The outcome in the directory of the including file when nothing is remembered. -/
def plainBeside (name : String) (kind : IncludeKind) (includer : Option Includer) : Option Hit :=
  match kind, includer with
  | .quoted, some includer =>
    (view.file? includer.directory name).map
      (Hit.beside includer.directory includer.characteristic)
  | _, _ => none

/-- The answer that a hit stands for in the view. -/
def plainHeader (name : String) (want : PathRequest) (hit : Hit) : FoundHeader :=
  (list.answer name want hit : Observed view FoundHeader).value

/-- The answer of a file found in the place of the entry at a position. -/
theorem plain_header_place (name : String) (want : PathRequest) {entry : SearchEntry} {index : Nat}
    (here : list.entries[index]? = some entry) (found : PlaceHit) :
    list.plainHeader view name want (Hit.ofPlace entry index found) =
      .ofMatch entry index {
        file := found.file
        searchPath :=
          if want.searchPath then some (view.searchPath entry.place found.searchDirectory) else none
        relativePath :=
          if want.relativePath then Text.suffixFrom? name found.relativeStart else none
        isSystemFramework := found.isSystemFramework } := by
  unfold plainHeader answer
  cases want.searchPath with
  | false => rfl
  | true => simp [searchPathOf, Hit.ofPlace, FoundHeader.ofMatch, here, FileView.searchPath]

/-- The first answer is the one that the first hit stands for. Induct on the entries: one that the kind
    of include does not look into is passed over on both sides. -/
theorem first_answer_eq (name : String) (kind : IncludeKind) (want : PathRequest) :
    list.firstAnswer view name kind want =
      (list.plainHit view name kind).map (list.plainHeader view name want) := by
  have placed (item : SearchEntry × Nat) (member : item ∈ list.entries.zipIdx) :
      list.entries[item.2]? = some item.1 := List.mem_zipIdx_iff_getElem?.mp member
  rw [firstAnswer, plainHit, plainScan, eligible_eq_filter]
  generalize list.entries.zipIdx = items at placed ⊢
  induction items with
  | nil => rfl
  | cons item items inductionHypothesis =>
    have rest := inductionHypothesis fun other member => placed other (List.mem_cons_of_mem _ member)
    rw [List.findSome?_cons, entryAnswer, FileView.matchIn]
    cases looks : list.looksInto kind item.2 with
    | false =>
      rw [List.filter_cons_of_neg (by simp [looks])]
      simpa using rest
    | true =>
      rw [List.filter_cons_of_pos (by simpa using looks), List.findSome?_cons]
      cases view.probe list.systemFrameworks item.1.place name with
      | none => simpa using rest
      | some found => simp [list.plain_header_place view name want (placed item List.mem_cons_self)]

/-- The answer beside the including file is the one that the hit there stands for. -/
theorem beside_answer_eq (name : String) (kind : IncludeKind) (includer : Option Includer)
    (want : PathRequest) :
    view.besideAnswer name kind includer want =
      (plainBeside view name kind includer).map (list.plainHeader view name want) := by
  cases kind with
  | angled => cases includer <;> rfl
  | quoted =>
    cases includer with
    | none => rfl
    | some includer =>
      rw [FileView.besideAnswer, plainBeside, Option.map_map]
      congr 1
      funext file
      cases searched : want.searchPath <;>
        simp [plainHeader, answer, searchPathOf, Hit.beside, searched, Text.suffixFrom?_zero]

end SearchList

namespace Naming

/-- Two hits correspond when they differ in handles at most, and these do. -/
structure HitAs (naming : Naming) (hit meant : Hit) : Prop where
  file : naming.FileAs hit.file meant.file
  origin : hit.origin = meant.origin
  searchDirectory : Option.Rel naming.DirectoryAs hit.searchDirectory meant.searchDirectory
  relativeStart : hit.relativeStart = meant.relativeStart
  isSystemFramework : hit.isSystemFramework = meant.isSystemFramework
  characteristic : hit.characteristic = meant.characteristic

/-- Two found headers correspond when they are equal but for the handle of the file, and that does. -/
structure HeaderAs (naming : Naming) (header meant : FoundHeader) : Prop where
  file : naming.FileAs header.file meant.file
  rest : { header with file := meant.file } = meant

/-- Two files found by entries alone correspond when they are equal but for their handles, and these
    correspond. -/
structure MatchAs (naming : Naming) (found meant : EntryMatch) : Prop where
  file : naming.FileAs found.file meant.file
  rest : { found with file := meant.file } = meant

/-- Two including files correspond when their directories do. -/
structure IncluderAs (naming : Naming) (includer meant : Includer) : Prop where
  directory : naming.DirectoryAs includer.directory meant.directory
  characteristic : includer.characteristic = meant.characteristic

/-- Two entries correspond when they differ in the handle of their place at most. -/
structure EntryAs (naming : Naming) (entry meant : SearchEntry) : Prop where
  place : naming.PlaceAs entry.place meant.place
  characteristic : entry.characteristic = meant.characteristic
  quoteOnly : entry.quoteOnly = meant.quoteOnly

/-- Two lists correspond when their entries do. -/
structure ListAs (naming : Naming) (list meant : SearchList) : Prop where
  entries : List.Forall₂ naming.EntryAs list.entries meant.entries
  angledStart : list.angledStart = meant.angledStart
  systemFrameworks : list.systemFrameworks = meant.systemFrameworks

variable {before after : Naming}

theorem HitAs.keep {hit meant : Hit} (same : before.HitAs hit meant) (keeps : before.Keeps after) :
    after.HitAs hit meant :=
  { same with
    file := keeps.file same.file
    searchDirectory := related_grow same.searchDirectory fun _ _ => keeps.directory }

theorem IncluderAs.keep {includer meant : Includer} (same : before.IncluderAs includer meant)
    (keeps : before.Keeps after) : after.IncluderAs includer meant :=
  { same with directory := keeps.directory same.directory }

theorem EntryAs.keep {entry meant : SearchEntry} (same : before.EntryAs entry meant)
    (keeps : before.Keeps after) : after.EntryAs entry meant :=
  { same with place := same.place.keep keeps }

theorem ListAs.keep {list meant : SearchList} (same : before.ListAs list meant)
    (keeps : before.Keeps after) : after.ListAs list meant :=
  { same with entries := same.entries.imp fun _ _ here => here.keep keeps }

/-- Corresponding lists have corresponding entries at each position, or both none. Induct on the
    correspondence, with the position going down. -/
theorem ListAs.entry_at {naming : Naming} {list meant : SearchList} (same : naming.ListAs list meant)
    (index : Nat) : Option.Rel naming.EntryAs list.entries[index]? meant.entries[index]? := by
  have entries := same.entries
  generalize list.entries = entriesHere at entries ⊢
  generalize meant.entries = entriesMeant at entries ⊢
  induction entries generalizing index with
  | nil => exact .none
  | cons first rest inductionHypothesis =>
    cases index with
    | zero => exact .some first
    | succ index => simpa using inductionHypothesis index

end Naming

/-- What a memo holds is what a search without memory would find. -/
structure Naming.Recalls (naming : Naming) (view : FileView) (meant : SearchList)
    (memo : SearchMemo) : Prop where
  /-- A remembered outcome of the list is the outcome of the list. -/
  listed {name : String} {kind : IncludeKind} {outcome : Option Hit} :
    memo.cache.get? name kind = some outcome →
      Option.Rel naming.HitAs outcome (meant.plainHit view name kind)
  /-- A remembered outcome of a directory is the outcome of that directory, whatever the
      characteristic of the including file was. -/
  beside {handle : DirHandle} {name : String} {outcome : Option Hit} :
    memo.cache.getBeside? handle name = some outcome →
      ∃ meaning, naming.DirectoryAs handle meaning ∧
        Option.Rel (fun hit file =>
          naming.HitAs hit (Hit.beside meaning hit.characteristic file)) outcome
          (view.file? meaning name)
  /-- A remembered bundle is the bundle of the framework below the place of the entry. -/
  bundles {index : Nat} {framework : String} {bundle : Bundle} :
    memo.bundles.get? (index, framework) = some bundle →
      ∃ entry meaning configured, meant.entries[index]? = some entry ∧
        entry.place = .framework meaning configured ∧
        naming.BundleAs bundle (view.bundle meaning framework)

namespace Naming.Recalls

variable {naming before after : Naming} {view : FileView} {meant : SearchList} {memo : SearchMemo}

/-- Before the first lookup there is nothing to recall. -/
theorem fresh : naming.Recalls view meant SearchMemo.fresh where
  listed remembered := by simp [SearchMemo.fresh] at remembered
  beside remembered := by simp [SearchMemo.fresh] at remembered
  bundles remembered := by simp [SearchMemo.fresh] at remembered

theorem keep (recalls : before.Recalls view meant memo) (keeps : before.Keeps after) :
    after.Recalls view meant memo where
  listed remembered := related_grow (recalls.listed remembered) fun _ _ same => same.keep keeps
  beside remembered := by
    obtain ⟨meaning, known, same⟩ := recalls.beside remembered
    exact ⟨meaning, keeps.directory known, related_grow same fun _ _ here => here.keep keeps⟩
  bundles remembered := by
    obtain ⟨entry, meaning, configured, here, place, same⟩ := recalls.bundles remembered
    exact ⟨entry, meaning, configured, here, place, same.keep keeps⟩

/-- The counts do not matter. -/
theorem count (recalls : naming.Recalls view meant memo) (change : SearchStats → SearchStats) :
    naming.Recalls view meant (memo.count change) :=
  ⟨recalls.listed, recalls.beside, recalls.bundles⟩

theorem countRemembered (recalls : naming.Recalls view meant memo) (remembered : Bool) :
    naming.Recalls view meant (SearchList.countRemembered remembered memo) := by
  cases remembered with
  | false => exact recalls
  | true => exact recalls.count fun stats => { stats with cacheHits := stats.cacheHits + 1 }

/-- Remembering the outcome of the list for a name and kind. -/
theorem insert (recalls : naming.Recalls view meant memo) {name : String} {kind : IncludeKind}
    {outcome : Option Hit} (same : Option.Rel naming.HitAs outcome (meant.plainHit view name kind)) :
    naming.Recalls view meant { memo with cache := memo.cache.insert name kind outcome } where
  listed {other wanted answer} remembered := by
    rw [LookupCache.get?_insert] at remembered
    split at remembered
    · next asked =>
      obtain ⟨rfl, rfl⟩ := asked
      exact Option.some.inj remembered ▸ same
    · exact recalls.listed remembered
  beside remembered := recalls.beside (by simpa using remembered)
  bundles := recalls.bundles

/-- Remembering the outcome of a directory for a name. -/
theorem insertBeside (recalls : naming.Recalls view meant memo) {handle meaning : DirHandle}
    {name : String} {outcome : Option Hit} (known : naming.DirectoryAs handle meaning)
    (same : Option.Rel (fun hit file =>
      naming.HitAs hit (Hit.beside meaning hit.characteristic file)) outcome
      (view.file? meaning name)) :
    naming.Recalls view meant { memo with cache := memo.cache.insertBeside handle name outcome } where
  listed remembered := recalls.listed (by simpa using remembered)
  beside {asked other answer} remembered := by
    rw [LookupCache.getBeside?_insertBeside] at remembered
    split at remembered
    · next here =>
      obtain ⟨rfl, rfl⟩ := here
      exact ⟨meaning, known, Option.some.inj remembered ▸ same⟩
    · exact recalls.beside remembered
  bundles := recalls.bundles

/-- Remembering the bundle of a framework for the entry at a position. -/
theorem insertBundle (recalls : naming.Recalls view meant memo) {index : Nat} {framework : String}
    {bundle : Bundle} {entry : SearchEntry} {meaning : DirHandle} {configured : String}
    (here : meant.entries[index]? = some entry) (place : entry.place = .framework meaning configured)
    (same : naming.BundleAs bundle (view.bundle meaning framework)) :
    naming.Recalls view meant
      { memo with bundles := memo.bundles.insert (index, framework) bundle } where
  listed := recalls.listed
  beside := recalls.beside
  bundles {position other found} remembered := by
    rw [Table.get?_insert] at remembered
    split at remembered
    · next asked =>
      obtain ⟨rfl, rfl⟩ := Prod.mk.inj asked
      exact ⟨entry, meaning, configured, here, place, Option.some.inj remembered ▸ same⟩
    · exact recalls.bundles remembered

end Naming.Recalls

end HeaderSearch
