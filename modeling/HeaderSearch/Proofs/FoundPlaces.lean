import HeaderSearch.Proofs.Caching
import HeaderSearch.Proofs.Offsets
import HeaderSearch.Proofs.TruthfulStore
import HeaderSearch.SearchList.Build

/-!
# What is found is where it is said to be

Over a truthful store everything that a list finds is vouched for: the file is the one that the name, or
what follows the framework in it, leads to from the directory that the answer gives. A list keeps what
it was built from, the memo only holds outcomes that are vouched for, and every lookup, whatever it
comes to, leaves it so.
-/

namespace HeaderSearch

namespace Naming

variable (naming : Naming) (facts : FileFacts)

/-- A place looks into what one of some entries configures, with a handle for the directory that its
    path names. -/
inductive Configures (entries : List ConfigEntry) : SearchPlace → Prop where
  | directory {entry : ConfigEntry} {path : Path} {handle : DirHandle} (member : entry ∈ entries)
      (location : entry.location = .directory path) (locates : naming.Locates facts path handle) :
      Configures entries (.directory handle path.shown)
  | framework {entry : ConfigEntry} {path : Path} {handle : DirHandle} (member : entry ∈ entries)
      (location : entry.location = .framework path) (locates : naming.Locates facts path handle) :
      Configures entries (.framework handle path.shown)
  | headerMap (map : HeaderMap) (isIndex : Bool) : Configures entries (.headerMap map isIndex)

/-- A list looks into what some entries configure. -/
def ListFrom (entries : List ConfigEntry) (list : SearchList) : Prop :=
  ∀ entry ∈ list.entries, naming.Configures facts entries entry.place

/-- A handle stands for one of the two header directories of a framework below a directory. -/
def HeadersOf (directory : DirHandle) (owner part : String) (headers : DirHandle) : Prop :=
  ∃ root, naming.DirectoryAt directory root ∧
    naming.Locates facts ((root.join (Framework.bundleName owner)).join part) headers

/-- The header directories of a bundle are those of a framework below a directory. -/
structure BundleOf (directory : DirHandle) (owner : String) (bundle : Bundle) : Prop where
  headers : ∀ headers ∈ bundle.headers, naming.HeadersOf facts directory owner "Headers" headers
  privateHeaders : ∀ headers ∈ bundle.privateHeaders,
    naming.HeadersOf facts directory owner "PrivateHeaders" headers

/-- What a place answers to a name is vouched for: the part of the name from an offset on leads to the
    file from the directory that is given with it. -/
inductive Vouches (name : String) :
    SearchPlace → FileHandle → Option DirHandle → Nat → Prop where
  | directory {handle : DirHandle} {configured : String} {file : FileHandle}
      (holds : naming.Holds facts handle name file) :
      Vouches name (.directory handle configured) file (some handle) 0
  | framework {handle headers : DirHandle} {configured owner rest part : String} {file : FileHandle}
      (split : Framework.splitName? name = some (owner, rest))
      (named : part ∈ ["Headers", "PrivateHeaders"])
      (headersOf : naming.HeadersOf facts handle owner part headers)
      (holds : naming.Holds facts headers rest file) :
      Vouches name (.framework handle configured) file (some headers) (Framework.restStart owner)
  | headerMap {map : HeaderMap} {isIndex : Bool} {file : FileHandle} {start : Nat} :
      Vouches name (.headerMap map isIndex) file none start

/-- A hit in a list is vouched for by the entry that it names. -/
def EntryHit (list : SearchList) (name : String) (hit : Hit) : Prop :=
  ∃ index entry, hit.origin = .entry index ∧ list.entries[index]? = some entry ∧
    naming.Vouches facts name entry.place hit.file hit.searchDirectory hit.relativeStart

/-- A hit beside an including file is held by the directory of that file. -/
structure BesideHit (directory : DirHandle) (name : String) (hit : Hit) : Prop where
  origin : hit.origin = .includer
  searchDirectory : hit.searchDirectory = some directory
  relativeStart : hit.relativeStart = 0
  holds : naming.Holds facts directory name hit.file

/-- The hits and bundles that a memo holds are vouched for. -/
structure Trusts (list : SearchList) (memo : SearchMemo) : Prop where
  listed {name : String} {kind : IncludeKind} {hit : Hit} :
    memo.cache.get? name kind = some (some hit) → naming.EntryHit facts list name hit
  beside {directory : DirHandle} {name : String} {hit : Hit} :
    memo.cache.getBeside? directory name = some (some hit) →
      naming.BesideHit facts directory name hit
  bundles {index : Nat} {owner : String} {bundle : Bundle} :
    memo.bundles.get? (index, owner) = some bundle →
      ∃ entry handle configured, list.entries[index]? = some entry ∧
        entry.place = .framework handle configured ∧ naming.BundleOf facts handle owner bundle

variable {naming facts} {before after : Naming} {entries : List ConfigEntry} {list : SearchList}

theorem Configures.keep {place : SearchPlace} (here : before.Configures facts entries place)
    (keeps : before.Keeps after) : after.Configures facts entries place := by
  cases here with
  | directory member location locates => exact .directory member location (locates.keep keeps)
  | framework member location locates => exact .framework member location (locates.keep keeps)
  | headerMap map isIndex => exact .headerMap map isIndex

theorem ListFrom.keep (here : before.ListFrom facts entries list) (keeps : before.Keeps after) :
    after.ListFrom facts entries list :=
  fun entry member => (here entry member).keep keeps

theorem HeadersOf.keep {directory headers : DirHandle} {owner part : String}
    (here : before.HeadersOf facts directory owner part headers) (keeps : before.Keeps after) :
    after.HeadersOf facts directory owner part headers := by
  obtain ⟨root, stands, locates⟩ := here
  exact ⟨root, stands.keep keeps, locates.keep keeps⟩

theorem BundleOf.keep {directory : DirHandle} {owner : String} {bundle : Bundle}
    (here : before.BundleOf facts directory owner bundle) (keeps : before.Keeps after) :
    after.BundleOf facts directory owner bundle :=
  ⟨fun headers member => (here.headers headers member).keep keeps,
    fun headers member => (here.privateHeaders headers member).keep keeps⟩

theorem Vouches.keep {name : String} {place : SearchPlace} {file : FileHandle}
    {directory : Option DirHandle} {start : Nat}
    (here : before.Vouches facts name place file directory start) (keeps : before.Keeps after) :
    after.Vouches facts name place file directory start := by
  cases here with
  | directory holds => exact .directory (holds.keep keeps)
  | framework split named headersOf holds =>
    exact .framework split named (headersOf.keep keeps) (holds.keep keeps)
  | headerMap => exact .headerMap

theorem EntryHit.keep {name : String} {hit : Hit} (here : before.EntryHit facts list name hit)
    (keeps : before.Keeps after) : after.EntryHit facts list name hit := by
  obtain ⟨index, entry, origin, there, vouches⟩ := here
  exact ⟨index, entry, origin, there, vouches.keep keeps⟩

theorem BesideHit.keep {directory : DirHandle} {name : String} {hit : Hit}
    (here : before.BesideHit facts directory name hit) (keeps : before.Keeps after) :
    after.BesideHit facts directory name hit :=
  { here with holds := here.holds.keep keeps }

namespace Trusts

variable {memo : SearchMemo}

/-- Before the first lookup there is nothing to vouch for. -/
theorem fresh : naming.Trusts facts list SearchMemo.fresh where
  listed remembered := by simp [SearchMemo.fresh] at remembered
  beside remembered := by simp [SearchMemo.fresh] at remembered
  bundles remembered := by simp [SearchMemo.fresh] at remembered

theorem keep (trusts : before.Trusts facts list memo) (keeps : before.Keeps after) :
    after.Trusts facts list memo where
  listed remembered := (trusts.listed remembered).keep keeps
  beside remembered := (trusts.beside remembered).keep keeps
  bundles remembered := by
    obtain ⟨entry, handle, configured, here, place, bundleOf⟩ := trusts.bundles remembered
    exact ⟨entry, handle, configured, here, place, bundleOf.keep keeps⟩

/-- The counts do not matter. -/
theorem count (trusts : naming.Trusts facts list memo) (change : SearchStats → SearchStats) :
    naming.Trusts facts list (memo.count change) :=
  ⟨trusts.listed, trusts.beside, trusts.bundles⟩

theorem countRemembered (trusts : naming.Trusts facts list memo) (remembered : Bool) :
    naming.Trusts facts list (SearchList.countRemembered remembered memo) := by
  cases remembered with
  | false => exact trusts
  | true => exact trusts.count fun stats => { stats with cacheHits := stats.cacheHits + 1 }

/-- Remembering an outcome of the list that is vouched for. -/
theorem insert (trusts : naming.Trusts facts list memo) {name : String} {kind : IncludeKind}
    {outcome : Option Hit} (vouched : ∀ hit ∈ outcome, naming.EntryHit facts list name hit) :
    naming.Trusts facts list { memo with cache := memo.cache.insert name kind outcome } where
  listed {other wanted hit} remembered := by
    rw [LookupCache.get?_insert] at remembered
    split at remembered
    · next asked =>
      obtain ⟨rfl, rfl⟩ := asked
      exact vouched hit (Option.some.inj remembered)
    · exact trusts.listed remembered
  beside remembered := trusts.beside (by simpa using remembered)
  bundles := trusts.bundles

/-- Remembering an outcome of a directory that is vouched for. -/
theorem insertBeside (trusts : naming.Trusts facts list memo) {directory : DirHandle} {name : String}
    {outcome : Option Hit} (vouched : ∀ hit ∈ outcome, naming.BesideHit facts directory name hit) :
    naming.Trusts facts list
      { memo with cache := memo.cache.insertBeside directory name outcome } where
  listed remembered := trusts.listed (by simpa using remembered)
  beside {asked other hit} remembered := by
    rw [LookupCache.getBeside?_insertBeside] at remembered
    split at remembered
    · next here =>
      obtain ⟨rfl, rfl⟩ := here
      exact vouched hit (Option.some.inj remembered)
    · exact trusts.beside remembered
  bundles := trusts.bundles

/-- Remembering the bundle of a framework for the entry at a position. -/
theorem insertBundle (trusts : naming.Trusts facts list memo) {index : Nat} {owner : String}
    {bundle : Bundle} {entry : SearchEntry} {handle : DirHandle} {configured : String}
    (here : list.entries[index]? = some entry) (place : entry.place = .framework handle configured)
    (bundleOf : naming.BundleOf facts handle owner bundle) :
    naming.Trusts facts list
      { memo with bundles := memo.bundles.insert (index, owner) bundle } where
  listed := trusts.listed
  beside := trusts.beside
  bundles {position other found} remembered := by
    rw [Table.get?_insert] at remembered
    split at remembered
    · next asked =>
      obtain ⟨rfl, rfl⟩ := Prod.mk.inj asked
      exact ⟨entry, handle, configured, here, place, Option.some.inj remembered ▸ bundleOf⟩
    · exact trusts.bundles remembered

end Trusts

end Naming

end HeaderSearch
