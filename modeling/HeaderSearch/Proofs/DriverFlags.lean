import HeaderSearch.Proofs.LoadedMaps
import HeaderSearch.Proofs.Merging

/-!
# Flags that are appended to a configuration

The flags of a driver are appended after a configuration. The directories for quoted includes that they
bring land in the middle of the merged list, where angled includes already look, but they are marked;
everything else that the flags bring lies after the start of angled includes, whoever says where that
is. So the merged configuration passes the checks that the first one passes, and angled includes may
use what they could use before, followed by what the flags bring for them.
-/

namespace HeaderSearch

namespace Config

/-- Whether angled includes may use an entry at a position: it is not before the start, and it is not
    for quoted includes only. -/
def allows (config : Config) (item : ConfigEntry × Nat) : Bool :=
  config.start ≤ item.2 && !item.1.quoteOnly

/-- The entries that angled includes may use, with their positions. -/
def eligible (config : Config) : List (ConfigEntry × Nat) :=
  config.entries.zipIdx.filter config.allows

/-- The entries of the flags' directories for quoted includes. -/
def quoted (flags : Flags) : List ConfigEntry :=
  flags.quote.map fun path => { location := .directory path, quoteOnly := true }

/-- The entries of flags that do not come from a directory for quoted includes, in the order in which
    their sorts are searched. -/
def unquoted (flags : Flags) : List ConfigEntry :=
  flags.headerMaps.map (fun path => { location := .headerMap path }) ++
  flags.indexHeaderMaps.map (fun path => { location := .headerMap path, indexMap := true }) ++
  flags.angled.map (fun path => { location := .directory path }) ++
  flags.framework.map (fun path => { location := .framework path }) ++
  flags.system.map (fun path => { location := .directory path, characteristic := .system }) ++
  flags.systemFramework.map fun path => { location := .framework path, characteristic := .system }

/-- The directories for quoted includes come first. -/
theorem entries_ofFlags (flags : Flags) :
    (ofFlags flags).entries = quoted flags ++ unquoted flags := by
  simp [quoted, unquoted, ofFlags]

@[simp] theorem length_quoted (flags : Flags) : (quoted flags).length = flags.quote.length :=
  List.length_map _

theorem quoteOnly_of_mem_quoted {flags : Flags} {entry : ConfigEntry}
    (member : entry ∈ quoted flags) : entry.quoteOnly = true := by
  obtain ⟨path, -, rfl⟩ := List.mem_map.1 member
  rfl

/-- Every flag but the one for quoted directories brings entries for angled includes. -/
theorem quoteOnly_of_mem_unquoted {flags : Flags} {entry : ConfigEntry}
    (member : entry ∈ unquoted flags) : entry.quoteOnly = false := by
  simp only [unquoted, List.mem_append, List.mem_map] at member
  rcases member with ((((⟨_, _, rfl⟩ | ⟨_, _, rfl⟩) | ⟨_, _, rfl⟩) | ⟨_, _, rfl⟩) | ⟨_, _, rfl⟩) |
    ⟨_, _, rfl⟩ <;> rfl

/-- Flags mark header maps only as index maps. -/
theorem isHeaderMap_of_mem_ofFlags {flags : Flags} {entry : ConfigEntry}
    (member : entry ∈ (ofFlags flags).entries) (marked : entry.indexMap = true) :
    entry.location.isHeaderMap = true := by
  simp only [ofFlags, List.mem_append, List.mem_map] at member
  rcases member with (((((⟨_, _, rfl⟩ | ⟨_, _, rfl⟩) | ⟨_, _, rfl⟩) | ⟨_, _, rfl⟩) | ⟨_, _, rfl⟩) |
    ⟨_, _, rfl⟩) | ⟨_, _, rfl⟩ <;> first | rfl | cases marked

variable {config : Config} {flags : Flags}

/-- The start of a checked configuration is at most the number of its entries. -/
theorem Checked.start_le (checked : config.Checked) : config.start ≤ config.entries.length := by
  unfold Config.start
  cases given : config.angledStart with
  | some start => exact checked.start start given
  | none => exact List.findIdx_le_length

/-- Without a configured start angled includes start before or right after any entries that come
    before ones for both kinds of includes. -/
theorem automatic_start_le {before after : List ConfigEntry} (split : config.entries = before ++ after)
    (both : ∀ entry ∈ after, entry.quoteOnly = false) : config.automaticStart ≤ before.length := by
  rw [automaticStart, split, List.findIdx_append]
  split
  · next early => exact early.le
  · cases after with
    | nil => simp
    | cons entry after => simp [List.findIdx_cons, both entry List.mem_cons_self]

/-- The merged configuration starts at the latest right after the flags' quoted directories. -/
theorem Checked.start_merge_le (checked : config.Checked) (flags : Flags) :
    (config.merge (ofFlags flags)).start ≤ config.entries.length + flags.quote.length := by
  by_cases none : config.entries = []
  · have given : (config.merge (ofFlags flags)).angledStart = some flags.quote.length := if_pos none
    rw [Config.start, given, Option.getD_some]
    omega
  · have given : (config.merge (ofFlags flags)).angledStart = config.angledStart := if_neg none
    rw [Config.start, given]
    cases first : config.angledStart with
    | some start =>
      have early := checked.start start first
      rw [Option.getD_some]
      omega
    | none =>
      rw [Option.getD_none]
      have split : (config.merge (ofFlags flags)).entries =
          (config.entries ++ quoted flags) ++ unquoted flags := by
        rw [merge, entries_ofFlags, List.append_assoc]
      have early := automatic_start_le split fun entry => quoteOnly_of_mem_unquoted
      simpa using early

/-- Flags that are appended to a checked configuration leave it checked. -/
theorem Checked.merge_ofFlags (checked : config.Checked) (flags : Flags) :
    (config.merge (ofFlags flags)).Checked where
  start start given := by
    rw [merge] at given ⊢
    dsimp only at given ⊢
    rw [List.length_append]
    split at given
    · obtain rfl : flags.quote.length = start := Option.some.inj given
      rw [entries_ofFlags, List.length_append, length_quoted]
      omega
    · have early := checked.start start given
      omega
  marks entry member marked := by
    rcases List.mem_append.1 member with before | new
    · exact checked.marks entry before marked
    · exact isHeaderMap_of_mem_ofFlags new marked

/-- Angled includes may use what they could use before, and then whatever flags bring for them. -/
theorem Checked.eligible_merge_ofFlags (checked : config.Checked) (flags : Flags) :
    (config.merge (ofFlags flags)).eligible = config.eligible ++
      (unquoted flags).zipIdx (config.entries.length + flags.quote.length) := by
  have late := checked.start_merge_le flags
  -- The entries for both kinds of includes are allowed as before.
  have before : config.entries.zipIdx.filter (config.merge (ofFlags flags)).allows =
      config.eligible := by
    refine List.filter_congr fun item member => ?_
    unfold allows
    cases both : item.1.quoteOnly with
    | true => simp
    | false =>
      have here := List.mem_zipIdx_iff_getElem?.1 member
      simp only [merged_start_le_iff here both]
  -- The quoted directories of the flags are marked.
  have marked : ((quoted flags).zipIdx config.entries.length).filter
      (config.merge (ofFlags flags)).allows = [] := by
    refine List.filter_eq_nil_iff.2 fun item member => ?_
    rw [allows, quoteOnly_of_mem_quoted (List.fst_mem_of_mem_zipIdx member)]
    simp
  -- The other entries of the flags lie after the start.
  have new : ((unquoted flags).zipIdx (config.entries.length + flags.quote.length)).filter
      (config.merge (ofFlags flags)).allows =
      (unquoted flags).zipIdx (config.entries.length + flags.quote.length) := by
    refine List.filter_eq_self.2 fun item member => ?_
    have behind := List.le_snd_of_mem_zipIdx member
    rw [allows, quoteOnly_of_mem_unquoted (List.fst_mem_of_mem_zipIdx member), Bool.and_eq_true,
      decide_eq_true_eq]
    exact ⟨late.trans behind, rfl⟩
  have entries : (config.merge (ofFlags flags)).entries =
      config.entries ++ (quoted flags ++ unquoted flags) :=
    congrArg (config.entries ++ ·) (entries_ofFlags flags)
  rw [eligible, entries, List.zipIdx_append, List.zipIdx_append, List.filter_append,
    List.filter_append, Nat.zero_add, before, length_quoted, marked, new, List.nil_append]

variable {n k : Type → Type} {υ ω : Type} [Monad n] [Runs n υ] [FileSystem n]
variable [Monad k] [Runs k ω] [FileStore k]

/-- With all of its header maps loaded, a checked configuration can only repeat an entry. -/
theorem Checked.build_repeats (checked : config.Checked) {maps : HeaderMapSet} {state after : υ}
    (loaded : Runs.run (config.loadMaps : n _) state = (.ok maps, after)) (store : ω) :
    (∃ list, (Runs.run (config.build maps : k _) store).1 = .ok list) ∨
      ∃ name first second,
        (Runs.run (config.build maps : k _) store).1 = .error (.duplicate name first second) := by
  cases built : (Runs.run (config.build maps : k _) store).1 with
  | ok list => exact .inl ⟨list, rfl⟩
  | error failure =>
    refine .inr ?_
    rcases build_refuses (Prod.ext built rfl) with ⟨past, -⟩ | ⟨entry, member, position, refused⟩
    · exact absurd checked.start_le (Nat.not_le.2 past)
    · cases refused with
      | notAHeaderMap marked isNone =>
        rw [checked.marks entry member marked] at isNone
        cases isNone
      | notLoaded named absent => exact absurd built (build_misses_no_map loaded store _)
      | duplicate first => exact ⟨_, _, _, rfl⟩

/-- Flags may be appended to every configuration whose start and marks are checked. The flags bring the
    directories for quoted includes and then their other entries. The merged configuration passes the
    same checks; angled includes may use what they could use before, at the same positions, and then the
    other entries of the flags, in order; and once its header maps are loaded, building a list over any
    store succeeds or names two equal entries. -/
theorem flags_keep_what_is_eligible (checked : config.Checked) (flags : Flags) :
    (ofFlags flags).entries = quoted flags ++ unquoted flags ∧
    (config.merge (ofFlags flags)).Checked ∧
    (config.merge (ofFlags flags)).eligible = config.eligible ++
      (unquoted flags).zipIdx (config.entries.length + flags.quote.length) ∧
    ∀ (state : υ) maps after,
      Runs.run ((config.merge (ofFlags flags)).loadMaps : n _) state = (.ok maps, after) →
      ∀ store : ω,
        (∃ list, (Runs.run ((config.merge (ofFlags flags)).build maps : k _) store).1 = .ok list) ∨
        ∃ name first second, (Runs.run ((config.merge (ofFlags flags)).build maps : k _) store).1 =
          .error (.duplicate name first second) :=
  ⟨entries_ofFlags flags, checked.merge_ofFlags flags, checked.eligible_merge_ofFlags flags,
    fun _ _ _ loaded store => (checked.merge_ofFlags flags).build_repeats loaded store⟩

/-- A quoted and another directory of the flags come after a quoted and another directory. -/
theorem flags_after_two_directories :
    let flags : Flags := { quote := [⟨"/q"⟩], angled := [⟨"/i"⟩] }
    quotedThenAngled.Checked ∧
    (quotedThenAngled.merge (ofFlags flags)).eligible =
      [({ location := .directory ⟨"/second"⟩ }, 1), ({ location := .directory ⟨"/i"⟩ }, 3)] ∧
    ∃ list, ((quotedThenAngled.merge (ofFlags flags)).build .empty :
      Observed (.listing ["/second", "/i"] []) _).value = .ok list := by
  intro flags
  have checked : quotedThenAngled.Checked := ⟨by decide, by decide⟩
  obtain ⟨-, -, eligible, build⟩ := flags_keep_what_is_eligible (n := FileFacts.Given .nothing)
    (k := Observed (.listing ["/second", "/i"] [])) checked flags
  refine ⟨checked, eligible, ?_⟩
  rcases build () .empty () rfl [] with built | ⟨name, first, second, failed⟩
  · exact built
  · cases failed

end Config

end HeaderSearch
