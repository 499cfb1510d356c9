import HeaderSearch.CommandLine.Run

/-!
# What the arguments give

`Level.listing` lists the options with values among the arguments of a level, in the order in which they
are given, without any check and without keeping what was given apart by option. If the arguments are
accepted, reading them collects for each option of the search path just its values in this list: none
is dropped, none is added, and none changes its place. What is read of a command line has two such
lists, one before the name of the command and one after it; the flags come from both.
-/

namespace HeaderSearch.CommandLine

/-- A computation in two steps succeeds if both do. -/
theorem bind_eq_ok {α β ε : Type} {first : Except ε α} {next : α → Except ε β} {result : β} :
    (first >>= next) = .ok result ↔ ∃ value, first = .ok value ∧ next value = .ok result := by
  cases first with
  | error failure => simp [bind, Except.bind]
  | ok value => simp [bind, Except.bind]

/-- Options with the values that were given for them, in the order of the command line. -/
abbrev Occurrences := List (Setting × String)

namespace Occurrences

/-- The values of an option. -/
def valuesOf (given : Occurrences) (setting : Setting) : List String :=
  (given.filter fun item => item.1 = setting).map Prod.snd

@[simp] theorem valuesOf_nil (setting : Setting) : valuesOf [] setting = [] := rfl

@[simp] theorem valuesOf_cons (item : Setting × String) (given : Occurrences) (setting : Setting) :
    valuesOf (item :: given) setting =
      if item.1 = setting then item.2 :: valuesOf given setting else valuesOf given setting := by
  by_cases same : item.1 = setting <;> simp [valuesOf, same]

@[simp] theorem valuesOf_append (first second : Occurrences) (setting : Setting) :
    valuesOf (first ++ second) setting = valuesOf first setting ++ valuesOf second setting := by
  rw [valuesOf, List.filter_append, List.map_append]
  rfl

/-- An option has no values if it is not given. -/
theorem valuesOf_eq_nil_iff {given : Occurrences} {setting : Setting} :
    valuesOf given setting = [] ↔ setting ∉ given.map Prod.fst := by
  simp only [valuesOf, List.map_eq_nil_iff, List.filter_eq_nil_iff, decide_eq_true_eq,
    List.mem_map, not_exists, not_and]

end Occurrences

/-- The options that make up the search path. -/
def searchSettings : List Setting :=
  [.quote, .angled, .framework, .system, .systemFramework, .headerMap, .indexHeaderMap,
    .systemFrameworkName]

/-- What an option gives with what is attached to it: a value, or that it waits for one. An option that
    takes no value gives none. -/
def Argument.gives (option : Argument) (attached : Option String) :
    Occurrences × Option Setting :=
  if option.form = .switch ∨ option.form = .ending then ([], none)
  else
    match attached with
    | some value => ([(option.setting, value)], none)
    | none => ([], some option.setting)

namespace Level

/-- What an option with a long name gives. -/
def inNamed (level : Level) (name : String) (attached : Option String) :
    Occurrences × Option Setting :=
  match level.byName? name with
  | none => ([], none)
  | some option => option.gives attached

/-- What an argument with two hyphens gives. -/
def inLong (level : Level) (text : String) : Occurrences × Option Setting :=
  match Text.splitFirst '=' text.toList with
  | some (name, value) => level.inNamed (String.ofList name) (some (String.ofList value))
  | none => level.inNamed text none

/-- What the letters after one hyphen give: switches may come before the option with a value. -/
def inLetters (level : Level) : List Char → Occurrences × Option Setting
  | [] => ([], none)
  | letter :: rest =>
    match level.byLetter? letter with
    | none => ([], none)
    | some option =>
      if option.form = .switch ∨ option.form = .ending then level.inLetters rest
      else option.gives (Reading.attachedValue? rest)

/-- The options with values among the arguments of a level, given the option that waits for its value,
    and the word of the command with what follows it. -/
def listing (level : Level) (waiting : Option Setting) :
    List String → Occurrences × Option (String × List String)
  | [] => ([], none)
  | text :: rest =>
    match waiting, Reading.shapeOf text with
    | some setting, .plain =>
      let (later, command) := level.listing none rest
      ((setting, text) :: later, command)
    | some _, _ => ([], none)
    | none, shape =>
      if level = none ∧ isCommandWord text then ([], some (text, rest))
      else
        match shape with
        | .terminator => ([], none)
        | .plain => level.listing none rest
        | .long name =>
          let (now, waiting) := level.inLong name
          let (later, command) := level.listing waiting rest
          (now ++ later, command)
        | .short letters =>
          let (now, waiting) := level.inLetters letters
          let (later, command) := level.listing waiting rest
          (now ++ later, command)

/-- No option of the search path is a switch. -/
theorem not_search_of_switch {level : Level} {option : Argument} (known : option ∈ level.options)
    (switch : option.form = .switch) : option.setting ∉ searchSettings := by
  have all : ∀ level ∈ [none, some .resolve, some .list, some .deps],
      ∀ option ∈ Level.options level, option.form = .switch →
        option.setting ∉ searchSettings := by decide
  refine all level ?_ option known switch
  cases level with
  | none => decide
  | some name => cases name <;> decide

/-- No positional argument is an option of the search path. -/
theorem not_search_of_positional {level : Level} {argument : Argument}
    (positional : level.positional? = some argument) : argument.setting ∉ searchSettings := by
  cases level with
  | none => cases positional
  | some name =>
    cases name <;> cases positional <;> decide

end Level

namespace Reading

/-- The option that waits for its value. -/
def waits (reading : Reading) : Option Setting :=
  match reading.pending with
  | some (argument, none) => some argument.setting
  | _ => none

/-- The values of an option so far, the one that is yet to be taken in included. -/
def soFar (reading : Reading) (setting : Setting) : List String :=
  (reading.given.get? setting).getD [] ++
    match reading.pending with
    | some (argument, some value) => Occurrences.valuesOf [(argument.setting, value)] setting
    | _ => []

/-- What was read of an option of the search path are its values in a list of occurrences. -/
structure Holds (setting : Setting) (reading : Reading) (given : Occurrences)
    (waiting : Option Setting) : Prop where
  soFar : reading.soFar setting = given.valuesOf setting
  full : reading.given.get? setting ≠ some []
  waits : reading.waits = waiting

variable {setting : Setting} {reading after : Reading} {given : Occurrences}
variable {waiting : Option Setting} {level : Level}

theorem awaitsValue_eq (reading : Reading) : reading.awaitsValue = reading.waits.isSome := by
  obtain ⟨given, pending⟩ := reading
  rcases pending with _ | ⟨argument, _ | value⟩ <;> rfl

/-- Values are taken in after those that were taken in before. -/
theorem take_eq_ok {argument : Argument} {values : List String}
    (taken : reading.take argument values = .ok after) :
    after = { reading with
      given := reading.given.insert argument.setting
        ((reading.given.get? argument.setting).getD [] ++ values) } := by
  dsimp only [take] at taken
  split at taken
  · cases taken
  · split at taken
    · cases taken
    · exact (Except.ok.inj taken).symm

/-- Taking values in adds them to those of their option. -/
theorem Holds.take {argument : Argument} {values : List String}
    (holds : Holds setting reading given none) (settled : reading.pending = none)
    (useful : argument.setting = setting → values ≠ [])
    (taken : reading.take argument values = .ok after) :
    Holds setting after (given ++ values.map fun value => (argument.setting, value)) none := by
  obtain rfl := take_eq_ok taken
  have before := holds.soFar
  simp only [Reading.soFar, settled, List.append_nil] at before
  have valuesTaken : Occurrences.valuesOf (values.map fun value => (argument.setting, value))
      setting = if argument.setting = setting then values else [] := by
    by_cases same : argument.setting = setting
    · simp [Occurrences.valuesOf, same, Function.comp_def, List.filter_map]
    · simp [Occurrences.valuesOf, same, Function.comp_def, List.filter_map]
  by_cases same : argument.setting = setting
  · subst same
    constructor
    · simp [Reading.soFar, settled, before, valuesTaken]
    · simp [useful rfl]
    · simp [Reading.waits, settled]
  · constructor
    · simp [Reading.soFar, settled, before, valuesTaken, same,
        Table.get?_insert_of_ne _ _ (Ne.symm same)]
    · simpa [Table.get?_insert_of_ne _ _ (Ne.symm same)] using holds.full
    · simp [Reading.waits, settled]

/-- What is being given is taken in at its place. That fails for an option without its value. -/
theorem Holds.settle (holds : Holds setting reading given waiting)
    (settled : reading.settle = .ok after) :
    Holds setting after given none ∧ after.pending = none ∧ waiting = none := by
  obtain ⟨known, pending⟩ := reading
  have waits := holds.waits
  rcases pending with _ | ⟨argument, _ | value⟩
  · obtain rfl := Except.ok.inj settled
    subst waits
    exact ⟨holds, rfl, rfl⟩
  · nomatch settled
  · obtain rfl := take_eq_ok settled
    subst waits
    have before := holds.soFar
    have full := holds.full
    refine ⟨?_, rfl, rfl⟩
    by_cases same : argument.setting = setting
    · subst same
      exact ⟨by simpa [Reading.soFar] using before, by simp, rfl⟩
    · have apart := Table.get?_insert_of_ne known
        ((known.get? argument.setting).getD [] ++ [value]) (Ne.symm same)
      exact ⟨by simpa [Reading.soFar, apart, same] using before, by simpa [apart] using full, rfl⟩

/-- A switch is taken in without values. -/
theorem Holds.take_switch {argument : Argument} (holds : Holds setting reading given none)
    (settled : reading.pending = none) (other : argument.setting ≠ setting)
    (taken : reading.take argument [] = .ok after) : Holds setting after given none := by
  have added := holds.take settled (fun same => absurd same other) taken
  simpa using added

/-- An option that takes a value is taken in with the one attached to it, or waits for one. -/
theorem begin_of_valued {option : Argument} (valued : ¬(option.form = .switch ∨ option.form = .ending))
    (attached : Option String) :
    reading.begin option attached = reading.settle >>= fun settled =>
      match attached with
      | some value => settled.take option [value]
      | none => .ok { settled with pending := some (option, none) } := by
  rw [Reading.begin]
  congr 1
  funext settled
  cases form : option.form with
  | switch => exact absurd (.inl form) valued
  | ending => exact absurd (.inr form) valued
  | single => cases attached <;> rfl
  | repeated => cases attached <;> rfl

/-- An option that begins gives what is attached to it, or waits for its value. No other option can have
    been waiting. -/
theorem Holds.begin {option : Argument} {attached : Option String}
    (holds : Holds setting reading given waiting) (search : setting ∈ searchSettings)
    (known : option ∈ level.options) (begun : reading.begin option attached = .ok after) :
    Holds setting after (given ++ (option.gives attached).1) (option.gives attached).2 ∧
      waiting = none := by
  by_cases valueless : option.form = .switch ∨ option.form = .ending
  · simp only [Argument.gives, if_pos valueless, List.append_nil]
    rw [Reading.begin, bind_eq_ok] at begun
    obtain ⟨between, settled, begun⟩ := begun
    obtain ⟨held, nothing, rfl⟩ := holds.settle settled
    rcases valueless with form | form
    · rw [form] at begun
      have other : option.setting ≠ setting :=
        fun same => Level.not_search_of_switch known form (same ▸ search)
      exact ⟨held.take_switch nothing other begun, rfl⟩
    · rw [form] at begun
      nomatch begun
  · simp only [Argument.gives, if_neg valueless]
    rw [begin_of_valued valueless, bind_eq_ok] at begun
    obtain ⟨between, settled, begun⟩ := begun
    obtain ⟨held, nothing, rfl⟩ := holds.settle settled
    refine ⟨?_, rfl⟩
    cases attached with
    | some value => exact held.take nothing (fun _ => List.cons_ne_nil _ _) begun
    | none =>
      obtain rfl := Except.ok.inj begun
      have before := held.soFar
      rw [List.append_nil]
      exact ⟨by simpa [Reading.soFar, nothing] using before, held.full, rfl⟩

/-- An argument with two hyphens gives what is in it. -/
theorem Holds.readLong {text : String} (holds : Holds setting reading given waiting)
    (search : setting ∈ searchSettings) (read : readLong level reading text = .ok after) :
    Holds setting after (given ++ (level.inLong text).1) (level.inLong text).2 ∧
      waiting = none := by
  have named (name : String) (attached : Option String)
      (read : (match level.byName? name with
        | none => .error (.unknownArgument text)
        | some option =>
          if (option.form = .switch ∨ option.form = .ending) ∧ attached.isSome then
            .error (.unexpectedValue option.setting)
          else reading.begin option attached) = Except.ok after) :
      Holds setting after (given ++ (level.inNamed name attached).1)
        (level.inNamed name attached).2 ∧ waiting = none := by
    rw [Level.inNamed]
    cases found : level.byName? name with
    | none =>
      simp only [found] at read
      nomatch read
    | some option =>
      simp only [found] at read ⊢
      split at read
      · nomatch read
      · exact holds.begin search (List.mem_of_find?_eq_some found) read
  unfold Reading.readLong at read
  unfold Level.inLong
  generalize Text.splitFirst '=' text.toList = parts at read ⊢
  cases parts with
  | none => exact named _ _ read
  | some parts => exact named _ _ read

/-- Letters after one hyphen give what is in them. Induct on the letters: a switch goes on with the next
    one. -/
theorem Holds.readShort {letters : List Char} (holds : Holds setting reading given waiting)
    (search : setting ∈ searchSettings) (some : letters ≠ [])
    (read : readShort level reading letters = .ok after) :
    Holds setting after (given ++ (level.inLetters letters).1) (level.inLetters letters).2 ∧
      waiting = none := by
  induction letters generalizing reading given waiting with
  | nil => exact absurd rfl some
  | cons letter rest inductionHypothesis =>
    rw [Reading.readShort] at read
    rw [Level.inLetters]
    cases found : level.byLetter? letter with
    | none =>
      simp only [found] at read
      nomatch read
    | some option =>
      have known : option ∈ level.options := List.mem_of_find?_eq_some found
      simp only [found] at read ⊢
      split at read
      · next valueless =>
        rw [if_pos valueless]
        obtain ⟨between, begun, read⟩ := bind_eq_ok.mp read
        obtain ⟨held, rfl⟩ := holds.begin search known begun
        simp only [Argument.gives, if_pos valueless, List.append_nil] at held
        refine ⟨?_, rfl⟩
        cases rest with
        | nil =>
          obtain rfl := Except.ok.inj read
          simpa [Level.inLetters] using held
        | cons next rest => exact (inductionHypothesis held (List.cons_ne_nil _ _) read).1
      · next valued =>
        rw [if_neg valued]
        exact holds.begin search known read

/-- A positional argument gives no option of the search path. -/
theorem Holds.readPositional {text : String} (holds : Holds setting reading given waiting)
    (search : setting ∈ searchSettings) (read : readPositional level reading text = .ok after) :
    Holds setting after given none ∧ waiting = none := by
  unfold Reading.readPositional at read
  split at read
  · next argument positional =>
    split at read
    · obtain ⟨between, settled, read⟩ := bind_eq_ok.mp read
      obtain ⟨held, nothing, rfl⟩ := holds.settle settled
      obtain rfl := Except.ok.inj read
      have other : argument.setting ≠ setting :=
        fun same => Level.not_search_of_positional positional (same ▸ search)
      have before := held.soFar
      refine ⟨⟨?_, held.full, rfl⟩, rfl⟩
      simpa [Reading.soFar, nothing, other] using before
    · cases read
  · cases read

/-- Arguments after the end of the options give no option of the search path. Induct on them. -/
theorem Holds.readTrailing {texts : List String} (holds : Holds setting reading given waiting)
    (search : setting ∈ searchSettings) (read : readTrailing level reading texts = .ok after) :
    ∃ waiting, Holds setting after given waiting := by
  induction texts generalizing reading waiting with
  | nil =>
    obtain rfl := Except.ok.inj read
    exact ⟨waiting, holds⟩
  | cons text texts inductionHypothesis =>
    rw [Reading.readTrailing, List.foldlM_cons, bind_eq_ok] at read
    obtain ⟨between, first, read⟩ := read
    split at first
    · nomatch first
    · exact inductionHypothesis (holds.readPositional search first).1 read

/-- An option that waits is given the argument as its value. -/
theorem Holds.giveValue {waitingSetting : Setting}
    (holds : Holds setting reading given (some waitingSetting)) (text : String) :
    Holds setting (reading.giveValue text) (given ++ [(waitingSetting, text)]) none := by
  obtain ⟨known, pending⟩ := reading
  have waits := holds.waits
  rcases pending with _ | ⟨argument, _ | value⟩
  · cases waits
  · obtain rfl := Option.some.inj waits
    have before := holds.soFar
    refine ⟨?_, holds.full, rfl⟩
    simpa [Reading.soFar, Reading.giveValue] using before
  · cases waits

/-- One hyphen with something after it has letters after it. -/
theorem ne_nil_of_short {text : String} {letters : List Char} (shape : shapeOf text = .short letters) :
    letters ≠ [] := by
  unfold shapeOf at shape
  split at shape
  · nomatch shape
  · nomatch shape
  · obtain rfl := Shape.short.inj shape
    exact List.cons_ne_nil _ _
  · nomatch shape

/-- The arguments of a level give what is listed of them. Induct on the arguments: each one gives what
    is in it, and the rest goes on with what it leaves waiting. -/
theorem Holds.readAll {arguments : List String} {found : Option (String × List String)}
    (holds : Holds setting reading given waiting) (search : setting ∈ searchSettings)
    (read : readAll level reading arguments = .ok (after, found)) :
    (∃ waits, Holds setting after (given ++ (level.listing waiting arguments).1) waits) ∧
      found = (level.listing waiting arguments).2 := by
  induction arguments generalizing reading given waiting with
  | nil =>
    obtain ⟨rfl, rfl⟩ := Prod.mk.inj (Except.ok.inj read)
    rw [Level.listing, List.append_nil]
    exact ⟨⟨waiting, holds⟩, rfl⟩
  | cons text rest inductionHypothesis =>
    -- What an option gives comes before what the rest gives.
    have goOn {between : Reading} {now : Occurrences} {next : Option Setting}
        (held : Holds setting between (given ++ now) next)
        (read : Reading.readAll level between rest = .ok (after, found)) :
        (∃ waits, Holds setting after (given ++ (now ++ (level.listing next rest).1)) waits) ∧
          found = (level.listing next rest).2 := by
      rw [← List.append_assoc]
      exact inductionHypothesis held read
    rw [Reading.readAll, awaitsValue_eq, holds.waits] at read
    by_cases word : level = none ∧ waiting = none ∧ isCommandWord text
    · obtain ⟨rfl, rfl, isWord⟩ := word
      rw [if_pos ⟨rfl, rfl, isWord⟩] at read
      obtain ⟨rfl, rfl⟩ := Prod.mk.inj (Except.ok.inj read)
      simp only [Level.listing, isWord, and_self, if_true, List.append_nil]
      exact ⟨⟨none, holds⟩, trivial⟩
    · have noCommand (settled : waiting = none) : ¬(level = none ∧ isCommandWord text) :=
        fun command => word ⟨command.1, settled, command.2⟩
      rw [if_neg (by simpa using word)] at read
      -- An option cannot begin while another one waits, so what waits is settled by reading it.
      cases shape : shapeOf text with
      | terminator =>
        simp only [shape] at read
        obtain ⟨between, trailing, read⟩ := bind_eq_ok.mp read
        obtain ⟨rfl, rfl⟩ := Prod.mk.inj (Except.ok.inj read)
        have nothing : level.listing waiting (text :: rest) = ([], none) := by
          cases waiting with
          | some setting => simp only [Level.listing, shape]
          | none => simp only [Level.listing, shape, if_neg (noCommand rfl)]
        rw [nothing, List.append_nil]
        exact ⟨holds.readTrailing search trailing, rfl⟩
      | long name =>
        simp only [shape] at read
        obtain ⟨between, long, read⟩ := bind_eq_ok.mp read
        obtain ⟨held, rfl⟩ := holds.readLong search long
        simp only [Level.listing, shape, if_neg (noCommand rfl)]
        exact goOn held read
      | short letters =>
        simp only [shape] at read
        obtain ⟨between, short, read⟩ := bind_eq_ok.mp read
        obtain ⟨held, rfl⟩ := holds.readShort search (ne_nil_of_short shape) short
        simp only [Level.listing, shape, if_neg (noCommand rfl)]
        exact goOn held read
      | plain =>
        simp only [shape] at read
        cases waiting with
        | some waitingSetting =>
          simp only [Option.isSome_some, if_true, Level.listing, shape] at read ⊢
          exact goOn (holds.giveValue text) read
        | none =>
          simp only [Option.isSome_none, Bool.false_eq_true, if_false] at read
          obtain ⟨between, positional, read⟩ := bind_eq_ok.mp read
          simp only [Level.listing, shape, if_neg (noCommand rfl)]
          exact inductionHypothesis (holds.readPositional search positional).1 read

/-- Nothing is read at first. -/
theorem Holds.nothing (setting : Setting) : Holds setting {} [] none where
  soFar := by simp [Reading.soFar]
  full := by simp
  waits := rfl

end Reading

/-- The values of an option that were read of a level, once all is taken in. -/
theorem Reading.Holds.get? {setting : Setting} {reading : Reading} {given : Occurrences}
    (holds : Holds setting reading given none) (settled : reading.pending = none) :
    reading.given.get? setting =
      if given.valuesOf setting = [] then none else some (given.valuesOf setting) := by
  have values := holds.soFar
  simp only [Reading.soFar, settled, List.append_nil] at values
  rw [← values]
  have full := holds.full
  cases known : reading.given.get? setting with
  | none => simp
  | some values =>
    rw [known] at full
    have some : values ≠ [] := fun none => full (congrArg Option.some none)
    simp [some]

namespace Occurrences

/-- The flags that hold for each option all of its values in a list of occurrences. -/
def flags (given : Occurrences) : Flags where
  quote := (given.valuesOf .quote).map Path.mk
  angled := (given.valuesOf .angled).map Path.mk
  framework := (given.valuesOf .framework).map Path.mk
  system := (given.valuesOf .system).map Path.mk
  systemFramework := (given.valuesOf .systemFramework).map Path.mk
  headerMaps := (given.valuesOf .headerMap).map Path.mk
  indexHeaderMaps := (given.valuesOf .indexHeaderMap).map Path.mk
  systemFrameworkNames := given.valuesOf .systemFrameworkName

/-- Lists of occurrences have the same flags if the values of each option of the search path are the
    same. -/
theorem flags_eq_iff {first second : Occurrences} :
    first.flags = second.flags ↔
      ∀ setting ∈ searchSettings, first.valuesOf setting = second.valuesOf setting := by
  have paths (one other : List String) : one.map Path.mk = other.map Path.mk ↔ one = other :=
    List.map_inj_right fun _ _ => Path.mk.inj
  simp only [flags, Flags.mk.injEq, paths, searchSettings, List.forall_mem_cons,
    List.not_mem_nil, false_implies, implies_true, and_true]

/-- What is left of the occurrences before the name of a command: those of options that are not given
    after it, and all after it. -/
def kept (before after : Occurrences) : Occurrences :=
  before.filter (fun item => item.1 ∉ after.map Prod.fst) ++ after

/-- An option keeps its values before the name of the command if it is not given after it. -/
theorem valuesOf_kept (before after : Occurrences) (setting : Setting) :
    (kept before after).valuesOf setting =
      if after.valuesOf setting = [] then before.valuesOf setting
      else after.valuesOf setting := by
  have filtered : valuesOf (before.filter fun item => item.1 ∉ after.map Prod.fst) setting =
      if setting ∈ after.map Prod.fst then [] else before.valuesOf setting := by
    induction before with
    | nil => simp
    | cons item before inductionHypothesis =>
      by_cases there : item.1 ∈ after.map Prod.fst
      · rw [List.filter_cons_of_neg (by simpa using there), inductionHypothesis, valuesOf_cons]
        by_cases same : item.1 = setting
        · rw [if_pos (same ▸ there), if_pos (same ▸ there)]
        · rw [if_neg same]
      · rw [List.filter_cons_of_pos (by simpa using there), valuesOf_cons, inductionHypothesis,
          valuesOf_cons]
        by_cases same : item.1 = setting
        · rw [if_pos same, if_neg (same ▸ there), if_neg (same ▸ there), if_pos same]
        · rw [if_neg same, if_neg same]
  rw [kept, valuesOf_append, filtered]
  by_cases none : after.valuesOf setting = []
  · rw [if_pos none, if_neg (valuesOf_eq_nil_iff.mp none), none, List.append_nil]
  · have there : setting ∈ after.map Prod.fst :=
      Decidable.byContradiction fun absent => none (valuesOf_eq_nil_iff.mpr absent)
    rw [if_neg none, if_pos there, List.nil_append]

/-- Everything is kept if no option of the search path is given on both sides, and only then. -/
theorem kept_eq_iff (before after : Occurrences) :
    (kept before after).flags = flags (before ++ after) ↔
      ∀ setting ∈ searchSettings,
        setting ∉ before.map Prod.fst ∨ setting ∉ after.map Prod.fst := by
  rw [flags_eq_iff]
  refine forall_congr' fun setting => imp_congr_right fun _ => ?_
  rw [valuesOf_kept, valuesOf_append, ← valuesOf_eq_nil_iff, ← valuesOf_eq_nil_iff]
  by_cases none : after.valuesOf setting = []
  · simp [none]
  · simp [none]

end Occurrences

/-- What a command line gives before the name of its command, and after it. -/
def sides (arguments : List String) : Occurrences × Occurrences :=
  let before := Level.listing none none arguments
  (before.1,
    match before.2 with
    | none => []
    | some (word, rest) => (Level.listing (CommandName.ofName? word) none rest).1)

/-- The values of an option of the search path are those given after the name of the command, or those
    before it if there are none. -/
theorem Settings.values_eq {first second : Reading} {before after : Occurrences} {setting : Setting}
    (holdsBefore : first.Holds setting before none) (settledBefore : first.pending = none)
    (holdsAfter : second.Holds setting after none) (settledAfter : second.pending = none) :
    Settings.values ⟨first.given, second.given⟩ setting =
      (Occurrences.kept before after).valuesOf setting := by
  rw [Settings.values, holdsBefore.get? settledBefore, holdsAfter.get? settledAfter,
    Occurrences.valuesOf_kept]
  by_cases none : after.valuesOf setting = []
  · by_cases noneBefore : before.valuesOf setting = []
    · simp [none, noneBefore]
    · simp [none, noneBefore]
  · simp [none]

/-- The flags of two levels that were read are those of what is kept of their occurrences. -/
theorem Settings.flags_eq {first second : Reading} {before after : Occurrences}
    (holds : ∀ setting ∈ searchSettings,
      Settings.values ⟨first.given, second.given⟩ setting =
        (Occurrences.kept before after).valuesOf setting) :
    Settings.flags ⟨first.given, second.given⟩ = (Occurrences.kept before after).flags := by
  simp only [searchSettings, List.forall_mem_cons, List.not_mem_nil, false_implies,
    implies_true, and_true] at holds
  obtain ⟨quote, angled, framework, system, systemFramework, headerMap, indexHeaderMap, name⟩ := holds
  rw [Settings.flags, Settings.paths, Settings.paths, Settings.paths, Settings.paths,
    Settings.paths, Settings.paths, Settings.paths, quote, angled, framework, system,
    systemFramework, headerMap, indexHeaderMap, name, Occurrences.flags]

/-- The flags of an accepted command line are those of what is kept of its two sides. -/
theorem flags_of_parse {arguments : List String} {invocation : Invocation}
    (accepted : parse arguments = .ok invocation) :
    invocation.flags = (Occurrences.kept (sides arguments).1 (sides arguments).2).flags := by
  unfold parse at accepted
  obtain ⟨⟨first, found⟩, readFirst, accepted⟩ := bind_eq_ok.mp accepted
  cases found with
  | none =>
    obtain ⟨settled, _, accepted⟩ := bind_eq_ok.mp accepted
    split at accepted
    · nomatch accepted
    · nomatch accepted
  | some found =>
    obtain ⟨word, rest⟩ := found
    cases known : CommandName.ofName? word with
    | none =>
      simp only [known] at accepted
      nomatch accepted
    | some name =>
      simp only [known] at accepted
      obtain ⟨⟨second, later⟩, readSecond, accepted⟩ := bind_eq_ok.mp accepted
      obtain ⟨secondSettled, settleSecond, accepted⟩ := bind_eq_ok.mp accepted
      obtain ⟨command, _, accepted⟩ := bind_eq_ok.mp accepted
      obtain ⟨firstSettled, settleFirst, accepted⟩ := bind_eq_ok.mp accepted
      obtain rfl := Except.ok.inj accepted
      have found := ((Reading.Holds.nothing .quote).readAll (by decide) readFirst).2
      have split : sides arguments =
          ((Level.listing none none arguments).1, (Level.listing (some name) none rest).1) := by
        simp only [sides, ← found, known]
      rw [split]
      refine Settings.flags_eq fun setting search => ?_
      obtain ⟨⟨_, heldFirst⟩, _⟩ := (Reading.Holds.nothing setting).readAll search readFirst
      obtain ⟨⟨_, heldSecond⟩, _⟩ := (Reading.Holds.nothing setting).readAll search readSecond
      obtain ⟨heldFirst, settledFirst, _⟩ := heldFirst.settle settleFirst
      obtain ⟨heldSecond, settledSecond, _⟩ := heldSecond.settle settleSecond
      exact Settings.values_eq heldFirst settledFirst heldSecond settledSecond

example : sides ["-vIa", "--iquote=q", "list", "--isystem", "s", "--stats", "-I", "b"] =
    ([(.angled, "a"), (.quote, "q")], [(.system, "s"), (.angled, "b")]) := by decide

/-- The search path of an accepted command line, over every file system. What is given of an option
    after the name of the command holds alone: its values before the name are dropped. So the flags hold
    every value in the order of the command line if no option is given on both sides, and only then. A
    configuration in a file comes first, and that of the flags is appended. -/
theorem later_values_drop_earlier_ones {arguments : List String} {invocation : Invocation}
    (accepted : parse arguments = .ok invocation) :
    let (before, after) := sides arguments
    let flags := (Occurrences.kept before after).flags
    invocation.flags = flags ∧
      (flags = Occurrences.flags (before ++ after) ↔
        ∀ setting ∈ searchSettings,
          setting ∉ before.map Prod.fst ∨ setting ∉ after.map Prod.fst) ∧
      ∀ facts : FileFacts,
        (invocation.config = none →
          (invocation.searchConfig : FileFacts.Given facts _).result = .ok (.ofFlags flags)) ∧
        ∀ path text config, invocation.config = some path → facts.read path = .ok text →
          Config.ofText? text = some config →
          (invocation.searchConfig : FileFacts.Given facts _).result =
            .ok (config.merge (.ofFlags flags)) := by
  have held := flags_of_parse accepted
  generalize sides arguments = parts at held ⊢
  obtain ⟨before, after⟩ := parts
  refine ⟨held, Occurrences.kept_eq_iff _ _, fun facts => ⟨fun alone => ?_, ?_⟩⟩
  · simp only [Invocation.searchConfig, alone, held, FileFacts.Given.result_pure]
  · intro path text config named readable parsed
    have answer : (FileSystem.read path : FileFacts.Given facts _).result = .ok text := readable
    simp only [Invocation.searchConfig, named, held, FileFacts.Given.result_bind, answer, parsed,
      FileFacts.Given.result_pure]

/-- Options on both sides of a name, none of them on each. -/
theorem mixed_values_are_held :
    ∃ invocation,
      parse ["-I", "a", "--iquote=q", "list", "--isystem", "s"] = .ok invocation ∧
        invocation.flags = { angled := [⟨"a"⟩], quote := [⟨"q"⟩], system := [⟨"s"⟩] } := by
  obtain ⟨invocation, accepted⟩ : ∃ invocation,
      parse ["-I", "a", "--iquote=q", "list", "--isystem", "s"] = .ok invocation := ⟨_, rfl⟩
  exact ⟨invocation, accepted, (later_values_drop_earlier_ones accepted).1⟩

/-- A directory before the name of a command is lost if there is one after it. -/
theorem directory_before_command_is_lost :
    ∃ invocation, parse ["-I", "a", "list", "-I", "b"] = .ok invocation ∧
      sides ["-I", "a", "list", "-I", "b"] = ([(.angled, "a")], [(.angled, "b")]) ∧
      (invocation.searchConfig : FileFacts.Given .nothing _).result ≠
        .ok (.ofFlags (Occurrences.flags [(.angled, "a"), (.angled, "b")])) := by
  refine ⟨_, rfl, by decide, fun same => ?_⟩
  nomatch Except.ok.inj same

end HeaderSearch.CommandLine
