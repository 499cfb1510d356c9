import HeaderSearch.Proofs.CanonicalStore

/-!
# Written paths

A report gives a directory and a part below it as two texts, and whoever reads it writes them one after
the other with a `/` between them. `Walked` says what a file system does with such a path: it goes on
from the directory that the first text names, whatever its spelling. So the written path names what the
store found below the directory, unless the part starts at the root.
-/

namespace HeaderSearch

/-- What is written behind a text that is not empty does not change its first character. -/
theorem Text.head_append {text : String} (some : text ≠ "") (after : String) :
    (text ++ after).toList.head? = text.toList.head? := by
  rw [String.toList_append]
  cases letters : text.toList with
  | nil => exact absurd (String.toList_eq_nil_iff.1 letters) some
  | cons first rest => rfl

namespace Path

/-- The components that the parts of a body stand for. -/
def inner (body : List Char) : List Component :=
  ((Text.splitOn '/' body).filter counts).map componentOf

@[simp] theorem inner_nil : inner [] = [] := rfl

/-- The components around a separator are those on both sides of it. -/
theorem inner_append (before after : List Char) :
    inner (before ++ '/' :: after) = inner before ++ inner after := by
  rw [inner, Text.splitOn_append, List.filter_append, List.map_append]
  rfl

/-- What is written behind a text that is not empty does not change how the text starts. -/
theorem lead_append {text : List Char} (some : text ≠ []) (after : List Char) :
    lead (text ++ '/' :: after) =
      ((lead text).1, (lead text).2.1, (lead text).2.2 ++ '/' :: after) := by
  cases text with
  | nil => exact absurd rfl some
  | cons first rest =>
    by_cases root : first = '/'
    · subst root
      rfl
    · by_cases current : first = '.'
      · subst current
        cases rest with
        | nil => rfl
        | cons second rest =>
          by_cases alone : second = '/'
          · subst alone
            rfl
          · simp [lead, alone]
      · simp [lead, root, current]

/-- A name written below a path that is not empty adds its components. -/
theorem components_below {base : Path} (some : base.text ≠ "") (name : String) :
    (Path.mk (base.text ++ "/" ++ name)).components = base.components ++ inner name.toList := by
  have letters : base.text.toList ≠ [] := fun none => some (String.toList_eq_nil_iff.1 none)
  have joined : (base.text ++ "/" ++ name).toList = base.text.toList ++ '/' :: name.toList := by
    simp
  unfold components
  dsimp only
  rw [joined, lead_append letters]
  dsimp only
  rw [← inner, inner_append, ← List.append_assoc]
  rfl

/-- A name that does not start at the root adds the same components when it is joined to the path. The
    path may end with a `/`, and then none is written between the two. -/
theorem components_join {base : Path} (some : base.text ≠ "") {name : String}
    (relative : name.toList.head? ≠ .some '/') :
    (base.join name).components = base.components ++ inner name.toList := by
  unfold join
  dsimp only
  rw [if_neg relative]
  split
  · next ending =>
    obtain ⟨before, ends⟩ : ∃ before, base.text.toList = before ++ ['/'] := by
      rcases ending with none | last
      · exact absurd (String.toList_eq_nil_iff.1 none) some
      · exact ⟨_, (List.dropLast_append_getLast? '/' last).symm⟩
    obtain rfl : base = ⟨String.ofList before ++ "/"⟩ := by
      refine congrArg Path.mk (String.toList_inj.1 ?_)
      simp [ends]
    by_cases root : before = []
    · subst root
      have letters : ("/" ++ name).toList = '/' :: name.toList := by simp
      change (Path.mk ("/" ++ name)).components = [.root] ++ inner name.toList
      rw [components, letters]
      rfl
    · have text : (Path.mk (String.ofList before)).text ≠ "" := by simpa using root
      have below := components_below text
      have alone := below ""
      rw [String.append_empty] at alone
      rw [below, alone]
      simp
  · exact components_below some name

/-- Two names joined one after the other are joined at once with a `/` between them, unless the first is
    empty or ends with one or one of them starts at the root. -/
theorem join_join (base : Path) {name part : String} {last : Char}
    (ends : name.toList.getLast? = some last) (inside : last ≠ '/')
    (relative : name.toList.head? ≠ some '/') (partRelative : part.toList.head? ≠ some '/') :
    (base.join name).join part = base.join (name ++ "/" ++ part) := by
  have joinedRelative : (name ++ "/" ++ part).toList.head? ≠ some '/' := by
    have nonempty : name ≠ "" := by
      rintro rfl
      simp at ends
    rwa [String.append_assoc, Text.head_append nonempty]
  obtain ⟨before, joined⟩ : ∃ before, ∀ other : String, other.toList.head? ≠ some '/' →
      base.join other = ⟨before ++ other⟩ := by
    unfold join
    dsimp only
    split
    · exact ⟨base.text, fun other relative => if_neg relative⟩
    · exact ⟨base.text ++ "/", fun other relative => if_neg relative⟩
  rw [joined name relative, joined _ joinedRelative]
  have unended : ¬((before ++ name).toList = [] ∨ (before ++ name).toList.getLast? = some '/') := by
    rw [String.toList_append, List.getLast?_append, ends]
    rintro (none | separator)
    · rw [(List.append_eq_nil_iff.1 none).2] at ends
      cases ends
    · exact inside (Option.some.inj separator)
  unfold join
  dsimp only
  rw [if_neg partRelative, if_neg unended, String.append_assoc, String.append_assoc,
    String.append_assoc]

/-- A text without backslashes is shown as it is. -/
theorem shown_eq_text {path : Path} (plain : '\\' ∉ path.text.toList) : path.shown = path.text := by
  have letters : path.text.toList.map (fun letter => if letter = '\\' then '/' else letter) =
      path.text.toList := by
    refine (List.map_congr_left fun letter member => ?_).trans (List.map_id _)
    exact if_neg fun same : letter = '\\' => plain (same ▸ member)
  rw [shown, letters, String.ofList_toList]

/-- The empty text is the only one without components. -/
theorem text_ne_of_components {path : Path} (some : path.components ≠ []) : path.text ≠ "" := by
  intro empty
  refine some ?_
  rw [components, empty]
  rfl

end Path

namespace FileFacts

/-- Paths are walked part by part, with no limit on their length or on the links that are followed. -/
structure Walked (facts : FileFacts) : Prop where
  /-- The canonical path of a directory is its own canonical path. -/
  settled {path canonical : Path} : facts.kind? path = some .directory →
    facts.canonical? path = some canonical →
      facts.kind? canonical = some .directory ∧ facts.canonical? canonical = some canonical
  /-- A name written below a directory, in whatever spelling, leads to what it leads to from the canonical
      path of the directory, unless it starts at the root. -/
  onward {base canonical : Path} {name : String} : facts.kind? base = some .directory →
    facts.canonical? base = some canonical → name.toList.head? ≠ some '/' →
      facts.kind? ⟨base.text ++ "/" ++ name⟩ = facts.kind? (canonical.join name) ∧
        facts.canonical? ⟨base.text ++ "/" ++ name⟩ = facts.canonical? (canonical.join name)

/-- A listed file system answers alike about paths with the same components. -/
theorem listing_alike (directories files : List Path) {first second : Path}
    (same : first.components = second.components) :
    (listing directories files).kind? first = (listing directories files).kind? second ∧
      (listing directories files).canonical? first =
        (listing directories files).canonical? second := by
  have asked : (fun path : Path => path.same first) = fun path => path.same second := by
    funext path
    rw [Path.same, Path.same, same]
  constructor <;> simp only [listing, asked]

/-- What a listed file system has for a path has its components. -/
theorem components_of_listed {directories files : List Path} {path canonical : Path}
    (found : (listing directories files).canonical? path = some canonical) :
    canonical.components = path.components := by
  simpa [Path.same] using List.find?_some found

/-- A listed file system is walked part by part if every directory in it has a name. -/
theorem listing_walked {directories : List Path} (files : List Path)
    (named : ∀ path ∈ directories, path.components ≠ []) : (listing directories files).Walked where
  settled {path canonical} here found := by
    obtain ⟨kind, canonicalSame⟩ := listing_alike directories files (components_of_listed found)
    exact ⟨kind.trans here, canonicalSame.trans found⟩
  onward {base canonical name} here found relative := by
    have components := components_of_listed found
    have some : base.components ≠ [] := by
      have listed : directories.any (·.same base) = true := by
        by_contra unlisted
        unfold listing at here
        dsimp only at here
        rw [if_neg unlisted] at here
        split at here <;> cases here
      obtain ⟨path, member, same⟩ := List.any_eq_true.1 listed
      exact of_decide_eq_true same ▸ named path member
    refine listing_alike directories files ?_
    rw [Path.components_below (Path.text_ne_of_components some),
      Path.components_join (Path.text_ne_of_components (components ▸ some)) relative, components]

/-- A text names the regular file with a canonical path. -/
structure NamesFile (facts : FileFacts) (text : String) (canonical : Path) : Prop where
  regular : facts.kind? ⟨text⟩ = some .regular
  canonical : facts.canonical? ⟨text⟩ = some canonical

instance (facts : FileFacts) (text : String) (canonical : Path) :
    Decidable (facts.NamesFile text canonical) :=
  decidable_of_iff
    (facts.kind? ⟨text⟩ = some .regular ∧ facts.canonical? ⟨text⟩ = some canonical)
    ⟨fun names => ⟨names.1, names.2⟩, fun names => ⟨names.regular, names.canonical⟩⟩

variable {facts : FileFacts}

/-- Whatever is located is of the wanted kind and has the canonical path that is located. -/
theorem Coherent.of_located (coherent : facts.Coherent) {path canonical : Path} {wanted : FileKind}
    (located : facts.located? path wanted = some canonical) :
    facts.kind? path = some wanted ∧ facts.canonical? path = some canonical := by
  rw [located?_eq] at located
  split at located
  · next here =>
    obtain ⟨found, known⟩ := Option.isSome_iff_exists.1 (coherent.canonical here)
    rw [known, Option.getD_some] at located
    exact ⟨here, known.trans located⟩
  · cases located

/-- The canonical path of a directory locates itself. -/
theorem Walked.located (walked : facts.Walked) (coherent : facts.Coherent) {path base : Path}
    (located : facts.located? path .directory = some base) :
    facts.located? base .directory = some base := by
  obtain ⟨kind, canonical⟩ := coherent.of_located located
  obtain ⟨here, itself⟩ := walked.settled kind canonical
  rw [located?_eq, if_pos here, itself, Option.getD_some]

/-- A name written below a path of a directory locates what the name leads to from the directory. -/
theorem Walked.located_below (walked : facts.Walked) (coherent : facts.Coherent) {path base : Path}
    {name : String} (located : facts.located? path .directory = some base)
    (relative : name.toList.head? ≠ some '/') (wanted : FileKind) :
    facts.located? ⟨path.text ++ "/" ++ name⟩ wanted = facts.located? (base.join name) wanted := by
  obtain ⟨kind, canonical⟩ := coherent.of_located located
  obtain ⟨sameKind, sameCanonical⟩ := walked.onward kind canonical relative
  rw [located?_eq, located?_eq, sameKind, sameCanonical]
  by_cases here : facts.kind? (base.join name) = some wanted
  · obtain ⟨found, known⟩ := Option.isSome_iff_exists.1 (coherent.canonical here)
    rw [known, Option.getD_some, Option.getD_some]
  · rw [if_neg here, if_neg here]

/-- What a directory holds under a name is what the name written below a path of the directory names. -/
theorem Walked.names_below (walked : facts.Walked) (coherent : facts.Coherent)
    {path base file : Path} {name : String} (located : facts.located? path .directory = some base)
    (held : facts.located? (base.join name) .regular = some file)
    (relative : name.toList.head? ≠ some '/') :
    facts.NamesFile (path.text ++ "/" ++ name) file := by
  rw [← walked.located_below coherent located relative] at held
  obtain ⟨regular, found⟩ := coherent.of_located held
  exact ⟨regular, found⟩

/-- A name that starts at the root is what it names itself, whatever directory it is looked for in. -/
theorem Coherent.names_away (coherent : facts.Coherent) {base file : Path} {name : String}
    (held : facts.located? (base.join name) .regular = some file)
    (absolute : name.toList.head? = some '/') : facts.NamesFile name file := by
  have away : base.join name = ⟨name⟩ := if_pos absolute
  obtain ⟨regular, found⟩ := coherent.of_located (away ▸ held)
  exact ⟨regular, found⟩

end FileFacts

end HeaderSearch
