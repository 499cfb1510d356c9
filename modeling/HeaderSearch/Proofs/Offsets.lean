import HeaderSearch.SearchList.Probe
import HeaderSearch.Text.Offset

/-!
# Offsets into names

A name is split at its first `/`, and has a part from an offset on exactly if the offset is at the border of
a character. What a place finds for a name says where the part below the search directory starts, and it
says so in bytes. For every name, whatever its characters take up, that is the start of the name or just
past its first `/`.
-/

namespace HeaderSearch

namespace Text

/-- Cutting at the first separator succeeds exactly with the text before a separator that is not part
    of it, and the text after. Induct on the text, and on what is before the separator. -/
theorem splitFirst_eq_some_iff {separator : Char} {text before after : List Char} :
    splitFirst separator text = some (before, after) ↔
      text = before ++ separator :: after ∧ separator ∉ before := by
  constructor
  · intro cut
    induction text generalizing before with
    | nil => simp [splitFirst] at cut
    | cons letter rest inductionHypothesis =>
      rw [splitFirst] at cut
      split at cut
      · next same =>
        obtain ⟨rfl, rfl⟩ := Prod.mk.inj (Option.some.inj cut)
        exact ⟨by rw [same]; rfl, List.not_mem_nil⟩
      · next differs =>
        obtain ⟨⟨first, others⟩, found, same⟩ := Option.map_eq_some_iff.1 cut
        obtain ⟨rfl, rfl⟩ := Prod.mk.inj same
        obtain ⟨joined, absent⟩ := inductionHypothesis found
        refine ⟨by rw [joined]; rfl, fun member => ?_⟩
        rcases List.mem_cons.1 member with here | later
        · exact differs here.symm
        · exact absent later
  · rintro ⟨rfl, absent⟩
    induction before with
    | nil => simp [splitFirst]
    | cons letter before inductionHypothesis =>
      obtain ⟨differs, absent⟩ := List.ne_and_not_mem_of_not_mem_cons absent
      rw [List.cons_append, splitFirst, if_neg differs.symm, inductionHypothesis absent]
      rfl

/-- Skipping the bytes of the first characters leaves the others. -/
theorem dropBytes?_append (before after : List Char) :
    dropBytes? (String.ofList before).utf8ByteSize (before ++ after) = some after := by
  induction before with
  | nil => cases after <;> rfl
  | cons letter before inductionHypothesis =>
    have size : (String.ofList (letter :: before)).utf8ByteSize =
        (String.ofList before).utf8ByteSize + (letter.utf8Size - 1) + 1 := by
      have positive := letter.utf8Size_pos
      rw [String.ofList_cons, String.utf8ByteSize_append, String.utf8ByteSize_singleton]
      omega
    have positive := letter.utf8Size_pos
    rw [size, List.cons_append, dropBytes?, if_pos (by omega)]
    rw [show (String.ofList before).utf8ByteSize + (letter.utf8Size - 1) + 1 - letter.utf8Size =
      (String.ofList before).utf8ByteSize by omega]
    exact inductionHypothesis

/-- Some characters can be dropped exactly if the first ones take up the bytes. Induct on the text. -/
theorem dropBytes?_eq_some_iff {count : Nat} {text rest : List Char} :
    dropBytes? count text = some rest ↔
      ∃ before, text = before ++ rest ∧ (String.ofList before).utf8ByteSize = count := by
  constructor
  · intro dropped
    induction text generalizing count with
    | nil =>
      cases count with
      | zero =>
        obtain rfl := Option.some.inj dropped
        exact ⟨[], rfl, rfl⟩
      | succ count => simp [dropBytes?] at dropped
    | cons letter text inductionHypothesis =>
      cases count with
      | zero =>
        obtain rfl := Option.some.inj dropped
        exact ⟨[], rfl, rfl⟩
      | succ count =>
        rw [dropBytes?] at dropped
        split at dropped
        · next fits =>
          obtain ⟨before, rfl, size⟩ := inductionHypothesis dropped
          refine ⟨letter :: before, rfl, ?_⟩
          rw [String.ofList_cons, String.utf8ByteSize_append, String.utf8ByteSize_singleton, size]
          omega
        · simp at dropped
  · rintro ⟨before, rfl, rfl⟩
    exact dropBytes?_append before rest

/-- The part of a text from an offset on is what follows a beginning of that many bytes. -/
theorem suffixFrom?_eq_some_iff {text part : String} {offset : Nat} :
    suffixFrom? text offset = some part ↔
      ∃ before, text = before ++ part ∧ before.utf8ByteSize = offset := by
  rw [suffixFrom?, Option.map_eq_some_iff]
  constructor
  · rintro ⟨rest, dropped, rfl⟩
    obtain ⟨before, joined, size⟩ := dropBytes?_eq_some_iff.mp dropped
    refine ⟨String.ofList before, ?_, size⟩
    rw [← String.ofList_append, ← joined, String.ofList_toList]
  · rintro ⟨before, rfl, rfl⟩
    refine ⟨part.toList, dropBytes?_eq_some_iff.mpr ⟨before.toList, ?_, ?_⟩, String.ofList_toList⟩
    · rw [String.toList_append]
    · rw [String.ofList_toList]

/-- A text has a part from an offset on exactly if the offset is at the border of a character. -/
theorem isSome_suffixFrom?_iff {text : String} {offset : Nat} :
    (suffixFrom? text offset).isSome ↔ String.Pos.Raw.IsValid text ⟨offset⟩ := by
  rw [Option.isSome_iff_exists, String.Pos.Raw.isValid_iff_exists_append]
  constructor
  · rintro ⟨part, cut⟩
    obtain ⟨before, joined, rfl⟩ := suffixFrom?_eq_some_iff.mp cut
    exact ⟨before, part, joined, rfl⟩
  · rintro ⟨before, part, joined, same⟩
    exact ⟨part, suffixFrom?_eq_some_iff.mpr ⟨before, joined, (String.Pos.Raw.mk.inj same).symm⟩⟩

/-- An offset of a text is just past its first `/`, and something follows. -/
def PastFirstSlash (text : String) (offset : Nat) : Prop :=
  ∃ before after, text = before ++ "/" ++ after ∧ '/' ∉ before.toList ∧ after ≠ "" ∧
    offset = (before ++ "/").utf8ByteSize

/-- Past the first `/` a text has a part that is not empty. -/
theorem PastFirstSlash.part {text : String} {offset : Nat} (past : PastFirstSlash text offset) :
    ∃ part, suffixFrom? text offset = some part ∧ part ≠ "" := by
  obtain ⟨before, after, joined, -, some, rfl⟩ := past
  exact ⟨after, suffixFrom?_eq_some_iff.mpr ⟨before ++ "/", joined, rfl⟩, some⟩

/-- A part may start with the text or just past its first `/`. -/
def StartsPart (text : String) (offset : Nat) : Prop := offset = 0 ∨ PastFirstSlash text offset

/-- Where a part may start, there is one. -/
theorem StartsPart.isSome {text : String} {offset : Nat} (starts : StartsPart text offset) :
    (suffixFrom? text offset).isSome := by
  rcases starts with rfl | past
  · rw [suffixFrom?_zero]
    rfl
  · obtain ⟨part, cut, -⟩ := past.part
    rw [cut]
    rfl

end Text

namespace Framework

/-- A name is that of a framework, a `/` and the rest. The framework ends at the first `/`, and neither
    it nor the rest is empty. -/
structure Splits (name owner rest : String) : Prop where
  joined : name = owner ++ "/" ++ rest
  first : '/' ∉ owner.toList
  owned : owner ≠ ""
  remains : rest ≠ ""

/-- A name is split exactly into the parts that it splits into. -/
theorem splitName?_eq_some_iff {name owner rest : String} :
    splitName? name = some (owner, rest) ↔ Splits name owner rest := by
  constructor
  · intro split
    unfold splitName? at split
    cases cut : Text.splitFirst '/' name.toList with
    | none => simp [cut] at split
    | some parts =>
      obtain ⟨before, after⟩ := parts
      obtain ⟨joined, absent⟩ := Text.splitFirst_eq_some_iff.1 cut
      rw [cut] at split
      dsimp only at split
      split at split
      · cases split
      · next full =>
        obtain ⟨rfl, rfl⟩ := Prod.mk.inj (Option.some.inj split)
        refine ⟨?_, ?_, fun empty => full (.inl ?_), fun empty => full (.inr ?_)⟩
        · refine String.toList_inj.1 ?_
          simp [joined]
        · rwa [String.toList_ofList]
        · simpa using congrArg String.toList empty
        · simpa using congrArg String.toList empty
  · rintro ⟨rfl, first, owned, remains⟩
    have cut : Text.splitFirst '/' (owner ++ "/" ++ rest).toList =
        some (owner.toList, rest.toList) :=
      Text.splitFirst_eq_some_iff.2 ⟨by simp, first⟩
    rw [splitName?, cut]
    simp [owned, remains]

/-- The only parts that a name splits into. -/
theorem Splits.unique {name owner rest otherOwner otherRest : String}
    (split : Splits name owner rest) (other : Splits name otherOwner otherRest) :
    owner = otherOwner ∧ rest = otherRest := by
  have same := (splitName?_eq_some_iff.2 split).symm.trans (splitName?_eq_some_iff.2 other)
  exact Prod.mk.inj (Option.some.inj same)

/-- The rest of a name starts after the bytes of the framework and of the `/`. -/
theorem restStart_eq (owner : String) : restStart owner = (owner ++ "/").utf8ByteSize := by
  rw [String.utf8ByteSize_append]
  rfl

/-- The rest of a name starts where its offset says. -/
theorem suffix_from_rest_start {name owner rest : String}
    (split : splitName? name = some (owner, rest)) :
    Text.suffixFrom? name (restStart owner) = some rest := by
  obtain ⟨joined, -, -, -⟩ := splitName?_eq_some_iff.1 split
  exact Text.suffixFrom?_eq_some_iff.2 ⟨owner ++ "/", joined, (restStart_eq owner).symm⟩

/-- The rest of a name that splits starts past its first `/`. -/
theorem past_first_slash {name owner rest : String}
    (split : splitName? name = some (owner, rest)) :
    Text.PastFirstSlash name (restStart owner) := by
  obtain ⟨joined, first, -, remains⟩ := splitName?_eq_some_iff.1 split
  exact ⟨owner, rest, joined, first, remains, restStart_eq owner⟩

end Framework

/-- Whether a place is a header map. -/
def SearchPlace.isHeaderMap : SearchPlace → Bool
  | headerMap _ _ => true
  | _ => false

/-- What a place may find for a name. -/
structure PlaceHit.Fits (name : String) (place : SearchPlace) (hit : PlaceHit) : Prop where
  /-- The part below the search directory is a part of the name. -/
  start : Text.StartsPart name hit.relativeStart
  /-- Only header maps name files without a search directory. -/
  directory : hit.searchDirectory.isSome = !place.isHeaderMap

end HeaderSearch
