/-!
# Splitting text

## At the first separator, and at every separator

Paths and dotted names are read by splitting at single characters.  Gluing the
parts together with the separator gives the text back.
-/

namespace RecordFlow
namespace Split

def cut? (separator : Char) : List Char → Option (List Char × List Char)
  | [] => none
  | c :: rest =>
      if c = separator then some ([], rest)
      else (cut? separator rest).map fun (before, after) => (c :: before, after)

/-- The parts between separators; there is always at least one part. -/
def parts (separator : Char) : List Char → List (List Char)
  | [] => [[]]
  | c :: rest =>
      if c = separator then [] :: parts separator rest
      else
        match parts separator rest with
        | [] => [[c]]
        | first :: others => (c :: first) :: others

def segments (text : String) : List String :=
  (parts '.' text.toList).map String.ofList

/-- A dotted name as its first segment and the dotted rest, if there is one. -/
def head (text : String) : String × Option String :=
  match cut? '.' text.toList with
  | none => (text, none)
  | some (first, rest) => (String.ofList first, some (String.ofList rest))

def stripSuffix? (suffix text : List Char) : Option (List Char) :=
  if suffix.isSuffixOf text then some (text.take (text.length - suffix.length)) else none

def occursIn (wanted : List Char) : List Char → Bool
  | [] => wanted.isEmpty
  | c :: rest => wanted.isPrefixOf (c :: rest) || occursIn wanted rest

/-!
# What a cut finds

The separator is not in the part before it, and text without the separator is
not cut.
-/

theorem cut?_eq_some {separator : Char} {text before after : List Char}
    (h : cut? separator text = some (before, after)) :
    text = before ++ separator :: after ∧ separator ∉ before := by
  induction text generalizing before with
  | nil => simp [cut?] at h
  | cons c rest ih =>
      unfold cut? at h
      split at h
      · next heq =>
          simp only [Option.some.injEq, Prod.mk.injEq] at h
          obtain ⟨rfl, rfl⟩ := h
          simp [heq]
      · next hne =>
          obtain ⟨⟨before', after'⟩, hrest, heq⟩ := Option.map_eq_some_iff.mp h
          simp only [Prod.mk.injEq] at heq
          obtain ⟨rfl, rfl⟩ := heq
          obtain ⟨htext, hnot⟩ := ih hrest
          refine ⟨by simp [htext], ?_⟩
          simp only [List.mem_cons, not_or]
          exact ⟨Ne.symm hne, hnot⟩

theorem cut?_append {separator : Char} {before : List Char} (after : List Char)
    (h : separator ∉ before) :
    cut? separator (before ++ separator :: after) = some (before, after) := by
  induction before with
  | nil => simp [cut?]
  | cons c rest ih =>
      simp only [List.mem_cons, not_or] at h
      simp [cut?, Ne.symm h.1, ih h.2]

theorem cut?_eq_none_iff {separator : Char} {text : List Char} :
    cut? separator text = none ↔ separator ∉ text := by
  induction text with
  | nil => simp [cut?]
  | cons c rest ih =>
      unfold cut?
      split
      · next heq => simp [heq]
      · next hne => simp [ih, Ne.symm hne]

/-!
# What a suffix leaves

Taking a suffix off is the inverse of putting it behind the text.
-/

theorem stripSuffix?_eq_some_iff {suffix text rest : List Char} :
    stripSuffix? suffix text = some rest ↔ text = rest ++ suffix := by
  unfold stripSuffix?
  constructor
  · intro h
    split at h
    · next hends =>
        rcases List.isSuffixOf_iff_suffix.mp hends with ⟨front, rfl⟩
        rw [List.length_append, Nat.add_sub_cancel, List.take_left] at h
        cases h
        rfl
    · cases h
  · rintro rfl
    rw [if_pos (List.isSuffixOf_iff_suffix.mpr (List.suffix_append rest suffix)),
      List.length_append, Nat.add_sub_cancel, List.take_left]

end Split
end RecordFlow
