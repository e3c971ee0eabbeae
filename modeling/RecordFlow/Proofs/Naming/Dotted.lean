import RecordFlow.Name
import RecordFlow.Path
import Mathlib.Data.List.Basic

/-!
# Dotted names

## Segments put together

A dotted name can be longer by a segment, or by characters at the end of its last segment, and
is a dotted name still.  Legal names are references, and neither a namespace nor a query mark
stands in them.
-/

namespace RecordFlow

namespace Split

theorem parts_eq_splitOn (separator : Char) (text : List Char) :
    parts separator text = text.splitOn separator := by
  induction text with
  | nil => rfl
  | cons c rest ih =>
      rw [List.splitOn_cons_eq_if_modifyHead, ← ih, parts]
      by_cases hc : c = separator
      · rw [if_pos hc, if_pos (beq_iff_eq.mpr hc)]
      · rw [if_neg hc, if_neg fun heq => hc (beq_iff_eq.mp heq)]
        cases hrest : parts separator rest with
        | nil =>
            rw [ih] at hrest
            exact absurd hrest (List.splitOn_ne_nil separator rest)
        | cons first others => rfl

theorem parts_append_cons (separator : Char) (before after : List Char) :
    parts separator (before ++ separator :: after)
      = parts separator before ++ parts separator after := by
  rw [parts_eq_splitOn, parts_eq_splitOn, parts_eq_splitOn, List.splitOn_append_cons_self]

theorem parts_of_not_mem {separator : Char} {text : List Char} (h : separator ∉ text) :
    parts separator text = [text] := by
  rw [parts_eq_splitOn, List.splitOn_eq_singleton h]

/-- Text is one part, or two texts around a separator. -/
theorem partsInduction {motive : List Char → Prop} (separator : Char)
    (part : ∀ text, separator ∉ text → motive text)
    (between : ∀ before after, motive before → motive after →
      motive (before ++ separator :: after)) (text : List Char) : motive text := by
  by_cases h : separator ∈ text
  · rcases List.append_of_mem h with ⟨before, after, hsplit⟩
    have hlength : text.length = before.length + (after.length + 1) := by
      rw [hsplit, List.length_append, List.length_cons]
    rw [hsplit]
    exact between before after (partsInduction separator part between before)
      (partsInduction separator part between after)
  · exact part text h
termination_by text.length
decreasing_by all_goals omega

theorem exists_mem_parts {separator c : Char} {text : List Char} (hc : c ∈ text)
    (hne : c ≠ separator) : ∃ part ∈ parts separator text, c ∈ part := by
  induction text using partsInduction separator with
  | part text hpart =>
      rw [parts_of_not_mem hpart]
      exact ⟨text, List.mem_singleton_self text, hc⟩
  | between before after ihbefore ihafter =>
      rw [parts_append_cons]
      rcases List.mem_append.mp hc with hbefore | hrest
      · rcases ihbefore hbefore with ⟨part, hpart, hmem⟩
        exact ⟨part, List.mem_append_left _ hpart, hmem⟩
      · rcases List.mem_cons.mp hrest with heq | hafter
        · exact absurd heq hne
        · rcases ihafter hafter with ⟨part, hpart, hmem⟩
          exact ⟨part, List.mem_append_right _ hpart, hmem⟩

theorem toList_dotted (first rest : String) :
    (first ++ "." ++ rest).toList = first.toList ++ '.' :: rest.toList := by
  rw [String.toList_append, String.toList_append, List.append_assoc]
  rfl

theorem head_dotted {first : String} (h : '.' ∉ first.toList) (rest : String) :
    head (first ++ "." ++ rest) = (first, some rest) := by
  unfold head
  rw [toList_dotted, cut?_append _ h]
  dsimp only
  rw [String.ofList_toList, String.ofList_toList]

theorem head_of_not_mem {text : String} (h : '.' ∉ text.toList) : head text = (text, none) := by
  unfold head
  rw [cut?_eq_none_iff.mpr h]

theorem segments_of_not_mem {text : String} (h : '.' ∉ text.toList) : segments text = [text] := by
  unfold segments
  rw [parts_of_not_mem h, List.map_singleton, String.ofList_toList]

theorem segments_dotted {first : String} (h : '.' ∉ first.toList) (rest : String) :
    segments (first ++ "." ++ rest) = first :: segments rest := by
  unfold segments
  rw [toList_dotted, parts_append_cons, parts_of_not_mem h, List.singleton_append, List.map_cons,
    String.ofList_toList]

theorem segments_ne_nil (text : String) : segments text ≠ [] := by
  unfold segments
  rw [parts_eq_splitOn, Ne, List.map_eq_nil_iff]
  exact List.splitOn_ne_nil '.' text.toList

end Split

namespace Name

variable {allowed wider : Char → Bool} {text : List Char}

theorem isDotted_append_cons (before after : List Char) :
    isDotted allowed (before ++ '.' :: after) = (isDotted allowed before && isDotted allowed after) := by
  unfold isDotted
  rw [Split.parts_append_cons, List.all_append]

theorem isDotted_of_not_mem (h : '.' ∉ text) : isDotted allowed text = isSegment allowed text := by
  unfold isDotted
  rw [Split.parts_of_not_mem h, List.all_cons, List.all_nil, Bool.and_true]

theorem isSegment_append (h : isSegment allowed text = true) {word : List Char}
    (hword : word.all allowed = true) : isSegment allowed (text ++ word) = true := by
  cases text with
  | nil => cases h
  | cons c rest =>
      rcases Bool.and_eq_true_iff.mp h with ⟨hstart, hrest⟩
      show (isStart c && (rest ++ word).all allowed) = true
      rw [hstart, List.all_append, hrest, hword]
      rfl

theorem isDotted_append (h : isDotted allowed text = true) {word : List Char} (hdot : '.' ∉ word)
    (hword : word.all allowed = true) : isDotted allowed (text ++ word) = true := by
  induction text using Split.partsInduction '.' with
  | part text hpart =>
      have hnone : '.' ∉ text ++ word := by
        rw [List.mem_append]
        exact not_or.mpr ⟨hpart, hdot⟩
      rw [isDotted_of_not_mem hpart] at h
      rw [isDotted_of_not_mem hnone]
      exact isSegment_append h hword
  | between before after _ ih =>
      rw [isDotted_append_cons] at h
      rcases Bool.and_eq_true_iff.mp h with ⟨hbefore, hafter⟩
      rw [List.append_assoc, List.cons_append, isDotted_append_cons, hbefore, ih hafter]
      rfl

theorem isDotted_mono (h : isDotted allowed text = true)
    (hwider : ∀ c, allowed c = true → wider c = true) : isDotted wider text = true := by
  refine List.all_eq_true.mpr fun part hpart => ?_
  have hsegment := List.all_eq_true.mp h part hpart
  cases part with
  | nil => cases hsegment
  | cons c rest =>
      rcases Bool.and_eq_true_iff.mp hsegment with ⟨hstart, hrest⟩
      refine Bool.and_eq_true_iff.mpr ⟨hstart, List.all_eq_true.mpr fun d hd => ?_⟩
      exact hwider d (List.all_eq_true.mp hrest d hd)

theorem char_of_isDotted (h : isDotted allowed text = true) :
    ∀ c ∈ text, c = '.' ∨ isStart c = true ∨ allowed c = true := by
  induction text using Split.partsInduction '.' with
  | part text hpart =>
      rw [isDotted_of_not_mem hpart] at h
      cases text with
      | nil => cases h
      | cons first rest =>
          rcases Bool.and_eq_true_iff.mp h with ⟨hstart, hrest⟩
          intro c hc
          rcases List.mem_cons.mp hc with rfl | hmem
          · exact Or.inr (Or.inl hstart)
          · exact Or.inr (Or.inr (List.all_eq_true.mp hrest c hmem))
  | between before after ihbefore ihafter =>
      rw [isDotted_append_cons] at h
      rcases Bool.and_eq_true_iff.mp h with ⟨hbefore, hafter⟩
      intro c hc
      rcases List.mem_append.mp hc with hmem | hmem
      · exact ihbefore hbefore c hmem
      · rcases List.mem_cons.mp hmem with rfl | hrest
        · exact Or.inl rfl
        · exact ihafter hafter c hrest

theorem not_mem_of_isDotted (h : isDotted allowed text = true) {c : Char} (hdot : c ≠ '.')
    (hstart : isStart c = false) (hallowed : allowed c = false) : c ∉ text := by
  intro hmem
  rcases char_of_isDotted h c hmem with heq | hcase | hcase
  · exact hdot heq
  · rw [hstart] at hcase
    cases hcase
  · rw [hallowed] at hcase
    cases hcase

theorem not_mem_of_isSegment (h : isSegment allowed text = true) {c : Char}
    (hstart : isStart c = false) (hallowed : allowed c = false) : c ∉ text := by
  cases text with
  | nil => cases h
  | cons first rest =>
      rcases Bool.and_eq_true_iff.mp h with ⟨hfirst, hrest⟩
      intro hmem
      rcases List.mem_cons.mp hmem with rfl | hlater
      · rw [hstart] at hfirst
        cases hfirst
      · have hc := List.all_eq_true.mp hrest c hlater
        rw [hallowed] at hc
        cases hc

/-!
# Legal names

ASCII letters and digits are word characters.
-/

theorem toNat_lt_of_isAlphanum {c : Char} (h : c.isAlphanum = true) : c.toNat < 128 := by
  unfold Char.isAlphanum Char.isAlpha Char.isUpper Char.isLower Char.isDigit at h
  simp only [Bool.or_eq_true, Bool.and_eq_true, decide_eq_true_eq, ge_iff_le,
    UInt32.le_iff_toNat_le] at h
  show c.val.toNat < 128
  have hupper : ('Z').val.toNat = 90 := rfl
  have hlower : ('z').val.toNat = 122 := rfl
  have hdigit : ('9').val.toNat = 57 := rfl
  omega

theorem isWordChar_of_isAsciiWord (c : Char) (h : isAsciiWord c = true) : isWordChar c = true := by
  unfold isWordChar
  split
  · exact h
  · next hlarge =>
      rcases Bool.or_eq_true_iff.mp h with halphanum | hunderscore
      · exact absurd (toNat_lt_of_isAlphanum halphanum) hlarge
      · have hc : c = '_' := of_decide_eq_true hunderscore
        rw [hc] at hlarge
        exact absurd (by decide) hlarge

theorem isQuery_of_isValid {name : String} (h : isValid name = true) : isQuery name = false := by
  have hnot : queryMark ∉ name.toList :=
    not_mem_of_isDotted h (by decide) (by decide) (by decide)
  refine decide_eq_false ?_
  intro hlast
  exact hnot (List.mem_of_getLast? hlast)

theorem not_slash_of_isDotted (h : isDotted isWordChar text = true) : '/' ∉ text :=
  not_mem_of_isDotted h (by decide) (by decide) rfl

theorem isReference_of_isDotted {name : String} (h : isDotted isWordChar name.toList = true) :
    isReference name = true := by
  unfold isReference
  rw [Split.cut?_eq_none_iff.mpr (not_slash_of_isDotted h)]
  exact h

theorem parse_of_isDotted {name : String} (h : isDotted isWordChar name.toList = true) :
    (Path.parse name).isQualified = false := by
  unfold Path.parse Path.ofChars Path.separator
  rw [Split.cut?_eq_none_iff.mpr (not_slash_of_isDotted h)]
  rfl

theorem not_dot_of_isSegment (h : isSegment isWordChar text = true) : '.' ∉ text :=
  not_mem_of_isSegment h rfl rfl

theorem isDotted_of_isSegment (h : isSegment isWordChar text = true) :
    isDotted isWordChar text = true :=
  (isDotted_of_not_mem (not_dot_of_isSegment h)).trans h

/-!
# Behind a namespace

What stands before the first slash is the namespace, if that is a dotted name itself.
-/

theorem toList_qualified (space own : String) :
    (space ++ "/" ++ own).toList = space.toList ++ '/' :: own.toList := by
  rw [String.toList_append, String.toList_append, List.append_assoc]
  rfl

theorem cut?_qualified {space : String} (h : isDotted isWordChar space.toList = true)
    (own : String) :
    Split.cut? '/' (space ++ "/" ++ own).toList = some (space.toList, own.toList) := by
  rw [toList_qualified]
  exact Split.cut?_append _ (not_slash_of_isDotted h)

theorem parse_qualified {space : String} (h : isDotted isWordChar space.toList = true)
    (own : String) : Path.parse (space ++ "/" ++ own) = Path.qualified space own := by
  unfold Path.parse Path.ofChars Path.separator
  rw [cut?_qualified h]
  cases hspace : space.toList with
  | nil =>
      rw [hspace] at h
      cases h
  | cons c rest =>
      dsimp only
      rw [← hspace, String.ofList_toList, String.ofList_toList]

theorem isReference_qualified {space : String} (h : isDotted isWordChar space.toList = true)
    (own : String) : isReference (space ++ "/" ++ own) = isDotted isWordChar own.toList := by
  unfold isReference
  rw [cut?_qualified h]
  dsimp only
  rw [h, Bool.true_and]

end Name
end RecordFlow
