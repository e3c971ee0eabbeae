import RecordFlow.Proofs.Naming.Dotted

/-!
# Text of paths

## When a path is read back from its text

A path is written with a slash behind its namespace, and without one if it has no namespace.
Reading takes the first slash for the end of the namespace and drops it where nothing stands
before it.  Text that begins with a slash is therefore written without it, and if another slash
follows, that one is taken for the end of a namespace the next time.
-/

namespace RecordFlow
namespace Path

/-!
# What text is read as

Text without a slash is a bare name, and a slash at its beginning is dropped.
-/

theorem parse_slash (rest : String) : parse ("/" ++ rest) = bare rest := by
  have htext : ("/" ++ rest).toList = '/' :: rest.toList := String.toList_append
  unfold parse ofChars separator
  rw [htext, Split.cut?, if_pos rfl]
  dsimp only
  rw [String.ofList_toList]

theorem parse_cases (name : String) :
    (parse name).isQualified = true ∨ parse name = bare name ∨ ∃ rest, name = "/" ++ rest := by
  unfold parse ofChars separator
  cases hcut : Split.cut? '/' name.toList with
  | none =>
      dsimp only
      rw [String.ofList_toList]
      exact Or.inr (Or.inl rfl)
  | some parts =>
      rcases parts with ⟨_ | ⟨c, space⟩, own⟩
      · have hown : (String.ofList own).toList = own := String.toList_ofList
        refine Or.inr (Or.inr ⟨String.ofList own, String.toList_inj.mp ?_⟩)
        rw [(Split.cut?_eq_some hcut).1, String.toList_append, hown]
        rfl
      · exact Or.inl rfl

theorem parse_eq_bare_iff {name : String} : parse name = bare name ↔ '/' ∉ name.toList := by
  rw [← Split.cut?_eq_none_iff]
  unfold parse ofChars separator
  cases hcut : Split.cut? '/' name.toList with
  | none =>
      dsimp only
      rw [String.ofList_toList]
      exact iff_of_true rfl rfl
  | some parts =>
      refine iff_of_false ?_ (Option.some_ne_none parts)
      intro hbare
      rcases parts with ⟨_ | ⟨c, space⟩, own⟩
      · -- The name would be what stands behind its own first character.
        have hown : String.ofList own = name := congrArg Path.name hbare
        have htext := (Split.cut?_eq_some hcut).1
        rw [← hown, String.toList_ofList, List.nil_append] at htext
        exact List.cons_ne_self _ _ htext.symm
      · cases hbare

/-!
# What a path is written as

Text is kept by reading and writing, unless it begins with a slash.
-/

theorem text_parse {name : String} (h : (parse name).isQualified = true) :
    (parse name).text = name := by
  unfold parse ofChars at h ⊢
  split at h
  · cases h
  · cases h
  · next space own _ hcut =>
      rcases Split.cut?_eq_some hcut with ⟨htext, _⟩
      apply String.toList_inj.mp
      rw [htext]
      simp [text, qualified, separator]

theorem text_eq_iff {path : Path} {space name : String} (hspace : path.space = some space)
    (hlegal : Name.isValid space = true) : path.text = name ↔ path = parse name := by
  rcases path with ⟨_, own⟩
  cases hspace
  have hdotted := Name.isDotted_mono hlegal Name.isWordChar_of_isAsciiWord
  constructor
  · rintro rfl
    exact (Name.parse_qualified hdotted own).symm
  · intro hpath
    rw [hpath]
    apply text_parse
    rw [← hpath]
    rfl

theorem text_parse_of_ne_slash {name : String} (h : ∀ rest, name ≠ "/" ++ rest) :
    (parse name).text = name := by
  rcases parse_cases name with hqualified | hbare | ⟨rest, hslash⟩
  · exact text_parse hqualified
  · rw [hbare]
    rfl
  · exact absurd hslash (h rest)

/-!
# Reading again

The text of a path that was read is read as that path, unless a slash at the beginning was dropped
and another is left.
-/

/-- Text is read again as the path that it was read as before, if and only if no further slash
follows one at its beginning; after a slash at its beginning it is read again like the rest. -/
theorem read_again_iff (name : String) :
    (parse (parse name).text = parse name ↔ ∀ rest, name = "/" ++ rest → '/' ∉ rest.toList) ∧
    ∀ rest, parse (parse ("/" ++ rest)).text = parse rest := by
  have hslash : ∀ rest, parse (parse ("/" ++ rest)).text = parse rest := by
    intro rest
    rw [parse_slash]
    rfl
  refine ⟨?_, hslash⟩
  by_cases hbegins : ∃ rest, name = "/" ++ rest
  · rcases hbegins with ⟨rest, rfl⟩
    rw [hslash, parse_slash, parse_eq_bare_iff]
    constructor
    · intro hnot other heq
      rw [← (String.append_right_inj "/").mp heq]
      exact hnot
    · intro hnot
      exact hnot rest rfl
  · rw [not_exists] at hbegins
    rw [text_parse_of_ne_slash hbegins]
    exact iff_of_true rfl fun rest heq => absurd heq (hbegins rest)

/-- Behind a slash at the beginning a name with a namespace is a bare one, until it is read
again. -/
theorem rooted_money_read_again :
    parse "/Shop/Money" = bare "Shop/Money" ∧
    parse (parse "/Shop/Money").text = qualified "Shop" "Money" ∧
    ¬ ∀ name, parse (parse name).text = parse name := by
  have hfirst : parse "/Shop/Money" = bare "Shop/Money" := by decide
  have hagain : parse (parse "/Shop/Money").text = qualified "Shop" "Money" := by decide
  refine ⟨hfirst, hagain, ?_⟩
  intro hsame
  exact absurd (hagain.symm.trans ((hsame "/Shop/Money").trans hfirst)) (by decide)

end Path
end RecordFlow
