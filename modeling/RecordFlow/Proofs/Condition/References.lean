import RecordFlow.Proofs.Condition.Evaluable
import RecordFlow.Proofs.Condition.Rebuilt
import RecordFlow.Proofs.Naming.Dotted

/-!
# References in guards

## How the spelling of a reference decides what is read

The check of a guard accepts references with a namespace.  Reading splits a reference at its dots
and drops the first segment if that is the bare name of the instance's own type.  So an attribute
may be written behind the bare name of the type, but behind its full path nothing is found: such a
reference is read as null, and a guard comes to what it would with nil in its place.
-/

namespace RecordFlow

/-!
# Looking up a segment with a slash

A dotted path goes through the fields of maps and instances, whose names have no slash.
-/

namespace Value

def fields : Value → List (String × Value)
  | map fields => fields
  | typed _ _ attributes => attributes
  | _ => []

/-- No field that dotted paths lead to has a slash in its name. -/
inductive Unslashed : Value → Prop where
  | intro {value : Value} (names : ∀ field ∈ value.fields, '/' ∉ field.1.toList)
      (values : ∀ field ∈ value.fields, Unslashed field.2) : Unslashed value

theorem lookup?_cons (value : Value) (name : String) (rest : List String) :
    value.lookup? (name :: rest)
      = (Entries.get? value.fields name).bind fun next => next.lookup? rest := by
  cases value <;> rfl

theorem lookup?_of_slash {value : Value} (h : value.Unslashed) {segments : List String}
    {segment : String} (hmem : segment ∈ segments) (hslash : '/' ∈ segment.toList) :
    value.lookup? segments = none := by
  induction segments generalizing value with
  | nil => cases hmem
  | cons name rest ih =>
      rw [lookup?_cons]
      cases hnext : Entries.get? value.fields name with
      | none => rfl
      | some next =>
          have hfield := Entries.mem_of_get? hnext
          cases h with
          | intro names values =>
              rcases List.mem_cons.mp hmem with heq | hrest
              · rw [heq] at hslash
                exact absurd hslash (names (name, next) hfield)
              · exact ih (values (name, next) hfield) hrest

theorem unslashed_of_fields_eq_nil {value : Value} (h : value.fields = []) : value.Unslashed := by
  refine .intro ?_ ?_ <;> rw [h] <;> exact fun _ hfield => nomatch hfield

end Value

/-!
# Segments of a reference

A slash stays within one of the segments, and that segment is not dropped.
-/

theorem mem_ownSegments {typeName segment : String} {segments : List String}
    (h : segment ∈ segments) (hne : segment ≠ typeName) :
    segment ∈ ownSegments typeName segments := by
  unfold ownSegments
  split
  · next first second rest =>
      split
      · next heq =>
          rcases List.mem_cons.mp h with hfirst | hrest
          · exact absurd (hfirst.trans heq) hne
          · exact hrest
      · exact h
  · exact h

theorem ownSegments_self_cons (typeName second : String) (rest : List String) :
    ownSegments typeName (typeName :: second :: rest) = second :: rest :=
  if_pos rfl

theorem ownSegments_of_ne {typeName first : String} (h : first ≠ typeName) (rest : List String) :
    ownSegments typeName (first :: rest) = first :: rest := by
  cases rest with
  | nil => rfl
  | cons second rest => exact if_neg h

namespace Instance

variable {inst : Instance}

theorem read_of_slash (hinst : inst.toValue.Unslashed) (hname : '/' ∉ inst.path.name.toList)
    {reference : String} (hslash : '/' ∈ reference.toList) : inst.read reference = .null := by
  rcases Split.exists_mem_parts hslash (show '/' ≠ '.' by decide) with ⟨part, hpart, hmem⟩
  have hsegment : String.ofList part ∈ Split.segments reference := List.mem_map_of_mem hpart
  have hslash' : '/' ∈ (String.ofList part).toList := by
    rw [String.toList_ofList]
    exact hmem
  have hne : String.ofList part ≠ inst.path.name := by
    intro heq
    rw [heq] at hslash'
    exact hname hslash'
  have hnone := Value.lookup?_of_slash hinst (mem_ownSegments hsegment hne) hslash'
  unfold read
  split
  · rfl
  · next head rest hown =>
      rw [hown, Value.lookup?_cons] at hnone
      show (Option.bind _ _).getD Value.null = Value.null
      exact congrArg (Option.getD · Value.null) hnone

theorem read_behind_ownType (hname : '.' ∉ inst.path.name.toList) {own : String}
    (hhead : (Split.segments own).head? ≠ some inst.path.name) :
    inst.read (inst.path.name ++ "." ++ own) = inst.read own := by
  unfold read
  rw [Split.segments_dotted hname]
  cases hsegments : Split.segments own with
  | nil => exact absurd hsegments (Split.segments_ne_nil own)
  | cons first rest =>
      rw [hsegments, List.head?_cons] at hhead
      have hne : first ≠ inst.path.name := fun heq => hhead (congrArg some heq)
      rw [ownSegments_self_cons, ownSegments_of_ne hne]

end Instance

/-!
# Spellings in whole guards

A reference is written in another way wherever it occurs in a guard.
-/

noncomputable def Predicate.only (wanted : List Value) : Predicate := by
  classical
  exact fun args => decide (args = wanted)

namespace Condition

/-- Every reference with a namespace gives way to nil. -/
def silencing : Rebuilding where
  comparison := compare
  reference name := if '/' ∈ name.toList then .nil else .ref name

def respelling (spelling plain : String) : Rebuilding where
  comparison := compare
  reference name := if name = spelling then .ref plain else .ref name

variable {predicates : PredicateTable} {inst : Instance}

theorem faithful_silencing (hinst : inst.toValue.Unslashed)
    (hname : '/' ∉ inst.path.name.toList) : silencing.Faithful predicates inst where
  comparison _ _ _ := rfl
  reference name := by
    unfold silencing
    dsimp only
    split
    · next hslash => exact (Instance.read_of_slash hinst hname hslash).symm
    · rfl

theorem faithful_respelling {spelling plain : String}
    (h : inst.read plain = inst.read spelling) :
    (respelling spelling plain).Faithful predicates inst where
  comparison _ _ _ := rfl
  reference name := by
    unfold respelling
    dsimp only
    split
    · next heq =>
        rw [heq]
        exact h
    · rfl

/-- One reference may be written for another in all guards exactly if both read the same: there is a
predicate for every difference. -/
theorem respelling_harmless_iff {spelling plain : String}
    (hlegal : Name.isReference spelling = true) :
    (∀ (predicates : PredicateTable) (condition : Condition),
      condition.check predicates = .ok () →
        (condition.rebuild (respelling spelling plain)).holds predicates inst
          = condition.holds predicates inst)
      ↔ inst.read plain = inst.read spelling := by
  constructor
  · intro h
    let only : PredicateTable := Dict.empty.insert "only" (Predicate.only [inst.read spelling])
    have hcheck : (predicate "only" [.ref spelling]).check only = .ok () :=
      GuardNode.check_predicate.mpr ⟨rfl, List.forall_mem_singleton.mpr (if_pos hlegal)⟩
    have hsame := h only (predicate "only" [.ref spelling]) hcheck
    have hrebuilt : (predicate "only" [.ref spelling]).rebuild (respelling spelling plain)
        = predicate "only" [.ref plain] := by
      show predicate "only" [if spelling = spelling then Operand.ref plain else .ref spelling] = _
      rw [if_pos rfl]
    rw [hrebuilt] at hsame
    have hread : [inst.read plain] = [inst.read spelling] := by
      have htrue : Predicate.only [inst.read spelling] [inst.read plain]
          = Predicate.only [inst.read spelling] [inst.read spelling] := hsame
      simpa [Predicate.only] using htrue
    exact List.singleton_inj.mp hread
  · intro hread predicates condition _
    exact condition.holds_rebuild (faithful_respelling hread)

theorem text_dotted {path : Path} {space : String} (h : path.space = some space) (own : String) :
    path.text ++ "." ++ own = space ++ "/" ++ (path.name ++ "." ++ own) := by
  unfold Path.text
  rw [h]
  show space ++ "/" ++ path.name ++ "." ++ own = space ++ "/" ++ (path.name ++ "." ++ own)
  simp only [String.append_assoc]

/-- An attribute of an instance may be written behind the path of the instance's type, and the check
accepts that.  Guards may have the plain attribute instead exactly if it reads the same, but behind
the path null is read, as long as no field has a slash in its name, and every guard comes to what it
would with nil.  Behind the bare name of the type, where that is one segment, the attribute is read
as it is. -/
theorem own_path_unread {inst : Instance} {space own : String}
    (hspace : inst.path.space = some space)
    (hlegal : Name.isDotted isWordChar space.toList = true)
    (hname : Name.isDotted isWordChar inst.path.name.toList = true)
    (hown : Name.isDotted isWordChar own.toList = true) :
    Name.isReference (inst.path.text ++ "." ++ own) = true ∧
    ((∀ (predicates : PredicateTable) (condition : Condition),
      condition.check predicates = .ok () →
        (condition.rebuild (respelling (inst.path.text ++ "." ++ own) own)).holds predicates inst
          = condition.holds predicates inst)
      ↔ inst.read own = inst.read (inst.path.text ++ "." ++ own)) ∧
    (inst.toValue.Unslashed → inst.read (inst.path.text ++ "." ++ own) = .null ∧
      ∀ (predicates : PredicateTable) (condition : Condition),
        (condition.rebuild silencing).holds predicates inst = condition.holds predicates inst) ∧
    ('.' ∉ inst.path.name.toList → (Split.segments own).head? ≠ some inst.path.name →
      ∀ (predicates : PredicateTable) (condition : Condition),
        (condition.rebuild (respelling (inst.path.name ++ "." ++ own) own)).holds predicates inst
          = condition.holds predicates inst) := by
  have hreference : Name.isReference (inst.path.text ++ "." ++ own) = true := by
    rw [text_dotted hspace, Name.isReference_qualified hlegal, Split.toList_dotted,
      Name.isDotted_append_cons, hname, hown]
    rfl
  refine ⟨hreference, respelling_harmless_iff hreference, ?_, ?_⟩
  · intro hinst
    have hunslashed := Name.not_slash_of_isDotted hname
    have hslash : '/' ∈ (inst.path.text ++ "." ++ own).toList := by
      rw [text_dotted hspace, Name.toList_qualified]
      exact List.mem_append_right _ List.mem_cons_self
    refine ⟨Instance.read_of_slash hinst hunslashed hslash, ?_⟩
    intro predicates condition
    exact condition.holds_rebuild (faithful_silencing hinst hunslashed)
  · intro hsegment hhead predicates condition
    exact condition.holds_rebuild
      (faithful_respelling (Instance.read_behind_ownType hsegment hhead).symm)

section Deposits

def deposit : Instance :=
  ⟨.event, Path.qualified "Acme" "Deposit",
    [("Account", .typed .entity (Path.qualified "Acme" "Account") [("Email", .text "a@b.c")]),
      ("Amount", .int 50)]⟩

theorem unslashed_deposit : deposit.toValue.Unslashed := by
  have haccount : (Value.typed .entity (Path.qualified "Acme" "Account")
      [("Email", .text "a@b.c")]).Unslashed :=
    .intro (by decide) (List.forall_mem_singleton.mpr (Value.unslashed_of_fields_eq_nil rfl))
  exact .intro (by decide) (List.forall_mem_cons.mpr
    ⟨haccount, List.forall_mem_singleton.mpr (Value.unslashed_of_fields_eq_nil rfl)⟩)

theorem deposit_amount_unread :
    Name.isReference "Acme/Deposit.Amount" = true ∧
    deposit.read "Acme/Deposit.Amount" = .null ∧
    (¬ ∀ (predicates : PredicateTable) (condition : Condition),
      condition.check predicates = .ok () →
        (condition.rebuild (respelling "Acme/Deposit.Amount" "Amount")).holds predicates deposit
          = condition.holds predicates deposit) ∧
    ∀ (predicates : PredicateTable) (condition : Condition),
      (condition.rebuild (respelling "Deposit.Amount" "Amount")).holds predicates deposit
        = condition.holds predicates deposit := by
  rcases @own_path_unread deposit "Acme" "Amount" rfl (by decide) (by decide) (by decide)
    with ⟨hreference, hrespelled, hunslashed, hbehind⟩
  have hnull : deposit.read "Acme/Deposit.Amount" = .null := (hunslashed unslashed_deposit).1
  refine ⟨hreference, hnull, ?_, hbehind (by decide) (by decide)⟩
  intro hsame
  have hread : deposit.read "Amount" = deposit.read "Acme/Deposit.Amount" := hrespelled.mp hsame
  rw [hnull] at hread
  cases hread

/-- Guards may not have the plain attribute instead of the one behind the path. -/
theorem own_path_not_skipped :
    ¬ ∀ (inst : Instance) (space own : String) (predicates : PredicateTable)
        (condition : Condition), inst.path.space = some space → Name.isValid space = true →
      Name.isValid inst.path.name = true → Name.isDotted isWordChar own.toList = true →
      condition.check predicates = .ok () →
        (condition.rebuild (respelling (inst.path.text ++ "." ++ own) own)).holds predicates inst
          = condition.holds predicates inst := by
  intro hclaim
  have hsame := hclaim deposit "Acme" "Amount" Predicate.builtin
    (.compare .eq (.ref "Acme/Deposit.Amount") (.int 50)) rfl (by decide) (by decide) (by decide)
    (by decide)
  revert hsame
  decide

end Deposits

end Condition
end RecordFlow
