import RecordFlow.Proofs.Naming.Canonical
import RecordFlow.Proofs.Naming.Dotted
import RecordFlow.Compile.Dataflow

/-!
# Import aliases spelled out

## Names with the namespace in the place of its alias

A namespace may be called by the alias that an import gives it.  Spelling the alias out changes
what is written and not what it means: the name stays a reference if it was one, and it is
expanded to the same path.  Only the first segment of a dotted reference may become another one.
-/

namespace RecordFlow

/-- An alias in a namespace, and the namespace that the alias stands for. -/
structure Shorthand where
  space : String
  localName : String
  target : String
  legalName : Name.isValid localName = true
  legalTarget : Name.isValid target = true

namespace Shorthand

def text (short : Shorthand) (name : String) : String :=
  match Split.cut? '/' name.toList with
  | some (space, own) =>
      if String.ofList space = short.localName then
        short.target ++ "/" ++ String.ofList own
      else name
  | none => name

def path (short : Shorthand) (path : Path) : Path :=
  if path.space = some short.localName then path.withSpace short.target else path

/-- What is written in other namespaces is left alone: the namespace stands for itself. -/
def idle (short : Shorthand) : Shorthand :=
  { short with localName := short.target, legalName := short.legalTarget }

/-- The shorthand for what is read in a namespace. -/
def within (short : Shorthand) (current : Option String) : Shorthand :=
  if current = some short.space then short else short.idle

variable (short : Shorthand)

/-!
# Reading a name

The alias and its namespace are legal names, so that the first slash stands behind them.
-/

theorem isDotted_of_isValid {name : String} (h : Name.isValid name = true) :
    Name.isDotted isWordChar name.toList = true :=
  Name.isDotted_mono h Name.isWordChar_of_isAsciiWord

theorem dottedName : Name.isDotted isWordChar short.localName.toList = true :=
  isDotted_of_isValid short.legalName

theorem dottedTarget : Name.isDotted isWordChar short.target.toList = true :=
  isDotted_of_isValid short.legalTarget

theorem text_cases (name : String) :
    (∃ own, name = short.localName ++ "/" ++ own ∧
      short.text name = short.target ++ "/" ++ own) ∨
    (short.text name = name ∧
      ∀ space own, Split.cut? '/' name.toList = some (space, own) →
        String.ofList space ≠ short.localName) := by
  unfold text
  cases hcut : Split.cut? '/' name.toList with
  | none =>
      refine Or.inr ⟨rfl, ?_⟩
      intro space own h
      cases h
  | some parts =>
      rcases parts with ⟨space, own⟩
      dsimp only
      by_cases hspace : String.ofList space = short.localName
      · refine Or.inl ⟨String.ofList own, ?_, if_pos hspace⟩
        apply String.toList_inj.mp
        rw [Name.toList_qualified, ← hspace, String.toList_ofList, String.toList_ofList]
        exact (Split.cut?_eq_some hcut).1
      · refine Or.inr ⟨if_neg hspace, ?_⟩
        intro other rest h
        cases h
        exact hspace

theorem parse_text (name : String) :
    Path.parse (short.text name) = short.path (Path.parse name) := by
  rcases short.text_cases name with ⟨own, hname, htext⟩ | ⟨htext, hother⟩
  · rw [htext, hname, Name.parse_qualified short.dottedTarget,
      Name.parse_qualified short.dottedName]
    exact (if_pos rfl).symm
  · rw [htext]
    refine (if_neg ?_).symm
    unfold Path.parse Path.ofChars Path.separator
    cases hcut : Split.cut? '/' name.toList with
    | none =>
        intro h
        cases h
    | some parts =>
        rcases parts with ⟨_ | ⟨c, rest⟩, own⟩
        · intro h
          cases h
        · intro h
          exact hother (c :: rest) own hcut (Option.some.inj h)

theorem isReference_text (name : String) :
    Name.isReference (short.text name) = Name.isReference name := by
  rcases short.text_cases name with ⟨own, hname, htext⟩ | ⟨htext, _⟩
  · rw [htext, hname, Name.isReference_qualified short.dottedTarget,
      Name.isReference_qualified short.dottedName]
  · rw [htext]

theorem text_of_bare {name : String} (h : (Path.parse name).isQualified = false) :
    short.text name = name := by
  rcases short.text_cases name with ⟨own, hname, _⟩ | ⟨htext, _⟩
  · rw [hname, Name.parse_qualified short.dottedName] at h
    cases h
  · exact htext

theorem text_text (name : String) : short.text (short.text name) = short.text name := by
  rcases short.text_cases name with ⟨own, _, htext⟩ | ⟨htext, _⟩
  · rcases short.text_cases (short.text name) with ⟨other, hname, hagain⟩ | ⟨hagain, _⟩
    · have hcut := congrArg (fun name => Split.cut? '/' name.toList) (htext.symm.trans hname)
      rw [Name.cut?_qualified short.dottedTarget, Name.cut?_qualified short.dottedName] at hcut
      have hsame : own = other := String.toList_inj.mp (congrArg Prod.snd (Option.some.inj hcut))
      rw [hagain, htext, hsame]
    · exact hagain
  · rw [htext, htext]

@[simp] theorem isQualified_path (path : Path) :
    (short.path path).isQualified = path.isQualified := by
  unfold Shorthand.path
  split
  · next hspace =>
      unfold Path.isQualified
      rw [hspace]
      rfl
  · rfl

theorem path_of_bare {path : Path} (h : path.isQualified = false) : short.path path = path := by
  apply if_neg
  intro hspace
  unfold Path.isQualified at h
  rw [hspace] at h
  cases h

@[simp] theorem name_path (path : Path) : (short.path path).name = path.name := by
  unfold Shorthand.path
  split
  · rfl
  · rfl

theorem path_withName (path : Path) (name : String) :
    short.path { path with name := name } = { short.path path with name := name } := by
  unfold Shorthand.path
  dsimp only
  split
  · rfl
  · rfl

/-!
# A namespace that stands for itself

Nothing is changed by the shorthand of other namespaces.
-/

@[simp] theorem text_idle (name : String) : short.idle.text name = name := by
  rcases short.idle.text_cases name with ⟨own, hname, htext⟩ | ⟨htext, _⟩
  · exact htext.trans hname.symm
  · exact htext

@[simp] theorem path_idle (path : Path) : short.idle.path path = path := by
  unfold Shorthand.path
  split
  · next hspace =>
      rcases path with ⟨space, own⟩
      cases hspace
      rfl
  · rfl

/-!
# First segments

The first segment of a qualified reference has the slash in it, unless its namespace is dotted.
A local name that is neither is never the head of such a reference.
-/

/-- A name without a slash that is not the first of several segments of either namespace. -/
def Apart (short : Shorthand) (name : String) : Prop :=
  '/' ∉ name.toList ∧ (∀ rest, Split.head short.localName ≠ (name, some rest)) ∧
    ∀ rest, Split.head short.target ≠ (name, some rest)

theorem apart_of_undotted {short : Shorthand} (hlocal : '.' ∉ short.localName.toList)
    (htarget : '.' ∉ short.target.toList) {name : String} (h : '/' ∉ name.toList) :
    short.Apart name := by
  have hhead (space : String) (hspace : '.' ∉ space.toList) (rest : String) :
      Split.head space ≠ (name, some rest) := by
    rw [Split.head_of_not_mem hspace]
    intro heq
    cases heq
  exact ⟨h, hhead short.localName hlocal, hhead short.target htarget⟩

theorem head_segments_qualified (space own : String) {name : String}
    (h : (Split.segments (space ++ "/" ++ own)).head? = some name) :
    '/' ∈ name.toList ∨ ∃ rest, Split.head space = (name, some rest) := by
  unfold Split.segments at h
  rw [Name.toList_qualified] at h
  cases hcut : Split.cut? '.' space.toList with
  | some parts =>
      rcases parts with ⟨first, rest⟩
      rcases Split.cut?_eq_some hcut with ⟨hspace, hdot⟩
      rw [hspace, List.append_assoc, List.cons_append, Split.parts_append_cons,
        Split.parts_of_not_mem hdot] at h
      cases h
      refine Or.inr ⟨String.ofList rest, ?_⟩
      unfold Split.head
      rw [hcut]
  | none =>
      have hdot := Split.cut?_eq_none_iff.mp hcut
      refine Or.inl ?_
      cases hown : Split.cut? '.' own.toList with
      | none =>
          have hnone : '.' ∉ space.toList ++ '/' :: own.toList := by
            rw [List.mem_append, List.mem_cons, not_or, not_or]
            exact ⟨hdot, by decide, Split.cut?_eq_none_iff.mp hown⟩
          rw [Split.parts_of_not_mem hnone] at h
          cases h
          rw [String.toList_ofList]
          exact List.mem_append_right _ List.mem_cons_self
      | some parts =>
          rcases parts with ⟨first, rest⟩
          rcases Split.cut?_eq_some hown with ⟨hsplit, hfirst⟩
          have hnone : '.' ∉ space.toList ++ '/' :: first := by
            rw [List.mem_append, List.mem_cons, not_or, not_or]
            exact ⟨hdot, by decide, hfirst⟩
          rw [hsplit, ← List.cons_append, ← List.append_assoc, Split.parts_append_cons,
            Split.parts_of_not_mem hnone] at h
          cases h
          rw [String.toList_ofList]
          exact List.mem_append_right _ List.mem_cons_self

theorem Apart.not_head {short : Shorthand} {name : String} (h : short.Apart name)
    {reference : String} (hchanged : short.text reference ≠ reference) :
    (Split.segments reference).head? ≠ some name ∧
      (Split.segments (short.text reference)).head? ≠ some name := by
  rcases short.text_cases reference with ⟨own, hreference, htext⟩ | ⟨htext, _⟩
  · rw [htext, hreference]
    constructor
    · intro hhead
      rcases head_segments_qualified _ _ hhead with hslash | ⟨rest, hrest⟩
      · exact h.1 hslash
      · exact h.2.1 rest hrest
    · intro hhead
      rcases head_segments_qualified _ _ hhead with hslash | ⟨rest, hrest⟩
      · exact h.1 hslash
      · exact h.2.2 rest hrest
  · exact absurd htext hchanged

/-!
# Expressions

The alias is spelled out in every reference; variables are no names of a namespace.
-/

mutual

def expr (short : Shorthand) (value : Expr) : Expr :=
  match value with
  | .ref name => .ref (short.text name)
  | .call op args => .call op (short.exprs args)
  | .list items => .list (short.exprs items)
  | .int value => .int value
  | .float value => .float value
  | .text value => .text value
  | .bool value => .bool value
  | .nil => .nil
  | .var name => .var name
  termination_by structural value

def exprs (short : Shorthand) (values : List Expr) : List Expr :=
  match values with
  | [] => []
  | value :: rest => short.expr value :: short.exprs rest
  termination_by structural values

end

def leaf (short : Shorthand) : Leaf → Leaf
  | .ref name => .ref (short.text name)
  | .var name => .var name

mutual

theorem leaves_expr (value : Expr) :
    (short.expr value).leaves = value.leaves.map short.leaf := by
  cases value with
  | ref name => rfl
  | var name => rfl
  | call op args => exact leavesOfAll_exprs args
  | list items => exact leavesOfAll_exprs items
  | int _ => rfl
  | float _ => rfl
  | text _ => rfl
  | bool _ => rfl
  | nil => rfl
  termination_by structural value

theorem leavesOfAll_exprs (values : List Expr) :
    Expr.leavesOfAll (short.exprs values) = (Expr.leavesOfAll values).map short.leaf := by
  cases values with
  | nil => rfl
  | cons value rest =>
      show (short.expr value).leaves ++ Expr.leavesOfAll (short.exprs rest)
        = (value.leaves ++ Expr.leavesOfAll rest).map short.leaf
      rw [List.map_append, leaves_expr value, leavesOfAll_exprs rest]
  termination_by structural values

end

mutual

theorem expr_idle (value : Expr) : short.idle.expr value = value := by
  cases value with
  | ref name => exact congrArg Expr.ref (short.text_idle name)
  | var name => rfl
  | call op args => exact congrArg (Expr.call op) (exprs_idle args)
  | list items => exact congrArg Expr.list (exprs_idle items)
  | int _ => rfl
  | float _ => rfl
  | text _ => rfl
  | bool _ => rfl
  | nil => rfl
  termination_by structural value

theorem exprs_idle (values : List Expr) : short.idle.exprs values = values := by
  cases values with
  | nil => rfl
  | cons value rest => exact congrArg₂ List.cons (expr_idle value) (exprs_idle rest)
  termination_by structural values

end

mutual

theorem expr_expr (value : Expr) : short.expr (short.expr value) = short.expr value := by
  cases value with
  | ref name => exact congrArg Expr.ref (short.text_text name)
  | var name => rfl
  | call op args => exact congrArg (Expr.call op) (exprs_exprs args)
  | list items => exact congrArg Expr.list (exprs_exprs items)
  | int _ => rfl
  | float _ => rfl
  | text _ => rfl
  | bool _ => rfl
  | nil => rfl
  termination_by structural value

theorem exprs_exprs (values : List Expr) :
    short.exprs (short.exprs values) = short.exprs values := by
  cases values with
  | nil => rfl
  | cons value rest => exact congrArg₂ List.cons (expr_expr value) (exprs_exprs rest)
  termination_by structural values

end

/-!
# What names mean

The alias is declared once in its namespace, and no other namespace is called like its target
there.
-/

structure DeclaredBy (imports : List Import) : Prop where
  once : (imports.filter fun entry => entry.localName = some short.localName).map Import.space
    = [short.target]
  plain : ∀ entry ∈ imports, entry.localName = some short.target → entry.space = short.target

/-- The namespace declares the alias, which is not its own name. -/
structure Declared (table : Table) : Prop where
  foreign : short.localName ≠ short.space
  imports : ∃ space, table.space? short.space = some space ∧ short.DeclaredBy space.imports

variable {short} {table : Table}

theorem DeclaredBy.target_or_none {imports : List Import} (h : short.DeclaredBy imports) :
    ∀ other ∈ (imports.filter fun entry => entry.localName = some short.target).map Import.space,
      other = short.target := by
  intro other hother
  rcases List.mem_map.mp hother with ⟨entry, hentry, rfl⟩
  rcases List.mem_filter.mp hentry with ⟨hmem, hlocal⟩
  exact h.plain entry hmem (of_decide_eq_true hlocal)

theorem targetsOf_eq {current : String} {space : Namespace} (h : table.space? current = some space)
    (localName : String) : table.targetsOf current localName
      = (space.imports.filter fun entry => entry.localName = some localName).map Import.space := by
  unfold Table.targetsOf
  rw [h]
  rfl

theorem Declared.once (h : short.Declared table) :
    table.targetsOf short.space short.localName = [short.target] := by
  rcases h.imports with ⟨space, hspace, himports⟩
  rw [targetsOf_eq hspace]
  exact himports.once

theorem Declared.plain (h : short.Declared table) :
    ∀ other ∈ table.targetsOf short.space short.target, other = short.target := by
  rcases h.imports with ⟨space, hspace, himports⟩
  rw [targetsOf_eq hspace]
  exact himports.target_or_none

theorem Declared.expandAlias_path (h : short.Declared table) (path : Path) :
    table.expandAlias short.space (short.path path) = table.expandAlias short.space path := by
  unfold Shorthand.path
  split
  · next hspace =>
      rcases path with ⟨space, own⟩
      cases hspace
      show table.expandAlias short.space (Path.qualified short.target own)
        = table.expandAlias short.space (Path.qualified short.localName own)
      rw [Table.expandAlias_qualified, Table.expandAlias_qualified, h.once]
      cases hhead : (table.targetsOf short.space short.target).head? with
      | none => rfl
      | some other =>
          rw [Option.getD_some, h.plain other (List.mem_of_head? hhead)]
          rfl
  · rfl

theorem Declared.expandAlias (h : short.Declared table) (current : String) (path : Path) :
    table.expandAlias current ((short.within (some current)).path path)
      = table.expandAlias current path := by
  unfold within
  split
  · next hcurrent =>
      cases hcurrent
      exact h.expandAlias_path path
  · rw [path_idle]

theorem Declared.expand_path (h : short.Declared table) (path : Path) :
    (Naming.enter table short.space).expand (short.path path)
      = (Naming.enter table short.space).expand path := by
  unfold Shorthand.path
  split
  · next hspace =>
      rcases path with ⟨space, own⟩
      cases hspace
      show (Naming.enter table short.space).expand (Path.qualified short.target own)
        = (Naming.enter table short.space).expand (Path.qualified short.localName own)
      unfold Naming.expand
      dsimp only [Path.qualified]
      rw [Naming.get?_aliases_enter, Naming.get?_aliases_enter, h.once]
      cases hlast : (table.targetsOf short.space short.target).getLast? with
      | none => rfl
      | some other =>
          dsimp only
          rw [h.plain other (List.mem_of_getLast? hlast)]
          rfl
  · rfl

theorem Declared.expand (h : short.Declared table) (current : String) (path : Path) :
    (Naming.enter table current).expand ((short.within (some current)).path path)
      = (Naming.enter table current).expand path := by
  unfold within
  split
  · next hcurrent =>
      cases hcurrent
      exact h.expand_path path
  · rw [path_idle]

theorem Declared.congr {next : Table} (h : short.Declared table)
    (himports : (next.space? short.space).map Namespace.imports
      = (table.space? short.space).map Namespace.imports) : short.Declared next := by
  rcases h.imports with ⟨space, hspace, hdeclared⟩
  rw [hspace, Option.map_some] at himports
  rcases Option.map_eq_some_iff.mp himports with ⟨found, hfound, hsame⟩
  refine ⟨h.foreign, found, hfound, ?_⟩
  rw [hsame]
  exact hdeclared

end Shorthand
end RecordFlow
