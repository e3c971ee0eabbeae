import RecordFlow.Validation.Record
import RecordFlow.Proofs.Validation.Supplied

/-!
# Kept attributes

## What the validation of a record keeps, attribute by attribute

The attributes of a record are looked at one after another, and what is kept of each is told from
its type and the supplied value alone.  Where the names are distinct, the map that comes out is
therefore known name by name.  Where they are not, it is known at least which names are missing.
-/

namespace RecordFlow

namespace Validation

theorem isNull_of_present? {value : Option Value} {found : Value}
    (h : present? value = some found) : found.isNull = false := by
  cases hnull : found.isNull with
  | false => rfl
  | true =>
      rw [present?_eq_some h, eq_null_of_isNull hnull] at h
      cases h

/-!
# One attribute

What is kept for an attribute depends on whether its type is an attribute schema, and on whether
that is computed.  An optional attribute may be left out.
-/

/-- Nothing is kept for an attribute of this schema: a computed one was not supplied, or an
optional one has neither a value nor a default of its own. -/
inductive LeavesOut : AttributeSchema → Option Value → Prop where
  | computed {schema : AttributeSchema} : schema.isComputed = true → LeavesOut schema none
  | optional {schema : AttributeSchema} {supplied : Option Value} :
      schema.isComputed = false → present? supplied = none → schema.optional = true →
        schema.default = none → LeavesOut schema supplied

/-- What is kept for an attribute whose type is this schema, or else no attribute schema at all. -/
inductive Keeps (table : Table) (occasion : Occasion) (name : String) (supplied : Option Value) :
    Option AttributeSchema → Option Value → Prop where
  | leftOut {schema : AttributeSchema} :
      LeavesOut schema supplied → Keeps table occasion name supplied (some schema) none
  | computed {schema : AttributeSchema} {value : Value} :
      schema.isComputed = true → supplied = some value →
        Keeps table occasion name supplied (some schema) (some value)
  | validated {schema : AttributeSchema} {value : Value} :
      schema.isComputed = false → ¬ LeavesOut schema supplied →
        validate table occasion name schema supplied = .ok value →
          Keeps table occasion name supplied (some schema) (some value)
  | carried {value : Value} :
      present? supplied = some value → Keeps table occasion name supplied none (some value)

section

variable {table : Table} {occasion : Occasion} {name : String} {type : Path}
  {supplied kept : Option Value} {schema : AttributeSchema}

theorem leavesOut_of_computed (hcomputed : schema.isComputed = true) :
    LeavesOut schema supplied ↔ supplied = none := by
  constructor
  · intro h
    cases h with
    | computed _ => rfl
    | optional hnot _ _ _ =>
        rw [hcomputed] at hnot
        cases hnot
  · intro h
    rw [h]
    exact .computed hcomputed

theorem leavesOut_of_not_computed (hcomputed : schema.isComputed = false) :
    LeavesOut schema supplied ↔
      present? supplied = none ∧ schema.optional = true ∧ schema.default = none := by
  constructor
  · intro h
    cases h with
    | computed hyes =>
        rw [hcomputed] at hyes
        cases hyes
    | optional _ habsent hoptional hdefault => exact ⟨habsent, hoptional, hdefault⟩
  · intro h
    rcases h with ⟨habsent, hoptional, hdefault⟩
    exact .optional hcomputed habsent hoptional hdefault

/-!
# Validating one attribute

One lemma says what is kept and one what the validation returns, for each kind of type.
-/

theorem keeps_carried_iff : Keeps table occasion name supplied none kept ↔
    ∃ value, present? supplied = some value ∧ kept = some value := by
  constructor
  · intro h
    cases h with
    | carried hpresent => exact ⟨_, hpresent, rfl⟩
  · intro h
    rcases h with ⟨value, hpresent, hkept⟩
    rw [hkept]
    exact .carried hpresent

theorem keeps_computed_iff (hcomputed : schema.isComputed = true) :
    Keeps table occasion name supplied (some schema) kept ↔ kept = supplied := by
  constructor
  · intro h
    cases h with
    | leftOut hleft => exact ((leavesOut_of_computed hcomputed).mp hleft).symm
    | computed _ hsupplied => exact hsupplied.symm
    | validated hnot _ _ =>
        rw [hcomputed] at hnot
        cases hnot
  · intro h
    cases kept with
    | none => exact .leftOut ((leavesOut_of_computed hcomputed).mpr h.symm)
    | some value => exact .computed hcomputed h.symm

theorem keeps_leftOut_iff (hcomputed : schema.isComputed = false)
    (hleft : LeavesOut schema supplied) :
    Keeps table occasion name supplied (some schema) kept ↔ kept = none := by
  constructor
  · intro h
    cases h with
    | leftOut _ => rfl
    | computed hyes _ =>
        rw [hcomputed] at hyes
        cases hyes
    | validated _ hnot _ => exact absurd hleft hnot
  · intro h
    rw [h]
    exact .leftOut hleft

theorem keeps_validated_iff (hcomputed : schema.isComputed = false)
    (hleft : ¬ LeavesOut schema supplied) :
    Keeps table occasion name supplied (some schema) kept ↔
      ∃ value, validate table occasion name schema supplied = .ok value ∧ kept = some value := by
  constructor
  · intro h
    cases h with
    | leftOut hyes => exact absurd hyes hleft
    | computed hyes _ =>
        rw [hcomputed] at hyes
        cases hyes
    | validated _ _ hvalue => exact ⟨_, hvalue, rfl⟩
  · intro h
    rcases h with ⟨value, hvalue, hkept⟩
    rw [hkept]
    exact .validated hcomputed hleft hvalue

theorem validateEntry_carried (hschema : table.attribute? type = none) :
    validateEntry table occasion name type supplied = .ok kept ↔
      ∃ value, present? supplied = some value ∧ kept = some value := by
  unfold validateEntry
  rw [hschema]
  cases present? supplied with
  | none => simp
  | some value => simp [eq_comm]

theorem validateEntry_computed (hschema : table.attribute? type = some schema)
    (hcomputed : schema.isComputed = true) :
    validateEntry table occasion name type supplied = .ok supplied := by
  unfold validateEntry
  rw [hschema]
  dsimp only
  rw [if_pos hcomputed]

theorem validateEntry_leftOut (hschema : table.attribute? type = some schema)
    (hcomputed : schema.isComputed = false) (hleft : LeavesOut schema supplied) :
    validateEntry table occasion name type supplied = .ok none := by
  rcases (leavesOut_of_not_computed hcomputed).mp hleft with ⟨habsent, hoptional, hdefault⟩
  unfold validateEntry
  rw [hschema]
  dsimp only
  rw [hcomputed, habsent, hoptional, hdefault]
  rfl

theorem validateEntry_validated (hschema : table.attribute? type = some schema)
    (hcomputed : schema.isComputed = false) (hleft : ¬ LeavesOut schema supplied) :
    validateEntry table occasion name type supplied
      = (validate table occasion name schema supplied).map some := by
  rw [leavesOut_of_not_computed hcomputed] at hleft
  unfold validateEntry
  rw [hschema]
  dsimp only
  rw [hcomputed, if_neg Bool.false_ne_true, if_neg]
  simpa [and_assoc] using hleft

theorem validateEntry_eq_ok_iff :
    validateEntry table occasion name type supplied = .ok kept
      ↔ Keeps table occasion name supplied (table.attribute? type) kept := by
  cases hschema : table.attribute? type with
  | none => rw [validateEntry_carried hschema, keeps_carried_iff]
  | some schema =>
      cases hcomputed : schema.isComputed with
      | true =>
          rw [validateEntry_computed hschema hcomputed, keeps_computed_iff hcomputed, eq_comm,
            Except.ok.injEq]
      | false =>
          by_cases hleft : LeavesOut schema supplied
          · rw [validateEntry_leftOut hschema hcomputed hleft, keeps_leftOut_iff hcomputed hleft,
              eq_comm, Except.ok.injEq]
          · rw [validateEntry_validated hschema hcomputed hleft,
              keeps_validated_iff hcomputed hleft]
            cases validate table occasion name schema supplied with
            | error failure => simp [Except.map]
            | ok value => simp [Except.map, eq_comm]

theorem Keeps.validate_eq_ok (hcomputed : schema.isComputed = false)
    (h : Keeps table occasion name supplied (some schema) kept) :
    (schema.optional = false → kept.isSome) ∧
      ∀ value, kept = some value → validate table occasion name schema supplied = .ok value := by
  by_cases hleft : LeavesOut schema supplied
  · rw [(keeps_leftOut_iff hcomputed hleft).mp h]
    constructor
    · intro hrequired
      rw [((leavesOut_of_not_computed hcomputed).mp hleft).2.1] at hrequired
      cases hrequired
    · intro value hvalue
      cases hvalue
  · rcases (keeps_validated_iff hcomputed hleft).mp h with ⟨found, hfound, hkept⟩
    rw [hkept]
    constructor
    · intro _
      rfl
    · intro value hvalue
      cases hvalue
      exact hfound

theorem Keeps.unique {other : Option Value}
    (h : Keeps table occasion name supplied (table.attribute? type) kept)
    (hother : Keeps table occasion name supplied (table.attribute? type) other) : kept = other := by
  rw [← validateEntry_eq_ok_iff] at h hother
  rw [h] at hother
  exact Except.ok.inj hother

theorem Keeps.eq_none_iff
    (h : Keeps table occasion name supplied (table.attribute? type) kept) :
    kept = none ↔ ∃ found, table.attribute? type = some found ∧ LeavesOut found supplied := by
  constructor
  · intro hnone
    rw [hnone] at h
    cases hschema : table.attribute? type with
    | none =>
        rw [hschema] at h
        cases h
    | some found =>
        rw [hschema] at h
        cases h with
        | leftOut hleft => exact ⟨found, rfl, hleft⟩
  · intro hleaves
    rcases hleaves with ⟨found, hschema, hleft⟩
    rw [hschema] at h
    cases hcomputed : found.isComputed with
    | true =>
        rw [(keeps_computed_iff hcomputed).mp h]
        exact (leavesOut_of_computed hcomputed).mp hleft
    | false => exact (keeps_leftOut_iff hcomputed hleft).mp h

end

/-!
# All attributes

The attributes are numbered in the order of the record, and each is validated on the occasion of its
number.  What is kept for one of them is added to what was kept before.
-/

section

variable {table : Table} {record : Path} {occasion : Occasion} {attributes kept out : Attributes}
  {schema : RecordSchema} {index : Nat} {name : String} {type : Path}
  {entries rest : List (String × Path)}

def keep (kept : Attributes) (name : String) : Option Value → Attributes
  | none => kept
  | some value => kept.insert name value

theorem get?_keep (kept : Attributes) (name other : String) (result : Option Value) :
    (keep kept name result).get? other
      = if name = other then result.or (kept.get? other) else kept.get? other := by
  cases result with
  | none => simp [keep]
  | some value =>
      unfold keep
      rw [Entries.get?_insert]
      rfl

theorem sorted_keep (h : kept.Sorted) (name : String) (result : Option Value) :
    (keep kept name result).Sorted := by
  cases result with
  | none => exact h
  | some value => exact h.insert name value

theorem validateEntries_cons :
    validateEntries table record attributes occasion index ((name, type) :: rest) kept
      = match validateEntry table (occasion.child index) name type (attributes.get? name) with
        | .error failure => .error (failure.note "record" (.text record.text))
        | .ok result =>
            validateEntries table record attributes occasion (index + 1) rest
              (keep kept name result) := by
  rw [validateEntries]
  cases validateEntry table (occasion.child index) name type (attributes.get? name) with
  | error failure => rfl
  | ok result =>
      cases result with
      | none => rfl
      | some value => rfl

theorem validateEntries_cons_eq_ok :
    validateEntries table record attributes occasion index ((name, type) :: rest) kept = .ok out ↔
      ∃ result,
        Keeps table (occasion.child index) name (attributes.get? name) (table.attribute? type)
          result ∧
        validateEntries table record attributes occasion (index + 1) rest (keep kept name result)
          = .ok out := by
  rw [validateEntries_cons]
  cases hentry : validateEntry table (occasion.child index) name type (attributes.get? name) with
  | error failure =>
      constructor
      · intro h
        cases h
      · intro h
        rcases h with ⟨result, hkeeps, _⟩
        rw [validateEntry_eq_ok_iff.mpr hkeeps] at hentry
        cases hentry
  | ok found =>
      have hkeeps := validateEntry_eq_ok_iff.mp hentry
      constructor
      · intro h
        exact ⟨found, hkeeps, h⟩
      · intro h
        rcases h with ⟨result, hother, hlater⟩
        rw [hkeeps.unique hother]
        exact hlater

/-- The map holds what every numbered attribute keeps, and for other names what was there. -/
structure Completes (table : Table) (occasion : Occasion) (attributes : Attributes)
    (entries : List ((String × Path) × Nat)) (kept out : Attributes) : Prop where
  sorted : out.Sorted
  others : ∀ name, (∀ entry ∈ entries, entry.1.1 ≠ name) → out.get? name = kept.get? name
  listed : ∀ entry ∈ entries, Keeps table (occasion.child entry.2) entry.1.1
    (attributes.get? entry.1.1) (table.attribute? entry.1.2) (out.get? entry.1.1)

theorem names_zipIdx (entries : List (String × Path)) (index : Nat) :
    (entries.zipIdx index).map (fun entry => entry.1.1) = entries.map Prod.fst := by
  calc
    (entries.zipIdx index).map (fun entry => entry.1.1)
        = ((entries.zipIdx index).map Prod.fst).map Prod.fst := List.map_map.symm
    _ = entries.map Prod.fst := by rw [List.zipIdx_map_fst]

theorem completes_cons_iff (hname : name ∉ rest.map Prod.fst) (hfresh : kept.get? name = none) :
    Completes table occasion attributes (((name, type) :: rest).zipIdx index) kept out ↔
      ∃ result,
        Keeps table (occasion.child index) name (attributes.get? name) (table.attribute? type)
          result ∧
        Completes table occasion attributes (rest.zipIdx (index + 1)) (keep kept name result)
          out := by
  have hothers : ∀ entry ∈ rest.zipIdx (index + 1), entry.1.1 ≠ name := by
    intro entry hentry heq
    apply hname
    rw [← names_zipIdx rest (index + 1), ← heq]
    exact List.mem_map_of_mem hentry
  rw [List.zipIdx_cons]
  constructor
  · intro h
    have hfirst := h.listed ((name, type), index) List.mem_cons_self
    refine ⟨out.get? name, hfirst, h.sorted, ?_, ?_⟩
    · intro other hother
      rw [get?_keep]
      by_cases heq : name = other
      · rw [if_pos heq, ← heq, hfresh, Option.or_none]
      · rw [if_neg heq]
        apply h.others other
        intro entry hentry
        cases List.mem_cons.mp hentry with
        | inl hfirst =>
            rw [hfirst]
            exact heq
        | inr hlater => exact hother entry hlater
    · intro entry hentry
      exact h.listed entry (List.mem_cons_of_mem _ hentry)
  · intro h
    rcases h with ⟨result, hkeeps, hrest⟩
    have hresult : out.get? name = result := by
      rw [hrest.others name hothers, get?_keep, if_pos rfl, hfresh, Option.or_none]
    refine ⟨hrest.sorted, ?_, ?_⟩
    · intro other hother
      have hne : name ≠ other := hother ((name, type), index) List.mem_cons_self
      rw [hrest.others other fun entry hentry => hother entry (List.mem_cons_of_mem _ hentry),
        get?_keep, if_neg hne]
    · intro entry hentry
      cases List.mem_cons.mp hentry with
      | inl hfirst =>
          rw [hfirst]
          dsimp only
          rw [hresult]
          exact hkeeps
      | inr hlater => exact hrest.listed entry hlater

theorem validateEntries_eq_ok_iff (hdistinct : (entries.map Prod.fst).Nodup)
    (hsorted : kept.Sorted) (hfresh : ∀ name ∈ entries.map Prod.fst, kept.get? name = none) :
    validateEntries table record attributes occasion index entries kept = .ok out
      ↔ Completes table occasion attributes (entries.zipIdx index) kept out := by
  induction entries generalizing index kept with
  | nil =>
      rw [validateEntries, Except.ok.injEq]
      constructor
      · intro h
        rw [← h]
        exact ⟨hsorted, fun _ _ => rfl, fun entry hentry => nomatch hentry⟩
      · intro h
        apply Entries.Sorted.ext hsorted h.sorted
        intro name
        exact (h.others name fun entry hentry => nomatch hentry).symm
  | cons entry rest ih =>
      rcases entry with ⟨name, type⟩
      rw [List.map_cons, List.nodup_cons] at hdistinct
      have hnone : kept.get? name = none := hfresh name List.mem_cons_self
      rw [validateEntries_cons_eq_ok, completes_cons_iff hdistinct.1 hnone]
      apply exists_congr
      intro result
      apply and_congr_right
      intro _
      apply ih hdistinct.2 (sorted_keep hsorted name result)
      intro other hother
      have hne : name ≠ other := by
        intro heq
        exact hdistinct.1 (heq ▸ hother)
      rw [get?_keep, if_neg hne]
      exact hfresh other (List.mem_cons_of_mem _ hother)

theorem forall_type_cons_iff {own : String} {P : Path → Prop} :
    (∀ listed, (name, listed) ∈ (own, type) :: rest → P listed)
      ↔ (own = name → P type) ∧ ∀ listed, (name, listed) ∈ rest → P listed := by
  constructor
  · intro h
    constructor
    · intro hown
      apply h type
      rw [hown]
      exact List.mem_cons_self
    · intro listed hlisted
      exact h listed (List.mem_cons_of_mem _ hlisted)
  · intro h listed hlisted
    cases List.mem_cons.mp hlisted with
    | inl hfirst =>
        cases hfirst
        exact h.1 rfl
    | inr hlater => exact h.2 listed hlater

theorem get?_eq_none_iff_leavesOut
    (h : validateEntries table record attributes occasion index entries kept = .ok out) :
    out.get? name = none ↔ kept.get? name = none ∧
      ∀ type, (name, type) ∈ entries →
        ∃ found, table.attribute? type = some found ∧ LeavesOut found (attributes.get? name) := by
  induction entries generalizing index kept with
  | nil =>
      cases h
      simp
  | cons entry rest ih =>
      rcases entry with ⟨own, ownType⟩
      rcases validateEntries_cons_eq_ok.mp h with ⟨result, hkeeps, hrest⟩
      rw [ih hrest, get?_keep, forall_type_cons_iff]
      by_cases hown : own = name
      · rw [hown] at hkeeps
        rw [if_pos hown, Option.or_eq_none_iff, hkeeps.eq_none_iff, forall_prop_of_true hown,
          and_comm (a := ∃ found, _), and_assoc]
      · rw [if_neg hown, forall_prop_of_false hown, true_and]

end

end Validation
end RecordFlow
