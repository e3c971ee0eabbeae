/-!
# Dictionaries

## Entries sorted by name

A dictionary maps names to values and lists them in the order of their names.
The operations are written on plain lists of entries, so that a nested value can
hold such a list directly; `Dict` adds the proof that the names strictly
increase.  Main statements: how `get?` reads `insert` and `erase`, and that two
dictionaries with the same look-ups are equal.
-/

namespace RecordFlow

/-- Named values; well formed when the names strictly increase. -/
abbrev Entries (α : Type) := List (String × α)

namespace Entries

def Sorted (entries : Entries α) : Prop :=
  entries.Pairwise fun a b => a.1 < b.1

instance (entries : Entries α) : Decidable entries.Sorted :=
  inferInstanceAs (Decidable (entries.Pairwise fun a b => a.1 < b.1))

def get? (entries : Entries α) (name : String) : Option α :=
  match entries with
  | [] => none
  | (key, value) :: rest => if key = name then some value else get? rest name

def contains (entries : Entries α) (name : String) : Bool :=
  (entries.get? name).isSome

def insert (entries : Entries α) (name : String) (value : α) : Entries α :=
  match entries with
  | [] => [(name, value)]
  | (key, old) :: rest =>
      if name < key then (name, value) :: (key, old) :: rest
      else if key = name then (name, value) :: rest
      else (key, old) :: insert rest name value

def erase (entries : Entries α) (name : String) : Entries α :=
  entries.filter fun entry => entry.1 ≠ name

/-- The last value given for a name is the one kept. -/
def ofList (pairs : List (String × α)) : Entries α :=
  pairs.foldl (fun entries pair => entries.insert pair.1 pair.2) []

def names (entries : Entries α) : List String :=
  entries.map Prod.fst

def mapValues (f : α → β) (entries : Entries α) : Entries β :=
  entries.map fun entry => (entry.1, f entry.2)

/-!
# Look-up after a change

Each operation is described by what `get?` finds afterwards.
-/

@[simp] theorem get?_nil (name : String) : get? ([] : Entries α) name = none := rfl

theorem get?_cons (key : String) (value : α) (rest : Entries α) (name : String) :
    get? ((key, value) :: rest) name = if key = name then some value else rest.get? name := rfl

theorem mem_of_get? {entries : Entries α} {name : String} {value : α}
    (h : entries.get? name = some value) : (name, value) ∈ entries := by
  induction entries with
  | nil => cases h
  | cons entry rest ih =>
      obtain ⟨key, first⟩ := entry
      rw [get?_cons] at h
      split at h
      · next heq =>
          cases heq
          cases h
          exact List.mem_cons_self
      · exact List.mem_cons_of_mem _ (ih h)

theorem isSome_get?_iff (entries : Entries α) (name : String) :
    (entries.get? name).isSome ↔ name ∈ entries.names := by
  unfold names
  induction entries with
  | nil => simp
  | cons entry rest ih =>
      rcases entry with ⟨key, value⟩
      rw [get?_cons, List.map_cons, List.mem_cons]
      by_cases heq : key = name
      · simp [heq]
      · simp [heq, Ne.symm heq, ih]

theorem get?_insert_self (entries : Entries α) (name : String) (value : α) :
    (entries.insert name value).get? name = some value := by
  induction entries with
  | nil => simp [insert, get?]
  | cons entry rest ih =>
      obtain ⟨key, old⟩ := entry
      unfold insert
      split
      · simp [get?]
      · split
        · simp [get?]
        · next hne => simp [get?, hne, ih]

theorem get?_insert_of_ne (entries : Entries α) {name other : String} (value : α)
    (h : name ≠ other) : (entries.insert name value).get? other = entries.get? other := by
  induction entries with
  | nil => simp [insert, get?, h]
  | cons entry rest ih =>
      obtain ⟨key, old⟩ := entry
      unfold insert
      split
      · simp [get?, h]
      · split
        · next heq => subst heq; simp [get?, h]
        · simp only [get?, ih]

theorem get?_insert (entries : Entries α) (name other : String) (value : α) :
    (entries.insert name value).get? other
      = if name = other then some value else entries.get? other := by
  split
  · next h => subst h; exact get?_insert_self entries name value
  · next h => exact get?_insert_of_ne entries value h

theorem get?_erase (entries : Entries α) (name other : String) :
    (entries.erase name).get? other = if name = other then none else entries.get? other := by
  induction entries with
  | nil => simp [erase]
  | cons entry rest ih =>
      obtain ⟨key, old⟩ := entry
      simp only [erase] at ih ⊢
      by_cases hk : key = name
      · subst hk
        simp only [List.filter_cons, ne_eq, not_true_eq_false, decide_false, get?_cons]
        rw [if_neg (by decide), ih]
        by_cases h : key = other <;> simp [h]
      · simp only [List.filter_cons, ne_eq, hk, not_false_eq_true, decide_true, if_true, get?_cons]
        rw [ih]
        by_cases h : key = other
        · subst h; simp [Ne.symm hk]
        · simp [h]

/-!
# Order of the names

Insertion and removal keep the names strictly increasing, and sorted entries are
determined by their look-ups.
-/

theorem mem_insert {entries : Entries α} {name : String} {value : α} {entry : String × α}
    (h : entry ∈ entries.insert name value) : entry = (name, value) ∨ entry ∈ entries := by
  induction entries with
  | nil => exact Or.inl (List.mem_singleton.mp h)
  | cons head rest ih =>
      obtain ⟨key, old⟩ := head
      unfold insert at h
      split at h
      · exact List.mem_cons.mp h
      · split at h
        · rcases List.mem_cons.mp h with h | h
          · exact Or.inl h
          · exact Or.inr (List.mem_cons_of_mem _ h)
        · rcases List.mem_cons.mp h with h | h
          · exact Or.inr (h ▸ List.mem_cons_self)
          · exact (ih h).imp id (List.mem_cons_of_mem _)

theorem sorted_nil : Sorted ([] : Entries α) := List.Pairwise.nil

theorem lt_of_not_lt_of_ne {a b : String} (h : ¬ a < b) (hne : b ≠ a) : b < a := by
  rcases Decidable.em (b < a) with hlt | hlt
  · exact hlt
  · exact absurd (String.le_antisymm (String.not_lt.mp h) (String.not_lt.mp hlt)) hne

theorem Sorted.insert {entries : Entries α} (h : Sorted entries) (name : String) (value : α) :
    Sorted (entries.insert name value) := by
  induction entries with
  | nil => simp [Entries.insert, Sorted]
  | cons head rest ih =>
      obtain ⟨key, old⟩ := head
      obtain ⟨hhead, hrest⟩ := List.pairwise_cons.mp h
      unfold Entries.insert
      split
      · next hlt =>
          refine List.pairwise_cons.mpr ⟨?_, h⟩
          intro entry hentry
          rcases List.mem_cons.mp hentry with rfl | hmem
          · exact hlt
          · exact String.lt_trans hlt (hhead entry hmem)
      · next hlt =>
          split
          · next heq => subst heq; exact List.pairwise_cons.mpr ⟨hhead, hrest⟩
          · next hne =>
              refine List.pairwise_cons.mpr ⟨?_, ih hrest⟩
              intro entry hentry
              rcases mem_insert hentry with rfl | hmem
              · exact lt_of_not_lt_of_ne hlt hne
              · exact hhead entry hmem

theorem Sorted.erase {entries : Entries α} (h : Sorted entries) (name : String) :
    Sorted (entries.erase name) :=
  List.Pairwise.filter _ h

theorem Sorted.mapValues {entries : Entries α} (h : Sorted entries) (f : α → β) :
    Sorted (entries.mapValues f) := by
  simpa [Sorted, Entries.mapValues, List.pairwise_map] using h

theorem Sorted.names {entries : Entries α} (h : Sorted entries) :
    entries.names.Pairwise (· < ·) :=
  List.pairwise_map.mpr h

theorem Sorted.get?_of_mem {entries : Entries α} (h : Sorted entries) {name : String} {value : α}
    (hmem : (name, value) ∈ entries) : entries.get? name = some value := by
  induction entries with
  | nil => cases hmem
  | cons head rest ih =>
      obtain ⟨key, old⟩ := head
      obtain ⟨hhead, hrest⟩ := List.pairwise_cons.mp h
      rw [get?_cons]
      rcases List.mem_cons.mp hmem with heq | hlater
      · cases heq
        exact if_pos rfl
      · have hlt : key < name := hhead (name, value) hlater
        have hne : key ≠ name := fun heq => String.lt_irrefl name (heq ▸ hlt)
        rw [if_neg hne]
        exact ih hrest hlater

theorem get?_eq_none_of_lt {entries : Entries α} {name : String}
    (h : ∀ entry ∈ entries, name < entry.1) : entries.get? name = none := by
  induction entries with
  | nil => rfl
  | cons head rest ih =>
      obtain ⟨key, old⟩ := head
      have hlt : name < key := h (key, old) List.mem_cons_self
      have hne : key ≠ name := fun heq => String.lt_irrefl name (heq ▸ hlt)
      simp only [get?_cons, hne, if_false]
      exact ih fun entry hentry => h entry (List.mem_cons_of_mem _ hentry)

theorem Sorted.ext {a b : Entries α} (ha : Sorted a) (hb : Sorted b)
    (h : ∀ name, a.get? name = b.get? name) : a = b := by
  induction a generalizing b with
  | nil =>
      cases b with
      | nil => rfl
      | cons head rest =>
          obtain ⟨key, value⟩ := head
          have := h key
          simp [get?_cons] at this
  | cons x xs ih =>
      obtain ⟨key, value⟩ := x
      obtain ⟨hx, hxs⟩ := List.pairwise_cons.mp ha
      cases b with
      | nil => have := h key; simp [get?_cons] at this
      | cons y ys =>
          obtain ⟨key', value'⟩ := y
          obtain ⟨hy, hys⟩ := List.pairwise_cons.mp hb
          have hkey : key = key' := by
            rcases Decidable.em (key < key') with hlt | hnlt
            · have hnone : get? ((key', value') :: ys) key = none := by
                refine get?_eq_none_of_lt fun entry hentry => ?_
                rcases List.mem_cons.mp hentry with rfl | hmem
                · exact hlt
                · exact String.lt_trans hlt (hy entry hmem)
              have := h key
              rw [hnone] at this
              simp [get?_cons] at this
            · rcases Decidable.em (key = key') with heq | hne
              · exact heq
              · have hlt : key' < key := lt_of_not_lt_of_ne hnlt (Ne.symm hne)
                have hnone : get? ((key, value) :: xs) key' = none := by
                  refine get?_eq_none_of_lt fun entry hentry => ?_
                  rcases List.mem_cons.mp hentry with rfl | hmem
                  · exact hlt
                  · exact String.lt_trans hlt (hx entry hmem)
                have := h key'
                rw [hnone] at this
                simp [get?_cons] at this
          subst hkey
          have hvalue := h key
          simp only [get?_cons, if_true, Option.some.injEq] at hvalue
          subst hvalue
          have hrest : xs = ys := by
            refine ih hxs hys fun name => ?_
            rcases Decidable.em (key = name) with heq | hne
            · subst heq
              rw [get?_eq_none_of_lt hx, get?_eq_none_of_lt hy]
            · simpa [get?_cons, hne] using h name
          rw [hrest]

end Entries

/-!
# The dictionary type

The registries keep their definitions in dictionaries, so that equal contents
mean equal registries.
-/

structure Dict (α : Type) where
  entries : Entries α
  sorted : entries.Sorted

namespace Dict

def empty : Dict α := ⟨[], Entries.sorted_nil⟩

instance : Inhabited (Dict α) := ⟨empty⟩

def get? (dict : Dict α) (name : String) : Option α :=
  dict.entries.get? name

def contains (dict : Dict α) (name : String) : Bool :=
  (dict.get? name).isSome

def insert (dict : Dict α) (name : String) (value : α) : Dict α :=
  ⟨dict.entries.insert name value, dict.sorted.insert name value⟩

def erase (dict : Dict α) (name : String) : Dict α :=
  ⟨dict.entries.erase name, dict.sorted.erase name⟩

def ofList (pairs : List (String × α)) : Dict α :=
  pairs.foldl (fun dict pair => dict.insert pair.1 pair.2) empty

def names (dict : Dict α) : List String :=
  dict.entries.names

def values (dict : Dict α) : List α :=
  dict.entries.map Prod.snd

def isEmpty (dict : Dict α) : Bool :=
  dict.entries.isEmpty

def size (dict : Dict α) : Nat :=
  dict.entries.length

@[simp] theorem get?_empty (name : String) : (empty : Dict α).get? name = none := rfl

theorem get?_insert (dict : Dict α) (name other : String) (value : α) :
    (dict.insert name value).get? other = if name = other then some value else dict.get? other :=
  Entries.get?_insert dict.entries name other value

theorem contains_insert {dict : Dict α} {name other : String} {value : α} :
    (dict.insert name value).contains other = true
      ↔ name = other ∨ dict.contains other = true := by
  unfold contains
  rw [get?_insert]
  split
  · next heq => simp [heq]
  · next hne => simp [hne]

theorem get?_erase (dict : Dict α) (name other : String) :
    (dict.erase name).get? other = if name = other then none else dict.get? other :=
  Entries.get?_erase dict.entries name other

theorem get?_foldl_insert {pairs : List (String × α)} (h : (pairs.map Prod.fst).Nodup)
    (dict : Dict α) {name : String} {value : α} :
    (pairs.foldl (fun all pair => all.insert pair.1 pair.2) dict).get? name = some value
      ↔ (name, value) ∈ pairs ∨ (name ∉ pairs.map Prod.fst ∧ dict.get? name = some value) := by
  induction pairs generalizing dict with
  | nil => simp
  | cons pair rest ih =>
      rcases pair with ⟨key, found⟩
      rw [List.map_cons, List.nodup_cons] at h
      rw [List.foldl_cons, ih h.2, get?_insert, List.map_cons]
      by_cases heq : key = name
      · subst heq
        have hnot : (key, value) ∉ rest := fun hmem =>
          h.1 (List.mem_map.mpr ⟨(key, value), hmem, rfl⟩)
        simp [hnot, h.1, eq_comm]
      · simp [heq, Ne.symm heq]

theorem get?_ofList_eq_some_iff {pairs : List (String × α)} (h : (pairs.map Prod.fst).Nodup)
    {name : String} {value : α} :
    (ofList pairs).get? name = some value ↔ (name, value) ∈ pairs := by
  unfold ofList
  rw [get?_foldl_insert h]
  simp

@[ext] theorem ext {a b : Dict α} (h : ∀ name, a.get? name = b.get? name) : a = b := by
  obtain ⟨xs, hxs⟩ := a
  obtain ⟨ys, hys⟩ := b
  obtain rfl : xs = ys := Entries.Sorted.ext hxs hys h
  rfl

end Dict

end RecordFlow
