import Mathlib.Data.List.Induction
import RecordFlow.Proofs.Store.Requests

/-!
# The ledger of a store

## All instances in the order of their creation

A ledger lists what requests have created and not deleted since, whatever its path, each
instance with the number of the request that created it.  A create adds to its end, an update
changes an entry where it stands, and a delete takes an entry out.  The main statement is that
a store with its shelves serves every run of requests as the ledger tells.
-/

namespace RecordFlow

open Store

structure LedgerEntry where
  /-- How many requests were served before the one that created the instance. -/
  created : Nat
  inst : Instance

namespace LedgerEntry

def isAt (key : String) (path : Path) (value : Value) (entry : LedgerEntry) : Bool :=
  entry.inst.path = path && hasValue entry.inst key value

def write (key : String) (inst : Instance) (value : Value) (entry : LedgerEntry) : LedgerEntry :=
  if entry.isAt key inst.path value then { entry with inst := inst } else entry

theorem created_write (key : String) (inst : Instance) (value : Value) (entry : LedgerEntry) :
    (entry.write key inst value).created = entry.created := by
  unfold write
  split <;> rfl

theorem path_write (key : String) (inst : Instance) (value : Value) (entry : LedgerEntry) :
    (entry.write key inst value).inst.path = entry.inst.path := by
  unfold write isAt
  split
  · next hat =>
      rw [Bool.and_eq_true, decide_eq_true_eq] at hat
      exact hat.1.symm
  · rfl

theorem inst_write (key : String) (inst : Instance) (value : Value) (entry : LedgerEntry) :
    (entry.write key inst value).inst
      = if entry.inst.path = inst.path ∧ hasValue entry.inst key value then inst
        else entry.inst := by
  unfold write isAt
  simp only [Bool.and_eq_true, decide_eq_true_eq]
  split <;> rfl

end LedgerEntry

structure Ledger where
  entries : List LedgerEntry
  served : Nat

namespace Ledger

def empty : Ledger := ⟨[], 0⟩

def on (entries : List LedgerEntry) (path : Path) : List Instance :=
  (entries.map LedgerEntry.inst).filter fun inst => inst.path = path

def instances (ledger : Ledger) (path : Path) : List Instance :=
  on ledger.entries path

def entriesAfter (key : String) (ledger : Ledger) : Request → List LedgerEntry
  | .create inst => ((inst.get? key).map fun value =>
      if ledger.entries.any (LedgerEntry.isAt key inst.path value) then ledger.entries
      else ledger.entries ++ [⟨ledger.served, inst⟩]).getD ledger.entries
  | .update inst => ((inst.get? key).map fun value =>
      ledger.entries.map (LedgerEntry.write key inst value)).getD ledger.entries
  | .delete inst => ((inst.get? key).map fun value =>
      ledger.entries.filter fun entry => !entry.isAt key inst.path value).getD ledger.entries
  | .query _ _ => ledger.entries

def step (key : String) (ledger : Ledger) (request : Request) : Ledger :=
  ⟨ledger.entriesAfter key request, ledger.served + 1⟩

def of (key : String) (requests : List Request) : Ledger :=
  requests.foldl (step key) empty

/-!
# One path of the ledger

A request changes the instances of its path as it changes a shelf, and no others.
-/

theorem on_cons (entry : LedgerEntry) (rest : List LedgerEntry) (path : Path) :
    on (entry :: rest) path
      = if entry.inst.path = path then entry.inst :: on rest path else on rest path := by
  unfold on
  rw [List.map_cons, List.filter_cons]
  simp only [decide_eq_true_eq]

theorem any_on (entries : List LedgerEntry) (key : String) (path : Path) (value : Value) :
    ((on entries path).any fun stored => hasValue stored key value)
      = entries.any (LedgerEntry.isAt key path value) := by
  unfold on
  rw [List.any_filter, List.any_map]
  rfl

theorem on_append (entries : List LedgerEntry) (last : LedgerEntry) (path : Path) :
    on (entries ++ [last]) path
      = if last.inst.path = path then on entries path ++ [last.inst] else on entries path := by
  induction entries with
  | nil => exact on_cons last [] path
  | cons entry rest ih =>
      rw [List.cons_append, on_cons, on_cons, ih]
      split <;> split <;> rfl

theorem on_create (entries : List LedgerEntry) (key : String) (created : Nat) (inst : Instance)
    (value : Value) (path : Path) :
    on (if entries.any (LedgerEntry.isAt key inst.path value) then entries
        else entries ++ [⟨created, inst⟩]) path
      = if inst.path = path then
          if (on entries path).any fun stored => hasValue stored key value then on entries path
          else on entries path ++ [inst]
        else on entries path := by
  by_cases hpath : inst.path = path
  · rw [if_pos hpath, any_on, hpath]
    split
    · rfl
    · rw [on_append, if_pos hpath]
  · rw [if_neg hpath]
    split
    · rfl
    · rw [on_append, if_neg hpath]

theorem on_write (entries : List LedgerEntry) (key : String) (inst : Instance) (value : Value)
    (path : Path) :
    on (entries.map (LedgerEntry.write key inst value)) path
      = if inst.path = path then
          (on entries path).map fun stored => if hasValue stored key value then inst else stored
        else on entries path := by
  induction entries with
  | nil => simp [on]
  | cons entry rest ih =>
      rw [List.map_cons, on_cons, on_cons, LedgerEntry.path_write, LedgerEntry.inst_write, ih]
      by_cases hentry : entry.inst.path = path
      · by_cases hpath : inst.path = path
        · simp only [hentry, hpath, true_and, if_true, List.map_cons]
        · have hne : ¬ entry.inst.path = inst.path := fun heq => hpath (heq.symm.trans hentry)
          simp only [if_pos hentry, if_neg hpath, hne, false_and, if_false]
      · simp only [if_neg hentry]

theorem on_filter (entries : List LedgerEntry) (key : String) (own : Path) (value : Value)
    (path : Path) :
    on (entries.filter fun entry => !entry.isAt key own value) path
      = if own = path then (on entries path).filter fun stored => !hasValue stored key value
        else on entries path := by
  unfold on
  rw [List.filter_map, List.filter_filter, List.filter_map, List.filter_map, List.filter_filter]
  split
  · next hpath =>
      congr 1
      apply List.filter_congr
      intro entry _
      simp only [Function.comp_apply, LedgerEntry.isAt, hpath]
      cases decide (entry.inst.path = path) <;> simp
  · next hpath =>
      congr 1
      apply List.filter_congr
      intro entry _
      simp only [Function.comp_apply, LedgerEntry.isAt]
      by_cases hentry : entry.inst.path = path
      · simp [hentry, Ne.symm hpath]
      · simp [hentry]

theorem instances_step (key : String) (ledger : Ledger) (request : Request) (path : Path) :
    (ledger.step key request).instances path
      = if request.path = path then request.heldAfter key (ledger.instances path)
        else ledger.instances path := by
  show on (ledger.entriesAfter key request) path
    = if request.path = path then request.heldAfter key (on ledger.entries path)
      else on ledger.entries path
  cases request with
  | create inst =>
      simp only [entriesAfter, Request.heldAfter, Request.path]
      cases inst.get? key with
      | none => exact (ite_self _).symm
      | some value => exact on_create ledger.entries key ledger.served inst value path
  | update inst =>
      simp only [entriesAfter, Request.heldAfter, Request.path]
      cases inst.get? key with
      | none => exact (ite_self _).symm
      | some value => exact on_write ledger.entries key inst value path
  | delete inst =>
      simp only [entriesAfter, Request.heldAfter, Request.path]
      cases inst.get? key with
      | none => exact (ite_self _).symm
      | some value => exact on_filter ledger.entries key inst.path value path
  | query own filter => exact (ite_self _).symm

theorem length_step (key : String) (ledger : Ledger) (request : Request) :
    (ledger.step key request).entries.length + (ledger.instances request.path).length
      = ledger.entries.length
        + (request.heldAfter key (ledger.instances request.path)).length := by
  show (ledger.entriesAfter key request).length + (on ledger.entries request.path).length
    = ledger.entries.length + (request.heldAfter key (on ledger.entries request.path)).length
  cases request with
  | create inst =>
      simp only [entriesAfter, Request.heldAfter, Request.path]
      cases inst.get? key with
      | none => rfl
      | some value =>
          simp only [Option.map_some, Option.getD_some, any_on]
          split
          · rfl
          · rw [List.length_append, List.length_append, List.length_singleton,
              List.length_singleton]
            omega
  | update inst =>
      simp only [entriesAfter, Request.heldAfter, Request.path]
      cases inst.get? key with
      | none => rfl
      | some value => simp only [Option.map_some, Option.getD_some, List.length_map]
  | delete inst =>
      simp only [entriesAfter, Request.heldAfter, Request.path]
      cases inst.get? key with
      | none => rfl
      | some value =>
          have hentries := List.length_eq_length_filter_add (l := ledger.entries)
            (LedgerEntry.isAt key inst.path value)
          have hheld := List.length_eq_length_filter_add (l := on ledger.entries inst.path)
            fun stored => hasValue stored key value
          have hremoved : ((on ledger.entries inst.path).filter fun stored =>
              hasValue stored key value).length
              = (ledger.entries.filter (LedgerEntry.isAt key inst.path value)).length := by
            unfold on
            rw [List.filter_filter, List.filter_map, List.length_map]
            congr 2
            funext entry
            exact Bool.and_comm _ _
          simp only [Option.map_some, Option.getD_some]
          omega
  | query own filter => rfl

/-!
# Where entries come from

Every entry goes back to the create that put it there; updates since have changed all but its
path and its key.
-/

structure Traced (key : String) (requests : List Request) (ledger : Ledger) : Prop where
  served : ledger.served = requests.length
  ordered : ledger.entries.Pairwise fun a b => a.created < b.created
  origin : ∀ entry ∈ ledger.entries, ∃ first,
    requests[entry.created]? = some (.create first) ∧ first.path = entry.inst.path ∧
      (first = entry.inst ∨ SameKey key first entry.inst)

theorem traced_empty (key : String) : Traced key [] empty :=
  ⟨rfl, List.Pairwise.nil, (fun _ h => nomatch h)⟩

namespace Traced

variable {key : String} {requests : List Request} {ledger : Ledger}

theorem created_lt (h : Traced key requests ledger) {entry : LedgerEntry}
    (hentry : entry ∈ ledger.entries) : entry.created < ledger.served := by
  rcases h.origin entry hentry with ⟨first, hfirst, _⟩
  rw [h.served]
  exact (List.getElem?_eq_some_iff.mp hfirst).1

theorem origin_concat (h : Traced key requests ledger) (request : Request) {entry : LedgerEntry}
    (hentry : entry ∈ ledger.entries) : ∃ first,
      (requests ++ [request])[entry.created]? = some (.create first) ∧
        first.path = entry.inst.path ∧ (first = entry.inst ∨ SameKey key first entry.inst) := by
  rcases h.origin entry hentry with ⟨first, hfirst, hrest⟩
  refine ⟨first, ?_, hrest⟩
  rw [List.getElem?_append_left (List.getElem?_eq_some_iff.mp hfirst).1]
  exact hfirst

theorem of_sublist (h : Traced key requests ledger) (request : Request)
    {kept : List LedgerEntry} (hkept : kept.Sublist ledger.entries) :
    Traced key (requests ++ [request]) ⟨kept, ledger.served + 1⟩ where
  served := by
    show ledger.served + 1 = _
    rw [h.served, List.length_append, List.length_singleton]
  ordered := h.ordered.sublist hkept
  origin _ hentry := h.origin_concat request (hkept.subset hentry)

theorem create (h : Traced key requests ledger) (inst : Instance) :
    Traced key (requests ++ [.create inst])
      ⟨ledger.entries ++ [⟨ledger.served, inst⟩], ledger.served + 1⟩ where
  served := (h.of_sublist (.create inst) (List.Sublist.refl _)).served
  ordered := by
    refine List.pairwise_append.mpr ⟨h.ordered, List.pairwise_singleton _ _, ?_⟩
    intro entry hentry last hlast
    rw [List.mem_singleton.mp hlast]
    exact h.created_lt hentry
  origin entry hentry := by
    rcases List.mem_append.mp hentry with hold | hnew
    · exact h.origin_concat (.create inst) hold
    · rw [List.mem_singleton.mp hnew]
      refine ⟨inst, ?_, rfl, Or.inl rfl⟩
      show (requests ++ [Request.create inst])[ledger.served]? = _
      rw [h.served]
      exact List.getElem?_concat_length

theorem update (h : Traced key requests ledger) {inst : Instance} {value : Value}
    (hkey : inst.get? key = some value) :
    Traced key (requests ++ [.update inst])
      ⟨ledger.entries.map (LedgerEntry.write key inst value), ledger.served + 1⟩ where
  served := (h.of_sublist (.update inst) (List.Sublist.refl _)).served
  ordered := by
    rw [List.pairwise_map]
    refine h.ordered.imp ?_
    intro a b hlt
    rw [LedgerEntry.created_write, LedgerEntry.created_write]
    exact hlt
  origin entry hentry := by
    rcases List.mem_map.mp hentry with ⟨old, hold, rfl⟩
    rcases h.origin_concat (.update inst) hold with ⟨first, hfirst, hpath, hsame⟩
    refine ⟨first, ?_, ?_, ?_⟩
    · rw [LedgerEntry.created_write]
      exact hfirst
    · rw [LedgerEntry.path_write]
      exact hpath
    · rw [LedgerEntry.inst_write]
      split
      · -- the update has the key of the entry, which has that of the create
        next hat =>
          refine Or.inr ((sameKey_iff hkey).mpr ?_)
          rcases hsame with heq | hsame
          · rw [heq]
            exact hat.2
          · exact hsame.hasValue hat.2
      · exact hsame

theorem step (h : Traced key requests ledger) (request : Request) :
    Traced key (requests ++ [request]) (ledger.step key request) := by
  have hsame := h.of_sublist request (List.Sublist.refl _)
  unfold Ledger.step
  cases request with
  | create inst =>
      simp only [entriesAfter]
      cases inst.get? key with
      | none => exact hsame
      | some value =>
          simp only [Option.map_some, Option.getD_some]
          split
          · exact hsame
          · exact h.create inst
  | update inst =>
      simp only [entriesAfter]
      cases hkey : inst.get? key with
      | none => exact hsame
      | some value => exact h.update hkey
  | delete inst =>
      simp only [entriesAfter]
      cases inst.get? key with
      | none => exact hsame
      | some value => exact h.of_sublist (.delete inst) List.filter_sublist
  | query own filter => exact hsame

end Traced
end Ledger

/-!
# Stores that follow the ledger

A store and a ledger agree at the start, and no request parts them.
-/

namespace Store

structure Follows (key : String) (ledger : Ledger) (store : Store) : Prop where
  shelved : store.Shelved
  instances : ∀ path, store.instances path = ledger.instances path
  keyed : ∀ path, Keyed key path (store.instances path)
  size : store.size = ledger.entries.length

theorem follows_empty (key : String) : Follows key Ledger.empty empty :=
  ⟨shelved_empty, fun _ => rfl, fun path => Keyed.nil key path, rfl⟩

theorem Follows.step {key : String} {ledger : Ledger} {store : Store}
    (h : Follows key ledger store) (name : String) (request : Request) :
    Follows key (ledger.step key request) (store.serve name key request).2 := by
  have hwrites := (serve_shelf h.shelved name request (h.keyed request.path)).2
  refine ⟨hwrites.shelved, ?_, ?_, ?_⟩
  · intro path
    rw [hwrites.instances, Ledger.instances_step]
    split
    · next hpath => rw [hpath, h.instances]
    · exact h.instances path
  · intro path
    rw [hwrites.instances]
    split
    · next hpath =>
        rw [← hpath]
        exact (h.keyed request.path).heldAfter
    · exact h.keyed path
  · have hsize := hwrites.size
    have hlength := Ledger.length_step key ledger request
    rw [← h.instances] at hlength
    rw [h.size] at hsize
    omega

def after (name key : String) (requests : List Request) : Store :=
  requests.foldl (fun store request => (store.serve name key request).2) empty

theorem follows_after (name key : String) (requests : List Request) :
    Follows key (Ledger.of key requests) (after name key requests) ∧
      (Ledger.of key requests).Traced key requests := by
  induction requests using List.reverseRecOn with
  | nil => exact ⟨follows_empty key, Ledger.traced_empty key⟩
  | append_singleton requests request ih =>
      unfold Ledger.of after
      rw [List.foldl_concat, List.foldl_concat]
      exact ⟨ih.1.step name request, ih.2.step request⟩

/-!
# The store as a ledger of keyed instances

What can be asked of a store, and what is answered, in terms of the ledger.
-/

structure Refines (name key : String) (ledger : Ledger) (store : Store) : Prop where
  size : store.size = ledger.entries.length
  keyed : ∀ path, Keyed key path (store.instances path)
  answer : ∀ request, (store.serve name key request).1.toOption
    = request.answer? key (ledger.instances request.path)
  next : ∀ request path, (store.serve name key request).2.instances path
    = (ledger.step key request).instances path
  query : ∀ path filter, store.serve name key (.query path filter)
    = (.ok ((ledger.instances path).filter fun inst =>
        filter.all fun entry => hasValue inst entry.1 entry.2), store)
  create : ∀ inst, (∃ answer, (store.serve name key (.create inst)).1 = .ok answer) ↔
    ∃ value, inst.get? key = some value ∧
      ∀ stored ∈ ledger.instances inst.path, hasValue stored key value = false
  update : ∀ inst, (∃ answer, (store.serve name key (.update inst)).1 = .ok answer) ↔
    ∃ value, inst.get? key = some value ∧
      ∃ stored ∈ ledger.instances inst.path, hasValue stored key value = true
  delete : ∀ inst value, inst.get? key = some value →
    ∃ removed, (store.serve name key (.delete inst)).1 = .ok removed ∧ removed.length ≤ 1 ∧
      removed = ((ledger.instances inst.path).filter fun stored => hasValue stored key value) ∧
      ∀ path, (store.serve name key (.delete inst)).2.instances path
        = if inst.path = path then
            (ledger.instances path).filter fun stored => !hasValue stored key value
          else ledger.instances path
  refused : ∀ request error, (store.serve name key request).1 = .error error →
    (store.serve name key request).2.size = store.size ∧
      ∀ path filter, (store.serve name key request).2.query path filter = store.query path filter

theorem exists_ok_iff {outcome : Except ε α} :
    (∃ answer, outcome = .ok answer) ↔ outcome.toOption.isSome := by
  cases outcome with
  | error error => simp [Except.toOption]
  | ok answer => simp [Except.toOption]

namespace Follows

variable {key : String} {ledger : Ledger} {store : Store}

theorem answer (h : Follows key ledger store) (name : String) (request : Request) :
    (store.serve name key request).1.toOption
      = request.answer? key (ledger.instances request.path) := by
  rw [← h.instances]
  exact (serve_shelf h.shelved name request (h.keyed request.path)).1

theorem create_ok_iff (h : Follows key ledger store) (name : String) (inst : Instance) :
    (∃ answer, (store.serve name key (.create inst)).1 = .ok answer) ↔
      ∃ value, inst.get? key = some value ∧
        ∀ stored ∈ ledger.instances inst.path, hasValue stored key value = false := by
  rw [exists_ok_iff, h.answer]
  simp only [Request.answer?, Request.path]
  cases inst.get? key with
  | none => simp
  | some value => simp

theorem update_ok_iff (h : Follows key ledger store) (name : String) (inst : Instance) :
    (∃ answer, (store.serve name key (.update inst)).1 = .ok answer) ↔
      ∃ value, inst.get? key = some value ∧
        ∃ stored ∈ ledger.instances inst.path, hasValue stored key value = true := by
  rw [exists_ok_iff, h.answer]
  simp only [Request.answer?, Request.path]
  cases inst.get? key with
  | none => simp
  | some value => simp

theorem delete_ok (h : Follows key ledger store) (name : String) {inst : Instance} {value : Value}
    (hkey : inst.get? key = some value) :
    (store.serve name key (.delete inst)).1
      = .ok ((ledger.instances inst.path).filter fun stored => hasValue stored key value) := by
  have hanswer := h.answer name (.delete inst)
  simp only [Request.answer?, Request.path, hkey, Option.map_some] at hanswer
  cases houtcome : (store.serve name key (.delete inst)).1 with
  | error error =>
      rw [houtcome] at hanswer
      cases hanswer
  | ok removed =>
      rw [houtcome] at hanswer
      cases hanswer
      rfl

theorem refused (h : Follows key ledger store) {name : String} {request : Request}
    {error : ResolverError} (herror : (store.serve name key request).1 = .error error) :
    (store.serve name key request).2.size = store.size ∧
      ∀ path, (store.serve name key request).2.instances path = store.instances path := by
  rcases serve_shelf h.shelved name request (h.keyed request.path) with ⟨hanswer, hwrites⟩
  rw [herror] at hanswer
  have hheld := Request.heldAfter_of_refused hanswer.symm
  constructor
  · have hsize := hwrites.size
    rw [hheld] at hsize
    omega
  · intro path
    rw [hwrites.instances, hheld]
    split
    · next hpath => rw [hpath]
    · rfl

end Follows

/-- After any run of requests a store is the keyed store that its ledger tells of. -/
theorem refines_ledger (name key : String) (requests : List Request) :
    Refines name key (Ledger.of key requests) (after name key requests) ∧
      (Ledger.of key requests).Traced key requests := by
  rcases follows_after name key requests with ⟨h, htraced⟩
  refine ⟨?_, htraced⟩
  exact {
    size := h.size
    keyed := h.keyed
    answer := h.answer name
    next := fun request path => (h.step name request).instances path
    query := by
      intro path filter
      rw [← h.instances]
      rfl
    create := h.create_ok_iff name
    update := h.update_ok_iff name
    delete := by
      intro inst value hkey
      refine ⟨_, h.delete_ok name hkey, ?_, rfl, ?_⟩
      · rw [← h.instances]
        exact (h.keyed inst.path).length_filter_le_one value
      · intro path
        rw [(h.step name (.delete inst)).instances, Ledger.instances_step]
        simp only [Request.path, Request.heldAfter, hkey, Option.map_some, Option.getD_some]
    refused := by
      intro request error herror
      rcases h.refused herror with ⟨hsize, hinstances⟩
      refine ⟨hsize, ?_⟩
      intro path filter
      unfold Store.query
      rw [hinstances] }

end Store
end RecordFlow
