import RecordFlow.Proofs.Store.Shelves

/-!
# Requests to a store

## What one request answers and writes

The answer to a request follows from the instances of its path, and so do the instances that
the path has afterwards.  The keys of a shelf stay different, a request that is refused leaves
what its path holds as it was, and no request writes another path.
-/

namespace RecordFlow

open Store

/-!
# One shelf

A request seen from the instances of its path.
-/

namespace Request

def answer? (key : String) (held : List Instance) : Request → Option (List Instance)
  | create inst => (inst.get? key).bind fun value =>
      if held.any fun stored => hasValue stored key value then none else some [inst]
  | update inst => (inst.get? key).bind fun value =>
      if held.any fun stored => hasValue stored key value then some [inst] else none
  | delete inst => (inst.get? key).map fun value =>
      held.filter fun stored => hasValue stored key value
  | query _ filter => some (held.filter (matchesFilter filter))

/-- The instances of the request's path after it was served. -/
def heldAfter (key : String) (held : List Instance) : Request → List Instance
  | create inst => ((inst.get? key).map fun value =>
      if held.any fun stored => hasValue stored key value then held else held ++ [inst]).getD held
  | update inst => ((inst.get? key).map fun value =>
      held.map fun stored => if hasValue stored key value then inst else stored).getD held
  | delete inst => ((inst.get? key).map fun value =>
      held.filter fun stored => !hasValue stored key value).getD held
  | query _ _ => held

end Request

theorem map_replace_of_none {key : String} {value : Value} {held : List Instance}
    (h : ¬ (held.any fun stored => hasValue stored key value) = true) (inst : Instance) :
    (held.map fun stored => if hasValue stored key value then inst else stored) = held := by
  refine (List.map_congr_left ?_).trans (List.map_id held)
  intro stored hstored
  apply if_neg
  intro hvalue
  exact h (List.any_eq_true.mpr ⟨stored, hstored, hvalue⟩)

theorem filter_of_none {key : String} {value : Value} {held : List Instance}
    (h : (held.filter fun stored => hasValue stored key value) = []) :
    (held.filter fun stored => !hasValue stored key value) = held := by
  rw [List.filter_eq_nil_iff] at h
  rw [List.filter_eq_self]
  intro stored hstored
  rw [Bool.not_eq_true', Bool.eq_false_iff]
  exact h stored hstored

theorem Store.Keyed.heldAfter {key : String} {held : List Instance} {request : Request}
    (h : Keyed key request.path held) : Keyed key request.path (request.heldAfter key held) := by
  cases request with
  | create inst =>
      simp only [Request.heldAfter]
      cases hkey : inst.get? key with
      | none => exact h
      | some value =>
          rw [Option.map_some, Option.getD_some]
          split
          · exact h
          · next hnew =>
              apply h.append rfl hkey
              intro stored hstored
              rw [Bool.eq_false_iff]
              intro hvalue
              exact hnew (List.any_eq_true.mpr ⟨stored, hstored, hvalue⟩)
  | update inst =>
      simp only [Request.heldAfter]
      cases hkey : inst.get? key with
      | none => exact h
      | some value => exact h.replace rfl hkey
  | delete inst =>
      simp only [Request.heldAfter]
      cases inst.get? key with
      | none => exact h
      | some value => exact h.filter _
  | query path filter => exact h

theorem Request.heldAfter_of_refused {key : String} {held : List Instance} {request : Request}
    (h : request.answer? key held = none) : request.heldAfter key held = held := by
  cases request with
  | create inst =>
      simp only [answer?] at h
      simp only [heldAfter]
      cases hkey : inst.get? key with
      | none => rfl
      | some value =>
          rw [hkey, Option.bind_some] at h
          rw [Option.map_some, Option.getD_some]
          split at h
          · next hany => exact if_pos hany
          · cases h
  | update inst =>
      simp only [answer?] at h
      simp only [heldAfter]
      cases hkey : inst.get? key with
      | none => rfl
      | some value =>
          rw [hkey, Option.bind_some] at h
          rw [Option.map_some, Option.getD_some]
          split at h
          · cases h
          · next hnone => exact map_replace_of_none hnone inst
  | delete inst =>
      simp only [answer?, Option.map_eq_none_iff] at h
      simp only [heldAfter, h]
      rfl
  | query path filter => rfl

/-!
# The whole store

The shelf of the path is written, and the count changes with its length.
-/

namespace Store

/-- The store after the instances of one path became others. -/
structure Writes (store : Store) (path : Path) (held : List Instance) (next : Store) : Prop where
  shelved : next.Shelved
  instances : ∀ other, next.instances other = if path = other then held else store.instances other
  size : next.size + (store.instances path).length = store.size + held.length

theorem writes_refl {store : Store} (h : store.Shelved) (path : Path) :
    store.Writes path (store.instances path) store where
  shelved := h
  instances other := by
    split
    · next heq => rw [heq]
    · rfl
  size := rfl

theorem writes_setInstances {store : Store} (h : store.Shelved) (path : Path)
    (held : List Instance) : store.Writes path held (store.setInstances path held) :=
  ⟨h.setInstances path held, (store.instances_setInstances path · held),
    size_setInstances h path held⟩

theorem Writes.of_withShelf {store next : Store} {path opened : Path} {held : List Instance}
    (h : (store.withShelf opened).Writes path held next) : store.Writes path held next where
  shelved := h.shelved
  instances other := by rw [h.instances, instances_withShelf]
  size := by
    have hsize := h.size
    rw [instances_withShelf, size_withShelf] at hsize
    exact hsize

theorem writes_withShelf {store : Store} (h : store.Shelved) (path : Path) :
    store.Writes path (store.instances path) (store.withShelf path) := by
  have hopened := (writes_refl (h.withShelf path) path).of_withShelf
  rw [instances_withShelf] at hopened
  exact hopened

section Requests

variable {store : Store} {key : String} {inst : Instance}

theorem create_shelf (hshelved : store.Shelved) (name key : String) (inst : Instance) :
    (store.create name key inst).1.toOption
        = (Request.create inst).answer? key (store.instances inst.path) ∧
      store.Writes inst.path ((Request.create inst).heldAfter key (store.instances inst.path))
        (store.create name key inst).2 := by
  simp only [create, Request.answer?, Request.heldAfter]
  cases inst.get? key with
  | none => exact ⟨rfl, writes_refl hshelved inst.path⟩
  | some value =>
      simp only [instances_withShelf, Option.bind_some, Option.map_some, Option.getD_some]
      split
      · exact ⟨rfl, writes_withShelf hshelved inst.path⟩
      · exact ⟨rfl, (writes_setInstances (hshelved.withShelf inst.path) inst.path _).of_withShelf⟩

theorem update_shelf (hshelved : store.Shelved) (name : String)
    (hkeyed : Keyed key inst.path (store.instances inst.path)) :
    (store.update name key inst).1.toOption
        = (Request.update inst).answer? key (store.instances inst.path) ∧
      store.Writes inst.path ((Request.update inst).heldAfter key (store.instances inst.path))
        (store.update name key inst).2 := by
  simp only [update, Request.answer?, Request.heldAfter]
  cases inst.get? key with
  | none => exact ⟨rfl, writes_refl hshelved inst.path⟩
  | some value =>
      simp only [instances_withShelf, Option.bind_some, Option.map_some, Option.getD_some,
        hkeyed.replaceFirst_eq]
      split
      · exact ⟨rfl, (writes_setInstances (hshelved.withShelf inst.path) inst.path _).of_withShelf⟩
      · next hnone =>
          rw [map_replace_of_none hnone]
          exact ⟨rfl, writes_withShelf hshelved inst.path⟩

theorem delete_shelf (hshelved : store.Shelved) (name : String)
    (hkeyed : Keyed key inst.path (store.instances inst.path)) :
    (store.delete name key inst).1.toOption
        = (Request.delete inst).answer? key (store.instances inst.path) ∧
      store.Writes inst.path ((Request.delete inst).heldAfter key (store.instances inst.path))
        (store.delete name key inst).2 := by
  simp only [delete, Request.answer?, Request.heldAfter]
  cases inst.get? key with
  | none => exact ⟨rfl, writes_refl hshelved inst.path⟩
  | some value =>
      simp only [Option.map_some, Option.getD_some, hkeyed.removeFirst_eq]
      split
      · next hempty =>
          rw [List.isEmpty_iff] at hempty
          rw [hempty, filter_of_none hempty]
          exact ⟨rfl, writes_refl hshelved inst.path⟩
      · exact ⟨rfl, writes_setInstances hshelved inst.path _⟩

theorem serve_shelf (hshelved : store.Shelved) (name : String)
    (request : Request) (hkeyed : Keyed key request.path (store.instances request.path)) :
    (store.serve name key request).1.toOption
        = request.answer? key (store.instances request.path) ∧
      store.Writes request.path (request.heldAfter key (store.instances request.path))
        (store.serve name key request).2 := by
  cases request with
  | create inst => exact create_shelf hshelved name key inst
  | update inst => exact update_shelf hshelved name hkeyed
  | delete inst => exact delete_shelf hshelved name hkeyed
  | query path filter => exact ⟨rfl, writes_refl hshelved path⟩

end Requests

end Store
end RecordFlow
