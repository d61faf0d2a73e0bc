import Mathlib.Data.List.Nodup

/-!
# `cache.Store`: objects keyed by a key function

`cache.NewStore(keyFunc)` keeps at most one object per key. `Add` replaces whatever is
stored under the object's key, `Delete` drops the key, `Get` reports the stored object and
whether the key is present, and `List` enumerates the objects with no order promised (the
model lists the newest first). The one-object-per-key invariant is a field, so no operation
can break it.
-/
namespace KubeParrot

structure Store {α κ : Type} (keyFunc : α → κ) where
  items : List α
  nodup : (items.map keyFunc).Nodup

namespace Store

variable {α κ : Type} {keyFunc : α → κ}

def keys (s : Store keyFunc) : List κ := s.items.map keyFunc

def empty : Store keyFunc := ⟨[], List.nodup_nil⟩

theorem mem_keys {s : Store keyFunc} {k : κ} : k ∈ s.keys ↔ ∃ o ∈ s.items, keyFunc o = k :=
  List.mem_map

@[simp] theorem keys_empty : (empty : Store keyFunc).keys = [] := rfl

@[simp] theorem items_empty : (empty : Store keyFunc).items = [] := rfl

/-- Two stored objects under one key are the same object. -/
theorem eq_of_key_eq {s : Store keyFunc} {o o' : α} (ho : o ∈ s.items) (ho' : o' ∈ s.items)
    (h : keyFunc o = keyFunc o') : o = o' :=
  List.inj_on_of_nodup_map s.nodup ho ho' h

/-- `List()` never returns an object twice. -/
theorem items_nodup (s : Store keyFunc) : s.items.Nodup :=
  List.Nodup.of_map keyFunc s.nodup

variable [DecidableEq κ]

/-- `item, _, _ := s.Get(obj)` for an `obj` with key `k`. -/
def get (s : Store keyFunc) (k : κ) : Option α := s.items.find? fun o => keyFunc o = k

/-- `_, exists, _ := s.Get(obj)` for an `obj` with key `k`. -/
def contains (s : Store keyFunc) (k : κ) : Bool := decide (k ∈ s.keys)

/-- `s.Delete(obj)`. -/
def delete (s : Store keyFunc) (obj : α) : Store keyFunc :=
  ⟨s.items.filter (fun o => keyFunc o ≠ keyFunc obj),
    s.nodup.sublist ((List.filter_sublist _).map keyFunc)⟩

/-- `s.Add(obj)`: an upsert. -/
def add (s : Store keyFunc) (obj : α) : Store keyFunc :=
  ⟨obj :: (s.delete obj).items,
    List.nodup_cons.2 ⟨by simp [delete], (s.delete obj).nodup⟩⟩

@[simp] theorem contains_eq_true {s : Store keyFunc} {k : κ} : s.contains k = true ↔ k ∈ s.keys :=
  decide_eq_true_iff

@[simp] theorem contains_eq_false {s : Store keyFunc} {k : κ} :
    s.contains k = false ↔ k ∉ s.keys := by
  simp [contains]

@[simp] theorem mem_items_delete {s : Store keyFunc} {obj o : α} :
    o ∈ (s.delete obj).items ↔ o ∈ s.items ∧ keyFunc o ≠ keyFunc obj := by
  simp [delete]

@[simp] theorem mem_items_add {s : Store keyFunc} {obj o : α} :
    o ∈ (s.add obj).items ↔ o = obj ∨ (o ∈ s.items ∧ keyFunc o ≠ keyFunc obj) := by
  simp [add]

@[simp] theorem mem_keys_delete {s : Store keyFunc} {obj : α} {k : κ} :
    k ∈ (s.delete obj).keys ↔ k ∈ s.keys ∧ k ≠ keyFunc obj := by
  simp only [mem_keys, mem_items_delete]
  constructor
  · rintro ⟨o, ⟨ho, hne⟩, rfl⟩
    exact ⟨⟨o, ho, rfl⟩, hne⟩
  · rintro ⟨⟨o, ho, rfl⟩, hne⟩
    exact ⟨o, ⟨ho, hne⟩, rfl⟩

@[simp] theorem mem_keys_add {s : Store keyFunc} {obj : α} {k : κ} :
    k ∈ (s.add obj).keys ↔ k = keyFunc obj ∨ k ∈ s.keys := by
  have h : (s.add obj).keys = keyFunc obj :: (s.delete obj).keys := rfl
  rw [h, List.mem_cons, mem_keys_delete]
  by_cases hk : k = keyFunc obj <;> simp [hk]

/-- Deleting an absent key leaves the store as it was. -/
theorem delete_of_not_mem {s : Store keyFunc} {obj : α} (h : keyFunc obj ∉ s.keys) :
    s.delete obj = s := by
  obtain ⟨items, nodup⟩ := s
  simp only [delete, mk.injEq]
  exact List.filter_eq_self.2 fun o ho => by
    simpa using fun he => h (List.mem_map.2 ⟨o, ho, he⟩)

theorem get_eq_some {s : Store keyFunc} {k : κ} {o : α} :
    s.get k = some o ↔ o ∈ s.items ∧ keyFunc o = k := by
  constructor
  · intro h
    exact ⟨List.mem_of_find?_eq_some h, by simpa using List.find?_some h⟩
  · rintro ⟨ho, rfl⟩
    cases hf : s.get (keyFunc o) with
    | none => simpa using (List.find?_eq_none.1 hf) o ho
    | some o' =>
      have h' := List.find?_some hf
      simp only [decide_eq_true_eq] at h'
      rw [eq_of_key_eq (List.mem_of_find?_eq_some hf) ho h']

theorem get_eq_none {s : Store keyFunc} {k : κ} : s.get k = none ↔ k ∉ s.keys := by
  simp [get, keys]

@[simp] theorem get_delete (s : Store keyFunc) (obj : α) (k : κ) :
    (s.delete obj).get k = if keyFunc obj = k then none else s.get k := by
  ext o
  simp only [Option.mem_def, get_eq_some, mem_items_delete]
  split
  · next h => simp [h]
  · next h => rw [get_eq_some]; aesop

@[simp] theorem get_add (s : Store keyFunc) (obj : α) (k : κ) :
    (s.add obj).get k = if keyFunc obj = k then some obj else s.get k := by
  ext o
  simp only [Option.mem_def, get_eq_some, mem_items_add]
  split
  · next h => subst h; aesop
  · next h => rw [get_eq_some]; aesop

end Store

end KubeParrot
