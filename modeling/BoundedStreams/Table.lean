/-!
Finite maps that keep their entries in the order in which the keys were first set. `get?` is the
view: each operation is described by what it does to `get?` and to `keys`.
-/

namespace BoundedStreams

structure Table (κ α : Type) where
  entries : List (κ × α)

namespace Table

variable {κ α : Type}

def empty : Table κ α := ⟨[]⟩

def keys (t : Table κ α) : List κ := t.entries.map (·.1)

def size (t : Table κ α) : Nat := t.entries.length

/-- Changes every value; the keys and their order stay. -/
def mapValues (t : Table κ α) (f : α → α) : Table κ α := ⟨t.entries.map fun e => (e.1, f e.2)⟩

variable [DecidableEq κ]

def find : List (κ × α) → κ → Option α
  | [], _ => none
  | e :: es, k => if e.1 = k then some e.2 else find es k

def get? (t : Table κ α) (k : κ) : Option α := find t.entries k

def contains (t : Table κ α) (k : κ) : Bool := (t.get? k).isSome

def replace : List (κ × α) → κ → α → List (κ × α)
  | [], k, a => [(k, a)]
  | e :: es, k, a => if e.1 = k then (k, a) :: es else e :: replace es k a

/-- Replaces the value of a key in its place, or adds the key at the end. -/
def set (t : Table κ α) (k : κ) (a : α) : Table κ α := ⟨replace t.entries k a⟩

def erase (t : Table κ α) (k : κ) : Table κ α := ⟨t.entries.filter fun e => e.1 ≠ k⟩

/-- Changes the value of one key; without that key nothing happens. -/
def modify (t : Table κ α) (k : κ) (f : α → α) : Table κ α :=
  ⟨t.entries.map fun e => if e.1 = k then (e.1, f e.2) else e⟩

@[simp] theorem get?_empty (k : κ) : (empty : Table κ α).get? k = none := rfl

theorem get?_set (t : Table κ α) (k j : κ) (a : α) :
    (t.set k a).get? j = if k = j then some a else t.get? j := by
  obtain ⟨es⟩ := t
  simp only [set, get?]
  induction es with
  | nil => simp [replace, find]
  | cons e es ih =>
    by_cases he : e.1 = k
    · by_cases hj : k = j <;> simp [replace, find, he, hj]
    · by_cases hj : e.1 = j
      · subst hj
        simp [replace, find, he, Ne.symm he]
      · simp [replace, find, he, hj, ih]

theorem get?_erase (t : Table κ α) (k j : κ) :
    (t.erase k).get? j = if k = j then none else t.get? j := by
  obtain ⟨es⟩ := t
  simp only [erase, get?]
  induction es with
  | nil => simp [find]
  | cons e es ih =>
    by_cases he : e.1 = k
    · by_cases hj : k = j
      · simpa [find, he, hj] using ih
      · have : e.1 ≠ j := fun h => hj (he.symm.trans h)
        simpa [find, he, hj, this] using ih
    · by_cases hj : e.1 = j
      · subst hj
        simp [find, he, Ne.symm he]
      · simpa [find, he, hj] using ih

theorem get?_modify (t : Table κ α) (k j : κ) (f : α → α) :
    (t.modify k f).get? j = if k = j then (t.get? j).map f else t.get? j := by
  obtain ⟨es⟩ := t
  simp only [modify, get?]
  induction es with
  | nil => simp [find]
  | cons e es ih =>
    by_cases he : e.1 = k <;> by_cases hj : e.1 = j <;> grind [find]

theorem get?_mapValues (t : Table κ α) (f : α → α) (k : κ) :
    (t.mapValues f).get? k = (t.get? k).map f := by
  obtain ⟨es⟩ := t
  simp only [mapValues, get?]
  induction es with
  | nil => simp [find]
  | cons e es ih => by_cases he : e.1 = k <;> simp [find, he, ih]

theorem mem_keys_iff (t : Table κ α) (k : κ) : k ∈ t.keys ↔ (t.get? k).isSome := by
  obtain ⟨es⟩ := t
  simp only [keys, get?]
  induction es with
  | nil => simp [find]
  | cons e es ih => by_cases he : e.1 = k <;> grind [find]

theorem get?_eq_none_iff (t : Table κ α) (k : κ) : t.get? k = none ↔ k ∉ t.keys := by
  rw [mem_keys_iff]
  cases t.get? k <;> simp

omit [DecidableEq κ] in
theorem size_eq_length_keys (t : Table κ α) : t.size = t.keys.length := by
  simp [size, keys]

@[simp] theorem keys_modify (t : Table κ α) (k : κ) (f : α → α) :
    (t.modify k f).keys = t.keys := by
  simp only [keys, modify, List.map_map]
  refine List.map_congr_left fun e _ => ?_
  by_cases he : e.1 = k <;> simp [he]

omit [DecidableEq κ] in
@[simp] theorem keys_mapValues (t : Table κ α) (f : α → α) : (t.mapValues f).keys = t.keys := by
  simp [keys, mapValues]

theorem keys_set_of_not_mem (t : Table κ α) (k : κ) (a : α) (h : k ∉ t.keys) :
    (t.set k a).keys = t.keys ++ [k] := by
  obtain ⟨es⟩ := t
  simp only [keys, set] at h ⊢
  induction es with
  | nil => simp [replace]
  | cons e es ih => grind [replace]

theorem keys_erase (t : Table κ α) (k : κ) : (t.erase k).keys = t.keys.filter (· ≠ k) := by
  simp only [keys, erase, List.filter_map]
  rfl

end Table

end BoundedStreams
