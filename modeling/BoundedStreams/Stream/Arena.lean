import BoundedStreams.Stream.Handle

/-!
Storage in slots that are used again. Each insertion into a slot raises the slot's generation, so a
handle to an earlier occupant finds nothing. The slot freed last is used first.
-/

namespace BoundedStreams

structure Slot (α : Type) where
  generation : UInt32
  value : Option α

structure Arena (α : Type) where
  slots : List (Slot α)
  /-- Vacant slots, the one freed last at the front. -/
  free : List Nat

namespace Arena

variable {α : Type}

def empty : Arena α := ⟨[], []⟩

def generationAt (a : Arena α) (i : Nat) : UInt32 := (a.slots[i]?).elim 0 (·.generation)

def insert (a : Arena α) (v : α) : Handle × Arena α :=
  match a.free with
  | [] => (⟨a.slots.length, 1⟩, { a with slots := a.slots ++ [⟨1, some v⟩] })
  | i :: free =>
    let g := a.generationAt i + 1
    (⟨i, g⟩, ⟨a.slots.set i ⟨g, some v⟩, free⟩)

def get? (a : Arena α) (h : Handle) : Option α :=
  match a.slots[h.index]? with
  | some slot => if slot.generation = h.generation then slot.value else none
  | none => none

def contains (a : Arena α) (h : Handle) : Bool := (a.get? h).isSome

/-- Changes the value under a live handle; a stale one changes nothing. -/
def update (a : Arena α) (h : Handle) (f : α → α) : Arena α :=
  match a.get? h with
  | some v => { a with slots := a.slots.set h.index ⟨h.generation, some (f v)⟩ }
  | none => a

/-- Frees the slot of a live handle; a stale one changes nothing. -/
def remove (a : Arena α) (h : Handle) : Arena α :=
  match a.get? h with
  | some _ => ⟨a.slots.set h.index ⟨h.generation, none⟩, h.index :: a.free⟩
  | none => a

def listFrom : Nat → List (Slot α) → List (Handle × α)
  | _, [] => []
  | i, ⟨g, some v⟩ :: slots => (⟨i, g⟩, v) :: listFrom (i + 1) slots
  | i, ⟨_, none⟩ :: slots => listFrom (i + 1) slots

/-- The live handles and their values, in slot order. -/
def toList (a : Arena α) : List (Handle × α) := listFrom 0 a.slots

def handles (a : Arena α) : List Handle := a.toList.map (·.1)

def size (a : Arena α) : Nat := a.toList.length

@[simp] theorem get?_empty (h : Handle) : (empty : Arena α).get? h = none := by
  simp [empty, get?]

theorem get?_update (a : Arena α) (h k : Handle) (f : α → α) :
    (a.update h f).get? k = if h = k then (a.get? k).map f else a.get? k := by
  unfold update
  cases hv : a.get? h with
  | none =>
    by_cases hk : h = k
    · subst hk; simp [hv]
    · simp [hk]
  | some v =>
    obtain ⟨i, g⟩ := h
    obtain ⟨j, g'⟩ := k
    have hi : i < a.slots.length := by
      unfold get? at hv
      split at hv
      · next hs => exact (List.getElem?_eq_some_iff.mp hs).1
      · simp at hv
    have hg : (a.slots[i]).generation = g ∧ (a.slots[i]).value = some v := by
      simp only [get?, List.getElem?_eq_getElem hi] at hv
      split at hv
      · exact ⟨‹_›, hv⟩
      · simp at hv
    by_cases hj : i = j
    · subst hj
      by_cases hgg : g = g'
      · subst hgg; simp [get?, hi, hg]
      · simp [get?, hi, hg, hgg]
    · simp [get?, hj]

theorem get?_remove_self (a : Arena α) (h : Handle) : (a.remove h).get? h = none := by
  unfold remove
  cases hv : a.get? h with
  | none => simp [hv]
  | some v =>
    simp only [get?, List.getElem?_set]
    split
    · next hs => grind
    · rfl

end Arena

end BoundedStreams
