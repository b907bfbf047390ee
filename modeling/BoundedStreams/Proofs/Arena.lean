import BoundedStreams.Stream.Arena
import Mathlib.Data.List.Nodup

/-! What each operation of an arena does to `get?`, to the generations of the slots and to the list of
live handles. A slot's generation bounds the generations of all handles into it, so a handle that
finds nothing finds nothing later. -/

namespace BoundedStreams.Arena

variable {α : Type}

/-- The free list names vacant slots, each once. -/
structure Sound (a : Arena α) : Prop where
  vacant : ∀ i ∈ a.free, ∃ g, a.slots[i]? = some ⟨g, none⟩
  distinct : a.free.Nodup

lemma sound_empty : (empty : Arena α).Sound := ⟨by simp [empty], by simp [empty]⟩

lemma get?_eq_some_iff (a : Arena α) (h : Handle) (v : α) :
    a.get? h = some v ↔ a.slots[h.index]? = some ⟨h.generation, some v⟩ := by
  rw [get?]
  constructor
  · intro hv
    split at hv
    · next slot hs =>
      split at hv
      · next hg =>
        obtain ⟨g, u⟩ := slot
        simp only at hg hv
        rw [hs, hg, hv]
      · cases hv
    · cases hv
  · intro hs
    simp [hs]

lemma generation_of_get? {a : Arena α} {h : Handle} {v : α} (hv : a.get? h = some v) :
    a.generationAt h.index = h.generation := by
  rw [get?_eq_some_iff] at hv
  simp [generationAt, hv]

lemma get?_eq_none_of_vacant {a : Arena α} {h : Handle} {g : UInt32}
    (hs : a.slots[h.index]? = some ⟨g, none⟩) : a.get? h = none := by
  simp [get?, hs]

lemma not_mem_free_of_get? {a : Arena α} (ha : a.Sound) {h : Handle} {v : α}
    (hv : a.get? h = some v) : h.index ∉ a.free := by
  intro hi
  obtain ⟨g, hg⟩ := ha.vacant _ hi
  rw [get?_eq_none_of_vacant hg] at hv
  cases hv

/-! ### Insertion -/

/-- The slot `i` holds no value. -/
def Vacant (a : Arena α) (i : Nat) : Prop := (a.slots[i]?).bind (·.value) = none

/-- Insertion into the slot `i`. Slots before it that were not there yet stay vacant. -/
def insertAt (a : Arena α) (i : Nat) (v : α) : Handle × Arena α :=
  (⟨i, a.generationAt i + 1⟩,
    ⟨(a.slots ++ List.replicate (i + 1 - a.slots.length) (⟨0, none⟩ : Slot α)).set i
      ⟨a.generationAt i + 1, some v⟩, a.free.erase i⟩)

/-- The slot that an insertion takes. -/
def upcoming (a : Arena α) : Nat := a.free.headD a.slots.length

lemma vacant_upcoming {a : Arena α} (ha : a.Sound) : a.Vacant a.upcoming := by
  rw [Vacant, upcoming]
  cases hf : a.free with
  | nil => simp
  | cons i free =>
    obtain ⟨g, hg⟩ := ha.vacant i (by simp [hf])
    simp [hg]

lemma insert_eq_insertAt {a : Arena α} (ha : a.Sound) (v : α) :
    a.insert v = a.insertAt a.upcoming v := by
  rw [insert, insertAt, upcoming]
  cases hf : a.free with
  | nil =>
    have hg : a.generationAt a.slots.length = 0 := by simp [generationAt]
    simp [hg]
  | cons i free =>
    obtain ⟨g, hg⟩ := ha.vacant i (by simp [hf])
    have hi : i < a.slots.length := (List.getElem?_eq_some_iff.mp hg).1
    have hpad : i + 1 - a.slots.length = 0 := by omega
    simp [hpad]

lemma slots_insertAt_self (a : Arena α) (i : Nat) (v : α) :
    (a.insertAt i v).2.slots[i]? = some ⟨a.generationAt i + 1, some v⟩ := by
  have hi : i < (a.slots ++
      List.replicate (i + 1 - a.slots.length) (⟨0, none⟩ : Slot α)).length := by
    rw [List.length_append, List.length_replicate]
    omega
  simp only [insertAt, List.getElem?_set_self hi]

lemma slots_insertAt_of_ne (a : Arena α) {i j : Nat} (hij : i ≠ j) (v : α) :
    (a.insertAt i v).2.slots[j]? = a.slots[j]? ∨
      a.slots[j]? = none ∧ (a.insertAt i v).2.slots[j]? = some ⟨0, none⟩ := by
  simp only [insertAt, List.getElem?_set_ne hij]
  rcases Nat.lt_or_ge j a.slots.length with hj | hj
  · exact .inl (List.getElem?_append_left hj)
  · have hnone : a.slots[j]? = none := List.getElem?_eq_none hj
    rw [List.getElem?_append_right hj, hnone, List.getElem?_replicate]
    split
    · exact .inr ⟨rfl, rfl⟩
    · exact .inl rfl

lemma get?_insertAt_self_eq_none {a : Arena α} {i : Nat} (hi : a.Vacant i) (v : α) :
    a.get? (a.insertAt i v).1 = none := by
  rw [Option.eq_none_iff_forall_ne_some]
  intro u hu
  rw [get?_eq_some_iff] at hu
  have hs : a.slots[i]? = some ⟨a.generationAt i + 1, some u⟩ := hu
  simp [Vacant, hs] at hi

lemma get?_insertAt (a : Arena α) (i : Nat) (v : α) (h : Handle) (hi : a.Vacant i) :
    (a.insertAt i v).2.get? h = if (a.insertAt i v).1 = h then some v else a.get? h := by
  obtain ⟨j, g⟩ := h
  by_cases hij : i = j
  · subst hij
    have hself := a.slots_insertAt_self i v
    by_cases hg : a.generationAt i + 1 = g
    · subst hg
      have hkey : (a.insertAt i v).1 = ⟨i, a.generationAt i + 1⟩ := rfl
      rw [if_pos hkey, get?_eq_some_iff]
      exact hself
    · -- The slot holds the new value, and held none before.
      have hold : a.get? ⟨i, g⟩ = none := by
        rw [Option.eq_none_iff_forall_ne_some]
        intro u hu
        rw [get?_eq_some_iff] at hu
        simp [Vacant, hu] at hi
      rw [if_neg (by simp [insertAt, hg]), hold]
      simp [get?, hself, hg]
  · rw [if_neg (by simp [insertAt, hij])]
    rcases a.slots_insertAt_of_ne hij v with hs | ⟨hs, hs'⟩
    · simp only [get?, hs]
    · simp [get?, hs, hs']

lemma generationAt_insertAt (a : Arena α) (i : Nat) (v : α) (j : Nat) :
    (a.insertAt i v).2.generationAt j =
      if i = j then a.generationAt j + 1 else a.generationAt j := by
  rw [generationAt]
  by_cases hij : i = j
  · subst hij
    simp [a.slots_insertAt_self i v]
  · rw [if_neg hij]
    rcases a.slots_insertAt_of_ne hij v with hs | ⟨hs, hs'⟩
    · rw [hs, generationAt]
    · simp [hs', generationAt, hs]

lemma Sound.insertAt {a : Arena α} (ha : a.Sound) (i : Nat) (v : α) : (a.insertAt i v).2.Sound := by
  refine ⟨fun j hj => ?_, ha.distinct.erase i⟩
  obtain ⟨hji, hj⟩ := (ha.distinct.mem_erase_iff).mp hj
  obtain ⟨g, hg⟩ := ha.vacant j hj
  rcases a.slots_insertAt_of_ne (Ne.symm hji) v with hs | ⟨hs, hs'⟩
  · exact ⟨g, hs.trans hg⟩
  · exact ⟨0, hs'⟩

lemma get?_insert_self_eq_none {a : Arena α} (ha : a.Sound) (v : α) :
    a.get? (a.insert v).1 = none := by
  rw [insert_eq_insertAt ha]
  exact get?_insertAt_self_eq_none (vacant_upcoming ha) v

lemma get?_insert {a : Arena α} (ha : a.Sound) (v : α) (h : Handle) :
    (a.insert v).2.get? h = if (a.insert v).1 = h then some v else a.get? h := by
  rw [insert_eq_insertAt ha]
  exact a.get?_insertAt a.upcoming v h (vacant_upcoming ha)

lemma insert_generation (a : Arena α) (v : α) :
    (a.insert v).1.generation = a.generationAt (a.insert v).1.index + 1 := by
  rw [insert]
  split
  · simp [generationAt]
  · rfl

lemma generationAt_insert {a : Arena α} (ha : a.Sound) (v : α) (i : Nat) :
    (a.insert v).2.generationAt i =
      if (a.insert v).1.index = i then a.generationAt i + 1 else a.generationAt i := by
  rw [insert_eq_insertAt ha]
  exact a.generationAt_insertAt a.upcoming v i

lemma Sound.insert {a : Arena α} (ha : a.Sound) (v : α) : (a.insert v).2.Sound := by
  rw [insert_eq_insertAt ha]
  exact ha.insertAt a.upcoming v

/-! ### Change of a value -/

lemma generationAt_update (a : Arena α) (h : Handle) (f : α → α) (i : Nat) :
    (a.update h f).generationAt i = a.generationAt i := by
  rw [update]
  split
  · next v hv =>
    have hg := generation_of_get? hv
    rw [get?_eq_some_iff] at hv
    have hi : h.index < a.slots.length := (List.getElem?_eq_some_iff.mp hv).1
    by_cases hij : h.index = i
    · subst hij
      rw [hg]
      simp [generationAt, hi]
    · simp [generationAt, hij]
  · rfl

lemma Sound.update {a : Arena α} (ha : a.Sound) (h : Handle) (f : α → α) : (a.update h f).Sound := by
  rw [Arena.update]
  split
  · next v hv =>
    refine ⟨?_, ha.distinct⟩
    intro i hi
    have hne : h.index ≠ i := by rintro rfl; exact not_mem_free_of_get? ha hv hi
    simpa [hne] using ha.vacant i hi
  · exact ha

/-! ### Removal -/

lemma get?_remove (a : Arena α) (h k : Handle) :
    (a.remove h).get? k = if h = k then none else a.get? k := by
  by_cases hk : h = k
  · subst hk; simp [get?_remove_self]
  · rw [if_neg hk]
    rw [remove]
    split
    · next v hv =>
      rw [get?_eq_some_iff] at hv
      obtain ⟨i, g⟩ := h
      obtain ⟨j, g'⟩ := k
      have hi : i < a.slots.length := (List.getElem?_eq_some_iff.mp hv).1
      by_cases hij : i = j
      · subst hij
        have hg : g ≠ g' := by rintro rfl; exact hk rfl
        have hs : a.slots[i] = ⟨g, some v⟩ := (List.getElem?_eq_some_iff.mp hv).2
        simp [get?, hi, hs, hg]
      · simp [get?, hij]
    · rfl

lemma generationAt_remove (a : Arena α) (h : Handle) (i : Nat) :
    (a.remove h).generationAt i = a.generationAt i := by
  rw [remove]
  split
  · next v hv =>
    have hg := generation_of_get? hv
    rw [get?_eq_some_iff] at hv
    have hi : h.index < a.slots.length := (List.getElem?_eq_some_iff.mp hv).1
    by_cases hij : h.index = i
    · subst hij
      rw [hg]
      simp [generationAt, hi]
    · simp [generationAt, hij]
  · rfl

lemma Sound.remove {a : Arena α} (ha : a.Sound) (h : Handle) : (a.remove h).Sound := by
  rw [Arena.remove]
  split
  · next v hv =>
    have hn := not_mem_free_of_get? ha hv
    rw [get?_eq_some_iff] at hv
    have hi : h.index < a.slots.length := (List.getElem?_eq_some_iff.mp hv).1
    refine ⟨?_, List.nodup_cons.mpr ⟨hn, ha.distinct⟩⟩
    intro i hmem
    rcases List.mem_cons.mp hmem with rfl | hmem
    · exact ⟨h.generation, by simp [hi]⟩
    · have hne : h.index ≠ i := by rintro rfl; exact hn hmem
      simpa [hne] using ha.vacant i hmem
  · exact ha

/-! ### The live handles -/

lemma mem_listFrom_iff (i : Nat) (slots : List (Slot α)) (h : Handle) (v : α) :
    (h, v) ∈ listFrom i slots ↔
      i ≤ h.index ∧ slots[h.index - i]? = some ⟨h.generation, some v⟩ := by
  obtain ⟨j, g⟩ := h
  induction slots generalizing i with
  | nil => simp [listFrom]
  | cons slot slots ih =>
    obtain ⟨g', u⟩ := slot
    have hstep : i < j → j - i = (j - (i + 1)) + 1 := by omega
    cases u with
    | none =>
      simp only [listFrom, ih]
      rcases Nat.lt_trichotomy i j with hlt | rfl | hgt
      · rw [hstep hlt, List.getElem?_cons_succ]
        constructor
        · rintro ⟨-, hs⟩; exact ⟨Nat.le_of_lt hlt, hs⟩
        · rintro ⟨-, hs⟩; exact ⟨hlt, hs⟩
      · constructor
        · rintro ⟨hle, -⟩; omega
        · simp
      · constructor <;> rintro ⟨hle, -⟩ <;> omega
    | some u =>
      simp only [listFrom, List.mem_cons, ih, Prod.mk.injEq, Handle.mk.injEq]
      rcases Nat.lt_trichotomy i j with hlt | rfl | hgt
      · rw [hstep hlt, List.getElem?_cons_succ]
        constructor
        · rintro (⟨⟨rfl, -⟩, -⟩ | ⟨-, hs⟩)
          · omega
          · exact ⟨Nat.le_of_lt hlt, hs⟩
        · rintro ⟨-, hs⟩; exact Or.inr ⟨hlt, hs⟩
      · simp only [true_and, Nat.sub_self, List.getElem?_cons_zero, Option.some.injEq, Slot.mk.injEq]
        constructor
        · rintro (⟨rfl, rfl⟩ | ⟨hle, -⟩)
          · exact ⟨Nat.le_refl i, rfl, rfl⟩
          · omega
        · rintro ⟨-, rfl, rfl⟩; exact Or.inl ⟨rfl, rfl⟩
      · constructor
        · rintro (⟨⟨rfl, -⟩, -⟩ | ⟨hle, -⟩) <;> omega
        · rintro ⟨hle, -⟩; omega

lemma mem_toList_iff (a : Arena α) (h : Handle) (v : α) :
    (h, v) ∈ a.toList ↔ a.get? h = some v := by
  simp [toList, mem_listFrom_iff, get?_eq_some_iff]

lemma pairwise_listFrom (i : Nat) (slots : List (Slot α)) :
    (listFrom i slots).Pairwise fun e f => e.1.index < f.1.index := by
  induction slots generalizing i with
  | nil => simp [listFrom]
  | cons slot slots ih =>
    obtain ⟨g, u⟩ := slot
    cases u with
    | none => exact ih (i + 1)
    | some u =>
      refine List.pairwise_cons.mpr ⟨?_, ih (i + 1)⟩
      rintro ⟨h, v⟩ hmem
      exact ((mem_listFrom_iff _ _ _ _).mp hmem).1

lemma nodup_handles (a : Arena α) : a.handles.Nodup := by
  rw [handles, List.Nodup, List.pairwise_map]
  apply (pairwise_listFrom 0 a.slots).imp
  intro e f hlt heq
  rw [heq] at hlt
  exact Nat.lt_irrefl _ hlt

end BoundedStreams.Arena
