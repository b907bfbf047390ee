import BoundedStreams.Proofs.Arena
import Mathlib.Data.List.Induction

/-! The arena as a map whose keys are used once. Its use is a list of entries, from which the map is told
without an arena. The arena follows it whichever vacant slot an insertion takes, as long as no slot is
used so often that its generation comes round. -/

namespace BoundedStreams.Arena

variable {α : Type}

/-- One use of the arena, an insertion with the handle that it gave. -/
inductive Entry (α : Type) where
  | inserted (h : Handle) (v : α)
  | removed (h : Handle)
  | changed (h : Handle) (f : α → α)

/-- What is under `k` after a use, told from what was under it before. -/
def Entry.effect (k : Handle) : Option α → Entry α → Option α
  | held, .inserted h v => if h = k then some v else held
  | held, .removed h => if h = k then none else held
  | held, .changed h f => if h = k then held.map f else held

def Entry.given : Entry α → Option Handle
  | .inserted h _ => some h
  | _ => none

/-- What the past left under `k`. -/
def stored (past : List (Entry α)) (k : Handle) : Option α := past.foldl (Entry.effect k) none

/-- The handles that insertions gave. -/
def issued (past : List (Entry α)) : List Handle := past.filterMap Entry.given

/-- Insertions into the slot `i`. -/
def uses (past : List (Entry α)) (i : Nat) : Nat := (issued past).countP (·.index = i)

/-- The handles with something under them. -/
def live (past : List (Entry α)) : List Handle := (issued past).filter fun k => (stored past k).isSome

/-- Removal with what it hands back: the value in the slot, if the handle is live. -/
def take (a : Arena α) (h : Handle) : Option α × Arena α :=
  (if a.contains h then (a.slots[h.index]?).bind (·.value) else none, a.remove h)

/-- Arenas with a past. An insertion may take any vacant slot. -/
inductive Made : List (Entry α) → Arena α → Prop
  | empty : Made [] empty
  | inserted {past : List (Entry α)} {a : Arena α} (i : Nat) (v : α) (h : Made past a)
      (hi : a.Vacant i) :
      Made (past ++ [.inserted (a.insertAt i v).1 v]) (a.insertAt i v).2
  | removed {past : List (Entry α)} {a : Arena α} (k : Handle) (h : Made past a) :
      Made (past ++ [.removed k]) (a.take k).2
  | changed {past : List (Entry α)} {a : Arena α} (k : Handle) (f : α → α) (h : Made past a) :
      Made (past ++ [.changed k f]) (a.update k f)

/-! ### What the past tells -/

lemma stored_concat (past : List (Entry α)) (e : Entry α) (k : Handle) :
    stored (past ++ [e]) k = e.effect k (stored past k) := by
  simp [stored]

lemma issued_concat (past : List (Entry α)) (e : Entry α) :
    issued (past ++ [e]) = issued past ++ e.given.toList := by
  rw [issued, List.filterMap_append, ← issued]
  cases hg : e.given <;> simp [hg]

lemma uses_inserted (past : List (Entry α)) (h : Handle) (v : α) (i : Nat) :
    uses (past ++ [.inserted h v]) i = uses past i + if h.index = i then 1 else 0 := by
  rw [uses, issued_concat, List.countP_append, ← uses]
  simp [Entry.given, List.countP_cons]

lemma uses_removed (past : List (Entry α)) (h : Handle) :
    uses (past ++ [.removed h]) = uses past := by
  funext i
  simp [uses, issued_concat, Entry.given]

lemma uses_changed (past : List (Entry α)) (h : Handle) (f : α → α) :
    uses (past ++ [.changed h f]) = uses past := by
  funext i
  simp [uses, issued_concat, Entry.given]

/-- Something is under a handle from its insertion until its removal. -/
lemma isSome_stored_iff (past : List (Entry α)) (k : Handle) :
    (stored past k).isSome ↔
      ∃ v earlier since, past = earlier ++ .inserted k v :: since ∧ Entry.removed k ∉ since := by
  induction past using List.reverseRecOn with
  | nil => simp [stored]
  | append_singleton past e ih =>
    -- The last entry either is the insertion itself, or belongs to what came since.
    have hlast : (∃ v earlier since, past ++ [e] = earlier ++ .inserted k v :: since ∧
          Entry.removed k ∉ since) ↔
        (∃ v, e = .inserted k v) ∨ e ≠ .removed k ∧ (stored past k).isSome := by
      rw [ih]
      constructor
      · rintro ⟨v, earlier, since, heq, hno⟩
        rcases List.eq_nil_or_concat since with rfl | ⟨since, e', rfl⟩
        · exact .inl ⟨v, (List.append_inj' heq rfl).2 |> List.singleton_inj.mp⟩
        · rw [List.concat_eq_append] at heq hno
          rw [← List.cons_append, ← List.append_assoc] at heq
          obtain ⟨hpast, he⟩ := List.append_inj' heq rfl
          obtain rfl := List.singleton_inj.mp he
          simp only [List.mem_append, List.mem_singleton, not_or] at hno
          exact .inr ⟨Ne.symm hno.2, v, earlier, since, hpast, hno.1⟩
      · rintro (⟨v, rfl⟩ | ⟨hne, v, earlier, since, rfl, hno⟩)
        · exact ⟨v, past, [], rfl, by simp⟩
        · refine ⟨v, earlier, since ++ [e], by simp, ?_⟩
          simp [hno, Ne.symm hne]
    rw [hlast, stored_concat]
    cases e with
    | inserted h v => by_cases hk : h = k <;> simp [Entry.effect, hk]
    | removed h => by_cases hk : h = k <;> simp [Entry.effect, hk]
    | changed h f => by_cases hk : h = k <;> simp [Entry.effect, hk]

lemma mem_issued_of_stored {past : List (Entry α)} {k : Handle} (h : (stored past k).isSome) :
    k ∈ issued past := by
  obtain ⟨v, earlier, since, rfl, -⟩ := (isSome_stored_iff past k).mp h
  simp [issued, Entry.given]

/-! ### What the arena holds -/

lemma take_eq (a : Arena α) (h : Handle) : a.take h = (a.get? h, a.remove h) := by
  rw [take]
  congr 1
  cases hv : a.get? h with
  | none => simp [contains, hv]
  | some v =>
    have hs := (get?_eq_some_iff a h v).mp hv
    simp [contains, hv, hs]

namespace Made

variable {past : List (Entry α)} {a : Arena α}

lemma sound (h : Made past a) : a.Sound := by
  induction h with
  | empty => exact sound_empty
  | inserted i v _ _ ih => exact ih.insertAt i v
  | removed k _ ih => rw [take_eq]; exact ih.remove k
  | changed k f _ ih => exact ih.update k f

lemma get?_eq (h : Made past a) (k : Handle) : a.get? k = stored past k := by
  induction h with
  | empty => exact get?_empty k
  | inserted i v h hi ih => rw [stored_concat, ← ih]; exact get?_insertAt _ i v k hi
  | removed j h ih => rw [stored_concat, ← ih, take_eq]; exact get?_remove _ j k
  | changed j f h ih =>
    rw [stored_concat, ← ih, get?_update]
    rfl

lemma generationAt_eq (h : Made past a) (i : Nat) :
    a.generationAt i = UInt32.ofNat (uses past i) := by
  induction h with
  | empty => simp [Arena.empty, generationAt, uses, issued]
  | inserted j v h hj ih =>
    rw [generationAt_insertAt, uses_inserted, ih]
    have hindex : ∀ b : Arena α, (b.insertAt j v).1.index = j := fun _ => rfl
    rw [hindex]
    split
    · simp [UInt32.ofNat_add]
    · rfl
  | removed k h ih => rw [take_eq, generationAt_remove, uses_removed, ih]
  | changed k f h ih => rw [generationAt_update, uses_changed, ih]

/-- No handle into a slot is of a later generation than the slot, and none was given twice. -/
lemma fresh (h : Made past a) (hfew : ∀ i, uses past i < UInt32.size) :
    (∀ k ∈ issued past, k.generation.toNat ≤ uses past k.index) ∧ (issued past).Nodup := by
  induction h with
  | empty => simp [issued]
  | @inserted past a i v h hi ih =>
    have hmono : ∀ j, uses past j ≤ uses (past ++ [.inserted (a.insertAt i v).1 v]) j := by
      intro j
      rw [uses_inserted]
      exact Nat.le_add_right _ _
    obtain ⟨hle, hnodup⟩ := ih fun j => Nat.lt_of_le_of_lt (hmono j) (hfew j)
    have hnow : uses (past ++ [.inserted (a.insertAt i v).1 v]) i = uses past i + 1 := by
      simp [uses_inserted, insertAt]
    have hgen : (a.insertAt i v).1.generation.toNat = uses past i + 1 := by
      have hlt := hfew i
      rw [hnow] at hlt
      have hg : (a.insertAt i v).1.generation = UInt32.ofNat (uses past i + 1) := by
        rw [UInt32.ofNat_add, ← h.generationAt_eq]
        rfl
      rw [hg, UInt32.toNat_ofNat_of_lt' hlt]
    rw [issued_concat]
    refine ⟨fun k hk => ?_, ?_⟩
    · rcases List.mem_append.mp hk with hk | hk
      · exact Nat.le_trans (hle k hk) (hmono k.index)
      · obtain rfl : k = (a.insertAt i v).1 := by simpa [Entry.given] using hk
        exact Nat.le_of_eq (hgen.trans hnow.symm)
    · refine List.nodup_append.mpr ⟨hnodup, by simp [Entry.given], fun k hk j hj heq => ?_⟩
      obtain rfl : j = (a.insertAt i v).1 := by simpa [Entry.given] using hj
      subst heq
      have hold := hle _ hk
      rw [hgen] at hold
      exact absurd hold (Nat.not_succ_le_self _)
  | removed k h ih =>
    rw [issued_concat, uses_removed]
    rw [uses_removed] at hfew
    simpa [Entry.given] using ih hfew
  | changed k f h ih =>
    rw [issued_concat, uses_changed]
    rw [uses_changed] at hfew
    simpa [Entry.given] using ih hfew

end Made

lemma mem_handles_iff (a : Arena α) (k : Handle) : k ∈ a.handles ↔ (a.get? k).isSome := by
  rw [handles, List.mem_map, Option.isSome_iff_exists]
  constructor
  · rintro ⟨⟨h, v⟩, hmem, rfl⟩
    exact ⟨v, (mem_toList_iff a h v).mp hmem⟩
  · rintro ⟨v, hv⟩
    exact ⟨(k, v), (mem_toList_iff a k v).mpr hv, rfl⟩

lemma increasing_handles (a : Arena α) : a.handles.Pairwise fun h k => h.index < k.index := by
  rw [handles, List.pairwise_map]
  exact pairwise_listFrom 0 a.slots

/-- The arena is the map that its past tells, and none of the keys was given twice. -/
structure SingleUse (past : List (Entry α)) (a : Arena α) : Prop where
  fresh : (issued past).Nodup
  live_iff : ∀ k, (stored past k).isSome ↔
    ∃ v earlier since, past = earlier ++ .inserted k v :: since ∧ Entry.removed k ∉ since
  get? : ∀ k, a.get? k = stored past k
  contains : ∀ k, a.contains k = (stored past k).isSome
  take : ∀ k, (a.take k).1 = stored past k
  update : ∀ k f j, (a.update k f).get? j = Entry.effect j (stored past j) (.changed k f)
  stale : ∀ k, stored past k = none → (a.take k).2 = a ∧ ∀ f, a.update k f = a
  size : a.size = (live past).length
  handles : a.handles.Perm (live past)
  increasing : a.handles.Pairwise fun h k => h.index < k.index
  toList : a.toList.map (·.1) = a.handles ∧ ∀ k v, (k, v) ∈ a.toList ↔ stored past k = some v
  insert : ∀ v, a.Vacant a.upcoming ∧ a.insert v = a.insertAt a.upcoming v

/-- An arena is a map with single-use keys, unless a slot is used as often as there are generations. -/
theorem Made.single_use {past : List (Entry α)} {a : Arena α} (h : Made past a)
    (hfew : ∀ i, uses past i < UInt32.size) : SingleUse past a := by
  obtain ⟨-, hnodup⟩ := h.fresh hfew
  have hperm : a.handles.Perm (live past) := by
    apply (List.perm_ext_iff_of_nodup a.nodup_handles (hnodup.filter _)).mpr
    intro k
    rw [mem_handles_iff, h.get?_eq, List.mem_filter]
    exact ⟨fun hk => ⟨mem_issued_of_stored hk, hk⟩, fun hk => hk.2⟩
  constructor
  case fresh => exact hnodup
  case live_iff => exact isSome_stored_iff past
  case get? => exact h.get?_eq
  case contains => intro k; rw [Arena.contains, h.get?_eq]
  case take => intro k; rw [take_eq, h.get?_eq]
  case update => intro k f j; rw [get?_update, h.get?_eq]; rfl
  case stale =>
    intro k hk
    rw [← h.get?_eq] at hk
    exact ⟨by rw [take_eq]; simp [remove, hk], fun f => by simp [Arena.update, hk]⟩
  case size => rw [← hperm.length_eq, Arena.size, Arena.handles, List.length_map]
  case handles => exact hperm
  case increasing => exact increasing_handles a
  case toList => exact ⟨rfl, fun k v => by rw [mem_toList_iff, h.get?_eq]⟩
  case insert => exact fun v => ⟨vacant_upcoming h.sound, insert_eq_insertAt h.sound v⟩

/-- A slot is used again, another is taken out of turn, and a handle that has become stale is removed
and changed. -/
theorem Made.single_use_reuse : ∃ (past : List (Entry Nat)) (a : Arena Nat),
    Made past a ∧ (∀ i, uses past i < UInt32.size) ∧ SingleUse past a ∧
      issued past = [⟨0, 1⟩, ⟨2, 1⟩, ⟨0, 2⟩] ∧ a.handles = [⟨0, 2⟩, ⟨2, 1⟩] ∧
      stored past ⟨2, 1⟩ = some 21 ∧ stored past ⟨0, 1⟩ = none := by
  have h := Made.empty (α := Nat) |>.inserted 0 10 rfl |>.inserted 2 20 rfl
    |>.removed ⟨0, 1⟩ |>.inserted 0 30 rfl |>.removed ⟨0, 1⟩
    |>.changed ⟨2, 1⟩ (· + 1) |>.changed ⟨0, 1⟩ (· + 1)
  refine ⟨_, _, h, ?few, h.single_use ?few, rfl, rfl, rfl, rfl⟩
  intro i
  apply Nat.lt_of_le_of_lt List.countP_le_length
  decide

end BoundedStreams.Arena
