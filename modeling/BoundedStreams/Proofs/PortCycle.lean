import BoundedStreams.Ports
import Mathlib.Data.List.Nodup
import Mathlib.Data.Nat.ModEq

/-! The ports of a source go round, from its base up to the last port there is and then from the base again.
A copy of a source goes round on its own. -/

namespace BoundedStreams.PortSource

/-- How many ports there are from the base on. -/
def period (base : Port) : Nat := UInt16.size - base.toNat

/-- The source after `k` requests. -/
def after (s : PortSource) : Nat → PortSource
  | 0 => s
  | k + 1 => (s.after k).next.2

/-- What the `k`-th request is given, where the first one has the number 0. -/
def port (s : PortSource) (k : Nat) : Port := (s.after k).next.1

/-- What is asked of some sources: a port of one of them, or a copy of it, which is put behind them. -/
inductive Request where
  | port (i : Nat)
  | copy (i : Nat)
  deriving DecidableEq

def answer (ss : List PortSource) : Request → Option Port × List PortSource
  | .port i => ss[i]?.elim (none, ss) fun s => (some s.next.1, ss.set i s.next.2)
  | .copy i => (none, ss ++ ss[i]?.toList)

def answerAll (ss : List PortSource) (rs : List Request) : List PortSource :=
  rs.foldl (fun ss r => (answer ss r).2) ss

variable {base : Port}

lemma after_next (s : PortSource) (k : Nat) : s.next.2.after k = s.after (k + 1) := by
  induction k with
  | zero => rfl
  | succ k ih => exact congrArg (·.next.2) ih

lemma after_add (s : PortSource) (k j : Nat) : (s.after k).after j = s.after (k + j) := by
  induction j with
  | zero => rfl
  | succ j ih => rw [after, ih, ← Nat.add_assoc, after]

lemma period_pos (base : Port) : 0 < period base := Nat.sub_pos_of_lt base.toNat_lt

/-! ### One source -/

lemma toNat_successor {s : PortSource} {p : Port} {k : Nat} (hs : s.base = base)
    (hp : p.toNat = base.toNat + k % period base) :
    (s.successor p).toNat = base.toNat + (k + 1) % period base := by
  have hsum : base.toNat + period base = UInt16.size := Nat.add_sub_of_le (Nat.le_of_lt base.toNat_lt)
  have hlast : (65535 : Port).toNat + 1 = UInt16.size := rfl
  rw [successor, hs, ← Nat.mod_add_mod]
  split
  · next h =>
    -- The last port there is ends the period.
    rw [h] at hp
    have hend : k % period base + 1 = period base := by omega
    rw [hend, Nat.mod_self, Nat.add_zero]
  · next h =>
    have hlt := p.toNat_lt
    have hne : p.toNat ≠ (65535 : Port).toNat := fun he => h (UInt16.toNat_inj.mp he)
    have hsmall : p.toNat + 1 < UInt16.size := by
      change p.toNat < UInt16.size at hlt
      omega
    have hnext : (p + 1).toNat = p.toNat + 1 := by
      rw [UInt16.toNat_add]
      exact Nat.mod_eq_of_lt hsmall
    have hplace : (k % period base + 1) % period base = k % period base + 1 :=
      Nat.mod_eq_of_lt (by omega)
    rw [hnext, hp, hplace, Nat.add_assoc]

lemma after_startingAt (hbase : base ≠ 0) (k : Nat) : ∃ p, (startingAt base).after k = ⟨base, some p⟩ ∧
    p.toNat = base.toNat + k % period base := by
  induction k with
  | zero => exact ⟨base, by rw [after, startingAt, if_neg hbase], by rw [Nat.zero_mod, Nat.add_zero]⟩
  | succ k ih =>
    obtain ⟨p, hs, hp⟩ := ih
    exact ⟨_, by rw [after, hs]; rfl, toNat_successor (s := ⟨base, some p⟩) rfl hp⟩

lemma toNat_port (hbase : base ≠ 0) (k : Nat) :
    ((startingAt base).port k).toNat = base.toNat + k % period base := by
  obtain ⟨p, hs, hp⟩ := after_startingAt hbase k
  rw [port, hs]
  exact hp

lemma base_le_port (hbase : base ≠ 0) (k : Nat) : base ≤ (startingAt base).port k := by
  rw [UInt16.le_iff_toNat_le, toNat_port hbase]
  exact Nat.le_add_right _ _

/-! ### One period -/

/-- The ports that `n` requests in a row are given, from the `k`-th one on. -/
def round (s : PortSource) (n k : Nat) : List Port := (List.range n).map fun j => s.port (k + j)

lemma nodup_round (hbase : base ≠ 0) (k : Nat) : ((startingAt base).round (period base) k).Nodup := by
  refine List.Nodup.map_on (fun i hi j hj he => ?_) List.nodup_range
  have hplace : (k + i) % period base = (k + j) % period base := by
    have h := congrArg UInt16.toNat he
    rw [toNat_port hbase, toNat_port hbase] at h
    exact Nat.add_left_cancel h
  have hmod : i ≡ j [MOD period base] := Nat.ModEq.add_left_cancel' k hplace
  exact hmod.eq_of_lt_of_lt (List.mem_range.mp hi) (List.mem_range.mp hj)

lemma mem_round_iff (hbase : base ≠ 0) (k : Nat) (p : Port) :
    p ∈ (startingAt base).round (period base) k ↔ base ≤ p := by
  constructor
  · intro hp
    obtain ⟨j, -, rfl⟩ := List.mem_map.mp hp
    exact base_le_port hbase (k + j)
  · intro hp
    have hle := UInt16.le_iff_toNat_le.mp hp
    have hplace : p.toNat - base.toNat < period base := Nat.sub_lt_sub_right hle p.toNat_lt
    have hstart := Nat.mod_lt k (period_pos base)
    -- The request that comes to the place of `p`, counted from the place of the `k`-th one.
    let j := (p.toNat - base.toNat + (period base - k % period base)) % period base
    refine List.mem_map.mpr ⟨j, List.mem_range.mpr (Nat.mod_lt _ (period_pos base)), ?_⟩
    have hj : (k + j) % period base = p.toNat - base.toNat := by
      have hround : k % period base + (p.toNat - base.toNat + (period base - k % period base)) =
          p.toNat - base.toNat + period base := by omega
      rw [Nat.add_mod_mod, ← Nat.mod_add_mod, hround, Nat.add_mod_right, Nat.mod_eq_of_lt hplace]
    rw [← UInt16.toNat_inj, toNat_port hbase, hj]
    omega

/-! ### Copies -/

/-- A request moves the source that it asks for a port, and no other. -/
lemma getElem?_answer {ss : List PortSource} {i : Nat} {s : PortSource} (hs : ss[i]? = some s)
    (r : Request) : (answer ss r).2[i]? = some (if r = .port i then s.next.2 else s) := by
  obtain ⟨hi, -⟩ := List.getElem?_eq_some_iff.mp hs
  cases r with
  | port j =>
    rw [answer]
    by_cases hj : j = i
    · subst hj
      rw [hs, if_pos rfl]
      exact List.getElem?_set_self hi
    · rw [if_neg fun he => hj (Request.port.inj he)]
      cases ss[j]? with
      | none => exact hs
      | some t => exact (List.getElem?_set_ne hj).trans hs
  | copy j =>
    rw [if_neg nofun]
    exact (List.getElem?_append_left hi).trans hs

lemma getElem?_answerAll {ss : List PortSource} {i : Nat} {s : PortSource} (hs : ss[i]? = some s)
    (rs : List Request) : (answerAll ss rs)[i]? = some (s.after (rs.count (.port i))) := by
  induction rs generalizing ss s with
  | nil => exact hs
  | cons r rs ih =>
    have hr := ih (getElem?_answer hs r)
    rw [answerAll, List.foldl_cons]
    refine hr.trans (congrArg some ?_)
    rw [List.count_cons]
    by_cases h : r = .port i
    · rw [if_pos h, after_next, if_pos (beq_iff_eq.mpr h)]
    · rw [if_neg h, if_neg (mt beq_iff_eq.mp h), Nat.add_zero]

lemma answer_port {ss : List PortSource} {i : Nat} {s : PortSource} (hs : ss[i]? = some s) :
    (answer ss (.port i)).1 = some s.next.1 := by
  rw [answer, hs]
  rfl

lemma answerAll_copy {ss : List PortSource} {i : Nat} {s : PortSource} (hs : ss[i]? = some s)
    (rs : List Request) :
    (answer (answerAll ss (.copy i :: rs)) (.port i)).1 = some (s.port (rs.count (.port i))) ∧
      (answer (answerAll ss (.copy i :: rs)) (.port ss.length)).1 =
        some (s.port (rs.count (.port ss.length))) := by
  have hcopied : (answer ss (.copy i)).2 = ss ++ [s] := by rw [answer, hs]; rfl
  have hfirst : (answerAll ss (.copy i :: rs)) = answerAll (ss ++ [s]) rs := by
    rw [← hcopied]
    rfl
  obtain ⟨hi, -⟩ := List.getElem?_eq_some_iff.mp hs
  rw [hfirst]
  exact ⟨answer_port (getElem?_answerAll ((List.getElem?_append_left hi).trans hs) rs),
    answer_port (getElem?_answerAll List.getElem?_concat_length rs)⟩

/-- A source with a base gives out its ports in a cycle: the base, the ports above it in their order, and then
the base again. It gives no other port, and each of these once in as many requests as there are of them. A copy
goes on in the cycle from where it was taken, and neither it nor its original minds what the other, or any
other source, is asked for. -/
theorem fair_cycle (hbase : base ≠ 0) :
    (∀ k, ((startingAt base).port k).toNat = base.toNat + k % (65536 - base.toNat)) ∧
    (∀ k, (startingAt base).port k ≠ 0 ∧ base ≤ (startingAt base).port k) ∧
    (∀ k, ((startingAt base).round (65536 - base.toNat) k).Nodup ∧
      ∀ p, p ∈ (startingAt base).round (65536 - base.toNat) k ↔ base ≤ p) ∧
    ∀ ss i k rs, ss[i]? = some ((startingAt base).after k) →
      (answer (answerAll ss (.copy i :: rs)) (.port i)).1 =
        some ((startingAt base).port (k + rs.count (.port i))) ∧
      (answer (answerAll ss (.copy i :: rs)) (.port ss.length)).1 =
        some ((startingAt base).port (k + rs.count (.port ss.length))) := by
  refine ⟨toNat_port hbase, fun k => ⟨fun h0 => hbase ?_, base_le_port hbase k⟩,
    fun k => ⟨nodup_round hbase k, mem_round_iff hbase k⟩, fun ss i k rs hs => ?_⟩
  · have hle := UInt16.le_iff_toNat_le.mp (h0 ▸ base_le_port hbase k)
    exact UInt16.toNat_inj.mp (Nat.le_zero.mp hle)
  · have hcopy := answerAll_copy hs rs
    simp only [port, after_add] at hcopy
    exact hcopy

/-- A source of the last two ports, which is copied after one request. -/
theorem fair_cycle_lastTwo : (65534 : Port) ≠ 0 ∧ (startingAt 65534).port 4 = 65534 ∧
    ((startingAt 65534).round 2 3).Nodup ∧
    (∀ p, p ∈ (startingAt 65534).round 2 3 ↔ 65534 ≤ p) ∧
    (answer (answerAll [(startingAt 65534).after 1] [.copy 0, .port 0]) (.port 0)).1 = some 65534 ∧
    (answer (answerAll [(startingAt 65534).after 1] [.copy 0, .port 0]) (.port 1)).1 = some 65535 := by
  have hbase : (65534 : Port) ≠ 0 := by decide
  obtain ⟨hport, -, hround, hcopy⟩ := fair_cycle hbase
  obtain ⟨horiginal, hcopied⟩ := hcopy [(startingAt 65534).after 1] 0 1 [.port 0] rfl
  exact ⟨hbase, UInt16.toNat_inj.mp (hport 4), (hround 3).1, (hround 3).2, horiginal, hcopied⟩

end BoundedStreams.PortSource
