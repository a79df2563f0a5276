import Mathlib.Order.WellFounded
import PeerCache.Ring.Basic

/-!
# The nearest position clockwise

From a hash one goes up the ring, past the highest position on to the lowest; `clockwise` is how far
it is to a position. `Nearest` says of a position that no other one of some set is closer, in words
that know of neither order nor wrap-around. `successor?_eq_some_iff` says that the halving search
finds it: what it needs is that the points ascend, which settling them sees to
(`pairwise_ascending`).
-/

namespace PeerCache

namespace Ring

/-! ## Going clockwise -/

/-- How far it is from a hash up to a position, past the top of the ring if need be. -/
def clockwise (h p : UInt32) : Nat :=
  (p - h).toNat

/-- A position of the set, such that none of the set is closer. -/
structure Nearest (sites : UInt32 → Prop) (h p : UInt32) : Prop where
  mem : sites p
  least : ∀ q, sites q → clockwise h p ≤ clockwise h q

variable {sites others : UInt32 → Prop} {h p q : UInt32}

theorem clockwise_of_le (le : h ≤ p) : clockwise h p = p.toNat - h.toNat :=
  UInt32.toNat_sub_of_le _ _ le

/-- Below the hash, the way leads past the top. -/
theorem clockwise_of_lt (lt : p < h) : clockwise h p = 4294967296 - h.toNat + p.toNat := by
  rw [UInt32.lt_iff_toNat_lt] at lt
  have bound := h.toNat_lt
  rw [clockwise, UInt32.toNat_sub, Nat.mod_eq_of_lt]
  omega

/-- No two positions are equally far. -/
theorem clockwise_inj (same : clockwise h p = clockwise h q) : p = q := by
  have sub : p - h = q - h := UInt32.toNat_inj.mp same
  rw [← UInt32.sub_add_cancel p h, sub, UInt32.sub_add_cancel]

namespace Nearest

/-- There is one nearest position, since no two are equally far. -/
theorem unique (one : Nearest sites h p) (two : Nearest sites h q) : p = q :=
  clockwise_inj (Nat.le_antisymm (one.least q two.mem) (two.least p one.mem))

/-- Nothing is closer than the position that a hash falls on. -/
theorem here (mem : sites h) : Nearest sites h h where
  mem := mem
  least q _ := by simp [clockwise]

/-- Where there are positions, one of them is nearest. -/
theorem exists_of_mem (mem : sites p) : ∃ q, Nearest sites h q := by
  obtain ⟨q, hq, least⟩ := (measure (clockwise h)).wf.has_min {q | sites q} ⟨p, mem⟩
  exact ⟨q, hq, fun other hother => Nat.not_lt.mp (least other hother)⟩

/-- Which position is nearest depends on the positions alone, not on how they are described. -/
theorem congr (same : ∀ p, sites p ↔ others p) : Nearest sites h p ↔ Nearest others h p := by
  have eq : sites = others := funext fun p => propext (same p)
  rw [eq]

/-- What is nearest stays so when other positions are given up. -/
theorem restrict (nearest : Nearest sites h p) (fewer : ∀ q, others q → sites q)
    (kept : others p) : Nearest others h p where
  mem := kept
  least q hq := nearest.least q (fewer q hq)

/-- What is nearest stays so when only positions at least as far are added. -/
theorem union (nearest : Nearest sites h p)
    (far : ∀ q, others q → clockwise h p ≤ clockwise h q) :
    Nearest (fun p => sites p ∨ others p) h p where
  mem := .inl nearest.mem
  least q hq := hq.elim (nearest.least q) (far q)

end Nearest

/-! ## The search -/

/-- `i` points come before `h`, and all others do not. -/
structure Cut (points : Array UInt32) (h : UInt32) (i : Nat) : Prop where
  le_size : i ≤ points.size
  before : ∀ j (hj : j < points.size), j < i → points[j] < h
  behind : ∀ j (hj : j < points.size), i ≤ j → h ≤ points[j]

variable {points : Array UInt32}

theorem le_of_index_le (ascending : points.toList.Pairwise (· < ·)) {i j : Nat} (le : i ≤ j)
    (hj : j < points.size) : points[i] ≤ points[j] := by
  rw [List.pairwise_iff_getElem] at ascending
  rcases Nat.lt_or_eq_of_le le with lt | rfl
  · exact UInt32.le_of_lt (ascending i j (by simpa using Nat.lt_trans lt hj) (by simpa using hj) lt)
  · exact UInt32.le_refl _

/-- The search keeps the cut within the stretch that is left: the points before the stretch come
before `h`, those behind it do not. -/
theorem cut_search (ascending : points.toList.Pairwise (· < ·)) (base size : Nat) (pos : 0 < size)
    (fits : base + size ≤ points.size)
    (before : ∀ j (hj : j < points.size), j < base → points[j] < h)
    (behind : ∀ j (hj : j < points.size), base + size ≤ j → h ≤ points[j]) :
    Cut points h (search points h base size) := by
  fun_induction search points h base size with
  | case1 base size long middle below ih =>
    have inside : middle < points.size := by omega
    rw [Array.getD_eq_getD_getElem?, Array.getElem?_eq_getElem inside, Option.getD_some] at below
    refine ih (by omega) (by omega) (fun j hj lt => ?_) fun j hj le => behind j hj (by omega)
    exact UInt32.lt_of_le_of_lt (le_of_index_le ascending (Nat.le_of_lt lt) inside) below
  | case2 base size long middle above ih =>
    have inside : middle < points.size := by omega
    rw [Array.getD_eq_getD_getElem?, Array.getElem?_eq_getElem inside, Option.getD_some,
      UInt32.not_lt] at above
    refine ih (by omega) (by omega) before fun j hj le => ?_
    exact UInt32.le_trans above (le_of_index_le ascending (by omega) hj)
  | case3 base size short below =>
    have inside : base < points.size := by omega
    rw [Array.getD_eq_getD_getElem?, Array.getElem?_eq_getElem inside, Option.getD_some] at below
    refine ⟨by omega, fun j hj lt => ?_, fun j hj le => behind j hj (by omega)⟩
    exact UInt32.lt_of_le_of_lt (le_of_index_le ascending (by omega) inside) below
  | case4 base size short above =>
    have inside : base < points.size := by omega
    rw [Array.getD_eq_getD_getElem?, Array.getElem?_eq_getElem inside, Option.getD_some,
      UInt32.not_lt] at above
    refine ⟨by omega, before, fun j hj le => ?_⟩
    exact UInt32.le_trans above (le_of_index_le ascending le hj)

/-- The search starts with the whole array, so it makes the cut in it. -/
theorem cut_firstAtLeast (ascending : points.toList.Pairwise (· < ·)) (h : UInt32) :
    Cut points h (firstAtLeast points h) := by
  unfold firstAtLeast
  split
  · next none =>
    rw [Array.isEmpty_iff_size_eq_zero] at none
    exact ⟨Nat.zero_le _, fun j hj => by omega, fun j hj => by omega⟩
  · next some =>
    rw [Array.isEmpty_iff_size_eq_zero] at some
    exact cut_search ascending 0 points.size (by omega) (by omega) (fun j _ lt => by omega)
      fun j hj le => by omega

/-! ## What is found -/

variable {ring : Ring}

/-- The point at the cut is nearest, or, if all points come before the hash, the first one. -/
theorem Cut.nearest (ascending : points.toList.Pairwise (· < ·)) {i : Nat} (cut : Cut points h i)
    (inside : (if i = points.size then 0 else i) < points.size) :
    Nearest (· ∈ points) h points[if i = points.size then 0 else i] := by
  refine ⟨Array.getElem_mem _, fun q hq => ?_⟩
  obtain ⟨j, hj, rfl⟩ := Array.getElem_of_mem hq
  have bound := h.toNat_lt
  split
  · next all =>
    -- every way leads past the top, and the first point is the lowest
    have le := UInt32.le_iff_toNat_le.mp (le_of_index_le ascending (Nat.zero_le j) hj)
    rw [clockwise_of_lt (cut.before _ _ (by omega)), clockwise_of_lt (cut.before j hj (by omega))]
    omega
  · next some =>
    rw [if_neg some] at inside
    have here : h ≤ points[i] := cut.behind i inside (Nat.le_refl i)
    rw [clockwise_of_le here]
    rcases Nat.lt_or_ge j i with lt | ge
    · have top := points[i].toNat_lt
      rw [clockwise_of_lt (cut.before j hj lt)]
      omega
    · have le := UInt32.le_iff_toNat_le.mp (le_of_index_le ascending ge hj)
      rw [clockwise_of_le (cut.behind j hj ge)]
      omega

/-- **The search finds the nearest point**, in every ring whose points ascend. -/
theorem successor?_eq_some_iff (ascending : ring.points.toList.Pairwise (· < ·)) :
    ring.successor? h = some p ↔ Nearest (· ∈ ring.points) h p := by
  have cut := cut_firstAtLeast ascending h
  have found : ∀ q, ring.successor? h = some q → Nearest (· ∈ ring.points) h q := by
    intro q hq
    obtain ⟨inside, rfl⟩ := Array.getElem?_eq_some_iff.mp hq
    exact cut.nearest ascending inside
  refine ⟨found p, fun nearest => ?_⟩
  have inside : (if firstAtLeast ring.points h = ring.points.size then 0
      else firstAtLeast ring.points h) < ring.points.size := by
    have some := Array.size_pos_of_mem nearest.mem
    have le := cut.le_size
    split <;> omega
  have hit : ring.successor? h = some _ := Array.getElem?_eq_getElem inside
  rw [hit, (found _ hit).unique nearest]

end Ring

end PeerCache
