/-!
Ascending lists without repetitions. Sorting brings equal elements together, and then one of each
run of equal neighbours is kept.
-/

namespace PeerCache

variable {α : Type}

/-- Keeps the last of each run of equal neighbours. -/
def dropRepeats [DecidableEq α] (xs : List α) : List α :=
  xs.foldr (fun x rest => if rest.head? = some x then rest else x :: rest) []

/-- The elements of a list in ascending order, each once. -/
def ascending [LE α] [DecidableLE α] [DecidableEq α] (xs : List α) : List α :=
  dropRepeats (xs.mergeSort fun a b => a ≤ b)

@[simp] theorem dropRepeats_nil [DecidableEq α] : dropRepeats ([] : List α) = [] := rfl

theorem dropRepeats_cons [DecidableEq α] (x : α) (xs : List α) :
    dropRepeats (x :: xs) =
      if (dropRepeats xs).head? = some x then dropRepeats xs else x :: dropRepeats xs := rfl

/-- Nothing is lost and nothing is added. -/
@[simp] theorem mem_dropRepeats [DecidableEq α] {x : α} {xs : List α} :
    x ∈ dropRepeats xs ↔ x ∈ xs := by
  induction xs with
  | nil => rfl
  | cons y ys ih =>
    rw [dropRepeats_cons]
    split
    · next h =>
      have hy : y ∈ dropRepeats ys := List.mem_of_mem_head? h
      rw [List.mem_cons, ih]
      exact ⟨Or.inr, fun hx => hx.elim (fun e => e ▸ ih.mp (e ▸ hy)) id⟩
    · rw [List.mem_cons, List.mem_cons, ih]

/-- Sorting and dropping repetitions keep the members of a list. -/
@[simp] theorem mem_ascending [LE α] [DecidableLE α] [DecidableEq α] {x : α} {xs : List α} :
    x ∈ ascending xs ↔ x ∈ xs := by
  rw [ascending, mem_dropRepeats, List.mem_mergeSort]

/-! ### The order of what is left -/

variable [LE α] [LT α] [DecidableEq α] [Std.IsLinearOrder α] [Std.LawfulOrderLT α]

/-- In a list that does not descend equal elements are neighbours, so that none is left twice. -/
theorem pairwise_dropRepeats {xs : List α} (ordered : xs.Pairwise (· ≤ ·)) :
    (dropRepeats xs).Pairwise (· < ·) := by
  induction xs with
  | nil => exact .nil
  | cons x xs ih =>
    rw [List.pairwise_cons] at ordered
    have rest := ih ordered.2
    rw [dropRepeats_cons]
    split
    · exact rest
    · next apart =>
      refine List.pairwise_cons.mpr ⟨fun y hy => ?_, rest⟩
      cases kept : dropRepeats xs with
      | nil => rw [kept] at hy; cases hy
      | cons z zs =>
        -- `x` is not the head `z`, so it comes before it, and `z` before all others
        have le : x ≤ z := ordered.1 z (mem_dropRepeats.mp (kept ▸ List.mem_cons_self))
        rw [kept, List.head?_cons, Option.some.injEq] at apart
        rw [kept, List.pairwise_cons] at rest
        rw [kept, List.mem_cons] at hy
        grind

/-- What is sorted does not descend, so without repetitions it ascends. -/
theorem pairwise_ascending [DecidableLE α] (xs : List α) : (ascending xs).Pairwise (· < ·) := by
  have sorted := @List.pairwise_mergeSort α (fun a b => decide (a ≤ b)) (by grind) (by grind) xs
  refine pairwise_dropRepeats (sorted.imp ?_)
  exact of_decide_eq_true

end PeerCache
