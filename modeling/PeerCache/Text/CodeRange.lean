/-!
Classes of characters given as tables of code ranges.
-/

namespace PeerCache.Text

/-- Whether a character's code lies in one of the ranges, each given by its first and last code. -/
def inRanges (ranges : Array (Nat × Nat)) (c : Char) : Bool :=
  ranges.any fun range => range.1 ≤ c.toNat && c.toNat ≤ range.2

/-- Whether the ranges ascend and no two of them touch, so that no shorter table says the same. -/
def areApart (ranges : Array (Nat × Nat)) : Bool :=
  let all := ranges.toList
  all.all (fun range => range.1 ≤ range.2) &&
    (all.zip (all.drop 1)).all fun (range, next) => range.2 + 1 < next.1

/-- A character is in a class exactly when one of the ranges holds its code. -/
theorem inRanges_iff {ranges : Array (Nat × Nat)} {c : Char} :
    inRanges ranges c = true ↔ ∃ range ∈ ranges, range.1 ≤ c.toNat ∧ c.toNat ≤ range.2 := by
  rw [inRanges, ← Array.any_toList, List.any_eq_true]
  simp only [Array.mem_toList_iff, Bool.and_eq_true, decide_eq_true_eq]

end PeerCache.Text
