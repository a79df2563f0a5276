/-!
Texts measured in the bytes of UTF-8, and the parts of a text between two positions so measured. No
part starts or ends inside a character.

Main statement: a text falls in two at every position where a character ends
(`splitAtByte_append`), and nothing is lost (`append_of_splitAtByte`).
-/

namespace PeerCache.Text

/-- How many bytes a text takes. -/
def byteSize : List Char → Nat
  | [] => 0
  | c :: rest => c.utf8Size + byteSize rest

/-- A text up to a position and from there on, unless the position is inside a character. -/
def splitAtByte (position : Nat) : List Char → Option (List Char × List Char)
  | [] => some ([], [])
  | c :: rest =>
    if position = 0 then some ([], c :: rest)
    else if position < c.utf8Size then none
    else (splitAtByte (position - c.utf8Size) rest).map fun (front, back) => (c :: front, back)

/-- The two parts are the text. -/
theorem append_of_splitAtByte {position : Nat} {text front back : List Char}
    (h : splitAtByte position text = some (front, back)) : front ++ back = text := by
  induction text generalizing position front with
  | nil =>
    obtain ⟨rfl, rfl⟩ := Prod.mk.inj (Option.some.inj h)
    rfl
  | cons c rest ih =>
    rw [splitAtByte] at h
    split at h
    · obtain ⟨rfl, rfl⟩ := Prod.mk.inj (Option.some.inj h)
      rfl
    · split at h
      · cases h
      · obtain ⟨⟨tailFront, tailBack⟩, found, pair⟩ := Option.map_eq_some_iff.1 h
        obtain ⟨rfl, rfl⟩ := Prod.mk.inj pair
        rw [List.cons_append, ih found]

/-- Where one part ends and another begins, a text can be split. -/
theorem splitAtByte_append (front back : List Char) :
    splitAtByte (byteSize front) (front ++ back) = some (front, back) := by
  induction front with
  | nil => cases back <;> rfl
  | cons c rest ih =>
    have pos := c.utf8Size_pos
    rw [List.cons_append, splitAtByte, byteSize, if_neg (by omega), if_neg (by omega),
      Nat.add_sub_cancel_left, ih]
    rfl

/-- A position at which a text cannot be cut, since it is inside a character. -/
structure InnerPosition where
  position : Nat
  deriving DecidableEq, Repr

/-- The part of a text from one position up to another. -/
def slice (text : List Char) (first last : Nat) : Except InnerPosition (List Char) :=
  match splitAtByte first text with
  | none => .error ⟨first⟩
  | some (_, behind) =>
    match splitAtByte (last - first) behind with
    | none => .error ⟨last⟩
    | some (part, _) => .ok part

end PeerCache.Text
