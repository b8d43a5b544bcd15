/-!
# Blanks

The characters with the property White_Space, and texts without the blanks at their two ends (`trim`).  A trimmed
text does not end with a blank (`getLast_trim`), and core's whitespace is blank (`isBlank_of_isWhitespace`).
-/

namespace BlockTracker

/-- The code points with the property White_Space, first and last of each run. -/
def blankRanges : List (Nat × Nat) :=
  [(0x09, 0x0D), (0x20, 0x20), (0x85, 0x85), (0xA0, 0xA0), (0x1680, 0x1680), (0x2000, 0x200A), (0x2028, 0x2029),
   (0x202F, 0x202F), (0x205F, 0x205F), (0x3000, 0x3000)]

def isBlank (c : Char) : Bool :=
  blankRanges.any fun r => r.1 ≤ c.toNat && c.toNat ≤ r.2

/-- A text without the blanks at its two ends. -/
def trim (cs : List Char) : List Char :=
  ((cs.dropWhile isBlank).reverse.dropWhile isBlank).reverse

theorem isBlank_of_isWhitespace {c : Char} (h : c.isWhitespace = true) : isBlank c = true := by
  simp only [Char.isWhitespace, Bool.or_eq_true, decide_eq_true_eq] at h
  rcases h with ((rfl | rfl) | rfl) | rfl <;> decide

theorem getLast_trim {cs : List Char} {c : Char} (h : (trim cs).getLast? = some c) : isBlank c = false := by
  unfold trim at h
  rw [List.getLast?_reverse] at h
  have := List.head?_dropWhile_not isBlank (cs.dropWhile isBlank).reverse
  rw [h] at this
  simpa using this

end BlockTracker
