/-!
# White space

Which characters count as white space, and what is left of a text once the
white space at its two ends is gone. A text is blank when nothing is left.

The set is Unicode's `White_Space` property, which is wider than the ASCII
set of `Char.isWhitespace` (`isBlank_of_isWhitespace`).
-/

namespace BountyBoard.Text

/-- The code points of Unicode's `White_Space` property. -/
def isBlankCode (n : Nat) : Bool :=
  (9 ≤ n && n ≤ 13) || n == 0x20 || n == 0x85 || n == 0xA0 || n == 0x1680
    || (0x2000 ≤ n && n ≤ 0x200A) || n == 0x2028 || n == 0x2029 || n == 0x202F
    || n == 0x205F || n == 0x3000

def isBlank (c : Char) : Bool :=
  isBlankCode c.toNat

def trimList (cs : List Char) : List Char :=
  ((cs.dropWhile isBlank).reverse.dropWhile isBlank).reverse

/-- A text without the white space at its two ends. -/
def trim (s : String) : String :=
  String.ofList (trimList s.toList)

/-- A text of nothing but white space. -/
def isBlankText (s : String) : Bool :=
  s.toList.all isBlank

theorem isBlank_of_isWhitespace {c : Char} (h : c.isWhitespace = true) :
    isBlank c = true := by
  simp only [Char.isWhitespace, Bool.or_eq_true, decide_eq_true_eq] at h
  rcases h with ((rfl | rfl) | rfl) | rfl <;> decide

theorem dropWhile_isBlank_eq_nil_iff {cs : List Char} :
    cs.dropWhile isBlank = [] ↔ cs.all isBlank = true := by
  induction cs with
  | nil => simp
  | cons c r ih =>
    by_cases h : isBlank c = true
    · simp [List.dropWhile, h, ih]
    · simp [List.dropWhile, h]

/-- Trimming leaves nothing exactly of the blank texts. -/
theorem trimList_eq_nil_iff {cs : List Char} :
    trimList cs = [] ↔ cs.all isBlank = true := by
  rw [trimList, List.reverse_eq_nil_iff, dropWhile_isBlank_eq_nil_iff, List.all_reverse]
  constructor
  · intro h
    rw [← List.takeWhile_append_dropWhile (p := isBlank) (l := cs), List.all_append,
      Bool.and_eq_true]
    exact ⟨List.all_takeWhile, h⟩
  · intro h
    rw [dropWhile_isBlank_eq_nil_iff.2 h]
    rfl

end BountyBoard.Text
