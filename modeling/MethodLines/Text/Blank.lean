import MethodLines.Text

/-! White space as Unicode's `White_Space` property has it, which is what input
lines are trimmed by. It is wider than ASCII blanks (no-break and ideographic
spaces count) and leaves out the zero-width characters. -/
namespace MethodLines.Text

/-- The ranges of `White_Space`, in increasing order. -/
def blankRanges : List (Nat × Nat) :=
  [(0x09, 0x0d), (0x20, 0x20), (0x85, 0x85), (0xa0, 0xa0), (0x1680, 0x1680), (0x2000, 0x200a),
   (0x2028, 0x2029), (0x202f, 0x202f), (0x205f, 0x205f), (0x3000, 0x3000)]

def isBlank (c : Char) : Bool :=
  blankRanges.any fun (low, high) => low ≤ c.toNat && c.toNat ≤ high

def trim (t : Text) : Text :=
  ((t.dropWhile isBlank).reverse.dropWhile isBlank).reverse

end MethodLines.Text
