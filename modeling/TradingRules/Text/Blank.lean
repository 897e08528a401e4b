/-!
# `Text.Blank` — white space

Two sets of white space. `isBlank` is the Unicode property White_Space without the separators of the
control block that only some readers count; `isSpace` counts those too.
-/

namespace TradingRules.Text

/-- Unicode white space, as numbers written in text may be surrounded by. -/
def isBlank (c : Char) : Bool :=
  let n := c.toNat
  (9 ≤ n && n ≤ 13) || n == 0x20 || n == 0x85 || n == 0xA0 || n == 0x1680 ||
  (0x2000 ≤ n && n ≤ 0x200A) || n == 0x2028 || n == 0x2029 || n == 0x202F || n == 0x205F || n == 0x3000

/-- Unicode white space and the four separators `U+001C` to `U+001F`. -/
def isSpace (c : Char) : Bool := isBlank c || (0x1C ≤ c.toNat && c.toNat ≤ 0x1F)

/-- Removes what `p` holds of from both ends. -/
def trimBoth (p : Char → Bool) (cs : List Char) : List Char :=
  ((cs.dropWhile p).reverse.dropWhile p).reverse

end TradingRules.Text
