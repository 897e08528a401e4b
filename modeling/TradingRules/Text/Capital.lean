/-!
# `Text.Capital` — capital letters

Names of levels are compared in capitals. A few letters outside ASCII have capitals inside it; all others keep
out of it, so that they can be left as they are wherever the result is compared with an ASCII word.
-/

namespace TradingRules.Text

/-- The letters outside ASCII whose capitals are ASCII letters. -/
def foreignCapitals : List (Char × String) :=
  [('ß', "SS"), ('ı', "I"), ('ſ', "S"), ('ﬀ', "FF"), ('ﬁ', "FI"), ('ﬂ', "FL"), ('ﬃ', "FFI"), ('ﬄ', "FFL"),
   ('ﬅ', "ST"), ('ﬆ', "ST")]

/-- A letter in capitals. -/
def capital (c : Char) : List Char :=
  match foreignCapitals.lookup c with
  | some word => word.toList
  | none => [c.toUpper]

/-- Text in capitals. -/
def capitals (s : String) : String := String.ofList (s.toList.flatMap capital)

end TradingRules.Text
