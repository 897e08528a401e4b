import TradingRules.Json.Value
import TradingRules.Json.Printer
import TradingRules.Text.Quoted

/-!
# `Json.Message` — values quoted in messages

A message that names an offending value quotes it in full: words with a capital for null and the truth
values, text in quotes, lists and objects in brackets.
-/

namespace TradingRules.Json

/-- Doubles in messages differ from those in JSON text in the words for the special values. -/
def messageNumber : Decimal.Style := { numberStyle with infinity := "inf", nan := "nan" }

mutual

/-- The value as a message quotes it. -/
def quote : Json → String
  | .null => "None"
  | .bool true => "True"
  | .bool false => "False"
  | .int n => String.ofList (writeInt n)
  | .float x => messageNumber.text x
  | .str s => Text.quoted s
  | .arr items => "[" ++ ", ".intercalate (quoteItems items) ++ "]"
  | .obj fields => "\x7b" ++ ", ".intercalate (quoteFields fields) ++ "\x7d"

/-- The items of a list, each as a message quotes it. -/
def quoteItems : List Json → List String
  | [] => []
  | item :: items => quote item :: quoteItems items

/-- The fields of an object, each as a message quotes it. -/
def quoteFields : List (String × Json) → List String
  | [] => []
  | (key, value) :: fields => (Text.quoted key ++ ": " ++ quote value) :: quoteFields fields

end

/-- The value as a message names it: text stands as it is. -/
def name : Json → String
  | .str s => s
  | value => quote value

end TradingRules.Json
