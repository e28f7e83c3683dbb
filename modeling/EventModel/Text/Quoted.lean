import EventModel.Text.Printable

/-!
# Texts of values

`quote` writes a string between double quotes so that every character of the result can be seen.
`structureText`, `listText` and `pairText` write composed values: a name with labelled fields, a
list and a pair.
-/

namespace EventModel.Text

/-- A character given by its code point. -/
def codePoint (c : Char) : String :=
  "\\u\x7b" ++ String.ofList (Nat.toDigits 16 c.toNat) ++ "\x7d"

/-- One character inside quotes. -/
def quoteChar (c : Char) : String :=
  match c with
  | '\x00' => "\\0"
  | '\t' => "\\t"
  | '\r' => "\\r"
  | '\n' => "\\n"
  | '\\' => "\\\\"
  | '"' => "\\\""
  | _ => if isExtending c || !isPrintable c then codePoint c else c.toString

/-- A string in double quotes. -/
def quote (s : String) : String :=
  "\"" ++ String.join (s.toList.map quoteChar) ++ "\""

/-- Labelled fields; `complete` is false if there is more that is not shown. -/
def structureText (name : String) (fields : List (String × String)) (complete : Bool) : String :=
  let shown := fields.map fun (label, value) => label ++ ": " ++ value
  let parts := if complete then shown else shown ++ [".."]
  name ++ " \x7b " ++ String.intercalate ", " parts ++ " \x7d"

/-- A list in square brackets. -/
def listText (items : List String) : String :=
  "[" ++ String.intercalate ", " items ++ "]"

/-- A pair in parentheses. -/
def pairText (first second : String) : String :=
  "(" ++ first ++ ", " ++ second ++ ")"

end EventModel.Text
