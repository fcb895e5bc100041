import Ferry.Text.Hex

/-!
# JSON documents

A document is a tree of arrays and objects over truth values, integers and texts. It is written over
several lines: the items of an array and the fields of an object stand on lines of their own, two
spaces further in than their brackets, in the order in which they are given.
-/

namespace Ferry.Text

/-- A JSON document. -/
inductive Json where
  | bool (value : Bool)
  | number (value : Int)
  | text (value : String)
  | array (items : List Json)
  | object (fields : List (String × Json))

namespace Json

/-- One character as it stands inside a JSON text. Control characters are escaped. -/
def escape (c : Char) : String :=
  if c = '"' then "\\\""
  else if c = '\\' then "\\\\"
  else if c = '\n' then "\\n"
  else if c = '\r' then "\\r"
  else if c = '\t' then "\\t"
  else if c.toNat = 0x08 then "\\b"
  else if c.toNat = 0x0C then "\\f"
  else if c.toNat < 0x20 then "\\u00" ++ String.ofList (hexByte c.toUInt8)
  else c.toString

/-- A text between quotation marks. -/
def quote (text : String) : String := "\"" ++ String.join (text.toList.map escape) ++ "\""

/-- The space before a line. -/
def margin (depth : Nat) : String := String.ofList (List.replicate (2 * depth) ' ')

/-- Lines between brackets; without lines the brackets stand together. -/
def block (opening closing : String) (depth : Nat) (lines : List String) : String :=
  if lines = [] then opening ++ closing
  else
    opening ++ "\n" ++ ",\n".intercalate (lines.map fun line => margin (depth + 1) ++ line) ++
      "\n" ++ margin depth ++ closing

mutual

/-- The text of a document whose first line stands at a depth. -/
def pretty (depth : Nat) : Json → String
  | bool value => if value then "true" else "false"
  | number value => toString value
  | text value => quote value
  | array items => block "[" "]" depth (prettyItems (depth + 1) items)
  | object fields => block "\x7b" "\x7d" depth (prettyFields (depth + 1) fields)

/-- The texts of the items of an array. -/
def prettyItems (depth : Nat) : List Json → List String
  | [] => []
  | item :: rest => pretty depth item :: prettyItems depth rest

/-- The texts of the fields of an object. -/
def prettyFields (depth : Nat) : List (String × Json) → List String
  | [] => []
  | (key, value) :: rest => (quote key ++ ": " ++ pretty depth value) :: prettyFields depth rest

end

end Json

end Ferry.Text
