import FramePacing.Decimal.Layout

/-!
# JSON text

JSON values and their indented text: two blanks a level, one element or member a line, and the members
of an object in the order of their names.
-/

namespace FramePacing

/-- A JSON value. Integers and decimals are kept apart, since their texts differ. -/
inductive JsonValue where
  | boolean (value : Bool)
  | integer (value : Int)
  | decimal (value : Float)
  | text (value : String)
  | list (elements : List JsonValue)
  | object (members : List (String × JsonValue))

namespace JsonValue

/-- The object with the given members, put into the order of their names. -/
def ofMembers (members : List (String × JsonValue)) : JsonValue :=
  .object (members.mergeSort fun a b => a.1 ≤ b.1)

/-- Decimals have a point, or a signed exponent from `1e+16` up and below `1e-5`. -/
def decimalLayout : DecimalLayout where
  positionalFrom := -5
  positionalBelow := 16
  exponentMark := "e"
  plusSign := true

/-- A text between quotes. Quotes and backslashes are escaped; control characters do not occur. -/
def quote (s : String) : String :=
  "\"" ++ String.join (s.toList.map fun c =>
    if c = '"' ∨ c = '\\' then "\\" ++ c.toString else c.toString) ++ "\""

/-- The end of a line and the indentation of the next. -/
def newline (depth : Nat) : String := "\n" ++ String.ofList (List.replicate (2 * depth) ' ')

/-- Lines between brackets, or just the brackets if there are none. -/
def enclose (open_ close : String) (depth : Nat) (lines : List String) : String :=
  if lines.isEmpty then open_ ++ close
  else
    let separator := "," ++ newline (depth + 1)
    open_ ++ newline (depth + 1) ++ separator.intercalate lines ++ newline depth ++ close

mutual

/-- The text of a value that stands `depth` levels deep. -/
def print (depth : Nat) : JsonValue → String
  | .boolean b => if b then "true" else "false"
  | .integer n => toString n
  | .decimal x => decimalLayout.render x
  | .text s => quote s
  | .list l => enclose "[" "]" depth (printElements (depth + 1) l)
  | .object l => enclose "\x7b" "\x7d" depth (printMembers (depth + 1) l)

def printElements (depth : Nat) : List JsonValue → List String
  | [] => []
  | v :: l => print depth v :: printElements depth l

def printMembers (depth : Nat) : List (String × JsonValue) → List String
  | [] => []
  | (name, v) :: l => (quote name ++ ": " ++ print depth v) :: printMembers depth l

end

end JsonValue

end FramePacing
