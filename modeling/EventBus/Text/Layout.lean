/-!
# Layout of values

How a structured value is shown: a bare word, a name with labelled fields, or a name with
positional parts. Every value has two texts, one on a single line and one with a line per field,
indented by four spaces and ended by a comma.
-/

set_option autoImplicit false

namespace EventBus.Text

/-- What there is to show of a value. -/
inductive Shape where
  | atom (text : String)
  | record (name : String) (fields : List (String × Shape))
  | tuple (name : String) (parts : List Shape)

def indent (line : String) : String := "    " ++ line

/-- Puts a comma behind the last line. -/
def endField : List String → List String
  | [] => []
  | [line] => [line ++ ","]
  | line :: rest => line :: endField rest

/-- Puts `before` in front of the first line and a comma behind the last one. -/
def delimit (before : String) : List String → List String
  | [] => []
  | line :: rest => endField ((before ++ line) :: rest)

mutual

/-- The value on a single line. -/
def Shape.text : Shape → String
  | .atom text => text
  | .record name [] => name
  | .record name (field :: fields) =>
    name ++ " \x7b " ++ ", ".intercalate (fieldTexts (field :: fields)) ++ " \x7d"
  | .tuple name parts => name ++ "(" ++ ", ".intercalate (partTexts parts) ++ ")"

def fieldTexts : List (String × Shape) → List String
  | [] => []
  | (label, value) :: fields => (label ++ ": " ++ value.text) :: fieldTexts fields

def partTexts : List Shape → List String
  | [] => []
  | part :: parts => part.text :: partTexts parts

end

mutual

def Shape.lines : Shape → List String
  | .atom text => [text]
  | .record name [] => [name]
  | .record name (field :: fields) =>
    (name ++ " \x7b") :: (fieldLines (field :: fields)).map indent ++ ["\x7d"]
  | .tuple name parts => (name ++ "(") :: (partLines parts).map indent ++ [")"]

def fieldLines : List (String × Shape) → List String
  | [] => []
  | (label, value) :: fields => delimit (label ++ ": ") value.lines ++ fieldLines fields

def partLines : List Shape → List String
  | [] => []
  | part :: parts => delimit "" part.lines ++ partLines parts

end

def Shape.indented (s : Shape) : String := "\n".intercalate s.lines

end EventBus.Text
