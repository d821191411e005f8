import RequestAuth.Text.Quoted

namespace RequestAuth.Text

def labelled (name value : String) : String := name ++ "(" ++ value ++ ")"

def record (name : String) (fields : List String) : String :=
  name ++ " \x7b " ++ ", ".intercalate fields ++ " \x7d"

def field (name value : String) : String := name ++ ": " ++ value

def more : String := ".."

def maybe : Option String → String
  | none => "None"
  | some value => labelled "Some" value

def flag (b : Bool) : String := if b then "true" else "false"

end RequestAuth.Text
