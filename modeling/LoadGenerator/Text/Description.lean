/-!
# Descriptions of records

The inside of a value for a reader who debugs: its name, then every field with its value.
-/

namespace LoadGenerator.Text

/-- A name and its fields, each with the text of its value. -/
def describe (name : String) (fields : List (String × String)) : String :=
  name ++ " \x7b " ++ ", ".intercalate (fields.map fun (field, value) => field ++ ": " ++ value) ++
    " \x7d"

def describeBool (b : Bool) : String :=
  if b then "true" else "false"

end LoadGenerator.Text
