import MapQuery.Catalog
import MapQuery.Schema.Description

/-!
# The prompt

The model is asked to complete a piece of code: a rule about the form of the answer as a comment,
the signatures of the calls, one example with its answer, and an open function for the question.
-/

namespace MapQuery.Prompt

def formatRule : String :=
  "Do not respond with anything other than the Python code. "
    ++ "Do not include comments or empty lines."

/-- The lines of a question with its answer. -/
def workedExampleLines : List String :=
  ["def func1() -> Action:",
    "    \"\"\"",
    "    Given these layers:",
    "    * buildings_fasdff3234 (also known as Buildings, has attributes year_of_construction "
      ++ "(also known as Year of construction, is a number), type (also known as Type, "
      ++ "possible values are residential, industrial, commercial))",
    "    * roads_fa4123 (also known as Roads, has attributes type (also known as Type, "
      ++ "possible values are small, large, highway), width (also known as Width, is a number))",
    "",
    "    Perform this action:",
    "    Select buildings close to highways",
    "    \"\"\"",
    "",
    "    return select(intersection(get_layer('buildings_fasdff3234'), "
      ++ "buffer(filter(get_layer('roads_fa4123'), 'type', 'highway'), 500)))"]

/-- A question with its answer. -/
def workedExample : String := "\n".intercalate workedExampleLines

def opening (schema : Schema) : String :=
  "# " ++ formatRule ++ "\n\n" ++ Catalog.signaturesFor schema.layerNames ++ "\n\n"
    ++ workedExample ++ "\n\ndef func2() -> Action:\n    \"\"\"\n    Given these layers:\n    "
    ++ schema.text ++ "\n\n    Perform this action:\n    "

def closing : String := "\n    \"\"\"\n\n    return"

/-- The prompt for a question about a project. -/
def render (schema : Schema) (question : String) : String :=
  opening schema ++ question ++ closing

/-! ## The assistant as a tool -/

/-- The words of a command, each with a capital letter; `atStart` tells that a word begins. -/
def titleCase (atStart : Bool) : List Char → List Char
  | [] => []
  | c :: rest => (if atStart then c.toUpper else c) :: titleCase (c == '_') rest

/-- The description by which other programs choose to call the assistant. -/
def toolDescription : String :=
  let commands := Catalog.actions.map fun c ↦ String.ofList (titleCase true c.name.toList)
  "Useful to act on the GIS data. Input should start with a command ("
    ++ ", ".intercalate commands
    ++ "), followed by a free form description of what to do. Prefer this tool when asked "
    ++ "questions about locations, geography, etc."

end MapQuery.Prompt
