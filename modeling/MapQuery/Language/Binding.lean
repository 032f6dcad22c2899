import MapQuery.Language.Diagnostic

/-!
# Arguments and parameters

The values of a call's arguments are put into slots, one for each parameter. Arguments without a
keyword fill the slots from the left; one with a keyword goes to the slot of the parameter of that
name, which must be empty. A variadic constructor has as many slots as it is given arguments without
keyword, if these are more than its parameters. At the end no slot may be empty.

The values are then compared with the types of the parameters, and the constructor builds its node.
-/

namespace MapQuery

/-- What an expression evaluates to. The value of an action is that there is none: it has been
recorded. -/
inductive Value where
  | layer (layer : Layer)
  | literal (literal : Literal)
  | none
deriving DecidableEq

def Value.typeName : Value → String
  | layer _ => "Layer"
  | literal (.text _) => "str"
  | literal (.integer _) => "int"
  | literal (.float _) => "float"
  | literal (.boolean _) => "bool"
  | none => "None"

/-- A value that can be an operand of a constructor. -/
inductive Operand where
  | layer (layer : Layer)
  | literal (literal : Literal)
deriving DecidableEq

/-! ## Types -/

/-- Whether a literal has the type. An integer may stand for a float. -/
def LiteralType.accepts : LiteralType → Literal → Bool
  | text, .text _ => true
  | float, .float _ => true
  | float, .integer _ => true
  | integer, .integer _ => true
  | boolean, .boolean _ => true
  | _, _ => false

/-- The value as an operand, if it has the type of the parameter. -/
def ParameterType.accept? : ParameterType → Value → Option Operand
  | layer, .layer l => some (.layer l)
  | literal types, .literal value =>
    if types.any (·.accepts value) then some (.literal value) else none
  | _, _ => none

namespace Constructor

/-! ## Binding -/

/-- The position of the parameter with the given name. -/
def parameterIndex? (c : Constructor) (name : String) : Option Nat :=
  c.parameters.findIdx? (·.name = name)

/-- The parameter that belongs to a slot: the last one also to the slots beyond it. -/
def parameterAt? (c : Constructor) (slot : Nat) : Option Parameter :=
  c.parameters[min slot (c.parameters.length - 1)]?

/-- The number of slots for a list of arguments. -/
def capacity (c : Constructor) (arguments : List (Option String × Value)) : Nat :=
  if c.isVariadic then max c.parameters.length (arguments.countP (·.1.isNone))
  else c.parameters.length

/-- Puts arguments into slots; `next` is the slot of the next argument without keyword. Such an
argument goes into its slot whatever is there, and only an argument with a keyword asks whether its
slot is empty. -/
def fill (c : Constructor) (next : Nat) (slots : List (Option Value)) :
    List (Option String × Value) → Except ArgumentProblem (List (Option Value))
  | [] => .ok slots
  | (.none, value) :: rest =>
    if next < slots.length then c.fill (next + 1) (slots.set next (some value)) rest
    else .error (.tooMany c.parameters.length)
  | (.some keyword, value) :: rest =>
    match c.parameterIndex? keyword with
    | .none => .error (.unexpectedKeyword keyword)
    | .some slot =>
      match slots[slot]? with
      | .some (.some _) => .error (.repeated keyword)
      | _ => c.fill next (slots.set slot (some value)) rest

/-- The values in the slots, if every slot from number `first` on has one. -/
def collect (c : Constructor) (first : Nat) :
    List (Option Value) → Except ArgumentProblem (List Value)
  | [] => .ok []
  | .some value :: rest => (value :: ·) <$> c.collect (first + 1) rest
  | .none :: _ => .error (.missing (((c.parameterAt? first).map (·.name)).getD ""))

/-- Gives arguments to parameters: the list of values, in the order of the parameters. -/
def bind (c : Constructor) (arguments : List (Option String × Value)) :
    Except ArgumentProblem (List Value) := do
  let slots ← c.fill 0 (List.replicate (c.capacity arguments) .none) arguments
  c.collect 0 slots

/-! ## Type checks -/

/-- Compares values with the types of their parameters, the first one being in slot `first`. -/
def accept (c : Constructor) (line first : Nat) : List Value → Except CompileError (List Operand)
  | [] => .ok []
  | value :: rest =>
    match c.parameterAt? first with
    | .none => .error (.arguments line c.name .unexpectedShape)
    | .some parameter =>
      match parameter.type.accept? value with
      | .none => .error (.type line c.name parameter.name parameter.type value.typeName)
      | .some operand => (operand :: ·) <$> c.accept line (first + 1) rest

/-! ## Building -/

def layers? : List Operand → Option (List Layer)
  | [] => some []
  | .layer layer :: rest => (layer :: ·) <$> layers? rest
  | .literal _ :: _ => .none

/-- The node that a constructor builds: a layer or an action. -/
def build (c : Constructor) (operands : List Operand) :
    Except ArgumentProblem (Layer ⊕ Action) :=
  match c.node, operands with
  | .source, [.literal (.text id)] => .ok (.inl (.source id))
  | .filtered, [.layer layer, .literal (.text field), .literal value] =>
    .ok (.inl (.filtered layer field value))
  | .buffered, [.layer layer, .literal (.integer distance)] =>
    .ok (.inl (.buffered layer (Float.ofInt distance.toInt)))
  | .buffered, [.layer layer, .literal (.float distance)] =>
    .ok (.inl (.buffered layer distance))
  | .combined .union, operands =>
    match layers? operands with
    | .none => .error .unexpectedShape
    | .some layers =>
      match Layer.unionAll? layers with
      | .none => .error .tooFewLayers
      | .some layer => .ok (.inl layer)
  | .combined overlay, [.layer a, .layer b] => .ok (.inl (.combined overlay a b))
  | .action verb, [.layer layer] => .ok (.inr ⟨verb, layer⟩)
  | _, _ => .error .unexpectedShape

end Constructor

end MapQuery
