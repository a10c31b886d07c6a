import EntityQuery.Number.Double

/-!
Values that stand in a query as they are: literals, and parameters with the values bound to
them.
-/

namespace EntityQuery

inductive Literal where
  | int (value : Int64)
  | float (value : Double)
  | string (value : String)
  | bool (value : Bool)
deriving DecidableEq, Repr

/-- The value bound to a parameter. -/
inductive ParameterValue where
  | scalar (value : Literal)
  | list (values : List Literal)
deriving DecidableEq, Repr

/-- A parameter. Only a named one can be written. -/
structure Parameter where
  name : Option String := none
  value : Option ParameterValue := none
deriving DecidableEq, Repr

namespace Literal

/-- Equality of the values; floats are compared as numbers. -/
def agrees : Literal → Literal → Bool
  | int a, int b => a == b
  | float a, float b => a.agrees b
  | string a, string b => a == b
  | bool a, bool b => a == b
  | _, _ => false

/-- Equality of lists of values, place by place. -/
def listAgrees : List Literal → List Literal → Bool
  | [], [] => true
  | a :: as, b :: bs => a.agrees b && listAgrees as bs
  | _, _ => false

end Literal

namespace ParameterValue

/-- Whether more than one value is bound. -/
def isMultiple : ParameterValue → Bool
  | scalar _ => false
  | list values => 1 < values.length

def agrees : ParameterValue → ParameterValue → Bool
  | scalar a, scalar b => a.agrees b
  | list a, list b => Literal.listAgrees a b
  | _, _ => false

end ParameterValue

namespace Parameter

def isMultiple (p : Parameter) : Bool := p.value.any ParameterValue.isMultiple

def agrees (p q : Parameter) : Bool :=
  p.name == q.name &&
    match p.value, q.value with
    | none, none => true
    | some a, some b => a.agrees b
    | _, _ => false

end Parameter

end EntityQuery
