import EntityQuery.Token

/-!
Binary operators and how tightly they bind: OR, AND, comparisons, sums, products.
-/

namespace EntityQuery

inductive BinaryOperator where
  | eq
  | ne
  | lt
  | gt
  | le
  | ge
  | and
  | or
  | plus
  | minus
  | times
  | divide
deriving DecidableEq, Repr

namespace BinaryOperator

/-- Whether both operands are predicates. -/
def isLogical : BinaryOperator → Bool
  | .and | .or => true
  | _ => false

/-- A greater number binds tighter. -/
def precedence : BinaryOperator → Nat
  | .or => 1
  | .and => 2
  | .eq | .ne | .lt | .gt | .le | .ge => 3
  | .plus | .minus => 4
  | .times | .divide => 5

def token : BinaryOperator → Token
  | .eq => .mark .equal
  | .ne => .mark .notEqual
  | .lt => .mark .less
  | .gt => .mark .greater
  | .le => .mark .lessOrEqual
  | .ge => .mark .greaterOrEqual
  | .and => .keyword .AND
  | .or => .keyword .OR
  | .plus => .mark .plus
  | .minus => .mark .minus
  | .times => .mark .times
  | .divide => .mark .divide

end BinaryOperator

end EntityQuery
