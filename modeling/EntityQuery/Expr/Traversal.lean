import EntityQuery.Expr.Build

/-!
The expressions inside an expression, and what is done to all of them. A subquery counts as one
expression: what it holds belongs to another query level.
-/

namespace EntityQuery.Expr

/-- The expressions directly inside an expression, as they are written from left to right. -/
def children : Expr → List Expr
  | .path _ | .literal _ | .parameter _ | .subquery _ | .null | .verbatim _ => []
  | .call _ args => args
  | .aggregate _ args _ => args
  | .indexed _ index => [index]
  | .caseWhen operand branches otherwise =>
      operand.toList ++ branches.flatMap (fun b => [b.1, b.2]) ++ otherwise.toList
  | .binary left _ right => [left, right]
  | .not e => [e]
  | .isNull e _ => [e]
  | .like e pattern _ _ => [e, pattern]
  | .oneOf e values _ => e :: values
  | .between e low high _ => [e, low, high]
  | .parens e => [e]

mutual

/-- An expression and all expressions inside it, each before the ones inside it and otherwise
from left to right. -/
def subexpressions : Expr → List Expr
  | .path p => [.path p]
  | .literal v => [.literal v]
  | .parameter p => [.parameter p]
  | .call f args => .call f args :: subexpressionsList args
  | .aggregate f args d => .aggregate f args d :: subexpressionsList args
  | .subquery q => [.subquery q]
  | .indexed base index => .indexed base index :: index.subexpressions
  | .null => [.null]
  | .caseWhen operand branches otherwise =>
      .caseWhen operand branches otherwise ::
        (subexpressionsOption operand ++ subexpressionsPairs branches
          ++ subexpressionsOption otherwise)
  | .binary left op right =>
      .binary left op right :: (left.subexpressions ++ right.subexpressions)
  | .not e => .not e :: e.subexpressions
  | .isNull e negated => .isNull e negated :: e.subexpressions
  | .like e pattern escape negated =>
      .like e pattern escape negated :: (e.subexpressions ++ pattern.subexpressions)
  | .oneOf e values negated =>
      .oneOf e values negated :: (e.subexpressions ++ subexpressionsList values)
  | .between e low high negated =>
      .between e low high negated ::
        (e.subexpressions ++ low.subexpressions ++ high.subexpressions)
  | .parens e => .parens e :: e.subexpressions
  | .verbatim s => [.verbatim s]

def subexpressionsList : List Expr → List Expr
  | [] => []
  | e :: rest => e.subexpressions ++ subexpressionsList rest

def subexpressionsOption : Option Expr → List Expr
  | none => []
  | some e => e.subexpressions

def subexpressionsPairs : List (Expr × Expr) → List Expr
  | [] => []
  | (a, b) :: rest => a.subexpressions ++ b.subexpressions ++ subexpressionsPairs rest

end

mutual

/-- Binds the paths of an expression to the copies of their nodes. Paths of other levels, and
all paths inside subqueries, stay as they are. -/
def rebind (m : Renumbering) : Expr → Expr
  | .path p => .path (p.rebind m)
  | .literal v => .literal v
  | .parameter p => .parameter p
  | .call f args => .call f (rebindList m args)
  | .aggregate f args d => .aggregate f (rebindList m args) d
  | .subquery q => .subquery q
  | .indexed base index => .indexed (base.rebind m) (index.rebind m)
  | .null => .null
  | .caseWhen operand branches otherwise =>
      .caseWhen (rebindOption m operand) (rebindPairs m branches) (rebindOption m otherwise)
  | .binary left op right => .binary (left.rebind m) op (right.rebind m)
  | .not e => .not (e.rebind m)
  | .isNull e negated => .isNull (e.rebind m) negated
  | .like e pattern escape negated => .like (e.rebind m) (pattern.rebind m) escape negated
  | .oneOf e values negated => .oneOf (e.rebind m) (rebindList m values) negated
  | .between e low high negated =>
      .between (e.rebind m) (low.rebind m) (high.rebind m) negated
  | .parens e => .parens (e.rebind m)
  | .verbatim s => .verbatim s

def rebindList (m : Renumbering) : List Expr → List Expr
  | [] => []
  | e :: rest => e.rebind m :: rebindList m rest

def rebindOption (m : Renumbering) : Option Expr → Option Expr
  | none => none
  | some e => some (e.rebind m)

def rebindPairs (m : Renumbering) : List (Expr × Expr) → List (Expr × Expr)
  | [] => []
  | (a, b) :: rest => (a.rebind m, b.rebind m) :: rebindPairs m rest

end

end EntityQuery.Expr
