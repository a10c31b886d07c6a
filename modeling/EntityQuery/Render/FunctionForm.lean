import EntityQuery.Expr.Build
import EntityQuery.Render.Context

/-!
The function form of a query. Where a dialect has no words for a limit or a set operation, the
query becomes the call of a function: `LIMIT` with the query and the limits, or the marker of the
operator with the queries and the modifiers of the result.
-/

namespace EntityQuery

/-- A query as the argument of a function. -/
inductive FunctionForm where
  /-- A query level, in parentheses. -/
  | level (tokens : List Token)
  /-- A word that says what the arguments after it are. -/
  | word (text : String)
  /-- An item of an order, as the text that would be written. -/
  | order (tokens : List Token)
  /-- A limit. It is passed as the signed integer with the same bits. -/
  | number (value : UInt64)
  | call (function : String) (args : List FunctionForm)

namespace FunctionForm

/-- The function form of a query with limits; an unlimited query stands as it is. There is no
way to skip rows without taking a number of them. -/
def limited (form : FunctionForm) (limits : Limits) : Except QueryError FunctionForm :=
  match limits.max, limits.first with
  | none, none => .ok form
  | none, some _ => .error (.invalid .offsetWithoutLimit)
  | some max, none => .ok (.call "LIMIT" [form, .number max])
  | some max, some first => .ok (.call "LIMIT" [form, .number max, .number first])

/-- The arguments that carry the limits of a combined result. -/
def limitArguments (limits : Limits) : List FunctionForm :=
  (match limits.max with
    | some max => [word "LIMIT", number max]
    | none => [])
    ++ match limits.first with
      | some first => [word "OFFSET", number first]
      | none => []

/-- The arguments that carry the order of a combined result. -/
def orderArguments (orders : List (List Token)) : List FunctionForm :=
  if orders.isEmpty then [] else word "ORDER_BY" :: orders.map order

/-- The function form of combined queries. -/
def combined (operator : SetOperator) (members : List FunctionForm)
    (orders : List (List Token)) (limits : Limits) : FunctionForm :=
  call operator.marker (members ++ orderArguments orders ++ limitArguments limits)

mutual

/-- The tokens of a function form. -/
def tokens (ctx : RenderContext) : FunctionForm → Except QueryError (List Token)
  | level ts => .ok ts
  | word s => .ok [.string s]
  | order ts => .ok [.quoted ts]
  | number n => .ok [.integer n.toInt64]
  | call f args => ctx.invocation f (args.length + 1) (tokensList ctx args)

def tokensList (ctx : RenderContext) : List FunctionForm → Except QueryError (List (List Token))
  | [] => .ok []
  | form :: rest => do
      let form ← form.tokens ctx
      let rest ← tokensList ctx rest
      return form :: rest

end

mutual

/-- The expression that a function form stands for: query levels become text of the dialect. -/
def toExpr (d : Dialect) : FunctionForm → Expr
  | level ts => .verbatim (tokensText d ts)
  | word s => Expr.string s
  | order ts => Expr.string (tokensText d ts)
  | number n => Expr.int n.toInt64
  | call f args => Expr.generic f (toExprList d args)

def toExprList (d : Dialect) : List FunctionForm → List Expr
  | [] => []
  | form :: rest => form.toExpr d :: toExprList d rest

end

end FunctionForm

end EntityQuery
