import EntityQuery.Query.Parameters
import EntityQuery.Render.Tokens

/-!
Statements as text: the text in a dialect, and what has to be known to run it.
-/

namespace EntityQuery

/-- Query text, and what has to be known to run it. -/
structure RenderedQuery where
  text : String
  /-- The names of the parameters, in the order of first mention. -/
  parameters : List String := []
  /-- The limits to be applied to the result; they are no part of the text. -/
  limits : Limits := {}
  /-- The paths that a modification reports back. -/
  returning : List String := []
deriving DecidableEq, Repr

def Delete.tokens (ctx : RenderContext) (d : Delete) : Except QueryError (List Token) :=
  let l : Level := ⟨ctx, d.target.aliases, d.target.joins⟩
  l.deleteTokens d.target.entity d.target.aliasName none
    (Expr.optionTokens l .predicate d.condition) d.returning

namespace Statement

/-- The tokens of a statement, and the limits that they do not carry. -/
def rendered (ctx : RenderContext) : Statement → Except QueryError RenderedLevel
  | select q => q.rendered ctx
  | update u => do
      let tokens ← u.tokens ctx
      return ⟨tokens, {}⟩
  | delete d => do
      let tokens ← d.tokens ctx
      return ⟨tokens, {}⟩
  | collectionDelete d => do
      let tokens ← d.tokens ctx
      return ⟨tokens, {}⟩

/-- The paths that a statement reports back. -/
def returning : Statement → List String
  | select _ => []
  | update u => u.returning
  | delete d => d.returning
  | collectionDelete d => d.returning

/-- A statement as query text of the dialect. -/
def render (ctx : RenderContext) (s : Statement) : Except QueryError RenderedQuery := do
  let level ← s.rendered ctx
  return {
    text := tokensText ctx.dialect level.tokens
    parameters := s.parameters
    limits := level.limits
    returning := s.returning }

end Statement

namespace Level

/-- The text of an expression of a level. -/
def text (l : Level) (position : Position) (e : Expr) : Except QueryError String := do
  let tokens ← e.tokens l position
  return tokensText l.context.dialect tokens

end Level

namespace Query

/-- The function form of a query, as an expression. -/
def asExpression (ctx : RenderContext) (q : Query) : Except QueryError Expr := do
  let form ← q.functionForm ctx
  return form.toExpr ctx.dialect

end Query

end EntityQuery
