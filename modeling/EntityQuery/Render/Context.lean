import EntityQuery.FunctionRegistry
import EntityQuery.Query.Basic

/-!
What the writing of a query depends on besides the query: the dialect, the registered functions,
the options, and, inside a subquery, which aliases of the outermost level carry a prefix.
-/

namespace EntityQuery

structure RenderOptions where
  /-- Whether a reference to a select alias that names a path is replaced by the path. -/
  inlineAliases : Bool := true
  /-- Put before every join alias of the outermost level. -/
  aliasPrefix : Option String := none
deriving DecidableEq, Repr, Inhabited

/-- The join aliases of an enclosing level that is written with a prefix. -/
structure OuterScope where
  aliasPrefix : String
  aliases : List String
deriving DecidableEq, Repr

structure RenderContext where
  dialect : Dialect
  functions : FunctionRegistry := {}
  options : RenderOptions := {}
  outer : Option OuterScope := none

namespace RenderContext

def capabilities (ctx : RenderContext) : Capabilities := ctx.dialect.capabilities

/-- The error for a shape that the dialect cannot say. -/
def unsupported (ctx : RenderContext) (shape : UnsupportedShape) : QueryError :=
  .unsupported ctx.dialect shape

/-- The context of an embedded level. The prefix belongs to the outermost level only. -/
def nested (ctx : RenderContext) : RenderContext :=
  { ctx with options := { ctx.options with aliasPrefix := none } }

/-- The context of a subquery of the level with the given aliases. What the subquery says about
the join aliases of that level keeps the prefix of the level. -/
def correlated (ctx : RenderContext) (aliases : AliasTable Expr) : RenderContext :=
  match ctx.options.aliasPrefix with
  | some p => { ctx.nested with outer := some ⟨p, aliases.joinAliases⟩ }
  | none => ctx.nested

/-- The prefix of this level as tokens. -/
def prefixTokens (ctx : RenderContext) : List Token :=
  match ctx.options.aliasPrefix with
  | some p => [.raw p]
  | none => []

/-- An alias where it is declared. -/
def declaredAlias (ctx : RenderContext) (aliasName : String) : String :=
  match ctx.options.aliasPrefix with
  | some p => p ++ aliasName
  | none => aliasName

/-- The prefix of the enclosing level as tokens, if a text starts with one of its aliases. -/
def outerPrefixTokens (ctx : RenderContext) (path : String) : List Token :=
  match ctx.outer with
  | some scope =>
      if scope.aliases.contains (Dotted.head path) then [.raw scope.aliasPrefix] else []
  | none => []

/-- The call of a function by its name: as the dialect calls registered functions if it is
registered, else in the generic form, if the dialect has one. The number counts the name and the
arguments. The arguments may have failed to be written; then so does the call, unless the function
is out of reach anyway. -/
def invocation (ctx : RenderContext) (name : String) (count : Nat)
    (args : Except QueryError (List (List Token))) : Except QueryError (List Token) :=
  if ctx.functions.contains name then do
    let args ← args
    return .raw (ctx.capabilities.invocation name count) ::
      (Token.joined [Token.comma] args ++ [.mark .closeParen])
  else if ctx.capabilities.genericFunctions then do
    let args ← args
    return .function "FUNCTION" ::
      Token.parenthesized (Token.joined [Token.comma] ([.string name] :: args))
  else
    throw (ctx.unsupported (.function name))

end RenderContext

end EntityQuery
