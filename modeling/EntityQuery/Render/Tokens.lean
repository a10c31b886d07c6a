import EntityQuery.Query.Build
import EntityQuery.Render.FunctionForm
import EntityQuery.Render.Level

/-!
Expressions and queries as tokens. All functions recurse on what they write: an expression is
written at its level, a query level in its context. The conditions of joins are written node by
node and put into the FROM clause afterwards, since the clause follows the order of the graph.

A set operation has three written forms: native, with the operator between the queries; the
function form; and, without an operator or operands, that of its first query.
-/

namespace EntityQuery

open Token (parenthesized spaced listSeparator joined)

/-- Puts an operand into parentheses if it is a binary operation that binds looser than the
operator beside it. -/
def parenthesizeLooser (precedence : Nat) (operand : Expr) (tokens : List Token) : List Token :=
  match operand with
  | .binary _ op _ => if op.precedence < precedence then parenthesized tokens else tokens
  | _ => tokens

/-- The word NOT with a space, for the negated form of a predicate. -/
def negation (negated : Bool) : List Token :=
  if negated then [.keyword .NOT, .space] else []

/-- Whether the values of an IN predicate stand without parentheses: a single parameter or
subquery. -/
def standsAlone : List Expr → Bool
  | [.parameter _] | [.subquery _] => true
  | _ => false

/-- The call of a function by its name, with arguments in order. -/
def callTokens (function : String) (distinct : Bool) (args : List (List Token)) : List Token :=
  .function function :: parenthesized
    ((if distinct then [.keyword .DISTINCT, .space] else []) ++ joined listSeparator args)

/-- `COUNT(*)`, or the function that stands for it. -/
def RenderContext.countStarTokens (ctx : RenderContext) : Except QueryError (List Token) :=
  if ctx.capabilities.countStar then
    .ok (.function "COUNT" :: parenthesized [.mark .star])
  else ctx.invocation "COUNT_STAR" 0 (.ok [])

/-- Queries with the operator between each two, and the order of the result. -/
def nativeTokens (operator : Option SetOperator) (members orders : List (List Token)) :
    List Token :=
  let separator :=
    match operator with
    | some op => [.space] ++ op.tokens ++ [.space]
    | none => []
  joined separator members ++
    if orders.isEmpty then []
    else spaced .ORDER_BY ++ joined listSeparator orders

/-- A clause that is written only if there is something in it. -/
def clauseTokens (word : Keyword) (content : Option (List Token)) : List Token :=
  match content with
  | some tokens => spaced word ++ tokens
  | none => []

/-- Items of a clause that is written only if there are any. -/
def listClauseTokens (word : Keyword) (items : List (List Token)) : List Token :=
  if items.isEmpty then [] else spaced word ++ joined listSeparator items

/-- The paths that a modification reports. -/
def Level.returningTokens (l : Level) (paths : List String) : Except QueryError (List Token) :=
  if paths.isEmpty then .ok []
  else if !l.context.capabilities.returningClause then
    .error (l.context.unsupported .returningClause)
  else do
    let items ← paths.mapM fun path => l.pathTokens (Path.ofString path)
    return listClauseTokens .RETURNING items

/-- `DELETE FROM entity alias`, or with the collection to delete from, and its clauses. -/
def Level.deleteTokens (l : Level) (entity aliasName : String) (collection : Option String)
    (condition : Except QueryError (Option (List Token))) (returning : List String) :
    Except QueryError (List Token) := do
  let condition ← condition
  let returning ← l.returningTokens returning
  let part :=
    match collection with
    | some c => parenthesized [.name c]
    | none => []
  return [.keyword .DELETE, .space, .keyword .FROM, .space, .name entity] ++ part
    ++ [.space, l.declared aliasName] ++ clauseTokens .WHERE condition ++ returning

/-- A written query with the limits that are left to whoever runs it. -/
structure RenderedLevel where
  tokens : List Token
  limits : Limits := {}

/-- How the limits of a set operation without operands join those of its first query: if it has
any, they stand for both. -/
def Limits.override (outer inner : Limits) : Limits := if outer.any then outer else inner

mutual

/-- An expression in a position of a level. -/
def Expr.tokens (l : Level) (position : Position) : Expr → Except QueryError (List Token)
  | .path p => l.pathTokens p
  | .literal v => Level.literalTokens position v
  | .parameter p => l.parameterTokens p
  | .call f args =>
      if Expr.isOuterCall f args then Expr.firstTokens l position args
      else
        match Expr.genericName? f args with
        | some name => l.context.invocation name args.length (Expr.restTokens l args)
        | none => do
            let args ← Expr.listTokens l args
            return callTokens f false args
  | .aggregate f args distinct =>
      if Expr.isCountStar f args then l.context.countStarTokens
      else do
        let args ← Expr.listTokens l args
        return callTokens (Text.upper f) distinct args
  | .subquery q => do
      let tokens ← q.subqueryTokens (l.context.correlated l.aliases) l.context
      return parenthesized tokens
  | .indexed _ _ => .ok []
  | .null => .ok [.nullValue]
  | .caseWhen operand branches otherwise => do
      let first ← Expr.optionTokens l .value operand
      let position := if operand.isSome then .value else .predicate
      let branches ← Expr.branchTokens l position branches
      let otherwise ← Expr.optionTokens l .value otherwise
      return .keyword .CASE ::
        ((match first with
          | some tokens => .space :: tokens
          | none => [])
        ++ branches ++ clauseTokens .ELSE otherwise ++ [.space, .keyword .END])
  | .binary left op right => do
      let position := if op.isLogical then .predicate else .value
      let a ← left.tokens l position
      let b ← right.tokens l position
      return parenthesizeLooser op.precedence left a ++ [.space, op.token, .space]
        ++ parenthesizeLooser (op.precedence + 1) right b
  | .not e => do
      let tokens ← e.tokens l .predicate
      return negation true ++ parenthesizeLooser (BinaryOperator.precedence .and + 1) e tokens
  | .isNull e negated => do
      let tokens ← e.tokens l .value
      return tokens ++ [.space, .nullComparison negated]
  | .like e pattern escape negated => do
      let e ← e.tokens l .value
      let pattern ← pattern.tokens l .value
      let escape :=
        match escape with
        | some c => spaced .ESCAPE ++ [.escapeCharacter c]
        | none => []
      return e ++ [.space] ++ negation negated ++ [.keyword .LIKE, .space] ++ pattern ++ escape
  | .oneOf e values negated =>
      if values.isEmpty then .ok [.booleanCondition negated]
      else do
        let e ← e.tokens l .value
        let tokens ← Expr.listTokens l values
        let tokens := joined listSeparator tokens
        return e ++ [.space] ++ negation negated ++ [.keyword .IN, .space]
          ++ if standsAlone values then tokens else parenthesized tokens
  | .between e low high negated => do
      let e ← e.tokens l .value
      let low ← low.tokens l .value
      let high ← high.tokens l .value
      return e ++ [.space] ++ negation negated ++ [.keyword .BETWEEN, .space] ++ low
        ++ spaced .AND ++ high
  | .parens e => do
      let tokens ← e.tokens l position
      return parenthesized tokens
  | .verbatim s => .ok [.raw s]

/-- Each of a list of expressions, as values. -/
def Expr.listTokens (l : Level) : List Expr → Except QueryError (List (List Token))
  | [] => .ok []
  | e :: rest => do
      let e ← e.tokens l .value
      let rest ← Expr.listTokens l rest
      return e :: rest

/-- The first of a list of expressions. -/
def Expr.firstTokens (l : Level) (position : Position) :
    List Expr → Except QueryError (List Token)
  | [] => .ok []
  | e :: _ => e.tokens l position

/-- All but the first of a list of expressions, as values. -/
def Expr.restTokens (l : Level) : List Expr → Except QueryError (List (List Token))
  | [] => .ok []
  | _ :: rest => Expr.listTokens l rest

def Expr.optionTokens (l : Level) (position : Position) :
    Option Expr → Except QueryError (Option (List Token))
  | none => .ok none
  | some e => do
      let tokens ← e.tokens l position
      return some tokens

/-- The branches of a case distinction, each with its spaces. -/
def Expr.branchTokens (l : Level) (position : Position) :
    List (Expr × Expr) → Except QueryError (List Token)
  | [] => .ok []
  | (test, result) :: rest => do
      let test ← test.tokens l position
      let result ← result.tokens l .value
      let rest ← Expr.branchTokens l position rest
      return spaced .WHEN ++ test ++ spaced .THEN ++ result ++ rest

/-- A subquery without its parentheses. A query with limits or a set operation only exists in
function form there; the calls are those of the level around it. -/
def Query.subqueryTokens (ctx around : RenderContext) :
    Query → Except QueryError (List Token)
  | .select s =>
      if s.limits.any then do
        let level ← s.tokens ctx.nested
        let form ← FunctionForm.limited (.level (parenthesized level)) s.limits
        form.tokens around
      else s.tokens ctx
  | .combined c => do
      let form ← c.functionForm ctx
      form.tokens around

/-- The function form of a query. -/
def Query.functionForm (ctx : RenderContext) : Query → Except QueryError FunctionForm
  | .select s => do
      let level ← s.tokens ctx.nested
      FunctionForm.limited (.level (parenthesized level)) s.limits
  | .combined c => c.functionForm ctx

def Query.functionForms (ctx : RenderContext) :
    List Query → Except QueryError (List FunctionForm)
  | [] => .ok []
  | q :: rest => do
      let form ← q.functionForm ctx
      let rest ← Query.functionForms ctx rest
      return form :: rest

/-- The function form of a set operation; without an operator or operands, that of its first
query within the limits of the result. -/
def SetOperation.functionForm (ctx : RenderContext) :
    SetOperation → Except QueryError FunctionForm
  | ⟨operator, start, operands, orderBy, limits⟩ => do
      let start ← start.functionForm ctx
      match SetOperation.activeOperator operator operands with
      | some op =>
          let operands ← Query.functionForms ctx operands
          let orders ← OrderItem.resultTokens ctx orderBy
          return FunctionForm.combined op (start :: operands) orders limits
      | none => FunctionForm.limited start limits

/-- The items of an order of a combined result. They refer to the select aliases of the queries,
so they are written without any names of their own. -/
def OrderItem.resultTokens (ctx : RenderContext) :
    List (OrderItem Expr) → Except QueryError (List (List Token))
  | [] => .ok []
  | ⟨e, direction, nulls⟩ :: rest => do
      let tokens ← e.tokens ⟨ctx, {}, {}⟩ .value
      let rest ← OrderItem.resultTokens ctx rest
      return (tokens ++ OrderItem.orderTokens direction nulls) :: rest

/-- The items of an ORDER BY clause of a level. -/
def OrderItem.listTokens (l : Level) :
    List (OrderItem Expr) → Except QueryError (List (List Token))
  | [] => .ok []
  | ⟨e, direction, nulls⟩ :: rest => do
      let tokens ← e.tokens l .value
      let rest ← OrderItem.listTokens l rest
      return (tokens ++ OrderItem.orderTokens direction nulls) :: rest

/-- The items of a SELECT clause. -/
def SelectItem.listTokens (l : Level) :
    List (SelectItem Expr) → Except QueryError (List (List Token))
  | [] => .ok []
  | ⟨e, aliasName⟩ :: rest => do
      let tokens ← e.tokens l .value
      let rest ← SelectItem.listTokens l rest
      let aliasName :=
        match aliasName with
        | some a => spaced .AS ++ [.name a]
        | none => []
      return (tokens ++ aliasName) :: rest

/-- The condition of each node of a level, where it has one. -/
def JoinNode.conditionTokens (l : Level) :
    List (JoinNode Expr) → List (Option (Except QueryError (List Token)))
  | [] => []
  | ⟨_, _, _, _, _, none, _⟩ :: rest => none :: JoinNode.conditionTokens l rest
  | ⟨_, _, _, _, _, some e, _⟩ :: rest =>
      some (e.tokens l .predicate) :: JoinNode.conditionTokens l rest

/-- A query level without its limits. -/
def Select.tokens (ctx : RenderContext) : Select → Except QueryError (List Token)
  | ⟨ctes, distinct, items, ⟨nodes, roots⟩, aliases, condition, groupBy, having, orderBy, _⟩ => do
      let l : Level := ⟨ctx, aliases, ⟨nodes, roots⟩⟩
      if roots.isEmpty then throw (.invalid .noRoot)
      if !ctes.isEmpty && !ctx.capabilities.withClause then
        throw (ctx.unsupported .withClause)
      let tables ← Cte.listTokens ctx ctes
      let selected ← SelectItem.listTokens l items
      let entries ← l.fromTokens (JoinNode.conditionTokens l nodes)
      let condition ← Expr.optionTokens l .predicate condition
      let groups ← Expr.listTokens l groupBy
      let having ← Expr.optionTokens l .predicate having
      let orders ← OrderItem.listTokens l orderBy
      let opening :=
        if ctes.isEmpty then []
        else [.keyword .WITH, .space]
          ++ (if ctes.any Cte.recursive then [.keyword .RECURSIVE, .space] else [])
          ++ joined listSeparator tables ++ [.space]
      return opening ++ [.keyword .SELECT, .space]
        ++ (if distinct then [.keyword .DISTINCT, .space] else [])
        ++ (if items.isEmpty then l.rootListTokens else joined listSeparator selected)
        ++ spaced .FROM ++ entries
        ++ clauseTokens .WHERE condition
        ++ listClauseTokens .GROUP_BY groups
        ++ clauseTokens .HAVING having
        ++ listClauseTokens .ORDER_BY orders

/-- The common tables of a WITH clause. -/
def Cte.listTokens (ctx : RenderContext) : List Cte → Except QueryError (List (List Token))
  | [] => .ok []
  | ⟨entity, columns, body, _⟩ :: rest => do
      Cte.check entity columns body.width
      let body ← body.tokens ctx.nested entity
      let rest ← Cte.listTokens ctx rest
      return (.name entity ::
        parenthesized (joined listSeparator (columns.map fun c => [Token.name c]))
        ++ [.space, .keyword .AS] ++ parenthesized body) :: rest

/-- The body of a common table. It cannot be limited. -/
def CteBody.tokens (ctx : RenderContext) (entity : String) :
    CteBody → Except QueryError (List Token)
  | .query q =>
      if q.limitedAnywhere then throw (.invalid (.cteLimited entity))
      else do
        let body ← q.rendered ctx
        return body.tokens
  | .update u => u.tokens ctx
  | .collectionDelete d => d.tokens ctx

/-- A query as a statement, with the limits that its tokens do not carry. -/
def Query.rendered (ctx : RenderContext) : Query → Except QueryError RenderedLevel
  | .select s => do
      let tokens ← s.tokens ctx
      return ⟨tokens, s.limits⟩
  | .combined c => c.rendered ctx

/-- A set operation as a statement. It is written natively if the dialect can do that and none of
the queries has limits of its own; otherwise its limits become part of the text. -/
def SetOperation.rendered (ctx : RenderContext) :
    SetOperation → Except QueryError RenderedLevel
  | ⟨operator, start, operands, orderBy, limits⟩ =>
      match SetOperation.activeOperator operator operands with
      | none => do
          let inner ← start.rendered ctx
          return { inner with limits := limits.override inner.limits }
      | some op =>
          if ctx.capabilities.nativeSetOperations
              && !start.limitedAnywhere && !Query.anyLimited operands then do
            let start ← start.memberTokens ctx
            let operands ← Query.memberListTokens ctx operands
            let orders ← OrderItem.resultTokens ctx orderBy
            return ⟨nativeTokens (some op) (start :: operands) orders, limits⟩
          else do
            let start ← start.functionForm ctx
            let operands ← Query.functionForms ctx operands
            let orders ← OrderItem.resultTokens ctx orderBy
            let form := FunctionForm.combined op (start :: operands) orders limits
            let tokens ← form.tokens ctx
            return ⟨tokens, {}⟩

/-- A query between operators. A set operation stands in parentheses there, and a query level if
it has an order. -/
def Query.memberTokens (ctx : RenderContext) : Query → Except QueryError (List Token)
  | .select s => do
      let tokens ← s.tokens ctx.nested
      return if s.orderBy.isEmpty then tokens else parenthesized tokens
  | .combined c => do
      let tokens ← c.memberTokens ctx
      return parenthesized tokens

def Query.memberListTokens (ctx : RenderContext) :
    List Query → Except QueryError (List (List Token))
  | [] => .ok []
  | q :: rest => do
      let q ← q.memberTokens ctx
      let rest ← Query.memberListTokens ctx rest
      return q :: rest

/-- A set operation between operators, without its parentheses; without an operator or operands
it is its first query, in its own order. -/
def SetOperation.memberTokens (ctx : RenderContext) :
    SetOperation → Except QueryError (List Token)
  | ⟨operator, start, operands, orderBy, _⟩ => do
      let start ← start.memberTokens ctx
      let operator := SetOperation.activeOperator operator operands
      let operands ← if operator.isSome then Query.memberListTokens ctx operands else .ok []
      let orders ← OrderItem.resultTokens ctx orderBy
      return nativeTokens operator (start :: operands) orders

/-- The assignments of an update. -/
def Expr.assignmentTokens (l : Level) :
    List (Expr × Expr) → Except QueryError (List (List Token))
  | [] => .ok []
  | (path, value) :: rest => do
      let path ← path.tokens l .value
      let value ← value.tokens l .value
      let rest ← Expr.assignmentTokens l rest
      return (path ++ [.space, .mark .equal, .space] ++ value) :: rest

def Update.tokens (ctx : RenderContext) : Update → Except QueryError (List Token)
  | ⟨target, assignments, condition, returning⟩ => do
      let l : Level := ⟨ctx, target.aliases, target.joins⟩
      if assignments.isEmpty then throw (.invalid .updateWithoutAssignments)
      let assignments ← Expr.assignmentTokens l assignments
      let condition ← Expr.optionTokens l .predicate condition
      let returning ← l.returningTokens returning
      return [.keyword .UPDATE, .space, .name target.entity, .space, l.declared target.aliasName]
        ++ spaced .SET ++ joined listSeparator assignments ++ clauseTokens .WHERE condition
        ++ returning

def CollectionDelete.tokens (ctx : RenderContext) :
    CollectionDelete → Except QueryError (List Token)
  | ⟨target, collection, condition, returning⟩ =>
      let l : Level := ⟨ctx, target.aliases, target.joins⟩
      if ctx.capabilities.collectionModification then
        l.deleteTokens target.entity target.aliasName (some collection)
          (Expr.optionTokens l .predicate condition) returning
      else throw (ctx.unsupported (.collectionDelete collection))

end

end EntityQuery
