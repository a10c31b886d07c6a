import EntityQuery.Render.Context

/-!
What is written of one query level with nothing but its names and joins at hand: paths, values,
and the FROM clause once the conditions of its joins are written.
-/

namespace EntityQuery

/-- Whether an expression stands where a value or where a predicate is expected. -/
inductive Position where
  | value
  | predicate
deriving DecidableEq, Repr

/-- One query level: its names, its joins, and the context that it is written in. -/
structure Level where
  context : RenderContext
  aliases : AliasTable Expr
  joins : JoinGraph Expr

/-- Where a chain of select aliases leads. -/
inductive ChainEnd where
  /-- A path that is not itself replaced. -/
  | path (path : Path)
  /-- An alias that leads back to itself. -/
  | cycle (aliasName : String)
deriving DecidableEq, Repr

namespace AliasTable

/-- The path that a path is replaced by: that of the select alias that it consists of. -/
def replacement? (t : AliasTable Expr) (p : Path) : Option Path :=
  if p.base.isNone && p.isSingle then
    match t.find? p.head with
    | some (.select _ (.path target)) => some target
    | _ => none
  else none

/-- Follows select aliases from a path, with the aliases that have been passed. Every step
passes another alias of the table, so the number of entries bounds the steps. -/
def followChain (t : AliasTable Expr) : Nat → List String → Path → ChainEnd
  | 0, _, p => .path p
  | steps + 1, passed, p =>
      match t.replacement? p with
      | none => .path p
      | some target =>
          if passed.contains p.head then .cycle p.head
          else t.followChain steps (p.head :: passed) target

/-- Where the chain of select aliases that starts with a path leads. -/
def chainEnd (t : AliasTable Expr) (p : Path) : ChainEnd :=
  t.followChain (t.entries.length + 1) [] p

end AliasTable

namespace Level

/-- A path from a join node. The value side of a map is unwrapped if the dialect has a function
for that and the path is not already the argument of one. -/
def nodeTokens (l : Level) (node : NodeId) (field : Option String) (p : Path) :
    Except QueryError (List Token) :=
  match l.joins.node? node with
  | none => .error (.unresolved (.pathNode p.text node))
  | some n =>
      let aliasName := l.context.prefixTokens ++ [.name n.aliasName]
      let owner :=
        match l.context.capabilities.mapValueFunction with
        | some function =>
            if l.joins.isMapValue node && !p.keySide && !p.inCollectionFunction then
              .function function :: Token.parenthesized aliasName
            else aliasName
        | none => aliasName
      .ok (owner ++
        match field with
        | some f => [Token.dot, .name f]
        | none => [])

/-- A path at the end of its chain. A name that this level does not know may be one of the
outermost level, and then carries its prefix. -/
def resolvedTokens (l : Level) (p : Path) : Except QueryError (List Token) :=
  match p.base with
  | some node => l.nodeTokens node p.field p
  | none =>
      match l.aliases.find? p.head with
      | some (.join _ node _) => l.nodeTokens node p.tail? p
      | some (.select ..) => .ok [.name p.text]
      | none => .ok (l.context.outerPrefixTokens p.head ++ [.name p.text])

/-- A path. Select aliases that name paths are followed if the options say so. -/
def pathTokens (l : Level) (p : Path) : Except QueryError (List Token) :=
  if l.context.options.inlineAliases then
    match l.aliases.chainEnd p with
    | .path target => l.resolvedTokens target
    | .cycle aliasName => .ok [.name aliasName]
  else l.resolvedTokens p

/-- A literal. A truth value is spelled by its position. -/
def literalTokens (position : Position) : Literal → Except QueryError (List Token)
  | .int n => .ok [.integer n]
  | .float x =>
      if x.isFinite then .ok [.float x] else .error (.invalid (.nonFiniteLiteral x))
  | .string s => .ok [.string s]
  | .bool b =>
      match position with
      | .value => .ok [.booleanValue b]
      | .predicate => .ok [.booleanCondition b]

/-- A parameter, in parentheses if it holds several values and the dialect wants them. -/
def parameterTokens (l : Level) (p : Parameter) : Except QueryError (List Token) :=
  match p.name with
  | none => .error (.unresolved .parameterName)
  | some name =>
      if l.context.capabilities.listParameterParentheses && p.isMultiple then
        .ok (Token.parenthesized [.parameter name])
      else .ok [.parameter name]

/-- An alias where it is declared. -/
def declared (l : Level) (aliasName : String) : Token := .name (l.context.declaredAlias aliasName)

/-- The first entry of a FROM clause, from a root. -/
def rootTokens (l : Level) (id : NodeId) : Except QueryError (List Token) := do
  let n ← l.joins.require id
  let source ←
    match n.source with
    | .root entity => pure [Token.name entity]
    | .correlated path => pure (l.context.outerPrefixTokens path ++ [.name path])
    | .ofAttribute _ _ | .ofEntity _ => throw (.invalid (.joinWithoutParent n.aliasName))
  return source ++ [.space, l.declared n.aliasName]

/-- What a join keyword joins: an attribute of the parent, or an entity. -/
def joinedTokens (l : Level) (n : JoinNode Expr) : Except QueryError (List Token) :=
  match n.source with
  | .ofAttribute attr _ =>
      match n.parent.bind l.joins.node? with
      | some parent => .ok [l.declared parent.aliasName, Token.dot, .name attr]
      | none => .error (.unresolved (.parentNode n.aliasName))
  | .ofEntity entity => .ok [.name entity]
  | .root _ | .correlated _ => .error (.invalid (.rootWithParent n.aliasName))

/-- `, entity alias`. A cross join has no condition and follows no attribute. -/
def crossJoinTokens (l : Level) (n : JoinNode Expr) : Except QueryError (List Token) :=
  match n.source with
  | .ofEntity entity =>
      if n.condition.isSome then .error (.invalid (.crossJoinWithCondition n.aliasName))
      else .ok (Token.listSeparator ++ [.name entity, .space, l.declared n.aliasName])
  | _ => .error (.invalid (.crossJoinOfAttribute n.aliasName))

/-- Whether a node joins an entity by a condition alone. -/
def joinsEntity (n : JoinNode Expr) : Bool :=
  match n.source with
  | .ofEntity _ => true
  | _ => false

/-- A join under a root, with its condition as it was written. -/
def joinTokens (l : Level) (id : NodeId)
    (condition : Option (Except QueryError (List Token))) : Except QueryError (List Token) := do
  let n ← l.joins.require id
  match n.type.getD .inner with
  | .cross => l.crossJoinTokens n
  | type =>
      if joinsEntity n && !l.context.capabilities.entityJoins then
        throw (l.context.unsupported (.entityJoin n.aliasName))
      let words := if type = .left then [Token.space, .keyword .LEFT] else []
      let fetch := if n.fetch then [Token.space, .keyword .FETCH] else []
      let joined ← l.joinedTokens n
      let condition ←
        match condition with
        | some written => do
            let written ← written
            pure ([Token.space, .conditionKeyword, .space] ++ written)
        | none => pure []
      return words ++ [.space, .keyword .JOIN] ++ fetch ++ [.space] ++ joined ++
        [.space, l.declared n.aliasName] ++ condition

/-- The joins below a root, one after another. -/
def joinListTokens (l : Level) (conditions : List (Option (Except QueryError (List Token)))) :
    List NodeId → Except QueryError (List Token)
  | [] => .ok []
  | id :: rest => do
      let join ← l.joinTokens id (conditions[id]?.join)
      let rest ← l.joinListTokens conditions rest
      return join ++ rest

/-- One entry of the FROM clause: a root and everything under it. -/
def entryTokens (l : Level) (conditions : List (Option (Except QueryError (List Token))))
    (root : NodeId) : Except QueryError (List Token) := do
  match l.joins.subtree root with
  | [] => return []
  | first :: below =>
      let root ← l.rootTokens first
      let joins ← l.joinListTokens conditions below
      return root ++ joins

/-- The FROM clause, given the conditions of the nodes by their positions. -/
def fromTokens (l : Level) (conditions : List (Option (Except QueryError (List Token)))) :
    Except QueryError (List Token) := do
  let entries ← l.joins.roots.mapM (l.entryTokens conditions)
  return Token.joined Token.listSeparator entries

/-- The select list of a query that lists nothing: its roots. -/
def rootListTokens (l : Level) : List Token :=
  Token.joined Token.listSeparator (l.joins.roots.map fun root =>
    match l.joins.node? root with
    | some n => [l.declared n.aliasName]
    | none => [])

end Level

end EntityQuery
