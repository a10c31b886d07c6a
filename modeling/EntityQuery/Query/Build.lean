import EntityQuery.Expr.Build

/-!
Queries and modifications as they are put together: one function per clause. A function that
may fail answers an error and leaves the query it was given as it is.
-/

namespace EntityQuery

namespace Select

/-- A query level over all rows of an entity. -/
def addRoot (s : Select) (entity aliasName : String) : Select :=
  let (node, joins) := s.joins.addRoot entity aliasName
  { s with joins := joins, aliases := s.aliases.insertJoin aliasName node false }

/-- A further FROM entry that starts from a path of the enclosing query. -/
def correlate (s : Select) (path aliasName : String) : Select :=
  let (node, joins) := s.joins.correlate path aliasName
  { s with joins := joins, aliases := s.aliases.insertJoin aliasName node false }

/-- Takes over a graph with a new node, and names the node. -/
def named (s : Select) (aliasName : String) (added : NodeId × JoinGraph Expr) : NodeId × Select :=
  (added.1, { s with
    joins := added.2
    aliases := s.aliases.insertJoin aliasName added.1 false })

/-- Joins `path`, which is a join alias and after its first dot an attribute. -/
def join (s : Select) (path aliasName : String) (relation : Relation) (type : JoinType) :
    Except QueryError (NodeId × Select) := do
  let attr ←
    match Dotted.rest? path with
    | some attr => pure attr
    | none => throw (.invalid (.joinPathWithoutAttribute path))
  let parent ← s.aliases.requireJoin (Dotted.head path)
  return s.named aliasName (← s.joins.join parent attr aliasName relation type)

/-- A left join whose rows are loaded with the query. -/
def joinFetch (s : Select) (path aliasName : String) (relation : Relation) :
    Except QueryError (NodeId × Select) := do
  let (node, s) ← s.join path aliasName relation .left
  return (node, { s with joins := s.joins.modify node fun n => { n with fetch := true } })

/-- Joins an unrelated entity or a common table by a condition. -/
def joinEntity (s : Select) (parent entity aliasName : String) (type : JoinType)
    (condition : Expr) : Except QueryError (NodeId × Select) := do
  let parent ← s.aliases.requireJoin parent
  return s.named aliasName (← s.joins.joinEntity parent entity aliasName type condition)

/-- Joins every row of an entity. -/
def crossJoin (s : Select) (parent entity aliasName : String) :
    Except QueryError (NodeId × Select) := do
  let parent ← s.aliases.requireJoin parent
  return s.named aliasName (← s.joins.crossJoin parent entity aliasName)

/-- Adds a condition to a node, besides the conditions it has. -/
def on (s : Select) (node : NodeId) (condition : Expr) : Except QueryError Select := do
  let _ ← s.joins.require node
  return { s with
    joins := s.joins.modify node fun n =>
      { n with condition := some (Expr.conjoin n.condition condition) } }

/-- A path from the join node of an alias. -/
def aliasPath (s : Select) (aliasName : String) (field : Option String) : Except QueryError Expr :=
  return Expr.bound (← s.aliases.requireJoin aliasName) aliasName field

/-- Selects an expression. With an alias, the alias names it from then on. -/
def select (s : Select) (expr : Expr) (aliasName : Option String) : Select :=
  { s with
    items := s.items ++ [⟨expr, aliasName⟩]
    aliases :=
      match aliasName with
      | some a => s.aliases.insertSelect a expr
      | none => s.aliases }

def filter (s : Select) (condition : Expr) : Select :=
  { s with condition := some (Expr.conjoin s.condition condition) }

def filterGroups (s : Select) (condition : Expr) : Select :=
  { s with having := some (Expr.conjoin s.having condition) }

def group (s : Select) (exprs : List Expr) : Select := { s with groupBy := s.groupBy ++ exprs }

def order (s : Select) (items : List (OrderItem Expr)) : Select :=
  { s with orderBy := s.orderBy ++ items }

def take (s : Select) (n : UInt64) : Select :=
  { s with limits := { s.limits with max := some n } }

def drop (s : Select) (n : UInt64) : Select :=
  { s with limits := { s.limits with first := some n } }

def withCte (s : Select) (cte : Cte) : Select := { s with ctes := s.ctes ++ [cte] }

end Select

namespace SetOperation

/-- The queries that are combined, from left to right. -/
def members (c : SetOperation) : List Query := c.start :: c.operands

/-- Whether anything is combined with the first query. -/
def combines (c : SetOperation) : Bool := !c.operands.isEmpty

/-- The operator, if there is one and it has operands. -/
def activeOperator (operator : Option SetOperator) (operands : List Query) :
    Option SetOperator :=
  if operands.isEmpty then none else operator

/-- Whether the combined result has an order or limits of its own. -/
def hasModifiers (c : SetOperation) : Bool := !c.orderBy.isEmpty || c.limits.any

def push (c : SetOperation) (operand : Query) : SetOperation :=
  { c with operands := c.operands ++ [operand] }

end SetOperation

namespace Query

def limits : Query → Limits
  | .select s => s.limits
  | .combined c => c.limits

/-- Combines two queries. A chain of the same operator is made longer, unless its result has an
order or limits of its own; any other query becomes the first of a new chain. -/
def combine (q : Query) (operator : SetOperator) (other : Query) : Query :=
  match q with
  | .combined c =>
      if c.operator = some operator ∧ !c.hasModifiers then .combined (c.push other)
      else .combined { operator := some operator, start := q, operands := [other] }
  | .select _ => .combined { operator := some operator, start := q, operands := [other] }

def order (q : Query) (items : List (OrderItem Expr)) : Query :=
  match q with
  | .select s => .select (s.order items)
  | .combined c => .combined { c with orderBy := c.orderBy ++ items }

def take (q : Query) (n : UInt64) : Query :=
  match q with
  | .select s => .select (s.take n)
  | .combined c => .combined { c with limits := { c.limits with max := some n } }

def drop (q : Query) (n : UInt64) : Query :=
  match q with
  | .select s => .select (s.drop n)
  | .combined c => .combined { c with limits := { c.limits with first := some n } }

end Query

namespace Update

def ofEntity (entity aliasName : String) : Update := { target := Target.ofEntity entity aliasName }

def set (u : Update) (path : String) (value : Expr) : Update :=
  { u with assignments := u.assignments ++ [(Expr.ofPath path, value)] }

def filter (u : Update) (condition : Expr) : Update :=
  { u with condition := some (Expr.conjoin u.condition condition) }

def report (u : Update) (paths : List String) : Update :=
  { u with returning := u.returning ++ paths }

end Update

namespace Delete

def ofEntity (entity aliasName : String) : Delete := { target := Target.ofEntity entity aliasName }

def filter (d : Delete) (condition : Expr) : Delete :=
  { d with condition := some (Expr.conjoin d.condition condition) }

def report (d : Delete) (paths : List String) : Delete :=
  { d with returning := d.returning ++ paths }

end Delete

namespace CollectionDelete

def ofEntity (entity aliasName collection : String) : CollectionDelete :=
  { target := Target.ofEntity entity aliasName, collection := collection }

def filter (d : CollectionDelete) (condition : Expr) : CollectionDelete :=
  { d with condition := some (Expr.conjoin d.condition condition) }

def report (d : CollectionDelete) (paths : List String) : CollectionDelete :=
  { d with returning := d.returning ++ paths }

end CollectionDelete

mutual

/-- The number of values in a row of a query, as far as its select list says: that of its
first level. -/
def Query.width : Query → Nat
  | .select s => s.items.length
  | .combined c => c.width

def SetOperation.width : SetOperation → Nat
  | ⟨_, start, _, _, _⟩ => start.width

end

mutual

/-- Whether a query, or any query that it combines, has limits. -/
def Query.limitedAnywhere : Query → Bool
  | .select s => s.limits.any
  | .combined c => c.limitedAnywhere

def Query.anyLimited : List Query → Bool
  | [] => false
  | q :: rest => q.limitedAnywhere || Query.anyLimited rest

def SetOperation.limitedAnywhere : SetOperation → Bool
  | ⟨_, start, operands, _, limits⟩ =>
      limits.any || start.limitedAnywhere || Query.anyLimited operands

end

namespace CteBody

/-- The number of values in a row of the body. -/
def width : CteBody → Nat
  | query q => q.width
  | update u => u.returning.length
  | collectionDelete d => d.returning.length

end CteBody

namespace Cte

/-- A common table has columns, and its body as many values as it has columns. -/
def check (entity : String) (columns : List String) (width : Nat) : Except QueryError Unit :=
  if columns.isEmpty then .error (.invalid (.cteWithoutAttributes entity))
  else if width ≠ columns.length then
    .error (.invalid (.cteWidth entity columns.length width))
  else .ok ()

def validate (c : Cte) : Except QueryError Unit := check c.entity c.columns c.body.width

end Cte

end EntityQuery
