import EntityQuery.Expr.Path
import EntityQuery.Expr.Value
import EntityQuery.Expr.Operator
import EntityQuery.Query.Clause

/-!
Expressions and queries. Expressions hold subqueries, queries hold expressions, and a query may
open with common tables whose rows come from queries or from modifications; so all of them are
one family of types. `Statement` is what can be written on its own.
-/

namespace EntityQuery

mutual

inductive Expr where
  | path (path : Path)
  | literal (value : Literal)
  | parameter (parameter : Parameter)
  | call (function : String) (args : List Expr)
  /-- An aggregate of the rows of a group; without arguments, `COUNT` counts rows. -/
  | aggregate (function : String) (args : List Expr) (distinct : Bool)
  | subquery (query : Query)
  /-- An element of a collection. It stands for a join and is never written itself. -/
  | indexed (base : Path) (index : Expr)
  | null
  | caseWhen (operand : Option Expr) (branches : List (Expr × Expr)) (otherwise : Option Expr)
  | binary (left : Expr) (op : BinaryOperator) (right : Expr)
  | not (operand : Expr)
  | isNull (operand : Expr) (negated : Bool)
  | like (operand pattern : Expr) (escape : Option Char) (negated : Bool)
  | oneOf (operand : Expr) (values : List Expr) (negated : Bool)
  | between (operand low high : Expr) (negated : Bool)
  | parens (inner : Expr)
  /-- Query text that stands as it is. -/
  | verbatim (text : String)

/-- A query that yields rows: one level, or several combined. -/
inductive Query where
  | select (select : Select)
  | combined (operation : SetOperation)

/-- One query level. -/
structure Select where
  ctes : List Cte := []
  distinct : Bool := false
  items : List (SelectItem Expr) := []
  joins : JoinGraph Expr := {}
  aliases : AliasTable Expr := {}
  condition : Option Expr := none
  groupBy : List Expr := []
  having : Option Expr := none
  orderBy : List (OrderItem Expr) := []
  limits : Limits := {}

/-- Queries combined from left to right by one operator. Order and limits are those of the
combined result. -/
structure SetOperation where
  operator : Option SetOperator := none
  start : Query
  operands : List Query := []
  orderBy : List (OrderItem Expr) := []
  limits : Limits := {}

/-- A common table: `entity(attributes) AS(body)`. -/
structure Cte where
  entity : String
  columns : List String
  body : CteBody
  recursive : Bool := false

/-- Where the rows of a common table come from. -/
inductive CteBody where
  | query (query : Query)
  | update (update : Update)
  | collectionDelete (delete : CollectionDelete)

/-- `UPDATE entity alias SET path = value, ...` -/
structure Update where
  target : Target Expr
  assignments : List (Expr × Expr) := []
  condition : Option Expr := none
  returning : List String := []

/-- `DELETE FROM entity(collection) alias`, which removes elements of a collection. -/
structure CollectionDelete where
  target : Target Expr
  collection : String
  condition : Option Expr := none
  returning : List String := []

end

/-- `DELETE FROM entity alias` -/
structure Delete where
  target : Target Expr
  condition : Option Expr := none
  returning : List String := []

/-- What can be written on its own. -/
inductive Statement where
  | select (query : Query)
  | update (update : Update)
  | delete (delete : Delete)
  | collectionDelete (delete : CollectionDelete)

instance : Inhabited Expr := ⟨.null⟩

instance : Inhabited Select := ⟨{}⟩

instance : Inhabited Query := ⟨.select {}⟩

namespace Statement

/-- The kind of a statement, as it is reported. -/
def kind : Statement → String
  | select _ => "QueryBuilder"
  | update _ => "UpdateQuery"
  | delete _ => "DeleteQuery"
  | collectionDelete _ => "DeleteCollectionQuery"

end Statement

end EntityQuery
