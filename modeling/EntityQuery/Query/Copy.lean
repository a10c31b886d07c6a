import EntityQuery.Expr.Traversal

/-!
Copies of queries and statements. A copy numbers the join nodes of every level anew, in the order
of the FROM clause, and binds everything on that level to the new numbers. Subqueries inside
expressions are taken over as they are, and so is the order of a combined result.
-/

namespace EntityQuery

namespace SelectItem

def rebind (m : Renumbering) (i : SelectItem Expr) : SelectItem Expr :=
  { i with expr := i.expr.rebind m }

end SelectItem

namespace OrderItem

def rebind (m : Renumbering) (i : OrderItem Expr) : OrderItem Expr :=
  { i with expr := i.expr.rebind m }

end OrderItem

/-- An update with its nodes numbered anew. -/
def Update.copy (u : Update) : Except CopyFailure Update := do
  let (target, numbers) ← u.target.copy Expr.rebind
  pure { u with
    target := target
    assignments := Expr.rebindPairs numbers u.assignments
    condition := Expr.rebindOption numbers u.condition }

/-- A delete with its nodes numbered anew. -/
def Delete.copy (d : Delete) : Except CopyFailure Delete := do
  let (target, numbers) ← d.target.copy Expr.rebind
  pure { d with target := target, condition := Expr.rebindOption numbers d.condition }

mutual

/-- A query with the nodes of every level numbered anew. -/
def Query.copy : Query → Except CopyFailure Query
  | .select s => return .select (← s.copy)
  | .combined c => return .combined (← c.copy)

def Query.copyList : List Query → Except CopyFailure (List Query)
  | [] => return []
  | q :: rest => do
      let q ← q.copy
      let rest ← Query.copyList rest
      return q :: rest

/-- A query level with its nodes numbered anew. Its joins are copied before its common
tables. -/
def Select.copy : Select → Except CopyFailure Select
  | ⟨ctes, distinct, items, joins, aliases, condition, groupBy, having, orderBy, limits⟩ => do
      let (joins, numbers) ← joins.copyInto Expr.rebind {}
      let ctes ← Cte.copyList ctes
      return {
        ctes := ctes
        distinct := distinct
        items := items.map (SelectItem.rebind numbers)
        joins := joins
        aliases := aliases.rebind Expr.rebind numbers
        condition := Expr.rebindOption numbers condition
        groupBy := Expr.rebindList numbers groupBy
        having := Expr.rebindOption numbers having
        orderBy := orderBy.map (OrderItem.rebind numbers)
        limits := limits }

def SetOperation.copy : SetOperation → Except CopyFailure SetOperation
  | ⟨operator, start, operands, orderBy, limits⟩ => do
      let start ← start.copy
      let operands ← Query.copyList operands
      return ⟨operator, start, operands, orderBy, limits⟩

def Cte.copyList : List Cte → Except CopyFailure (List Cte)
  | [] => return []
  | ⟨entity, columns, body, recursive⟩ :: rest => do
      let body ← body.copy
      let rest ← Cte.copyList rest
      return ⟨entity, columns, body, recursive⟩ :: rest

/-- A delete of collection elements cannot be copied. -/
def CteBody.copy : CteBody → Except CopyFailure CteBody
  | .query q => return .query (← q.copy)
  | .update u => return .update (← u.copy)
  | .collectionDelete _ => throw .collectionDelete

end

/-- A common table with a copied body. -/
def Cte.copy (c : Cte) : Except CopyFailure Cte := return { c with body := ← c.body.copy }

/-- A statement with the nodes of every level numbered anew. -/
def Statement.copy : Statement → Except CopyFailure Statement
  | .select q => return .select (← q.copy)
  | .update u => return .update (← u.copy)
  | .delete d => return .delete (← d.copy)
  | .collectionDelete _ => throw .collectionDelete

end EntityQuery
