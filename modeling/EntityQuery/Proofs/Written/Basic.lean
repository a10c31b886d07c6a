import EntityQuery.Proofs.Render.Parts

/-!
What is written of a statement: its parameters and the queries inside it, in the order of the text.
The index of an element, the operand of an IN predicate without values, the condition of a root and
the joins of a modified entity are not written. Of a set operation without an operator or operands
only the first query is, and its order only where it stands between operators.
-/

namespace EntityQuery

/-- The forms that a query is written in. -/
inductive QueryForm where
  /-- A query on its own, or the body of a common table. -/
  | statement
  /-- A query between operators. -/
  | between
  /-- A query as an argument of a call, or in an expression. -/
  | argument
deriving DecidableEq, Repr

/-- The form of the queries that a set operation combines, by its own form. On its own it stands
between its queries if the dialect can write that and none of them has limits. -/
def SetOperation.memberForm (d : Dialect) (start : Query) (operands : List Query) :
    QueryForm → QueryForm
  | .statement =>
      if d.capabilities.nativeSetOperations && !start.limitedAnywhere && !Query.anyLimited operands
      then .between else .argument
  | .between => .between
  | .argument => .argument

/-- What a text has in one place: a parameter, or a query inside another one. -/
inductive Written where
  | parameter (parameter : Parameter)
  | query (query : Query)

mutual

def Expr.written (d : Dialect) : Expr → List Written
  | .path _ => []
  | .literal _ => []
  | .parameter p => [.parameter p]
  | .call _ args => Expr.writtenList d args
  | .aggregate _ args _ => Expr.writtenList d args
  | .subquery q => .query q :: q.written d .argument
  | .indexed _ _ => []
  | .null => []
  | .caseWhen operand branches otherwise =>
      Expr.writtenOption d operand ++ Expr.writtenPairs d branches
        ++ Expr.writtenOption d otherwise
  | .binary left _ right => left.written d ++ right.written d
  | .not e => e.written d
  | .isNull e _ => e.written d
  | .like e pattern _ _ => e.written d ++ pattern.written d
  | .oneOf e values _ =>
      if values.isEmpty then [] else e.written d ++ Expr.writtenList d values
  | .between e low high _ => e.written d ++ low.written d ++ high.written d
  | .parens e => e.written d
  | .verbatim _ => []

def Expr.writtenList (d : Dialect) : List Expr → List Written
  | [] => []
  | e :: rest => e.written d ++ Expr.writtenList d rest

def Expr.writtenOption (d : Dialect) : Option Expr → List Written
  | none => []
  | some e => e.written d

def Expr.writtenPairs (d : Dialect) : List (Expr × Expr) → List Written
  | [] => []
  | (a, b) :: rest => a.written d ++ b.written d ++ Expr.writtenPairs d rest

def Query.written (d : Dialect) (form : QueryForm) : Query → List Written
  | .select s => s.written d
  | .combined c => c.written d form

/-- Queries inside another one, each before what is written of it. -/
def Query.writtenList (d : Dialect) (form : QueryForm) : List Query → List Written
  | [] => []
  | q :: rest => .query q :: (q.written d form ++ Query.writtenList d form rest)

def Select.written (d : Dialect) : Select → List Written
  | ⟨ctes, _, items, ⟨nodes, roots⟩, aliases, condition, groupBy, having, orderBy, _⟩ =>
      Cte.writtenList d ctes ++ SelectItem.writtenList d items
        ++ selectLists (JoinNode.writtenList d nodes) (Scope.joined ⟨aliases, ⟨nodes, roots⟩⟩)
        ++ Expr.writtenOption d condition ++ Expr.writtenList d groupBy
        ++ Expr.writtenOption d having ++ OrderItem.writtenList d orderBy

def SelectItem.writtenList (d : Dialect) : List (SelectItem Expr) → List Written
  | [] => []
  | ⟨e, _⟩ :: rest => e.written d ++ SelectItem.writtenList d rest

def OrderItem.writtenList (d : Dialect) : List (OrderItem Expr) → List Written
  | [] => []
  | ⟨e, _, _⟩ :: rest => e.written d ++ OrderItem.writtenList d rest

/-- What is written of the condition of each node, if it is written. -/
def JoinNode.writtenList (d : Dialect) : List (JoinNode Expr) → List (List Written)
  | [] => []
  | ⟨_, _, _, _, _, condition, _⟩ :: rest =>
      Expr.writtenOption d condition :: JoinNode.writtenList d rest

def SetOperation.written (d : Dialect) (form : QueryForm) : SetOperation → List Written
  | ⟨operator, start, operands, orderBy, _⟩ =>
      match SetOperation.activeOperator operator operands with
      | some _ =>
          let members := SetOperation.memberForm d start operands form
          .query start :: (start.written d members ++ Query.writtenList d members operands
            ++ OrderItem.writtenList d orderBy)
      | none =>
          start.written d form ++ if form = .between then OrderItem.writtenList d orderBy else []

def Cte.writtenList (d : Dialect) : List Cte → List Written
  | [] => []
  | ⟨_, _, body, _⟩ :: rest => body.written d ++ Cte.writtenList d rest

def CteBody.written (d : Dialect) : CteBody → List Written
  | .query q => q.written d .statement
  | .update u => u.written d
  | .collectionDelete c => c.written d

def Update.written (d : Dialect) : Update → List Written
  | ⟨_, assignments, condition, _⟩ =>
      Expr.writtenPairs d assignments ++ Expr.writtenOption d condition

def CollectionDelete.written (d : Dialect) : CollectionDelete → List Written
  | ⟨_, _, condition, _⟩ => Expr.writtenOption d condition

end

def Delete.written (d : Dialect) (deletion : Delete) : List Written :=
  Expr.writtenOption d deletion.condition

def Statement.written (d : Dialect) : Statement → List Written
  | .select q => q.written d .statement
  | .update u => u.written d
  | .delete deletion => deletion.written d
  | .collectionDelete deletion => deletion.written d

variable (d : Dialect)

namespace Expr

theorem writtenList_eq (es : List Expr) : writtenList d es = es.flatMap (written d) := by
  induction es with
  | nil => rfl
  | cons e rest ih => rw [writtenList, ih, List.flatMap_cons]

theorem writtenOption_eq (e? : Option Expr) :
    writtenOption d e? = e?.toList.flatMap (written d) := by
  cases e? with
  | none => rfl
  | some e => simp [writtenOption]

theorem writtenPairs_eq (bs : List (Expr × Expr)) :
    writtenPairs d bs = (bs.flatMap fun b => [b.1, b.2]).flatMap (written d) := by
  induction bs with
  | nil => rfl
  | cons b rest ih => simp [writtenPairs, ih]

/-- Of an expression that is not itself a parameter or a subquery is written what is written of the
expressions in it. -/
theorem written_eq {e : Expr} (hparameter : ∀ p, e ≠ .parameter p)
    (hsubquery : ∀ q, e ≠ .subquery q) :
    e.written d = e.writtenChildren.flatMap (written d) := by
  cases e with
  | parameter p => exact absurd rfl (hparameter p)
  | subquery q => exact absurd rfl (hsubquery q)
  | oneOf e values negated =>
      rw [written, writtenChildren]
      split
      · rfl
      · rw [List.flatMap_cons, writtenList_eq]
  | _ =>
      simp [written, writtenChildren, children, writtenList_eq, writtenOption_eq, writtenPairs_eq]

end Expr

theorem Query.writtenList_eq (form : QueryForm) (qs : List Query) :
    writtenList d form qs = qs.flatMap fun q => .query q :: q.written d form := by
  induction qs with
  | nil => rfl
  | cons q rest ih => rw [writtenList, ih, List.flatMap_cons, List.cons_append]

theorem SelectItem.writtenList_eq (is : List (SelectItem Expr)) :
    writtenList d is = (is.map fun i => i.expr).flatMap (Expr.written d) := by
  induction is with
  | nil => rfl
  | cons i rest ih => rw [writtenList, ih, List.map_cons, List.flatMap_cons]

theorem OrderItem.writtenList_eq (is : List (OrderItem Expr)) :
    writtenList d is = (is.map fun i => i.expr).flatMap (Expr.written d) := by
  induction is with
  | nil => rfl
  | cons i rest ih => rw [writtenList, ih, List.map_cons, List.flatMap_cons]

theorem Cte.writtenList_eq (cs : List Cte) :
    writtenList d cs = cs.flatMap fun c => c.body.written d := by
  induction cs with
  | nil => rfl
  | cons c rest ih =>
      obtain ⟨entity, columns, body, recursive⟩ := c
      rw [writtenList, ih, List.flatMap_cons]

theorem JoinNode.getElem?_writtenList (nodes : List (JoinNode Expr)) (id : NodeId) :
    (writtenList d nodes)[id]? = nodes[id]?.map fun n => Expr.writtenOption d n.condition := by
  induction nodes generalizing id with
  | nil => rfl
  | cons n rest ih =>
      cases id with
      | zero => rfl
      | succ id => exact ih id

theorem selectLists_writtenList (g : JoinGraph Expr) (ids : List NodeId) :
    selectLists (JoinNode.writtenList d g.nodes) ids =
      (ids.flatMap fun id => (g.condition? id).toList).flatMap (Expr.written d) := by
  rw [List.flatMap_assoc]
  refine List.flatMap_congr fun id _ => ?_
  rw [JoinNode.getElem?_writtenList, JoinGraph.condition?, JoinGraph.node?]
  cases g.nodes[id]? with
  | none => rfl
  | some n => exact Expr.writtenOption_eq d n.condition

theorem Select.written_eq (s : Select) :
    s.written d = (s.ctes.flatMap fun c => c.body.written d)
      ++ s.writtenParts.flatMap (Expr.written d) := by
  rw [writtenParts]
  simp only [List.flatMap_append, ← Expr.writtenOption_eq, ← Expr.writtenList_eq d s.groupBy,
    ← selectLists_writtenList, ← SelectItem.writtenList_eq, ← OrderItem.writtenList_eq,
    ← Cte.writtenList_eq, ← List.append_assoc]
  obtain ⟨ctes, distinct, items, ⟨nodes, roots⟩, aliases, condition, groupBy, having, orderBy,
    limits⟩ := s
  rfl

namespace SetOperation

variable {c : SetOperation} {op : SetOperator} (form : QueryForm)

/-- All that a set operation combines is written of it, in the form that its own form asks for. -/
theorem written_of_active (hactive : activeOperator c.operator c.operands = some op) :
    c.written d form =
      (c.members.flatMap fun q => .query q :: q.written d (memberForm d c.start c.operands form))
        ++ (c.orderBy.map fun i => i.expr).flatMap (Expr.written d) := by
  rw [members, List.flatMap_cons, ← Query.writtenList_eq, ← OrderItem.writtenList_eq]
  obtain ⟨operator, start, operands, orderBy, limits⟩ := c
  rw [written]
  simp only [hactive, List.cons_append, List.append_assoc]

/-- On its own, a set operation is written as in one of the forms that it has inside a query. -/
theorem written_statement (ctx : RenderContext)
    (hactive : activeOperator c.operator c.operands = some op) :
    c.written ctx.dialect .statement =
      c.written ctx.dialect (if c.writtenBetween ctx then .between else .argument) := by
  have hform : memberForm ctx.dialect c.start c.operands .statement =
      if c.writtenBetween ctx then .between else .argument := rfl
  rw [written_of_active ctx.dialect .statement hactive, hform,
    written_of_active ctx.dialect _ hactive]
  cases c.writtenBetween ctx <;> rfl

theorem written_of_inactive (hinactive : activeOperator c.operator c.operands = none) :
    c.written d form = c.start.written d form
      ++ if form = .between then (c.orderBy.map fun i => i.expr).flatMap (Expr.written d)
        else [] := by
  rw [← OrderItem.writtenList_eq]
  obtain ⟨operator, start, operands, orderBy, limits⟩ := c
  rw [written]
  simp only [hinactive]

end SetOperation

theorem Update.written_eq (u : Update) :
    u.written d = ((u.assignments.flatMap fun a => [a.1, a.2]) ++ u.condition.toList).flatMap
      (Expr.written d) := by
  rw [List.flatMap_append, ← Expr.writtenPairs_eq, ← Expr.writtenOption_eq]
  obtain ⟨target, assignments, condition, returning⟩ := u
  rfl

theorem CollectionDelete.written_eq (c : CollectionDelete) :
    c.written d = c.condition.toList.flatMap (Expr.written d) := by
  rw [← Expr.writtenOption_eq]
  obtain ⟨target, collection, condition, returning⟩ := c
  rfl

theorem Delete.written_eq (deletion : Delete) :
    deletion.written d = deletion.condition.toList.flatMap (Expr.written d) :=
  Expr.writtenOption_eq d deletion.condition

end EntityQuery
