import EntityQuery.Proofs.Aliases.Renaming
import EntityQuery.Proofs.Render.Sites

/-!
The names that occur in a statement: of entities, attributes, functions, parameters and tables, the
aliases, and text that was made elsewhere. What stands in text literals is none of them, except for
the name of a function that is called by its name.
-/

namespace EntityQuery

def Path.names (p : Path) : List String := p.elements ++ p.field.toList

def JoinSource.names : JoinSource → List String
  | .root entity => [entity]
  | .correlated path => [path]
  | .ofAttribute attr _ => [attr]
  | .ofEntity entity => [entity]

/-- The names that the joins of a level bring in, and those of the paths that select aliases name. -/
def Scope.names (sc : Scope) : List String :=
  (sc.joins.nodes.flatMap fun n => n.aliasName :: n.source.names)
    ++ sc.aliases.targets.flatMap Path.names

mutual

def Expr.names : Expr → List String
  | .path p => p.names
  | .literal _ => []
  | .parameter p => p.name.toList
  | .call f args => f :: ((Expr.genericName? f args).toList ++ Expr.namesList args)
  | .aggregate f args _ => f :: Expr.namesList args
  | .subquery q => q.names
  | .indexed base index => base.names ++ index.names
  | .null => []
  | .caseWhen operand branches otherwise =>
      Expr.namesOption operand ++ Expr.namesPairs branches ++ Expr.namesOption otherwise
  | .binary left _ right => left.names ++ right.names
  | .not e => e.names
  | .isNull e _ => e.names
  | .like e pattern _ _ => e.names ++ pattern.names
  | .oneOf e values _ => e.names ++ Expr.namesList values
  | .between e low high _ => e.names ++ low.names ++ high.names
  | .parens e => e.names
  | .verbatim s => [s]

def Expr.namesList : List Expr → List String
  | [] => []
  | e :: rest => e.names ++ Expr.namesList rest

def Expr.namesOption : Option Expr → List String
  | none => []
  | some e => e.names

def Expr.namesPairs : List (Expr × Expr) → List String
  | [] => []
  | (a, b) :: rest => a.names ++ b.names ++ Expr.namesPairs rest

def Query.names : Query → List String
  | .select s => s.names
  | .combined c => c.names

def Query.namesList : List Query → List String
  | [] => []
  | q :: rest => q.names ++ Query.namesList rest

def Select.names : Select → List String
  | ⟨ctes, _, items, ⟨nodes, roots⟩, aliases, condition, groupBy, having, orderBy, _⟩ =>
      Scope.names ⟨aliases, ⟨nodes, roots⟩⟩ ++ Cte.namesList ctes ++ SelectItem.namesList items
        ++ JoinNode.namesList nodes ++ Expr.namesOption condition ++ Expr.namesList groupBy
        ++ Expr.namesOption having ++ OrderItem.namesList orderBy

def SelectItem.namesList : List (SelectItem Expr) → List String
  | [] => []
  | ⟨e, aliasName⟩ :: rest => e.names ++ aliasName.toList ++ SelectItem.namesList rest

def OrderItem.namesList : List (OrderItem Expr) → List String
  | [] => []
  | ⟨e, _, _⟩ :: rest => e.names ++ OrderItem.namesList rest

/-- The names in the conditions of joins. -/
def JoinNode.namesList : List (JoinNode Expr) → List String
  | [] => []
  | ⟨_, _, _, _, _, condition, _⟩ :: rest => Expr.namesOption condition ++ JoinNode.namesList rest

def SetOperation.names : SetOperation → List String
  | ⟨_, start, operands, orderBy, _⟩ =>
      start.names ++ Query.namesList operands ++ OrderItem.namesList orderBy

def Cte.namesList : List Cte → List String
  | [] => []
  | ⟨entity, columns, body, _⟩ :: rest => entity :: (columns ++ body.names ++ Cte.namesList rest)

def CteBody.names : CteBody → List String
  | .query q => q.names
  | .update u => u.names
  | .collectionDelete d => d.names

def Update.names : Update → List String
  | ⟨target, assignments, condition, returning⟩ =>
      target.entity :: target.aliasName :: (Scope.names ⟨target.aliases, target.joins⟩
        ++ Expr.namesPairs assignments ++ Expr.namesOption condition ++ returning)

def CollectionDelete.names : CollectionDelete → List String
  | ⟨target, collection, condition, returning⟩ =>
      target.entity :: target.aliasName :: collection ::
        (Scope.names ⟨target.aliases, target.joins⟩ ++ Expr.namesOption condition ++ returning)

end

def Delete.names (d : Delete) : List String :=
  d.target.entity :: d.target.aliasName ::
    (d.target.scope.names ++ Expr.namesOption d.condition ++ d.returning)

/-- The names that occur in a statement. -/
def Statement.names : Statement → List String
  | .select q => q.names
  | .update u => u.names
  | .delete d => d.names
  | .collectionDelete d => d.names

namespace Expr

theorem namesList_eq (es : List Expr) : namesList es = es.flatMap names := by
  induction es with
  | nil => rfl
  | cons e rest ih => rw [namesList, ih, List.flatMap_cons]

theorem namesOption_eq (e? : Option Expr) : namesOption e? = e?.toList.flatMap names := by
  cases e? with
  | none => rfl
  | some e => simp [namesOption]

theorem namesPairs_eq (bs : List (Expr × Expr)) :
    namesPairs bs = bs.flatMap fun b => b.1.names ++ b.2.names := by
  induction bs with
  | nil => rfl
  | cons b rest ih => rw [namesPairs, ih, List.flatMap_cons]

end Expr

theorem Query.namesList_eq (qs : List Query) : namesList qs = qs.flatMap names := by
  induction qs with
  | nil => rfl
  | cons q rest ih => rw [namesList, ih, List.flatMap_cons]

theorem SelectItem.namesList_eq (is : List (SelectItem Expr)) :
    namesList is = is.flatMap fun i => i.expr.names ++ i.aliasName.toList := by
  induction is with
  | nil => rfl
  | cons i rest ih => rw [namesList, ih, List.flatMap_cons]

theorem OrderItem.namesList_eq (is : List (OrderItem Expr)) :
    namesList is = is.flatMap fun i => i.expr.names := by
  induction is with
  | nil => rfl
  | cons i rest ih => rw [namesList, ih, List.flatMap_cons]

theorem JoinNode.namesList_eq (ns : List (JoinNode Expr)) :
    namesList ns = ns.flatMap fun n => n.condition.toList.flatMap Expr.names := by
  induction ns with
  | nil => rfl
  | cons n rest ih => rw [namesList, ih, List.flatMap_cons, Expr.namesOption_eq]

theorem Cte.namesList_eq (cs : List Cte) :
    namesList cs = cs.flatMap fun c => c.entity :: (c.columns ++ c.body.names) := by
  induction cs with
  | nil => rfl
  | cons c rest ih =>
      obtain ⟨entity, columns, body, recursive⟩ := c
      rw [namesList, ih, List.flatMap_cons, List.cons_append]

theorem Select.names_eq (s : Select) :
    s.names = s.scope.names ++ Cte.namesList s.ctes ++ SelectItem.namesList s.items
      ++ JoinNode.namesList s.joins.nodes ++ Expr.namesOption s.condition
      ++ Expr.namesList s.groupBy ++ Expr.namesOption s.having
      ++ OrderItem.namesList s.orderBy := by
  obtain ⟨ctes, distinct, items, ⟨nodes, roots⟩, aliases, condition, groupBy, having, orderBy,
    limits⟩ := s
  rw [names]
  rfl

theorem SetOperation.names_eq (c : SetOperation) :
    c.names = c.start.names ++ Query.namesList c.operands ++ OrderItem.namesList c.orderBy := by
  obtain ⟨operator, start, operands, orderBy, limits⟩ := c
  rw [names]

theorem Update.names_eq (u : Update) :
    u.names = u.target.entity :: u.target.aliasName :: (u.target.scope.names
      ++ Expr.namesPairs u.assignments ++ Expr.namesOption u.condition ++ u.returning) := by
  obtain ⟨target, assignments, condition, returning⟩ := u
  rw [names]
  rfl

theorem CollectionDelete.names_eq (d : CollectionDelete) :
    d.names = d.target.entity :: d.target.aliasName :: d.collection ::
      (d.target.scope.names ++ Expr.namesOption d.condition ++ d.returning) := by
  obtain ⟨target, collection, condition, returning⟩ := d
  rw [names]
  rfl

end EntityQuery
