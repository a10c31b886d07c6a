import EntityQuery.Expr.Build

/-!
The parameters of expressions, queries and statements, in the order in which they are written.
`markers` lists every mention; `parameters` lists every name once, where it is first mentioned.
-/

namespace EntityQuery

/-- The entries of a list of optional lists that the given positions select, one after
another. -/
def selectLists {α : Type} (lists : List (List α)) (ids : List NodeId) : List α :=
  ids.flatMap fun id => (lists[id]?).getD []

mutual

def Expr.markers : Expr → List String
  | .path _ => []
  | .literal _ => []
  | .parameter p => p.name.toList
  | .call _ args => Expr.markersList args
  | .aggregate _ args _ => Expr.markersList args
  | .subquery q => q.markers
  | .indexed _ index => index.markers
  | .null => []
  | .caseWhen operand branches otherwise =>
      Expr.markersOption operand ++ Expr.markersPairs branches ++ Expr.markersOption otherwise
  | .binary left _ right => left.markers ++ right.markers
  | .not e => e.markers
  | .isNull e _ => e.markers
  | .like e pattern _ _ => e.markers ++ pattern.markers
  | .oneOf e values _ => e.markers ++ Expr.markersList values
  | .between e low high _ => e.markers ++ low.markers ++ high.markers
  | .parens e => e.markers
  | .verbatim _ => []

def Expr.markersList : List Expr → List String
  | [] => []
  | e :: rest => e.markers ++ Expr.markersList rest

def Expr.markersOption : Option Expr → List String
  | none => []
  | some e => e.markers

def Expr.markersPairs : List (Expr × Expr) → List String
  | [] => []
  | (a, b) :: rest => a.markers ++ b.markers ++ Expr.markersPairs rest

def Query.markers : Query → List String
  | .select s => s.markers
  | .combined c => c.markers

def Query.markersList : List Query → List String
  | [] => []
  | q :: rest => q.markers ++ Query.markersList rest

/-- Common tables come first, and the conditions of joins in the order of the FROM clause. -/
def Select.markers : Select → List String
  | ⟨ctes, _, items, ⟨nodes, roots⟩, _, condition, groupBy, having, orderBy, _⟩ =>
      Cte.markersList ctes ++ SelectItem.markersList items
        ++ selectLists (JoinNode.markersList nodes) (JoinGraph.depthFirst ⟨nodes, roots⟩)
        ++ Expr.markersOption condition ++ Expr.markersList groupBy
        ++ Expr.markersOption having ++ OrderItem.markersList orderBy

def SelectItem.markersList : List (SelectItem Expr) → List String
  | [] => []
  | ⟨e, _⟩ :: rest => e.markers ++ SelectItem.markersList rest

def OrderItem.markersList : List (OrderItem Expr) → List String
  | [] => []
  | ⟨e, _, _⟩ :: rest => e.markers ++ OrderItem.markersList rest

/-- The parameters of the condition of each node. -/
def JoinNode.markersList : List (JoinNode Expr) → List (List String)
  | [] => []
  | ⟨_, _, _, _, _, condition, _⟩ :: rest =>
      Expr.markersOption condition :: JoinNode.markersList rest

def SetOperation.markers : SetOperation → List String
  | ⟨_, start, operands, orderBy, _⟩ =>
      start.markers ++ Query.markersList operands ++ OrderItem.markersList orderBy

def Cte.markersList : List Cte → List String
  | [] => []
  | ⟨_, _, body, _⟩ :: rest => body.markers ++ Cte.markersList rest

def CteBody.markers : CteBody → List String
  | .query q => q.markers
  | .update u => u.markers
  | .collectionDelete d => d.markers

def Update.markers : Update → List String
  | ⟨_, assignments, condition, _⟩ =>
      Expr.markersPairs assignments ++ Expr.markersOption condition

def CollectionDelete.markers : CollectionDelete → List String
  | ⟨_, _, condition, _⟩ => Expr.markersOption condition

end

def Delete.markers (d : Delete) : List String := Expr.markersOption d.condition

def Statement.markers : Statement → List String
  | .select q => q.markers
  | .update u => u.markers
  | .delete d => d.markers
  | .collectionDelete d => d.markers

/-- Each name once, in the order of first mention. -/
def firstMentions : List String → List String
  | [] => []
  | name :: rest => name :: (firstMentions rest).filter (· != name)

def Expr.parameters (e : Expr) : List String := firstMentions e.markers

def Query.parameters (q : Query) : List String := firstMentions q.markers

def CteBody.parameters (b : CteBody) : List String := firstMentions b.markers

def Statement.parameters (s : Statement) : List String := firstMentions s.markers

end EntityQuery
