import EntityQuery.Json.Basic
import EntityQuery.Query.Basic

/-!
Expressions, queries and statements as JSON documents. Every field is written, also where it
holds what its absence would mean. An alternative is an object with one field that names it, and
one without content is its name.
-/

namespace EntityQuery

namespace Json

def ofOption {α : Type} (f : α → Json) : Option α → Json
  | none => .null
  | some a => f a

def ofStrings (ss : List String) : Json := .array (ss.map .string)

def ofUInt64 (n : UInt64) : Json := .int n.toNat

def ofNodeId (id : NodeId) : Json := .int id

/-- An alternative with content. -/
def variant (name : String) (content : Json) : Json := .object [(name, content)]

end Json

namespace Literal

/-- A float that is not finite has no document. -/
def toJson : Literal → Json
  | int n => .variant "Int" (.int n.toInt)
  | float x => .variant "Float" (if x.isFinite then .float x else .null)
  | string s => .variant "String" (.string s)
  | bool b => .variant "Bool" (.bool b)

end Literal

namespace ParameterValue

def toJson : ParameterValue → Json
  | scalar v => .variant "Scalar" v.toJson
  | list vs => .variant "List" (.array (vs.map Literal.toJson))

end ParameterValue

namespace Parameter

def toJson (p : Parameter) : Json :=
  .object [("name", .ofOption .string p.name), ("value", .ofOption ParameterValue.toJson p.value)]

end Parameter

namespace Path

def toJson (p : Path) : Json :=
  .object [
    ("elements", .ofStrings p.elements),
    ("base", .ofOption .ofNodeId p.base),
    ("field", .ofOption .string p.field),
    ("used_in_collection_function", .bool p.inCollectionFunction),
    ("collection_key_path", .bool p.keySide)]

end Path

namespace BinaryOperator

/-- The operator's name in documents. -/
def documentName : BinaryOperator → String
  | .eq => "Eq"
  | .ne => "Ne"
  | .lt => "Lt"
  | .gt => "Gt"
  | .le => "Lte"
  | .ge => "Gte"
  | .and => "And"
  | .or => "Or"
  | .plus => "Plus"
  | .minus => "Minus"
  | .times => "Mul"
  | .divide => "Div"

def all : List BinaryOperator :=
  [.eq, .ne, .lt, .gt, .le, .ge, .and, .or, .plus, .minus, .times, .divide]

end BinaryOperator

namespace Relation

def documentName : Relation → String
  | singular => "singular"
  | collection => "collection"
  | map => "map"

def all : List Relation := [singular, collection, map]

end Relation

namespace JoinType

def documentName : JoinType → String
  | inner => "inner"
  | left => "left"
  | cross => "cross"

def all : List JoinType := [inner, left, cross]

end JoinType

namespace SortDirection

def documentName : SortDirection → String
  | asc => "asc"
  | desc => "desc"

def all : List SortDirection := [asc, desc]

end SortDirection

namespace NullsOrder

def documentName : NullsOrder → String
  | first => "first"
  | last => "last"

def all : List NullsOrder := [first, last]

end NullsOrder

namespace SetOperator

def documentName : SetOperator → String
  | union => "union"
  | unionAll => "union_all"
  | intersect => "intersect"
  | intersectAll => "intersect_all"
  | except => "except"
  | exceptAll => "except_all"

def all : List SetOperator := [union, unionAll, intersect, intersectAll, except, exceptAll]

end SetOperator

namespace JoinSource

def toJson : JoinSource → Json
  | root entity => .variant "Root" (.object [("entity", .string entity)])
  | ofAttribute attr relation =>
      .variant "Attribute"
        (.object [("attribute", .string attr), ("relation", .string relation.documentName)])
  | ofEntity entity => .variant "Entity" (.object [("entity", .string entity)])
  | correlated path => .variant "Correlated" (.object [("path", .string path)])

end JoinSource

mutual

def Expr.toJson : Expr → Json
  | .path p => .variant "Path" p.toJson
  | .literal v => .variant "Literal" v.toJson
  | .parameter p => .variant "Parameter" p.toJson
  | .call f args =>
      .variant "Function" (.object [("name", .string f), ("args", .array (Expr.toJsonList args))])
  | .aggregate f args distinct =>
      .variant "Aggregate" (.object [
        ("name", .string f),
        ("args", .array (Expr.toJsonList args)),
        ("distinct", .bool distinct)])
  | .subquery q => .variant "Subquery" q.toJson
  | .indexed base index =>
      .variant "Array" (.object [("base", base.toJson), ("index", index.toJson)])
  | .null => .string "Null"
  | .caseWhen operand branches otherwise =>
      .variant "Case" (.object [
        ("operand", Expr.toJsonOption operand),
        ("when_clauses", .array (Expr.toJsonPairs branches)),
        ("else_clause", Expr.toJsonOption otherwise)])
  | .binary left op right =>
      .variant "Binary" (.object [
        ("left", left.toJson),
        ("op", .string op.documentName),
        ("right", right.toJson)])
  | .not e => .variant "Not" e.toJson
  | .isNull e negated =>
      .variant "IsNull" (.object [("expr", e.toJson), ("negated", .bool negated)])
  | .like e pattern escape negated =>
      .variant "Like" (.object [
        ("expr", e.toJson),
        ("pattern", pattern.toJson),
        ("escape", .ofOption (fun c => .string (String.singleton c)) escape),
        ("negated", .bool negated)])
  | .oneOf e values negated =>
      .variant "In" (.object [
        ("expr", e.toJson),
        ("values", .array (Expr.toJsonList values)),
        ("negated", .bool negated)])
  | .between e low high negated =>
      .variant "Between" (.object [
        ("expr", e.toJson),
        ("low", low.toJson),
        ("high", high.toJson),
        ("negated", .bool negated)])
  | .parens e => .variant "Paren" e.toJson
  | .verbatim s => .variant "Verbatim" (.string s)

def Expr.toJsonList : List Expr → List Json
  | [] => []
  | e :: rest => e.toJson :: Expr.toJsonList rest

def Expr.toJsonOption : Option Expr → Json
  | none => .null
  | some e => e.toJson

def Expr.toJsonPairs : List (Expr × Expr) → List Json
  | [] => []
  | (a, b) :: rest => .array [a.toJson, b.toJson] :: Expr.toJsonPairs rest

def Query.toJson : Query → Json
  | .select s => .variant "Select" s.toJson
  | .combined c => .variant "SetOperation" c.toJson

def Query.toJsonList : List Query → List Json
  | [] => []
  | q :: rest => q.toJson :: Query.toJsonList rest

def Select.toJson : Select → Json
  | ⟨ctes, distinct, items, joins, aliases, condition, groupBy, having, orderBy, limits⟩ =>
      .object [
        ("ctes", .array (Cte.toJsonList ctes)),
        ("distinct", .bool distinct),
        ("select", .array (SelectItem.toJsonList items)),
        ("joins", JoinGraph.toJson joins),
        ("aliases", AliasTable.toJson aliases),
        ("where_clause", Expr.toJsonOption condition),
        ("group_by", .array (Expr.toJsonList groupBy)),
        ("having", Expr.toJsonOption having),
        ("order_by", .array (OrderItem.toJsonList orderBy)),
        ("first_result", .ofOption .ofUInt64 limits.first),
        ("max_results", .ofOption .ofUInt64 limits.max)]

def SelectItem.toJson : SelectItem Expr → Json
  | ⟨e, aliasName⟩ => .object [("expr", e.toJson), ("alias", .ofOption .string aliasName)]

def SelectItem.toJsonList : List (SelectItem Expr) → List Json
  | [] => []
  | i :: rest => SelectItem.toJson i :: SelectItem.toJsonList rest

def OrderItem.toJson : OrderItem Expr → Json
  | ⟨e, direction, nulls⟩ =>
      .object [
        ("expr", e.toJson),
        ("dir", .string direction.documentName),
        ("nulls", .ofOption (fun n => .string n.documentName) nulls)]

def OrderItem.toJsonList : List (OrderItem Expr) → List Json
  | [] => []
  | i :: rest => OrderItem.toJson i :: OrderItem.toJsonList rest

def JoinNode.toJson : JoinNode Expr → Json
  | ⟨aliasName, source, parent, type, fetch, condition, implicit⟩ =>
      .object [
        ("alias", .string aliasName),
        ("source", source.toJson),
        ("parent", .ofOption .ofNodeId parent),
        ("join_type", .ofOption (fun t => .string t.documentName) type),
        ("fetch", .bool fetch),
        ("on", Expr.toJsonOption condition),
        ("implicit", .bool implicit)]

def JoinNode.toJsonList : List (JoinNode Expr) → List Json
  | [] => []
  | n :: rest => JoinNode.toJson n :: JoinNode.toJsonList rest

def JoinGraph.toJson : JoinGraph Expr → Json
  | ⟨nodes, roots⟩ =>
      .object [
        ("nodes", .array (JoinNode.toJsonList nodes)),
        ("roots", .array (roots.map .ofNodeId))]

def AliasEntry.toJson : AliasEntry Expr → Json
  | .join aliasName node implicit =>
      .variant "Join" (.object [
        ("alias", .string aliasName),
        ("node", .ofNodeId node),
        ("implicit", .bool implicit)])
  | .select aliasName e =>
      .variant "Select" (.object [("alias", .string aliasName), ("expr", e.toJson)])

def AliasEntry.toJsonFields : List (String × AliasEntry Expr) → List (String × Json)
  | [] => []
  | (key, entry) :: rest => (key, AliasEntry.toJson entry) :: AliasEntry.toJsonFields rest

def AliasTable.toJson : AliasTable Expr → Json
  | ⟨entries⟩ => .object [("aliases", .object (AliasEntry.toJsonFields entries))]

def SetOperation.toJson : SetOperation → Json
  | ⟨operator, start, operands, orderBy, limits⟩ =>
      .object [
        ("operator", .ofOption (fun op => .string op.documentName) operator),
        ("start", start.toJson),
        ("operands", .array (Query.toJsonList operands)),
        ("order_by", .array (OrderItem.toJsonList orderBy)),
        ("first_result", .ofOption .ofUInt64 limits.first),
        ("max_results", .ofOption .ofUInt64 limits.max)]

def Cte.toJson : Cte → Json
  | ⟨entity, columns, body, recursive⟩ =>
      .object [
        ("entity", .string entity),
        ("attributes", .ofStrings columns),
        ("body", body.toJson),
        ("recursive", .bool recursive)]

def Cte.toJsonList : List Cte → List Json
  | [] => []
  | c :: rest => c.toJson :: Cte.toJsonList rest

def CteBody.toJson : CteBody → Json
  | .query q => .variant "query" q.toJson
  | .update u => .variant "update" u.toJson
  | .collectionDelete d => .variant "delete_collection" d.toJson

def Update.toJson : Update → Json
  | ⟨target, assignments, condition, returning⟩ =>
      .object [
        ("target", Target.toJson target),
        ("assignments", .array (Expr.toJsonPairs assignments)),
        ("where_clause", Expr.toJsonOption condition),
        ("returning", .ofStrings returning)]

def CollectionDelete.toJson : CollectionDelete → Json
  | ⟨target, collection, condition, returning⟩ =>
      .object [
        ("target", Target.toJson target),
        ("collection", .string collection),
        ("where_clause", Expr.toJsonOption condition),
        ("returning", .ofStrings returning)]

def Target.toJson : Target Expr → Json
  | ⟨entity, aliasName, joins, aliases⟩ =>
      .object [
        ("entity", .string entity),
        ("alias", .string aliasName),
        ("joins", JoinGraph.toJson joins),
        ("aliases", AliasTable.toJson aliases)]

end

def Delete.toJson (d : Delete) : Json :=
  .object [
    ("target", Target.toJson d.target),
    ("where_clause", Expr.toJsonOption d.condition),
    ("returning", .ofStrings d.returning)]

def Statement.toJson : Statement → Json
  | .select q => .variant "select" q.toJson
  | .update u => .variant "update" u.toJson
  | .delete d => .variant "delete" d.toJson
  | .collectionDelete d => .variant "delete_collection" d.toJson

end EntityQuery
