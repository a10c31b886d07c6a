import EntityQuery.Document.Writing

/-!
JSON documents as expressions, queries and statements. Fields that are not known are passed over,
and a known one may stand only once. What a field may leave out is said where it is read:
`optional` fields may be absent or null, `defaulted` ones absent, all others have to be there.

Expressions and queries hold each other, so their readers are built in levels: a reader of one
level uses the readers of the level below for what is nested. A document has no more levels than
its arrays and objects are nested.
-/

namespace EntityQuery

namespace Json

/-- The fields of an object in which no known field is repeated. -/
def record? (known : List String) : Json → Option (List (String × Json))
  | .object fields =>
      if known.all fun name => (fields.filter fun f => f.1 == name).length ≤ 1 then some fields
      else none
  | _ => none

/-- A field that has to be there. -/
def required {α : Type} (fields : List (String × Json)) (name : String)
    (read : Json → Option α) : Option α :=
  (fields.lookup name).bind read

/-- A field that may be absent, which means the same as its being null. -/
def optional {α : Type} (fields : List (String × Json)) (name : String)
    (read : Json → Option α) : Option (Option α) :=
  match fields.lookup name with
  | none | some .null => some none
  | some j => (read j).map some

/-- A field that may be absent. -/
def defaulted {α : Type} (fields : List (String × Json)) (name : String) (default : α)
    (read : Json → Option α) : Option α :=
  match fields.lookup name with
  | none => some default
  | some j => read j

/-- An alternative: its name, and its content if it has any. -/
def variant? : Json → Option (String × Option Json)
  | .string name => some (name, none)
  | .object [(name, content)] => some (name, some content)
  | _ => none

/-- One of some alternatives without content. -/
def choice? {α : Type} (all : List α) (name : α → String) (j : Json) : Option α := do
  let (chosen, content) ← j.variant?
  match content with
  | none | some .null => all.find? fun a => name a == chosen
  | some _ => none

def string? : Json → Option String
  | .string s => some s
  | _ => none

def bool? : Json → Option Bool
  | .bool b => some b
  | _ => none

/-- An integer of sixty-four bits with a sign. -/
def int64? : Json → Option Int64
  | .int n =>
      if Int64.minValue.toInt ≤ n ∧ n ≤ Int64.maxValue.toInt then some (Int64.ofInt n) else none
  | _ => none

/-- An integer of sixty-four bits without a sign. -/
def uint64? : Json → Option UInt64
  | .int n => if 0 ≤ n ∧ n < UInt64.size then some (UInt64.ofNat n.toNat) else none
  | _ => none

def nodeId? : Json → Option NodeId
  | .int n => if 0 ≤ n then some n.toNat else none
  | _ => none

/-- A double; an integer stands for the nearest one. -/
def double? : Json → Option Double
  | .float x => some x
  | .int n => some (Double.ofInt n)
  | _ => none

/-- A text of one character. -/
def char? : Json → Option Char
  | .string s =>
      match s.toList with
      | [c] => some c
      | _ => none
  | _ => none

def list? {α : Type} (read : Json → Option α) : Json → Option (List α)
  | .array items => items.mapM read
  | _ => none

def pair? {α : Type} (read : Json → Option α) : Json → Option (α × α)
  | .array [a, b] => do return (← read a, ← read b)
  | _ => none

end Json

namespace Literal

def ofJson? (j : Json) : Option Literal := do
  match ← j.variant? with
  | ("Int", some c) => return .int (← c.int64?)
  | ("Float", some c) => return .float (← c.double?)
  | ("String", some c) => return .string (← c.string?)
  | ("Bool", some c) => return .bool (← c.bool?)
  | _ => none

end Literal

namespace ParameterValue

def ofJson? (j : Json) : Option ParameterValue := do
  match ← j.variant? with
  | ("Scalar", some c) => return .scalar (← Literal.ofJson? c)
  | ("List", some c) => return .list (← c.list? Literal.ofJson?)
  | _ => none

end ParameterValue

namespace Parameter

def ofJson? (j : Json) : Option Parameter := do
  let fields ← j.record? ["name", "value"]
  return {
    name := ← Json.optional fields "name" Json.string?
    value := ← Json.optional fields "value" ParameterValue.ofJson? }

end Parameter

namespace Path

def ofJson? (j : Json) : Option Path := do
  let fields ← j.record?
    ["elements", "base", "field", "used_in_collection_function", "collection_key_path"]
  return {
    elements := ← Json.required fields "elements" (Json.list? Json.string?)
    base := ← Json.optional fields "base" Json.nodeId?
    field := ← Json.optional fields "field" Json.string?
    inCollectionFunction := ← Json.required fields "used_in_collection_function" Json.bool?
    keySide := ← Json.required fields "collection_key_path" Json.bool? }

end Path

namespace BinaryOperator

def ofJson? : Json → Option BinaryOperator := Json.choice? all documentName

end BinaryOperator

namespace JoinSource

def ofJson? (j : Json) : Option JoinSource := do
  match ← j.variant? with
  | ("Root", some c) => do
      let fields ← c.record? ["entity"]
      return .root (← Json.required fields "entity" Json.string?)
  | ("Attribute", some c) => do
      let fields ← c.record? ["attribute", "relation"]
      let attr ← Json.required fields "attribute" Json.string?
      let relation ←
        Json.required fields "relation" (Json.choice? Relation.all Relation.documentName)
      return .ofAttribute attr relation
  | ("Entity", some c) => do
      let fields ← c.record? ["entity"]
      return .ofEntity (← Json.required fields "entity" Json.string?)
  | ("Correlated", some c) => do
      let fields ← c.record? ["path"]
      return .correlated (← Json.required fields "path" Json.string?)
  | _ => none

end JoinSource

/-- The readers of one level, for the types that nest. -/
structure DocumentReaders where
  expr : Json → Option Expr
  query : Json → Option Query

namespace DocumentReaders

variable (r : DocumentReaders)

def node (j : Json) : Option (JoinNode Expr) := do
  let fields ← j.record? ["alias", "source", "parent", "join_type", "fetch", "on", "implicit"]
  return {
    aliasName := ← Json.required fields "alias" Json.string?
    source := ← Json.required fields "source" JoinSource.ofJson?
    parent := ← Json.optional fields "parent" Json.nodeId?
    type := ← Json.optional fields "join_type" (Json.choice? JoinType.all JoinType.documentName)
    fetch := ← Json.defaulted fields "fetch" false Json.bool?
    condition := ← Json.optional fields "on" r.expr
    implicit := ← Json.defaulted fields "implicit" false Json.bool? }

def graph (j : Json) : Option (JoinGraph Expr) := do
  let fields ← j.record? ["nodes", "roots"]
  return {
    nodes := ← Json.required fields "nodes" (Json.list? r.node)
    roots := ← Json.required fields "roots" (Json.list? Json.nodeId?) }

def aliasEntry (j : Json) : Option (AliasEntry Expr) := do
  match ← j.variant? with
  | ("Join", some c) => do
      let fields ← c.record? ["alias", "node", "implicit"]
      let aliasName ← Json.required fields "alias" Json.string?
      let node ← Json.required fields "node" Json.nodeId?
      let implicit ← Json.defaulted fields "implicit" false Json.bool?
      return .join aliasName node implicit
  | ("Select", some c) => do
      let fields ← c.record? ["alias", "expr"]
      let aliasName ← Json.required fields "alias" Json.string?
      let expr ← Json.required fields "expr" r.expr
      return .select aliasName expr
  | _ => none

/-- The entries of an alias table. Of two with one key, the later counts. -/
def aliasEntries : Json → Option (AliasTable Expr)
  | .object fields =>
      fields.foldlM (fun t f => (r.aliasEntry f.2).map fun entry => t.insert f.1 entry) {}
  | _ => none

def aliasTable (j : Json) : Option (AliasTable Expr) := do
  let fields ← j.record? ["aliases"]
  Json.required fields "aliases" r.aliasEntries

def selectItem (j : Json) : Option (SelectItem Expr) := do
  let fields ← j.record? ["expr", "alias"]
  return {
    expr := ← Json.required fields "expr" r.expr
    aliasName := ← Json.optional fields "alias" Json.string? }

def orderItem (j : Json) : Option (OrderItem Expr) := do
  let fields ← j.record? ["expr", "dir", "nulls"]
  return {
    expr := ← Json.required fields "expr" r.expr
    direction := ← Json.defaulted fields "dir" .asc
      (Json.choice? SortDirection.all SortDirection.documentName)
    nulls := ← Json.optional fields "nulls" (Json.choice? NullsOrder.all NullsOrder.documentName) }

def limits (fields : List (String × Json)) : Option Limits := do
  return {
    first := ← Json.optional fields "first_result" Json.uint64?
    max := ← Json.optional fields "max_results" Json.uint64? }

def setOperation (j : Json) : Option SetOperation := do
  let fields ← j.record?
    ["operator", "start", "operands", "order_by", "first_result", "max_results"]
  return {
    operator := ← Json.optional fields "operator"
      (Json.choice? SetOperator.all SetOperator.documentName)
    start := ← Json.required fields "start" r.query
    operands := ← Json.defaulted fields "operands" [] (Json.list? r.query)
    orderBy := ← Json.defaulted fields "order_by" [] (Json.list? r.orderItem)
    limits := ← limits fields }

def target (j : Json) : Option (Target Expr) := do
  let fields ← j.record? ["entity", "alias", "joins", "aliases"]
  return {
    entity := ← Json.required fields "entity" Json.string?
    aliasName := ← Json.required fields "alias" Json.string?
    joins := ← Json.defaulted fields "joins" {} r.graph
    aliases := ← Json.defaulted fields "aliases" {} r.aliasTable }

def update (j : Json) : Option Update := do
  let fields ← j.record? ["target", "assignments", "where_clause", "returning"]
  return {
    target := ← Json.required fields "target" r.target
    assignments := ← Json.required fields "assignments" (Json.list? (Json.pair? r.expr))
    condition := ← Json.optional fields "where_clause" r.expr
    returning := ← Json.defaulted fields "returning" [] (Json.list? Json.string?) }

def delete (j : Json) : Option Delete := do
  let fields ← j.record? ["target", "where_clause", "returning"]
  return {
    target := ← Json.required fields "target" r.target
    condition := ← Json.optional fields "where_clause" r.expr
    returning := ← Json.defaulted fields "returning" [] (Json.list? Json.string?) }

def collectionDelete (j : Json) : Option CollectionDelete := do
  let fields ← j.record? ["target", "collection", "where_clause", "returning"]
  return {
    target := ← Json.required fields "target" r.target
    collection := ← Json.required fields "collection" Json.string?
    condition := ← Json.optional fields "where_clause" r.expr
    returning := ← Json.defaulted fields "returning" [] (Json.list? Json.string?) }

def cteBody (j : Json) : Option CteBody := do
  match ← j.variant? with
  | ("query", some c) => return .query (← r.query c)
  | ("update", some c) => return .update (← r.update c)
  | ("delete_collection", some c) => return .collectionDelete (← r.collectionDelete c)
  | _ => none

def cte (j : Json) : Option Cte := do
  let fields ← j.record? ["entity", "attributes", "body", "recursive"]
  return {
    entity := ← Json.required fields "entity" Json.string?
    columns := ← Json.required fields "attributes" (Json.list? Json.string?)
    body := ← Json.required fields "body" r.cteBody
    recursive := ← Json.defaulted fields "recursive" false Json.bool? }

def select (j : Json) : Option Select := do
  let fields ← j.record?
    ["ctes", "distinct", "select", "joins", "aliases", "where_clause", "group_by", "having",
      "order_by", "first_result", "max_results"]
  return {
    ctes := ← Json.defaulted fields "ctes" [] (Json.list? r.cte)
    distinct := ← Json.defaulted fields "distinct" false Json.bool?
    items := ← Json.defaulted fields "select" [] (Json.list? r.selectItem)
    joins := ← Json.defaulted fields "joins" {} r.graph
    aliases := ← Json.defaulted fields "aliases" {} r.aliasTable
    condition := ← Json.optional fields "where_clause" r.expr
    groupBy := ← Json.defaulted fields "group_by" [] (Json.list? r.expr)
    having := ← Json.optional fields "having" r.expr
    orderBy := ← Json.defaulted fields "order_by" [] (Json.list? r.orderItem)
    limits := ← limits fields }

def statement (j : Json) : Option Statement := do
  match ← j.variant? with
  | ("select", some c) => return .select (← r.query c)
  | ("update", some c) => return .update (← r.update c)
  | ("delete", some c) => return .delete (← r.delete c)
  | ("delete_collection", some c) => return .collectionDelete (← r.collectionDelete c)
  | _ => none

/-- A query whose nested parts are read by the given readers. -/
def nextQuery (j : Json) : Option Query := do
  match ← j.variant? with
  | ("Select", some c) => return .select (← r.select c)
  | ("SetOperation", some c) => return .combined (← r.setOperation c)
  | _ => none

/-- An expression whose nested parts are read by the given readers. -/
def nextExpr (j : Json) : Option Expr := do
  match ← j.variant? with
  | ("Null", none) | ("Null", some .null) => return .null
  | ("Path", some c) => return .path (← Path.ofJson? c)
  | ("Literal", some c) => return .literal (← Literal.ofJson? c)
  | ("Parameter", some c) => return .parameter (← Parameter.ofJson? c)
  | ("Function", some c) => do
      let fields ← c.record? ["name", "args"]
      let name ← Json.required fields "name" Json.string?
      let args ← Json.required fields "args" (Json.list? r.expr)
      return .call name args
  | ("Aggregate", some c) => do
      let fields ← c.record? ["name", "args", "distinct"]
      let name ← Json.required fields "name" Json.string?
      let args ← Json.required fields "args" (Json.list? r.expr)
      let distinct ← Json.required fields "distinct" Json.bool?
      return .aggregate name args distinct
  | ("Subquery", some c) => return .subquery (← r.query c)
  | ("Array", some c) => do
      let fields ← c.record? ["base", "index"]
      let base ← Json.required fields "base" Path.ofJson?
      let index ← Json.required fields "index" r.expr
      return .indexed base index
  | ("Case", some c) => do
      let fields ← c.record? ["operand", "when_clauses", "else_clause"]
      let operand ← Json.optional fields "operand" r.expr
      let branches ← Json.required fields "when_clauses" (Json.list? (Json.pair? r.expr))
      let otherwise ← Json.optional fields "else_clause" r.expr
      return .caseWhen operand branches otherwise
  | ("Binary", some c) => do
      let fields ← c.record? ["left", "op", "right"]
      let left ← Json.required fields "left" r.expr
      let op ← Json.required fields "op" BinaryOperator.ofJson?
      let right ← Json.required fields "right" r.expr
      return .binary left op right
  | ("Not", some c) => return .not (← r.expr c)
  | ("IsNull", some c) => do
      let fields ← c.record? ["expr", "negated"]
      let e ← Json.required fields "expr" r.expr
      let negated ← Json.required fields "negated" Json.bool?
      return .isNull e negated
  | ("Like", some c) => do
      let fields ← c.record? ["expr", "pattern", "escape", "negated"]
      let e ← Json.required fields "expr" r.expr
      let pattern ← Json.required fields "pattern" r.expr
      let escape ← Json.optional fields "escape" Json.char?
      let negated ← Json.required fields "negated" Json.bool?
      return .like e pattern escape negated
  | ("In", some c) => do
      let fields ← c.record? ["expr", "values", "negated"]
      let e ← Json.required fields "expr" r.expr
      let values ← Json.required fields "values" (Json.list? r.expr)
      let negated ← Json.required fields "negated" Json.bool?
      return .oneOf e values negated
  | ("Between", some c) => do
      let fields ← c.record? ["expr", "low", "high", "negated"]
      let e ← Json.required fields "expr" r.expr
      let low ← Json.required fields "low" r.expr
      let high ← Json.required fields "high" r.expr
      let negated ← Json.required fields "negated" Json.bool?
      return .between e low high negated
  | ("Paren", some c) => return .parens (← r.expr c)
  | ("Verbatim", some c) => return .verbatim (← c.string?)
  | _ => none

/-- The readers that read nothing. -/
def empty : DocumentReaders := ⟨fun _ => none, fun _ => none⟩

/-- The readers of documents with at most `n` levels. -/
def ofDepth : Nat → DocumentReaders
  | 0 => empty
  | n + 1 =>
      let r := ofDepth n
      ⟨r.nextExpr, r.nextQuery⟩

/-- Readers that suffice for a document. -/
def covering (j : Json) : DocumentReaders := ofDepth (j.depth + 1)

end DocumentReaders

namespace Expr

def ofJson? (j : Json) : Option Expr := (DocumentReaders.covering j).expr j

end Expr

namespace JoinGraph

def ofJson? (j : Json) : Option (JoinGraph Expr) := (DocumentReaders.covering j).graph j

end JoinGraph

namespace Cte

def ofJson? (j : Json) : Option Cte := (DocumentReaders.covering j).cte j

end Cte

namespace Statement

def ofJson? (j : Json) : Option Statement := (DocumentReaders.covering j).statement j

end Statement

end EntityQuery
