import EntityQuery.Document.Reading

/-!
The form of documents as data: for each type of what is stored, which fields or which alternatives
its documents have. Reading a document is going by its form; so what holds of all documents is
proved once, for any form.
-/

namespace EntityQuery

/-- The types of what stands in one place of a document. -/
inductive DocumentType where
  | string
  | bool
  | int64
  | uint64
  | nodeId
  | double
  | char
  | list (item : DocumentType)
  | pair (part : DocumentType)
  | literal
  | parameterValue
  | parameter
  | path
  | binaryOperator
  | relation
  | joinType
  | sortDirection
  | nullsOrder
  | setOperator
  | joinSource
  | expr
  | query
  | select
  | selectItem
  | orderItem
  | node
  | graph
  | aliasEntry
  | aliasEntries
  | aliasTable
  | setOperation
  | cte
  | cteBody
  | update
  | delete
  | collectionDelete
  | target
  | statement

namespace DocumentType

/-- What a document of the type stands for. -/
@[reducible] def Value : DocumentType → Type
  | string => String
  | bool => Bool
  | int64 => Int64
  | uint64 => UInt64
  | nodeId => NodeId
  | double => Double
  | char => Char
  | list item => List item.Value
  | pair part => part.Value × part.Value
  | literal => Literal
  | parameterValue => ParameterValue
  | parameter => Parameter
  | path => Path
  | binaryOperator => BinaryOperator
  | relation => Relation
  | joinType => JoinType
  | sortDirection => SortDirection
  | nullsOrder => NullsOrder
  | setOperator => SetOperator
  | joinSource => JoinSource
  | expr => Expr
  | query => Query
  | select => Select
  | selectItem => SelectItem Expr
  | orderItem => OrderItem Expr
  | node => JoinNode Expr
  | graph => JoinGraph Expr
  | aliasEntry => AliasEntry Expr
  | aliasEntries => AliasTable Expr
  | aliasTable => AliasTable Expr
  | setOperation => SetOperation
  | cte => Cte
  | cteBody => CteBody
  | update => Update
  | delete => Delete
  | collectionDelete => CollectionDelete
  | target => Target Expr
  | statement => Statement

/-- Readers for all types. -/
abbrev Reader := (t : DocumentType) → Json → Option t.Value

/-- The readers of one level. -/
def read (r : DocumentReaders) : Reader
  | string => Json.string?
  | bool => Json.bool?
  | int64 => Json.int64?
  | uint64 => Json.uint64?
  | nodeId => Json.nodeId?
  | double => Json.double?
  | char => Json.char?
  | list item => Json.list? (read r item)
  | pair part => Json.pair? (read r part)
  | literal => Literal.ofJson?
  | parameterValue => ParameterValue.ofJson?
  | parameter => Parameter.ofJson?
  | path => Path.ofJson?
  | binaryOperator => BinaryOperator.ofJson?
  | relation => Json.choice? Relation.all Relation.documentName
  | joinType => Json.choice? JoinType.all JoinType.documentName
  | sortDirection => Json.choice? SortDirection.all SortDirection.documentName
  | nullsOrder => Json.choice? NullsOrder.all NullsOrder.documentName
  | setOperator => Json.choice? SetOperator.all SetOperator.documentName
  | joinSource => JoinSource.ofJson?
  | expr => r.expr
  | query => r.query
  | select => r.select
  | selectItem => r.selectItem
  | orderItem => r.orderItem
  | node => r.node
  | graph => r.graph
  | aliasEntry => r.aliasEntry
  | aliasEntries => r.aliasEntries
  | aliasTable => r.aliasTable
  | setOperation => r.setOperation
  | cte => r.cte
  | cteBody => r.cteBody
  | update => r.update
  | delete => r.delete
  | collectionDelete => r.collectionDelete
  | target => r.target
  | statement => r.statement

end DocumentType

/-- A field of a record, and what it means if it is absent. -/
inductive DocumentField where
  | required (name : String) (type : DocumentType)
  | optional (name : String) (type : DocumentType)
  | defaulted (name : String) (type : DocumentType) (default : type.Value)

namespace DocumentField

def name : DocumentField → String
  | required name _ | optional name _ | defaulted name _ _ => name

def type : DocumentField → DocumentType
  | required _ type | optional _ type | defaulted _ type _ => type

/-- What is known of a field. -/
@[reducible] def Value : DocumentField → Type
  | required _ type => type.Value
  | optional _ type => Option type.Value
  | defaulted _ type _ => type.Value

/-- What is known of several fields. -/
@[reducible] def Values : List DocumentField → Type
  | [] => Unit
  | f :: rest => f.Value × Values rest

variable (R : DocumentType.Reader)

/-- What is known of a field from what stands there, if anything does. -/
def read : (f : DocumentField) → Option Json → Option f.Value
  | required _ type, found => found.bind (R type)
  | optional _ _, none | optional _ _, some .null => some none
  | optional _ type, some j => (R type j).map some
  | defaulted _ _ default, none => some default
  | defaulted _ type _, some j => R type j

def readAll (found : List (String × Json)) : (fs : List DocumentField) → Option (Values fs)
  | [] => pure ()
  | f :: rest => do
      let value ← f.read R (found.lookup f.name)
      let values ← readAll found rest
      return (value, values)

end DocumentField

open DocumentField (Values)

/-- An object with fields of its own, each once. -/
structure DocumentRecord (α : Type) where
  fields : List DocumentField
  distinct : (fields.map DocumentField.name).Nodup
  assemble : Values fields → α

/-- What belongs to the name of an alternative. -/
inductive DocumentContent (α : Type) where
  | nothing (value : α)
  | single (type : DocumentType) (wrap : type.Value → α)
  | fields (record : DocumentRecord α)

/-- The form of documents of one type. -/
inductive DocumentForm (α : Type) where
  /-- A value that has no parts. -/
  | atom (read : Json → Option α)
  | items (type : DocumentType) (wrap : List type.Value → α)
  | couple (type : DocumentType) (wrap : type.Value × type.Value → α)
  /-- An object with fields of any names. -/
  | entries (type : DocumentType) (wrap : List (String × type.Value) → α)
  | record (record : DocumentRecord α)
  | alternatives (contents : List (String × DocumentContent α))

/-- The alternative of a name, if the form has one. -/
def DocumentForm.content? {α : Type} : DocumentForm α → String → Option (DocumentContent α)
  | alternatives contents, name => contents.lookup name
  | _, _ => none

section Reading

variable {α : Type} (R : DocumentType.Reader)

def DocumentRecord.read (record : DocumentRecord α) (j : Json) : Option α := do
  let found ← j.record? (record.fields.map DocumentField.name)
  let values ← DocumentField.readAll R found record.fields
  return record.assemble values

def DocumentContent.read : DocumentContent α → Option Json → Option α
  | nothing value, none | nothing value, some .null => some value
  | single type wrap, some j => (R type j).map wrap
  | fields r, some j => r.read R j
  | _, _ => none

def DocumentForm.read : DocumentForm α → Json → Option α
  | atom read, j => read j
  | items type wrap, j => (j.list? (R type)).map wrap
  | couple type wrap, j => (j.pair? (R type)).map wrap
  | entries type wrap, .object found =>
      (found.mapM fun f => (R type f.2).map fun value => (f.1, value)).map wrap
  | entries _ _, _ => none
  | record r, j => r.read R j
  | alternatives contents, j => do
      let (name, content) ← j.variant?
      let found ← contents.lookup name
      found.read R content

end Reading

/-- Alternatives that are nothing but their names. -/
def DocumentForm.names {α : Type} (all : List α) (name : α → String) : DocumentForm α :=
  .alternatives (all.map fun a => (name a, .nothing a))

namespace DocumentType

/-- The form of the documents of a type. -/
def form : (t : DocumentType) → DocumentForm t.Value
  | string => .atom Json.string?
  | bool => .atom Json.bool?
  | int64 => .atom Json.int64?
  | uint64 => .atom Json.uint64?
  | nodeId => .atom Json.nodeId?
  | double => .atom Json.double?
  | char => .atom Json.char?
  | list item => .items item id
  | pair part => .couple part id
  | literal => .alternatives [
      ("Int", .single int64 .int),
      ("Float", .single double .float),
      ("String", .single string .string),
      ("Bool", .single bool .bool)]
  | parameterValue => .alternatives [
      ("Scalar", .single literal .scalar),
      ("List", .single (list literal) .list)]
  | parameter => .record {
      fields := [.optional "name" string, .optional "value" parameterValue]
      distinct := by decide
      assemble := fun (name, value, ()) => ⟨name, value⟩ }
  | path => .record {
      fields := [
        .required "elements" (list string),
        .optional "base" nodeId,
        .optional "field" string,
        .required "used_in_collection_function" bool,
        .required "collection_key_path" bool]
      distinct := by decide
      assemble := fun (elements, base, field, inCollectionFunction, keySide, ()) =>
        ⟨elements, base, field, inCollectionFunction, keySide⟩ }
  | binaryOperator => .names BinaryOperator.all BinaryOperator.documentName
  | relation => .names Relation.all Relation.documentName
  | joinType => .names JoinType.all JoinType.documentName
  | sortDirection => .names SortDirection.all SortDirection.documentName
  | nullsOrder => .names NullsOrder.all NullsOrder.documentName
  | setOperator => .names SetOperator.all SetOperator.documentName
  | joinSource => .alternatives [
      ("Root", .fields {
        fields := [.required "entity" string]
        distinct := by decide
        assemble := fun (entity, ()) => .root entity }),
      ("Attribute", .fields {
        fields := [.required "attribute" string, .required "relation" relation]
        distinct := by decide
        assemble := fun (attr, kind, ()) => .ofAttribute attr kind }),
      ("Entity", .fields {
        fields := [.required "entity" string]
        distinct := by decide
        assemble := fun (entity, ()) => .ofEntity entity }),
      ("Correlated", .fields {
        fields := [.required "path" string]
        distinct := by decide
        assemble := fun (p, ()) => .correlated p })]
  | expr => .alternatives [
      ("Null", .nothing .null),
      ("Path", .single path .path),
      ("Literal", .single literal .literal),
      ("Parameter", .single parameter .parameter),
      ("Function", .fields {
        fields := [.required "name" string, .required "args" (list expr)]
        distinct := by decide
        assemble := fun (name, args, ()) => .call name args }),
      ("Aggregate", .fields {
        fields := [
          .required "name" string,
          .required "args" (list expr),
          .required "distinct" bool]
        distinct := by decide
        assemble := fun (name, args, distinct, ()) => .aggregate name args distinct }),
      ("Subquery", .single query .subquery),
      ("Array", .fields {
        fields := [.required "base" path, .required "index" expr]
        distinct := by decide
        assemble := fun (base, index, ()) => .indexed base index }),
      ("Case", .fields {
        fields := [
          .optional "operand" expr,
          .required "when_clauses" (list (pair expr)),
          .optional "else_clause" expr]
        distinct := by decide
        assemble := fun (operand, branches, otherwise, ()) =>
          .caseWhen operand branches otherwise }),
      ("Binary", .fields {
        fields := [
          .required "left" expr,
          .required "op" binaryOperator,
          .required "right" expr]
        distinct := by decide
        assemble := fun (left, op, right, ()) => .binary left op right }),
      ("Not", .single expr .not),
      ("IsNull", .fields {
        fields := [.required "expr" expr, .required "negated" bool]
        distinct := by decide
        assemble := fun (e, negated, ()) => .isNull e negated }),
      ("Like", .fields {
        fields := [
          .required "expr" expr,
          .required "pattern" expr,
          .optional "escape" char,
          .required "negated" bool]
        distinct := by decide
        assemble := fun (e, pattern, escape, negated, ()) => .like e pattern escape negated }),
      ("In", .fields {
        fields := [
          .required "expr" expr,
          .required "values" (list expr),
          .required "negated" bool]
        distinct := by decide
        assemble := fun (e, values, negated, ()) => .oneOf e values negated }),
      ("Between", .fields {
        fields := [
          .required "expr" expr,
          .required "low" expr,
          .required "high" expr,
          .required "negated" bool]
        distinct := by decide
        assemble := fun (e, low, high, negated, ()) => .between e low high negated }),
      ("Paren", .single expr .parens),
      ("Verbatim", .single string .verbatim)]
  | query => .alternatives [
      ("Select", .single select .select),
      ("SetOperation", .single setOperation .combined)]
  | select => .record {
      fields := [
        .defaulted "ctes" (list cte) [],
        .defaulted "distinct" bool false,
        .defaulted "select" (list selectItem) [],
        .defaulted "joins" graph {},
        .defaulted "aliases" aliasTable {},
        .optional "where_clause" expr,
        .defaulted "group_by" (list expr) [],
        .optional "having" expr,
        .defaulted "order_by" (list orderItem) [],
        .optional "first_result" uint64,
        .optional "max_results" uint64]
      distinct := by decide
      assemble := fun (ctes, distinct, items, joins, aliases, condition, groupBy, having, orderBy,
          first, max, ()) =>
        ⟨ctes, distinct, items, joins, aliases, condition, groupBy, having, orderBy,
          ⟨first, max⟩⟩ }
  | selectItem => .record {
      fields := [.required "expr" expr, .optional "alias" string]
      distinct := by decide
      assemble := fun (e, aliasName, ()) => ⟨e, aliasName⟩ }
  | orderItem => .record {
      fields := [
        .required "expr" expr,
        .defaulted "dir" sortDirection .asc,
        .optional "nulls" nullsOrder]
      distinct := by decide
      assemble := fun (e, direction, nulls, ()) => ⟨e, direction, nulls⟩ }
  | node => .record {
      fields := [
        .required "alias" string,
        .required "source" joinSource,
        .optional "parent" nodeId,
        .optional "join_type" joinType,
        .defaulted "fetch" bool false,
        .optional "on" expr,
        .defaulted "implicit" bool false]
      distinct := by decide
      assemble := fun (aliasName, source, parent, type, fetch, condition, implicit, ()) =>
        ⟨aliasName, source, parent, type, fetch, condition, implicit⟩ }
  | graph => .record {
      fields := [.required "nodes" (list node), .required "roots" (list nodeId)]
      distinct := by decide
      assemble := fun (nodes, roots, ()) => ⟨nodes, roots⟩ }
  | aliasEntry => .alternatives [
      ("Join", .fields {
        fields := [
          .required "alias" string,
          .required "node" nodeId,
          .defaulted "implicit" bool false]
        distinct := by decide
        assemble := fun (aliasName, id, implicit, ()) => .join aliasName id implicit }),
      ("Select", .fields {
        fields := [.required "alias" string, .required "expr" expr]
        distinct := by decide
        assemble := fun (aliasName, e, ()) => .select aliasName e })]
  | aliasEntries => .entries aliasEntry fun es =>
      es.foldl (fun t e => AliasTable.insert t e.1 e.2) {}
  | aliasTable => .record {
      fields := [.required "aliases" aliasEntries]
      distinct := by decide
      assemble := fun (t, ()) => t }
  | setOperation => .record {
      fields := [
        .optional "operator" setOperator,
        .required "start" query,
        .defaulted "operands" (list query) [],
        .defaulted "order_by" (list orderItem) [],
        .optional "first_result" uint64,
        .optional "max_results" uint64]
      distinct := by decide
      assemble := fun (operator, start, operands, orderBy, first, max, ()) =>
        ⟨operator, start, operands, orderBy, ⟨first, max⟩⟩ }
  | cte => .record {
      fields := [
        .required "entity" string,
        .required "attributes" (list string),
        .required "body" cteBody,
        .defaulted "recursive" bool false]
      distinct := by decide
      assemble := fun (entity, columns, body, recursive, ()) => ⟨entity, columns, body, recursive⟩ }
  | cteBody => .alternatives [
      ("query", .single query .query),
      ("update", .single update .update),
      ("delete_collection", .single collectionDelete .collectionDelete)]
  | update => .record {
      fields := [
        .required "target" target,
        .required "assignments" (list (pair expr)),
        .optional "where_clause" expr,
        .defaulted "returning" (list string) []]
      distinct := by decide
      assemble := fun (changed, assignments, condition, returning, ()) =>
        ⟨changed, assignments, condition, returning⟩ }
  | delete => .record {
      fields := [
        .required "target" target,
        .optional "where_clause" expr,
        .defaulted "returning" (list string) []]
      distinct := by decide
      assemble := fun (changed, condition, returning, ()) => ⟨changed, condition, returning⟩ }
  | collectionDelete => .record {
      fields := [
        .required "target" target,
        .required "collection" string,
        .optional "where_clause" expr,
        .defaulted "returning" (list string) []]
      distinct := by decide
      assemble := fun (changed, collection, condition, returning, ()) =>
        ⟨changed, collection, condition, returning⟩ }
  | target => .record {
      fields := [
        .required "entity" string,
        .required "alias" string,
        .defaulted "joins" graph {},
        .defaulted "aliases" aliasTable {}]
      distinct := by decide
      assemble := fun (entity, aliasName, joins, aliases, ()) =>
        ⟨entity, aliasName, joins, aliases⟩ }
  | statement => .alternatives [
      ("select", .single query .select),
      ("update", .single update .update),
      ("delete", .single delete .delete),
      ("delete_collection", .single collectionDelete .collectionDelete)]

end DocumentType

end EntityQuery
