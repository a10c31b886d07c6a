import EntityQuery.Document.Writing
import EntityQuery.Proofs.Document.Meaning

/-!
What can be stored: statements whose floats are finite, with alias tables that are in the order of
their keys. Tables are kept in that order by every call that changes them. What is written of such
a statement stands for it.
-/

namespace EntityQuery

/-! ### What can be stored -/

namespace Literal

/-- Only finite floats have documents. -/
def Storable (v : Literal) : Prop := ∀ x, v = .float x → x.isFinite = true

end Literal

namespace ParameterValue

def Storable : ParameterValue → Prop
  | scalar v => v.Storable
  | list vs => ∀ v ∈ vs, v.Storable

end ParameterValue

namespace Parameter

def Storable (p : Parameter) : Prop := ∀ v ∈ p.value, v.Storable

end Parameter

mutual

inductive Expr.Storable : Expr → Prop
  | path (p : Path) : Expr.Storable (.path p)
  | literal {v : Literal} (value : v.Storable) : Expr.Storable (.literal v)
  | parameter {p : Parameter} (parameter : p.Storable) : Expr.Storable (.parameter p)
  | call {f : String} {es : List Expr} (args : ∀ e ∈ es, Expr.Storable e) :
      Expr.Storable (.call f es)
  | aggregate {f : String} {es : List Expr} {distinct : Bool} (args : ∀ e ∈ es, Expr.Storable e) :
      Expr.Storable (.aggregate f es distinct)
  | subquery {q : Query} (query : Query.Storable q) : Expr.Storable (.subquery q)
  | indexed {base : Path} {e : Expr} (index : Expr.Storable e) : Expr.Storable (.indexed base e)
  | null : Expr.Storable .null
  | caseWhen {first last : Option Expr} {bs : List (Expr × Expr)}
      (operand : ∀ e ∈ first, Expr.Storable e)
      (conditions : ∀ b ∈ bs, Expr.Storable b.1) (results : ∀ b ∈ bs, Expr.Storable b.2)
      (otherwise : ∀ e ∈ last, Expr.Storable e) : Expr.Storable (.caseWhen first bs last)
  | binary {a b : Expr} {op : BinaryOperator} (left : Expr.Storable a) (right : Expr.Storable b) :
      Expr.Storable (.binary a op b)
  | not {e : Expr} (operand : Expr.Storable e) : Expr.Storable (.not e)
  | isNull {e : Expr} {negated : Bool} (operand : Expr.Storable e) :
      Expr.Storable (.isNull e negated)
  | like {e p : Expr} {escape : Option Char} {negated : Bool} (operand : Expr.Storable e)
      (pattern : Expr.Storable p) : Expr.Storable (.like e p escape negated)
  | oneOf {e : Expr} {vs : List Expr} {negated : Bool} (operand : Expr.Storable e)
      (values : ∀ v ∈ vs, Expr.Storable v) : Expr.Storable (.oneOf e vs negated)
  | between {e a b : Expr} {negated : Bool} (operand : Expr.Storable e) (low : Expr.Storable a)
      (high : Expr.Storable b) : Expr.Storable (.between e a b negated)
  | parens {e : Expr} (operand : Expr.Storable e) : Expr.Storable (.parens e)
  | verbatim (s : String) : Expr.Storable (.verbatim s)

inductive Query.Storable : Query → Prop
  | select {s : Select} (select : Select.Storable s) : Query.Storable (.select s)
  | combined {c : SetOperation} (operation : SetOperation.Storable c) : Query.Storable (.combined c)

inductive Select.Storable : Select → Prop
  | mk {s : Select}
      (ctes : ∀ c ∈ s.ctes, Cte.Storable c)
      (items : ∀ i ∈ s.items, SelectItem.Storable i)
      (joins : JoinGraph.Storable s.joins)
      (aliases : AliasTable.Storable s.aliases)
      (condition : ∀ e ∈ s.condition, Expr.Storable e)
      (groupBy : ∀ e ∈ s.groupBy, Expr.Storable e)
      (having : ∀ e ∈ s.having, Expr.Storable e)
      (orderBy : ∀ i ∈ s.orderBy, OrderItem.Storable i) : Select.Storable s

inductive SelectItem.Storable : SelectItem Expr → Prop
  | mk {i : SelectItem Expr} (expr : Expr.Storable i.expr) : SelectItem.Storable i

inductive OrderItem.Storable : OrderItem Expr → Prop
  | mk {i : OrderItem Expr} (expr : Expr.Storable i.expr) : OrderItem.Storable i

inductive JoinNode.Storable : JoinNode Expr → Prop
  | mk {n : JoinNode Expr} (condition : ∀ e ∈ n.condition, Expr.Storable e) : JoinNode.Storable n

inductive JoinGraph.Storable : JoinGraph Expr → Prop
  | mk {g : JoinGraph Expr} (nodes : ∀ n ∈ g.nodes, JoinNode.Storable n) : JoinGraph.Storable g

inductive AliasEntry.Storable : AliasEntry Expr → Prop
  | join (aliasName : String) (node : NodeId) (implicit : Bool) :
      AliasEntry.Storable (.join aliasName node implicit)
  | select {aliasName : String} {e : Expr} (expr : Expr.Storable e) :
      AliasEntry.Storable (.select aliasName e)

/-- A table is in the order of its keys. -/
inductive AliasTable.Storable : AliasTable Expr → Prop
  | mk {t : AliasTable Expr} (sorted : t.Sorted)
      (entries : ∀ e ∈ t.entries, AliasEntry.Storable e.2) : AliasTable.Storable t

inductive SetOperation.Storable : SetOperation → Prop
  | mk {c : SetOperation}
      (start : Query.Storable c.start)
      (operands : ∀ q ∈ c.operands, Query.Storable q)
      (orderBy : ∀ i ∈ c.orderBy, OrderItem.Storable i) : SetOperation.Storable c

inductive Cte.Storable : Cte → Prop
  | mk {c : Cte} (body : CteBody.Storable c.body) : Cte.Storable c

inductive CteBody.Storable : CteBody → Prop
  | query {q : Query} (query : Query.Storable q) : CteBody.Storable (.query q)
  | update {u : Update} (update : Update.Storable u) : CteBody.Storable (.update u)
  | collectionDelete {d : CollectionDelete} (delete : CollectionDelete.Storable d) :
      CteBody.Storable (.collectionDelete d)

inductive Update.Storable : Update → Prop
  | mk {u : Update}
      (target : Target.Storable u.target)
      (fields : ∀ a ∈ u.assignments, Expr.Storable a.1)
      (values : ∀ a ∈ u.assignments, Expr.Storable a.2)
      (condition : ∀ e ∈ u.condition, Expr.Storable e) : Update.Storable u

inductive CollectionDelete.Storable : CollectionDelete → Prop
  | mk {d : CollectionDelete}
      (target : Target.Storable d.target)
      (condition : ∀ e ∈ d.condition, Expr.Storable e) : CollectionDelete.Storable d

inductive Target.Storable : Target Expr → Prop
  | mk {t : Target Expr} (joins : JoinGraph.Storable t.joins)
      (aliases : AliasTable.Storable t.aliases) : Target.Storable t

end

structure Delete.Storable (d : Delete) : Prop where
  target : Target.Storable d.target
  condition : ∀ e ∈ d.condition, Expr.Storable e

def Statement.Storable : Statement → Prop
  | select q => q.Storable
  | update u => u.Storable
  | delete d => d.Storable
  | collectionDelete d => d.Storable

/-! ### Lists of documents -/

theorem Expr.toJsonList_eq (es : List Expr) : Expr.toJsonList es = es.map Expr.toJson := by
  induction es with
  | nil => rfl
  | cons e rest ih => rw [Expr.toJsonList, ih, List.map_cons]

theorem Expr.toJsonPairs_eq (bs : List (Expr × Expr)) :
    Expr.toJsonPairs bs = bs.map fun b => .array [b.1.toJson, b.2.toJson] := by
  induction bs with
  | nil => rfl
  | cons b rest ih => rw [Expr.toJsonPairs, ih, List.map_cons]

theorem Query.toJsonList_eq (qs : List Query) : Query.toJsonList qs = qs.map Query.toJson := by
  induction qs with
  | nil => rfl
  | cons q rest ih => rw [Query.toJsonList, ih, List.map_cons]

theorem SelectItem.toJsonList_eq (is : List (SelectItem Expr)) :
    SelectItem.toJsonList is = is.map SelectItem.toJson := by
  induction is with
  | nil => rfl
  | cons i rest ih => rw [SelectItem.toJsonList, ih, List.map_cons]

theorem OrderItem.toJsonList_eq (is : List (OrderItem Expr)) :
    OrderItem.toJsonList is = is.map OrderItem.toJson := by
  induction is with
  | nil => rfl
  | cons i rest ih => rw [OrderItem.toJsonList, ih, List.map_cons]

theorem JoinNode.toJsonList_eq (ns : List (JoinNode Expr)) :
    JoinNode.toJsonList ns = ns.map JoinNode.toJson := by
  induction ns with
  | nil => rfl
  | cons n rest ih => rw [JoinNode.toJsonList, ih, List.map_cons]

theorem AliasEntry.toJsonFields_eq (es : List (String × AliasEntry Expr)) :
    AliasEntry.toJsonFields es = es.map fun e => (e.1, AliasEntry.toJson e.2) := by
  induction es with
  | nil => rfl
  | cons e rest ih => rw [AliasEntry.toJsonFields, ih, List.map_cons]

theorem Cte.toJsonList_eq (cs : List Cte) : Cte.toJsonList cs = cs.map Cte.toJson := by
  induction cs with
  | nil => rfl
  | cons c rest ih => rw [Cte.toJsonList, ih, List.map_cons]

/-! ### What is written stands for what was stored -/

namespace DocumentType.Means

theorem strings (ss : List String) : Means (.list .string) (.ofStrings ss) ss :=
  list fun s _ => string s

theorem nodeIds (ids : List NodeId) : Means (.list .nodeId) (.array (ids.map .ofNodeId)) ids :=
  list fun id _ => nodeId id

end DocumentType.Means

theorem Literal.Storable.means {v : Literal} (h : v.Storable) :
    DocumentType.literal.Means v.toJson v := by
  cases v with
  | int n => exact .single .literal "Int" rfl (.int64 n)
  | float x =>
    rw [Literal.toJson, if_pos (h x rfl)]
    exact .single .literal "Float" rfl .double
  | string s => exact .single .literal "String" rfl (.string s)
  | bool b => exact .single .literal "Bool" rfl (.bool b)

theorem ParameterValue.Storable.means {v : ParameterValue} (h : v.Storable) :
    DocumentType.parameterValue.Means v.toJson v := by
  cases v with
  | scalar v => exact .single .parameterValue "Scalar" rfl (Literal.Storable.means h)
  | list vs => exact .single .parameterValue "List" rfl (.list fun v hv => (h v hv).means)

theorem Parameter.Storable.means {p : Parameter} (h : p.Storable) :
    DocumentType.parameter.Means p.toJson p :=
  .record .parameter rfl (p.name, p.value, ())
    ⟨rfl, .ofOption fun s _ => .string s, rfl, .ofOption fun v hv => (h v hv).means, rfl⟩

theorem Path.means (p : Path) : DocumentType.path.Means p.toJson p :=
  .record .path rfl (p.elements, p.base, p.field, p.inCollectionFunction, p.keySide, ())
    ⟨rfl, .strings p.elements, rfl, .ofOption fun id _ => .nodeId id, rfl,
      .ofOption fun s _ => .string s, rfl, .bool _, rfl, .bool _, rfl⟩

theorem BinaryOperator.means (op : BinaryOperator) :
    DocumentType.binaryOperator.Means (.string op.documentName) op :=
  .named .binaryOperator BinaryOperator.all BinaryOperator.documentName rfl (by cases op <;> rfl)

theorem Relation.means (r : Relation) :
    DocumentType.relation.Means (.string r.documentName) r :=
  .named .relation Relation.all Relation.documentName rfl (by cases r <;> rfl)

theorem JoinType.means (t : JoinType) : DocumentType.joinType.Means (.string t.documentName) t :=
  .named .joinType JoinType.all JoinType.documentName rfl (by cases t <;> rfl)

theorem SortDirection.means (d : SortDirection) :
    DocumentType.sortDirection.Means (.string d.documentName) d :=
  .named .sortDirection SortDirection.all SortDirection.documentName rfl (by cases d <;> rfl)

theorem NullsOrder.means (n : NullsOrder) :
    DocumentType.nullsOrder.Means (.string n.documentName) n :=
  .named .nullsOrder NullsOrder.all NullsOrder.documentName rfl (by cases n <;> rfl)

theorem SetOperator.means (op : SetOperator) :
    DocumentType.setOperator.Means (.string op.documentName) op :=
  .named .setOperator SetOperator.all SetOperator.documentName rfl (by cases op <;> rfl)

theorem JoinSource.means (s : JoinSource) : DocumentType.joinSource.Means s.toJson s := by
  cases s with
  | root entity => exact .fields .joinSource "Root" rfl (entity, ()) ⟨rfl, .string entity, rfl⟩
  | ofAttribute attr relation =>
    exact .fields .joinSource "Attribute" rfl (attr, relation, ())
      ⟨rfl, .string attr, rfl, relation.means, rfl⟩
  | ofEntity entity => exact .fields .joinSource "Entity" rfl (entity, ()) ⟨rfl, .string entity, rfl⟩
  | correlated path => exact .fields .joinSource "Correlated" rfl (path, ()) ⟨rfl, .string path, rfl⟩

theorem Expr.means_toJsonOption {name : String} {e : Option Expr}
    (h : ∀ a ∈ e, DocumentType.expr.Means a.toJson a) :
    (DocumentField.optional name .expr).Means (Expr.toJsonOption e) e := by
  cases e with
  | none => rfl
  | some a => exact h a rfl

theorem Expr.means_toJsonPairs {bs : List (Expr × Expr)}
    (hfirst : ∀ b ∈ bs, DocumentType.expr.Means b.1.toJson b.1)
    (hsecond : ∀ b ∈ bs, DocumentType.expr.Means b.2.toJson b.2) :
    DocumentType.Means (.list (.pair .expr)) (.array (Expr.toJsonPairs bs)) bs := by
  rw [Expr.toJsonPairs_eq]
  exact .list fun b hb => .pair (hfirst b hb) (hsecond b hb)

/-! The recursion is on why something can be stored: there is one case for each of the reasons, and
the hypotheses of a case are about the parts. -/

mutual

theorem Expr.Storable.means : ∀ {e : Expr}, e.Storable → DocumentType.expr.Means e.toJson e
  | .path p, _ => .single .expr "Path" rfl p.means
  | .literal _, .literal value => .single .expr "Literal" rfl value.means
  | .parameter _, .parameter parameter => .single .expr "Parameter" rfl parameter.means
  | .call f es, .call args => by
      have hargs := DocumentType.Means.list fun e he => Expr.Storable.means (args e he)
      rw [Expr.toJson, Expr.toJsonList_eq]
      exact .fields .expr "Function" rfl (f, es, ()) ⟨rfl, .string f, rfl, hargs, rfl⟩
  | .aggregate f es distinct, .aggregate args => by
      have hargs := DocumentType.Means.list fun e he => Expr.Storable.means (args e he)
      rw [Expr.toJson, Expr.toJsonList_eq]
      exact .fields .expr "Aggregate" rfl (f, es, distinct, ())
        ⟨rfl, .string f, rfl, hargs, rfl, .bool distinct, rfl⟩
  | .subquery _, .subquery query => .single .expr "Subquery" rfl query.means
  | .indexed base e, .indexed index =>
      .fields .expr "Array" rfl (base, e, ()) ⟨rfl, base.means, rfl, index.means, rfl⟩
  | .null, _ => .nothing .expr "Null" rfl
  | .caseWhen first bs last, .caseWhen operand conditions results otherwise => by
      have hbranches := Expr.means_toJsonPairs (fun b hb => (conditions b hb).means)
        fun b hb => (results b hb).means
      exact .fields .expr "Case" rfl (first, bs, last, ())
        ⟨rfl, Expr.means_toJsonOption fun e he => (operand e he).means, rfl, hbranches, rfl,
          Expr.means_toJsonOption fun e he => (otherwise e he).means, rfl⟩
  | .binary a op b, .binary left right =>
      .fields .expr "Binary" rfl (a, op, b, ())
        ⟨rfl, left.means, rfl, op.means, rfl, right.means, rfl⟩
  | .not _, .not operand => .single .expr "Not" rfl operand.means
  | .isNull e negated, .isNull operand =>
      .fields .expr "IsNull" rfl (e, negated, ()) ⟨rfl, operand.means, rfl, .bool negated, rfl⟩
  | .like e p escape negated, .like operand pattern =>
      .fields .expr "Like" rfl (e, p, escape, negated, ())
        ⟨rfl, operand.means, rfl, pattern.means, rfl, .ofOption fun c _ => .char c, rfl,
          .bool negated, rfl⟩
  | .oneOf e vs negated, .oneOf operand values => by
      have hvalues := DocumentType.Means.list fun v hv => Expr.Storable.means (values v hv)
      rw [Expr.toJson, Expr.toJsonList_eq]
      exact .fields .expr "In" rfl (e, vs, negated, ())
        ⟨rfl, operand.means, rfl, hvalues, rfl, .bool negated, rfl⟩
  | .between e a b negated, .between operand low high =>
      .fields .expr "Between" rfl (e, a, b, negated, ())
        ⟨rfl, operand.means, rfl, low.means, rfl, high.means, rfl, .bool negated, rfl⟩
  | .parens _, .parens operand => .single .expr "Paren" rfl operand.means
  | .verbatim s, _ => .single .expr "Verbatim" rfl (.string s)

theorem Query.Storable.means : ∀ {q : Query}, q.Storable → DocumentType.query.Means q.toJson q
  | _, .select select => .single .query "Select" rfl select.means
  | _, .combined operation => .single .query "SetOperation" rfl operation.means

theorem Select.Storable.means : ∀ {s : Select}, s.Storable → DocumentType.select.Means s.toJson s
  | ⟨ctes, distinct, items, joins, aliases, condition, groupBy, having, orderBy, limits⟩,
    .mk hctes hitems hjoins haliases hcondition hgroupBy hhaving horderBy => by
      have hctes := DocumentType.Means.list fun c hc => Cte.Storable.means (hctes c hc)
      have hitems := DocumentType.Means.list fun i hi => SelectItem.Storable.means (hitems i hi)
      have hgroupBy := DocumentType.Means.list fun e he => Expr.Storable.means (hgroupBy e he)
      have horderBy := DocumentType.Means.list fun i hi => OrderItem.Storable.means (horderBy i hi)
      rw [Select.toJson, Cte.toJsonList_eq, SelectItem.toJsonList_eq, Expr.toJsonList_eq,
        OrderItem.toJsonList_eq]
      exact .record .select rfl (ctes, distinct, items, joins, aliases, condition, groupBy, having,
          orderBy, limits.first, limits.max, ())
        ⟨rfl, hctes, rfl, .bool distinct, rfl, hitems, rfl, hjoins.means, rfl, haliases.means, rfl,
          Expr.means_toJsonOption fun e he => (hcondition e he).means, rfl, hgroupBy, rfl,
          Expr.means_toJsonOption fun e he => (hhaving e he).means, rfl, horderBy, rfl,
          .ofOption fun n _ => .uint64 n, rfl, .ofOption fun n _ => .uint64 n, rfl⟩

theorem SelectItem.Storable.means : ∀ {i : SelectItem Expr}, SelectItem.Storable i →
    DocumentType.selectItem.Means (SelectItem.toJson i) i
  | ⟨e, aliasName⟩, .mk expr =>
      .record .selectItem rfl (e, aliasName, ())
        ⟨rfl, expr.means, rfl, .ofOption fun s _ => .string s, rfl⟩

theorem OrderItem.Storable.means : ∀ {i : OrderItem Expr}, OrderItem.Storable i →
    DocumentType.orderItem.Means (OrderItem.toJson i) i
  | ⟨e, direction, nulls⟩, .mk expr =>
      .record .orderItem rfl (e, direction, nulls, ())
        ⟨rfl, expr.means, rfl, direction.means, rfl, .ofOption fun n _ => n.means, rfl⟩

theorem JoinNode.Storable.means : ∀ {n : JoinNode Expr}, JoinNode.Storable n →
    DocumentType.node.Means (JoinNode.toJson n) n
  | ⟨aliasName, source, parent, type, fetch, condition, implicit⟩, .mk hcondition =>
      .record .node rfl (aliasName, source, parent, type, fetch, condition, implicit, ())
        ⟨rfl, .string aliasName, rfl, source.means, rfl, .ofOption fun id _ => .nodeId id, rfl,
          .ofOption fun t _ => t.means, rfl, .bool fetch, rfl,
          Expr.means_toJsonOption fun e he => (hcondition e he).means, rfl, .bool implicit, rfl⟩

theorem JoinGraph.Storable.means : ∀ {g : JoinGraph Expr}, JoinGraph.Storable g →
    DocumentType.graph.Means (JoinGraph.toJson g) g
  | ⟨nodes, roots⟩, .mk hnodes => by
      have hnodes := DocumentType.Means.list fun n hn => JoinNode.Storable.means (hnodes n hn)
      rw [JoinGraph.toJson, JoinNode.toJsonList_eq]
      exact .record .graph rfl (nodes, roots, ()) ⟨rfl, hnodes, rfl, .nodeIds roots, rfl⟩

theorem AliasEntry.Storable.means : ∀ {entry : AliasEntry Expr}, AliasEntry.Storable entry →
    DocumentType.aliasEntry.Means (AliasEntry.toJson entry) entry
  | .join aliasName id implicit, _ =>
      .fields .aliasEntry "Join" rfl (aliasName, id, implicit, ())
        ⟨rfl, .string aliasName, rfl, .nodeId id, rfl, .bool implicit, rfl⟩
  | .select aliasName e, .select expr =>
      .fields .aliasEntry "Select" rfl (aliasName, e, ())
        ⟨rfl, .string aliasName, rfl, expr.means, rfl⟩

theorem AliasTable.Storable.means : ∀ {t : AliasTable Expr}, AliasTable.Storable t →
    DocumentType.aliasTable.Means (AliasTable.toJson t) t
  | ⟨es⟩, .mk sorted entries => by
      have hentries := DocumentType.Means.entries
        (fun e he => AliasEntry.Storable.means (entries e he)) sorted
      rw [AliasTable.toJson, AliasEntry.toJsonFields_eq]
      exact .record .aliasTable rfl (⟨es⟩, ()) ⟨rfl, hentries, rfl⟩

theorem SetOperation.Storable.means : ∀ {c : SetOperation}, c.Storable →
    DocumentType.setOperation.Means c.toJson c
  | ⟨operator, start, operands, orderBy, limits⟩, .mk hstart hoperands horderBy => by
      have hoperands := DocumentType.Means.list fun q hq => Query.Storable.means (hoperands q hq)
      have horderBy := DocumentType.Means.list fun i hi => OrderItem.Storable.means (horderBy i hi)
      rw [SetOperation.toJson, Query.toJsonList_eq, OrderItem.toJsonList_eq]
      exact .record .setOperation rfl
        (operator, start, operands, orderBy, limits.first, limits.max, ())
        ⟨rfl, .ofOption fun op _ => op.means, rfl, hstart.means, rfl, hoperands, rfl, horderBy,
          rfl, .ofOption fun n _ => .uint64 n, rfl, .ofOption fun n _ => .uint64 n, rfl⟩

theorem Cte.Storable.means : ∀ {c : Cte}, c.Storable → DocumentType.cte.Means c.toJson c
  | ⟨entity, columns, body, recursive⟩, .mk hbody =>
      .record .cte rfl (entity, columns, body, recursive, ())
        ⟨rfl, .string entity, rfl, .strings columns, rfl, hbody.means, rfl, .bool recursive, rfl⟩

theorem CteBody.Storable.means : ∀ {b : CteBody}, b.Storable →
    DocumentType.cteBody.Means b.toJson b
  | _, .query query => .single .cteBody "query" rfl query.means
  | _, .update update => .single .cteBody "update" rfl update.means
  | _, .collectionDelete delete => .single .cteBody "delete_collection" rfl delete.means

theorem Update.Storable.means : ∀ {u : Update}, u.Storable → DocumentType.update.Means u.toJson u
  | ⟨target, assignments, condition, returning⟩, .mk htarget hfields hvalues hcondition => by
      have hassignments := Expr.means_toJsonPairs (fun a ha => (hfields a ha).means)
        fun a ha => (hvalues a ha).means
      exact .record .update rfl (target, assignments, condition, returning, ())
        ⟨rfl, htarget.means, rfl, hassignments, rfl,
          Expr.means_toJsonOption fun e he => (hcondition e he).means, rfl, .strings returning,
          rfl⟩

theorem CollectionDelete.Storable.means : ∀ {d : CollectionDelete}, d.Storable →
    DocumentType.collectionDelete.Means d.toJson d
  | ⟨target, collection, condition, returning⟩, .mk htarget hcondition =>
      .record .collectionDelete rfl (target, collection, condition, returning, ())
        ⟨rfl, htarget.means, rfl, .string collection, rfl,
          Expr.means_toJsonOption fun e he => (hcondition e he).means, rfl, .strings returning,
          rfl⟩

theorem Target.Storable.means : ∀ {t : Target Expr}, Target.Storable t →
    DocumentType.target.Means (Target.toJson t) t
  | ⟨entity, aliasName, joins, aliases⟩, .mk hjoins haliases =>
      .record .target rfl (entity, aliasName, joins, aliases, ())
        ⟨rfl, .string entity, rfl, .string aliasName, rfl, hjoins.means, rfl, haliases.means, rfl⟩

end

theorem Delete.Storable.means {d : Delete} (h : d.Storable) :
    DocumentType.delete.Means d.toJson d :=
  .record .delete rfl (d.target, d.condition, d.returning, ())
    ⟨rfl, h.target.means, rfl, Expr.means_toJsonOption fun e he => (h.condition e he).means, rfl,
      .strings d.returning, rfl⟩

/-- What is written of a statement stands for the statement. -/
theorem Statement.Storable.means {s : Statement} (h : s.Storable) :
    DocumentType.statement.Means s.toJson s := by
  cases s with
  | select q => exact .single .statement "select" rfl (Query.Storable.means h)
  | update u => exact .single .statement "update" rfl (Update.Storable.means h)
  | delete d => exact .single .statement "delete" rfl (Delete.Storable.means h)
  | collectionDelete d =>
    exact .single .statement "delete_collection" rfl (CollectionDelete.Storable.means h)

end EntityQuery
