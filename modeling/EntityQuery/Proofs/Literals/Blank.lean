import EntityQuery.Proofs.Render.Sites

/-!
Statements with a blank: a place for the content of one text literal. A statement with a blank is
given as the function that fills it; all that is not in the blank stays the same. The blank may
stand anywhere, in what is never written too: in a value that is bound to a parameter, in the index
of an element, under an alias, on a modified entity. It is not the name of a function that is called
by its name.

With `once`, the blank is not in the condition of a join that a FROM clause writes several times,
for several entries that start at the same root.
-/

namespace EntityQuery

variable (once : Prop)

mutual

inductive Expr.Blank : (String → Expr) → Prop
  | literal : Expr.Blank fun content => .literal (.string content)
  | scalar (name : Option String) :
      Expr.Blank fun content => .parameter ⟨name, some (.scalar (.string content))⟩
  | listed (name : Option String) (before after : List Literal) :
      Expr.Blank fun content =>
        .parameter ⟨name, some (.list (before ++ .string content :: after))⟩
  | argument (function : String) (before after : List Expr) {e} (h : Expr.Blank e)
      (hname : before = [] → Expr.genericName? function [e ""] = none) :
      Expr.Blank fun content => .call function (before ++ e content :: after)
  | aggregated (function : String) (before after : List Expr) (distinct : Bool) {e}
      (h : Expr.Blank e) :
      Expr.Blank fun content => .aggregate function (before ++ e content :: after) distinct
  | subquery {q} (h : Query.Blank q) : Expr.Blank fun content => .subquery (q content)
  | index (base : Path) {e} (h : Expr.Blank e) :
      Expr.Blank fun content => .indexed base (e content)
  | caseOperand (branches : List (Expr × Expr)) (otherwise : Option Expr) {e} (h : Expr.Blank e) :
      Expr.Blank fun content => .caseWhen (some (e content)) branches otherwise
  | caseTest (operand : Option Expr) (before after : List (Expr × Expr)) (result : Expr)
      (otherwise : Option Expr) {e} (h : Expr.Blank e) :
      Expr.Blank fun content =>
        .caseWhen operand (before ++ (e content, result) :: after) otherwise
  | caseResult (operand : Option Expr) (before after : List (Expr × Expr)) (test : Expr)
      (otherwise : Option Expr) {e} (h : Expr.Blank e) :
      Expr.Blank fun content => .caseWhen operand (before ++ (test, e content) :: after) otherwise
  | caseOtherwise (operand : Option Expr) (branches : List (Expr × Expr)) {e} (h : Expr.Blank e) :
      Expr.Blank fun content => .caseWhen operand branches (some (e content))
  | left (op : BinaryOperator) (right : Expr) {e} (h : Expr.Blank e) :
      Expr.Blank fun content => .binary (e content) op right
  | right (left : Expr) (op : BinaryOperator) {e} (h : Expr.Blank e) :
      Expr.Blank fun content => .binary left op (e content)
  | not {e} (h : Expr.Blank e) : Expr.Blank fun content => .not (e content)
  | isNull (negated : Bool) {e} (h : Expr.Blank e) :
      Expr.Blank fun content => .isNull (e content) negated
  | likeOperand (pattern : Expr) (escape : Option Char) (negated : Bool) {e} (h : Expr.Blank e) :
      Expr.Blank fun content => .like (e content) pattern escape negated
  | likePattern (operand : Expr) (escape : Option Char) (negated : Bool) {e} (h : Expr.Blank e) :
      Expr.Blank fun content => .like operand (e content) escape negated
  | choiceOperand (values : List Expr) (negated : Bool) {e} (h : Expr.Blank e) :
      Expr.Blank fun content => .oneOf (e content) values negated
  | choiceValue (operand : Expr) (before after : List Expr) (negated : Bool) {e}
      (h : Expr.Blank e) :
      Expr.Blank fun content => .oneOf operand (before ++ e content :: after) negated
  | betweenOperand (low high : Expr) (negated : Bool) {e} (h : Expr.Blank e) :
      Expr.Blank fun content => .between (e content) low high negated
  | betweenLow (operand high : Expr) (negated : Bool) {e} (h : Expr.Blank e) :
      Expr.Blank fun content => .between operand (e content) high negated
  | betweenHigh (operand low : Expr) (negated : Bool) {e} (h : Expr.Blank e) :
      Expr.Blank fun content => .between operand low (e content) negated
  | parens {e} (h : Expr.Blank e) : Expr.Blank fun content => .parens (e content)

inductive Query.Blank : (String → Query) → Prop
  | select {s} (h : Select.Blank s) : Query.Blank fun content => .select (s content)
  | combined {c} (h : SetOperation.Blank c) : Query.Blank fun content => .combined (c content)

inductive Select.Blank : (String → Select) → Prop
  | table (s : Select) (before after : List Cte) (cte : Cte) {b} (h : CteBody.Blank b) :
      Select.Blank fun content =>
        { s with ctes := before ++ { cte with body := b content } :: after }
  | item (s : Select) (before after : List (SelectItem Expr)) (aliasName : Option String) {e}
      (h : Expr.Blank e) :
      Select.Blank fun content => { s with items := before ++ ⟨e content, aliasName⟩ :: after }
  | joins (s : Select) {id g} (h : JoinGraph.Blank id g)
      (hwritten : once → (Scope.joined ⟨s.aliases, g ""⟩).count id ≤ 1) :
      Select.Blank fun content => { s with joins := g content }
  | aliases (s : Select) {t} (h : AliasTable.Blank t) :
      Select.Blank fun content => { s with aliases := t content }
  | condition (s : Select) {e} (h : Expr.Blank e) :
      Select.Blank fun content => { s with condition := some (e content) }
  | group (s : Select) (before after : List Expr) {e} (h : Expr.Blank e) :
      Select.Blank fun content => { s with groupBy := before ++ e content :: after }
  | having (s : Select) {e} (h : Expr.Blank e) :
      Select.Blank fun content => { s with having := some (e content) }
  | order (s : Select) (before after : List (OrderItem Expr)) (direction : SortDirection)
      (nulls : Option NullsOrder) {e} (h : Expr.Blank e) :
      Select.Blank fun content =>
        { s with orderBy := before ++ ⟨e content, direction, nulls⟩ :: after }

/-- The condition of the node `id`. -/
inductive JoinGraph.Blank : NodeId → (String → JoinGraph Expr) → Prop
  | condition (before after : List (JoinNode Expr)) (n : JoinNode Expr) (roots : List NodeId) {e}
      (h : Expr.Blank e) :
      JoinGraph.Blank before.length fun content =>
        ⟨before ++ { n with condition := some (e content) } :: after, roots⟩

/-- An expression that an alias names. -/
inductive AliasTable.Blank : (String → AliasTable Expr) → Prop
  | select (before after : List (String × AliasEntry Expr)) (key aliasName : String) {e}
      (h : Expr.Blank e) :
      AliasTable.Blank fun content => ⟨before ++ (key, .select aliasName (e content)) :: after⟩

inductive SetOperation.Blank : (String → SetOperation) → Prop
  | start (c : SetOperation) {q} (h : Query.Blank q) :
      SetOperation.Blank fun content => { c with start := q content }
  | operand (c : SetOperation) (before after : List Query) {q} (h : Query.Blank q) :
      SetOperation.Blank fun content => { c with operands := before ++ q content :: after }
  | order (c : SetOperation) (before after : List (OrderItem Expr)) (direction : SortDirection)
      (nulls : Option NullsOrder) {e} (h : Expr.Blank e) :
      SetOperation.Blank fun content =>
        { c with orderBy := before ++ ⟨e content, direction, nulls⟩ :: after }

inductive CteBody.Blank : (String → CteBody) → Prop
  | query {q} (h : Query.Blank q) : CteBody.Blank fun content => .query (q content)
  | update {u} (h : Update.Blank u) : CteBody.Blank fun content => .update (u content)
  | collectionDelete {d} (h : CollectionDelete.Blank d) :
      CteBody.Blank fun content => .collectionDelete (d content)

/-- The names and the joins of a modified entity. -/
inductive Target.Blank : (String → Target Expr) → Prop
  | joins (t : Target Expr) {id g} (h : JoinGraph.Blank id g) :
      Target.Blank fun content => { t with joins := g content }
  | aliases (t : Target Expr) {a} (h : AliasTable.Blank a) :
      Target.Blank fun content => { t with aliases := a content }

inductive Update.Blank : (String → Update) → Prop
  | target (u : Update) {t} (h : Target.Blank t) :
      Update.Blank fun content => { u with target := t content }
  | assigned (u : Update) (before after : List (Expr × Expr)) (value : Expr) {e}
      (h : Expr.Blank e) :
      Update.Blank fun content => { u with assignments := before ++ (e content, value) :: after }
  | value (u : Update) (before after : List (Expr × Expr)) (path : Expr) {e} (h : Expr.Blank e) :
      Update.Blank fun content => { u with assignments := before ++ (path, e content) :: after }
  | condition (u : Update) {e} (h : Expr.Blank e) :
      Update.Blank fun content => { u with condition := some (e content) }

inductive CollectionDelete.Blank : (String → CollectionDelete) → Prop
  | target (d : CollectionDelete) {t} (h : Target.Blank t) :
      CollectionDelete.Blank fun content => { d with target := t content }
  | condition (d : CollectionDelete) {e} (h : Expr.Blank e) :
      CollectionDelete.Blank fun content => { d with condition := some (e content) }

end

inductive Delete.Blank : (String → Delete) → Prop
  | target (d : Delete) {t} (h : Target.Blank once t) :
      Delete.Blank fun content => { d with target := t content }
  | condition (d : Delete) {e} (h : Expr.Blank once e) :
      Delete.Blank fun content => { d with condition := some (e content) }

/-- A statement with a blank. -/
inductive Statement.Blank : (String → Statement) → Prop
  | select {q} (h : Query.Blank once q) : Statement.Blank fun content => .select (q content)
  | update {u} (h : Update.Blank once u) : Statement.Blank fun content => .update (u content)
  | delete {d} (h : Delete.Blank once d) : Statement.Blank fun content => .delete (d content)
  | collectionDelete {d} (h : CollectionDelete.Blank once d) :
      Statement.Blank fun content => .collectionDelete (d content)

end EntityQuery
