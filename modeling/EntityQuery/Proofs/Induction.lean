import EntityQuery.Expr.Traversal
import EntityQuery.Proofs.Markers

/-!
Induction over expressions and queries. They are nested in each other through lists, options and
pairs, so the induction is packaged once: `Hereditary` names one case for each shape, with a
hypothesis for every member of a list, and a property with all cases holds everywhere.
-/

namespace EntityQuery

variable {P : Expr → Prop} {Q : Query → Prop} {B : CteBody → Prop}

/-- A property of the expressions and common tables that stand on a query level itself. -/
structure Select.Parts (P : Expr → Prop) (B : CteBody → Prop) (s : Select) : Prop where
  ctes : ∀ c ∈ s.ctes, B c.body
  items : ∀ i ∈ s.items, P i.expr
  joins : ∀ n ∈ s.joins.nodes, ∀ e ∈ n.condition, P e
  condition : ∀ e ∈ s.condition, P e
  groupBy : ∀ e ∈ s.groupBy, P e
  having : ∀ e ∈ s.having, P e
  orderBy : ∀ i ∈ s.orderBy, P i.expr

theorem Select.Parts.of_condition {s : Select} (parts : s.Parts P B) {id : NodeId} {e : Expr}
    (he : e ∈ s.joins.condition? id) : P e := by
  obtain ⟨n, hn, hcondition⟩ := Option.bind_eq_some_iff.1 he
  exact parts.joins n (List.mem_of_getElem? hn) e hcondition

/-- A property of the queries that a set operation combines, and of its order. -/
structure SetOperation.Parts (P : Expr → Prop) (Q : Query → Prop) (c : SetOperation) : Prop where
  start : Q c.start
  operands : ∀ q ∈ c.operands, Q q
  orderBy : ∀ i ∈ c.orderBy, P i.expr

/-- Properties of expressions, queries and bodies of common tables that pass from the parts to
the whole, shape by shape. -/
structure Hereditary (P : Expr → Prop) (Q : Query → Prop) (B : CteBody → Prop) : Prop where
  path : ∀ p, P (.path p)
  literal : ∀ v, P (.literal v)
  parameter : ∀ p, P (.parameter p)
  call : ∀ f args, (∀ e ∈ args, P e) → P (.call f args)
  aggregate : ∀ f args d, (∀ e ∈ args, P e) → P (.aggregate f args d)
  subquery : ∀ q, Q q → P (.subquery q)
  indexed : ∀ base index, P index → P (.indexed base index)
  null : P .null
  caseWhen : ∀ operand branches otherwise, (∀ e ∈ operand, P e) →
    (∀ b ∈ branches, P b.1 ∧ P b.2) → (∀ e ∈ otherwise, P e) →
    P (.caseWhen operand branches otherwise)
  binary : ∀ left op right, P left → P right → P (.binary left op right)
  not : ∀ e, P e → P (.not e)
  isNull : ∀ e negated, P e → P (.isNull e negated)
  like : ∀ e pattern escape negated, P e → P pattern → P (.like e pattern escape negated)
  oneOf : ∀ e values negated, P e → (∀ v ∈ values, P v) → P (.oneOf e values negated)
  between : ∀ e low high negated, P e → P low → P high → P (.between e low high negated)
  parens : ∀ e, P e → P (.parens e)
  verbatim : ∀ s, P (.verbatim s)
  select : ∀ s : Select, s.Parts P B → Q (.select s)
  combined : ∀ c : SetOperation, c.Parts P Q → Q (.combined c)
  query : ∀ q, Q q → B (.query q)
  update : ∀ u : Update, (∀ a ∈ u.assignments, P a.1 ∧ P a.2) → (∀ e ∈ u.condition, P e) →
    B (.update u)
  collectionDelete : ∀ d : CollectionDelete, (∀ e ∈ d.condition, P e) → B (.collectionDelete d)

namespace Hereditary

mutual

theorem expr (h : Hereditary P Q B) : ∀ e, P e
  | .path p => h.path p
  | .literal v => h.literal v
  | .parameter p => h.parameter p
  | .call f args => h.call f args (h.exprs args)
  | .aggregate f args d => h.aggregate f args d (h.exprs args)
  | .subquery q => h.subquery q (h.queries q)
  | .indexed base index => h.indexed base index (h.expr index)
  | .null => h.null
  | .caseWhen operand branches otherwise =>
      h.caseWhen operand branches otherwise (h.option operand) (h.pairs branches)
        (h.option otherwise)
  | .binary left op right => h.binary left op right (h.expr left) (h.expr right)
  | .not e => h.not e (h.expr e)
  | .isNull e negated => h.isNull e negated (h.expr e)
  | .like e pattern escape negated =>
      h.like e pattern escape negated (h.expr e) (h.expr pattern)
  | .oneOf e values negated => h.oneOf e values negated (h.expr e) (h.exprs values)
  | .between e low high negated =>
      h.between e low high negated (h.expr e) (h.expr low) (h.expr high)
  | .parens e => h.parens e (h.expr e)
  | .verbatim s => h.verbatim s

theorem exprs (h : Hereditary P Q B) : ∀ es : List Expr, ∀ e ∈ es, P e
  | [] => by simp
  | e :: rest => by
      have he := h.expr e
      exact List.forall_mem_cons.2 ⟨he, h.exprs rest⟩

theorem option (h : Hereditary P Q B) : ∀ e? : Option Expr, ∀ e ∈ e?, P e
  | none => by simp
  | some e => by
      have he := h.expr e
      simpa using he

theorem pairs (h : Hereditary P Q B) : ∀ bs : List (Expr × Expr), ∀ b ∈ bs, P b.1 ∧ P b.2
  | [] => by simp
  | (a, b) :: rest => by
      have ha := h.expr a
      have hb := h.expr b
      exact List.forall_mem_cons.2 ⟨⟨ha, hb⟩, h.pairs rest⟩

theorem queries (h : Hereditary P Q B) : ∀ q, Q q
  | .select ⟨ctes, _, items, ⟨nodes, _⟩, _, condition, groupBy, having, orderBy, _⟩ =>
      h.select _ ⟨h.ctes ctes, h.items items, h.nodes nodes, h.option condition,
        h.exprs groupBy, h.option having, h.orders orderBy⟩
  | .combined ⟨_, start, operands, orderBy, _⟩ =>
      h.combined _ ⟨h.queries start, h.queryList operands, h.orders orderBy⟩

theorem queryList (h : Hereditary P Q B) : ∀ qs : List Query, ∀ q ∈ qs, Q q
  | [] => by simp
  | q :: rest => by
      have hq := h.queries q
      exact List.forall_mem_cons.2 ⟨hq, h.queryList rest⟩

theorem items (h : Hereditary P Q B) : ∀ is : List (SelectItem Expr), ∀ i ∈ is, P i.expr
  | [] => by simp
  | ⟨e, _⟩ :: rest => by
      have he := h.expr e
      exact List.forall_mem_cons.2 ⟨he, h.items rest⟩

theorem orders (h : Hereditary P Q B) : ∀ is : List (OrderItem Expr), ∀ i ∈ is, P i.expr
  | [] => by simp
  | ⟨e, _, _⟩ :: rest => by
      have he := h.expr e
      exact List.forall_mem_cons.2 ⟨he, h.orders rest⟩

theorem nodes (h : Hereditary P Q B) :
    ∀ ns : List (JoinNode Expr), ∀ n ∈ ns, ∀ e ∈ n.condition, P e
  | [] => by simp
  | ⟨_, _, _, _, _, condition, _⟩ :: rest => by
      have hcondition := h.option condition
      exact List.forall_mem_cons.2 ⟨hcondition, h.nodes rest⟩

theorem ctes (h : Hereditary P Q B) : ∀ cs : List Cte, ∀ c ∈ cs, B c.body
  | [] => by simp
  | ⟨_, _, body, _⟩ :: rest => by
      have hbody := h.bodies body
      exact List.forall_mem_cons.2 ⟨hbody, h.ctes rest⟩

theorem bodies (h : Hereditary P Q B) : ∀ b, B b
  | .query q => h.query q (h.queries q)
  | .update ⟨_, assignments, condition, _⟩ =>
      h.update _ (h.pairs assignments) (h.option condition)
  | .collectionDelete ⟨_, _, condition, _⟩ => h.collectionDelete _ (h.option condition)

end

theorem parts (h : Hereditary P Q B) (s : Select) : s.Parts P B where
  ctes := h.ctes s.ctes
  items := h.items s.items
  joins := h.nodes s.joins.nodes
  condition := h.option s.condition
  groupBy := h.exprs s.groupBy
  having := h.option s.having
  orderBy := h.orders s.orderBy

end Hereditary

namespace Expr

theorem subexpressionsList_eq (es : List Expr) :
    subexpressionsList es = es.flatMap subexpressions := by
  induction es with
  | nil => rfl
  | cons e rest ih => rw [subexpressionsList, ih, List.flatMap_cons]

theorem subexpressionsOption_eq (e? : Option Expr) :
    subexpressionsOption e? = e?.toList.flatMap subexpressions := by
  cases e? <;> simp [subexpressionsOption]

theorem subexpressionsPairs_eq (bs : List (Expr × Expr)) :
    subexpressionsPairs bs = (bs.flatMap fun b => [b.1, b.2]).flatMap subexpressions := by
  induction bs with
  | nil => rfl
  | cons b rest ih => simp [subexpressionsPairs, ih]

theorem subexpressions_eq (e : Expr) :
    e.subexpressions = e :: e.children.flatMap subexpressions := by
  cases e <;> simp [subexpressions, children, subexpressionsList_eq, subexpressionsOption_eq,
    subexpressionsPairs_eq]

theorem mem_subexpressions_self (e : Expr) : e ∈ e.subexpressions := by
  cases e <;> simp [subexpressions]

end Expr

theorem Expr.forall_children_caseWhen {operand otherwise : Option Expr}
    {branches : List (Expr × Expr)} :
    (∀ child ∈ (caseWhen operand branches otherwise).children, P child) ↔
      (∀ e ∈ operand, P e) ∧ (∀ b ∈ branches, P b.1 ∧ P b.2) ∧ ∀ e ∈ otherwise, P e := by
  simp only [children, List.forall_mem_append, List.forall_mem_flatMap, List.forall_mem_cons,
    List.not_mem_nil, false_imp_iff, imp_true_iff, and_true, and_assoc, Option.mem_toList,
    Option.mem_def]

/-- A property that passes from the expressions directly inside an expression to the expression
itself, whatever its shape is, holds of all of them. -/
theorem Expr.childInduction (h : ∀ e : Expr, (∀ child ∈ e.children, P child) → P e) (e : Expr) :
    P e := by
  have hereditary : Hereditary P (fun _ => True) (fun _ => True) :=
    { path := fun _ => h _ (by simp [children])
      literal := fun _ => h _ (by simp [children])
      parameter := fun _ => h _ (by simp [children])
      call := fun _ _ ih => h _ ih
      aggregate := fun _ _ _ ih => h _ ih
      subquery := fun _ _ => h _ (by simp [children])
      indexed := fun _ _ ih => h _ (by simpa [children] using ih)
      null := h _ (by simp [children])
      caseWhen := fun _ _ _ hoperand hbranches hotherwise =>
        h _ (forall_children_caseWhen.2 ⟨hoperand, hbranches, hotherwise⟩)
      binary := fun _ _ _ hleft hright => h _ (by simpa [children] using ⟨hleft, hright⟩)
      not := fun _ ih => h _ (by simpa [children] using ih)
      isNull := fun _ _ ih => h _ (by simpa [children] using ih)
      like := fun _ _ _ _ ih hpattern => h _ (by simpa [children] using ⟨ih, hpattern⟩)
      oneOf := fun _ _ _ ih hvalues => h _ (List.forall_mem_cons.2 ⟨ih, hvalues⟩)
      between := fun _ _ _ _ ih hlow hhigh => h _ (by simpa [children] using ⟨ih, hlow, hhigh⟩)
      parens := fun _ ih => h _ (by simpa [children] using ih)
      verbatim := fun _ => h _ (by simp [children])
      select := fun _ _ => trivial
      combined := fun _ _ => trivial
      query := fun _ _ => trivial
      update := fun _ _ _ => trivial
      collectionDelete := fun _ _ => trivial }
  exact hereditary.expr e

/-- Properties that do not depend on expressions. -/
theorem Hereditary.of_queries
    (select : ∀ s : Select, (∀ c ∈ s.ctes, B c.body) → Q (.select s))
    (combined : ∀ c : SetOperation, Q c.start → (∀ q ∈ c.operands, Q q) → Q (.combined c))
    (query : ∀ q, Q q → B (.query q)) (update : ∀ u, B (.update u))
    (collectionDelete : ∀ d, B (.collectionDelete d)) : Hereditary (fun _ => True) Q B where
  path _ := trivial
  literal _ := trivial
  parameter _ := trivial
  call _ _ _ := trivial
  aggregate _ _ _ _ := trivial
  subquery _ _ := trivial
  indexed _ _ _ := trivial
  null := trivial
  caseWhen _ _ _ _ _ _ := trivial
  binary _ _ _ _ _ := trivial
  not _ _ := trivial
  isNull _ _ _ := trivial
  like _ _ _ _ _ _ := trivial
  oneOf _ _ _ _ _ := trivial
  between _ _ _ _ _ _ _ := trivial
  parens _ _ := trivial
  verbatim _ := trivial
  select s parts := select s parts.ctes
  combined c parts := combined c parts.start parts.operands
  query := query
  update u _ _ := update u
  collectionDelete d _ := collectionDelete d

mutual

/-- Induction along the queries that set operations combine, whatever their levels are made of. -/
theorem Query.memberInduction (select : ∀ s, Q (.select s))
    (combined : ∀ c : SetOperation, Q c.start → (∀ q ∈ c.operands, Q q) → Q (.combined c)) :
    ∀ q, Q q
  | .select s => select s
  | .combined ⟨_, start, operands, _, _⟩ =>
      combined _ (Query.memberInduction select combined start)
        (Query.memberListInduction select combined operands)

theorem Query.memberListInduction (select : ∀ s, Q (.select s))
    (combined : ∀ c : SetOperation, Q c.start → (∀ q ∈ c.operands, Q q) → Q (.combined c)) :
    ∀ qs : List Query, ∀ q ∈ qs, Q q
  | [] => by simp
  | q :: rest => by
      have hq := Query.memberInduction select combined q
      exact List.forall_mem_cons.2 ⟨hq, Query.memberListInduction select combined rest⟩

end

end EntityQuery
