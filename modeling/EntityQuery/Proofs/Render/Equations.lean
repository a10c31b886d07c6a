import EntityQuery.Proofs.Markers
import EntityQuery.Proofs.Outcome
import EntityQuery.Render.Statement

/-!
One equation for each kind of query, over the whole record and without the steps of the notation
that its definition is written in. Proofs about what is written start from these.
-/

namespace EntityQuery

open Token (spaced listSeparator joined)

theorem Token.joined_cons_cons (separator part next : List Token) (parts : List (List Token)) :
    joined separator (part :: next :: parts) =
      part ++ (separator ++ joined separator (next :: parts)) := by
  simp [joined]

/-- Joined lists of tokens, the first apart from the others. -/
theorem Token.joined_cons (separator part : List Token) (parts : List (List Token)) :
    joined separator (part :: parts) = part ++ parts.flatMap (separator ++ ·) := by
  induction parts generalizing part with
  | nil => simp [joined]
  | cons next rest ih => rw [joined_cons_cons, ih, List.flatMap_cons, List.append_assoc]

theorem RenderContext.dialect_correlated (ctx : RenderContext) (t : AliasTable Expr) :
    (ctx.correlated t).dialect = ctx.dialect := by
  rw [correlated]
  cases ctx.options.aliasPrefix <;> rfl

/-- A query level as the place where its expressions are written. -/
def Select.level (ctx : RenderContext) (s : Select) : Level := ⟨ctx, s.aliases, s.joins⟩

/-- A query level, put together from its clauses. -/
def Select.assembled (ctx : RenderContext) (s : Select) (tables selected : List (List Token))
    (entries : List Token) (condition : Option (List Token)) (groups : List (List Token))
    (having : Option (List Token)) (orders : List (List Token)) : List Token :=
  (if s.ctes.isEmpty then []
    else [.keyword .WITH, .space]
      ++ (if s.ctes.any Cte.recursive then [.keyword .RECURSIVE, .space] else [])
      ++ joined listSeparator tables ++ [.space])
    ++ [.keyword .SELECT, .space]
    ++ (if s.distinct then [.keyword .DISTINCT, .space] else [])
    ++ (if s.items.isEmpty then (s.level ctx).rootListTokens else joined listSeparator selected)
    ++ spaced .FROM ++ entries
    ++ clauseTokens .WHERE condition
    ++ listClauseTokens .GROUP_BY groups
    ++ clauseTokens .HAVING having
    ++ listClauseTokens .ORDER_BY orders

theorem Select.tokens_eq (ctx : RenderContext) (s : Select) :
    s.tokens ctx =
      if s.joins.roots.isEmpty then .error (.invalid .noRoot)
      else if !s.ctes.isEmpty && !ctx.capabilities.withClause then
        .error (ctx.unsupported .withClause)
      else do
        let tables ← Cte.listTokens ctx s.ctes
        let selected ← SelectItem.listTokens (s.level ctx) s.items
        let entries ← (s.level ctx).fromTokens
          (JoinNode.conditionTokens (s.level ctx) s.joins.nodes)
        let condition ← Expr.optionTokens (s.level ctx) .predicate s.condition
        let groups ← Expr.listTokens (s.level ctx) s.groupBy
        let having ← Expr.optionTokens (s.level ctx) .predicate s.having
        let orders ← OrderItem.listTokens (s.level ctx) s.orderBy
        return s.assembled ctx tables selected entries condition groups having orders := by
  obtain ⟨ctes, distinct, items, ⟨nodes, roots⟩, aliases, condition, groupBy, having, orderBy,
    limits⟩ := s
  rw [Select.tokens]
  by_cases hroots : roots.isEmpty = true
  · rw [if_pos hroots, if_pos hroots]
    rfl
  · rw [if_neg hroots, if_neg hroots]
    dsimp only
    by_cases hwith : (!ctes.isEmpty && !ctx.capabilities.withClause) = true
    · rw [if_pos hwith, if_pos hwith]
      rfl
    · rw [if_neg hwith, if_neg hwith]
      rfl

theorem Expr.listTokens_eq_mapM (l : Level) (es : List Expr) :
    Expr.listTokens l es = es.mapM (Expr.tokens l .value) := by
  induction es with
  | nil => rfl
  | cons e rest ih => rw [Expr.listTokens, List.mapM_cons, ih]

theorem Expr.restTokens_eq_mapM (l : Level) (es : List Expr) :
    Expr.restTokens l es = es.tail.mapM (Expr.tokens l .value) := by
  cases es with
  | nil => rfl
  | cons e rest => exact Expr.listTokens_eq_mapM l rest

/-- An assignment: a path and the value that it gets. -/
def Level.assignmentTokens (l : Level) (a : Expr × Expr) : Except QueryError (List Token) := do
  let path ← a.1.tokens l .value
  let value ← a.2.tokens l .value
  return path ++ [.space, .mark .equal, .space] ++ value

theorem Expr.assignmentTokens_eq_mapM (l : Level) (bs : List (Expr × Expr)) :
    Expr.assignmentTokens l bs = bs.mapM l.assignmentTokens := by
  induction bs with
  | nil => rfl
  | cons b rest ih =>
      rw [Expr.assignmentTokens, List.mapM_cons, ih, Level.assignmentTokens]
      simp only [bind_assoc, pure_bind]

/-- An item of an ORDER BY clause. -/
def Level.orderItemTokens (l : Level) (i : OrderItem Expr) : Except QueryError (List Token) := do
  let tokens ← i.expr.tokens l .value
  return tokens ++ OrderItem.orderTokens i.direction i.nulls

theorem OrderItem.listTokens_eq_mapM (l : Level) (is : List (OrderItem Expr)) :
    OrderItem.listTokens l is = is.mapM l.orderItemTokens := by
  induction is with
  | nil => rfl
  | cons i rest ih =>
      rw [OrderItem.listTokens, List.mapM_cons, ih, Level.orderItemTokens]
      simp only [bind_assoc, pure_bind]

/-- The order of a combined result is written like that of a level without names. -/
theorem OrderItem.resultTokens_eq (ctx : RenderContext) (is : List (OrderItem Expr)) :
    OrderItem.resultTokens ctx is = OrderItem.listTokens ⟨ctx, {}, {}⟩ is := by
  induction is with
  | nil => rfl
  | cons i rest ih => rw [OrderItem.resultTokens, OrderItem.listTokens, ih]

/-- An item of a SELECT clause. -/
def Level.selectItemTokens (l : Level) (i : SelectItem Expr) : Except QueryError (List Token) := do
  let tokens ← i.expr.tokens l .value
  return tokens ++
    match i.aliasName with
    | some a => spaced .AS ++ [.name a]
    | none => []

theorem SelectItem.listTokens_eq_mapM (l : Level) (is : List (SelectItem Expr)) :
    SelectItem.listTokens l is = is.mapM l.selectItemTokens := by
  induction is with
  | nil => rfl
  | cons i rest ih =>
      obtain ⟨e, aliasName⟩ := i
      cases aliasName with
      | none =>
          rw [SelectItem.listTokens, List.mapM_cons, ih, Level.selectItemTokens]
          simp only [bind_assoc, pure_bind]
      | some a =>
          rw [SelectItem.listTokens, List.mapM_cons, ih, Level.selectItemTokens]
          simp only [bind_assoc, pure_bind]

/-- The values of a select list, as they are written. -/
def Select.values (ctx : RenderContext) (s : Select) : Except QueryError (List (List Token)) :=
  if s.items.isEmpty then
    .ok (s.joins.roots.map fun root =>
      match s.joins.node? root with
      | some n => [(s.level ctx).declared n.aliasName]
      | none => [])
  else s.items.mapM (s.level ctx).selectItemTokens

theorem Query.functionForms_eq_mapM (ctx : RenderContext) (qs : List Query) :
    Query.functionForms ctx qs = qs.mapM (Query.functionForm ctx) := by
  induction qs with
  | nil => rfl
  | cons q rest ih => rw [Query.functionForms, List.mapM_cons, ih]

theorem Query.memberListTokens_eq_mapM (ctx : RenderContext) (qs : List Query) :
    Query.memberListTokens ctx qs = qs.mapM (Query.memberTokens ctx) := by
  induction qs with
  | nil => rfl
  | cons q rest ih => rw [Query.memberListTokens, List.mapM_cons, ih]

theorem FunctionForm.tokensList_eq_mapM (ctx : RenderContext) (forms : List FunctionForm) :
    tokensList ctx forms = forms.mapM (tokens ctx) := by
  induction forms with
  | nil => rfl
  | cons form rest ih => rw [tokensList, List.mapM_cons, ih]

/-- A common table. -/
def Cte.tokens (ctx : RenderContext) (c : Cte) : Except QueryError (List Token) := do
  Cte.check c.entity c.columns c.body.width
  let body ← c.body.tokens ctx.nested c.entity
  return .name c.entity ::
    Token.parenthesized (joined listSeparator (c.columns.map fun c => [Token.name c]))
    ++ [.space, .keyword .AS] ++ Token.parenthesized body

theorem Cte.listTokens_eq_mapM (ctx : RenderContext) (cs : List Cte) :
    Cte.listTokens ctx cs = cs.mapM (Cte.tokens ctx) := by
  induction cs with
  | nil => rfl
  | cons c rest ih =>
      obtain ⟨entity, columns, body, recursive⟩ := c
      rw [Cte.listTokens, List.mapM_cons, ih, Cte.tokens]
      simp only [bind_assoc, pure_bind]

theorem SetOperation.memberTokens_eq (ctx : RenderContext) (c : SetOperation) :
    c.memberTokens ctx =
      match SetOperation.activeOperator c.operator c.operands with
      | none => do
          let start ← c.start.memberTokens ctx
          let orders ← OrderItem.resultTokens ctx c.orderBy
          return nativeTokens none [start] orders
      | some op => do
          let start ← c.start.memberTokens ctx
          let operands ← Query.memberListTokens ctx c.operands
          let orders ← OrderItem.resultTokens ctx c.orderBy
          return nativeTokens (some op) (start :: operands) orders := by
  obtain ⟨operator, start, operands, orderBy, limits⟩ := c
  rw [SetOperation.memberTokens]
  simp only
  cases SetOperation.activeOperator operator operands with
  | none => rfl
  | some op => rfl

theorem SetOperation.functionForm_eq (ctx : RenderContext) (c : SetOperation) :
    c.functionForm ctx =
      match SetOperation.activeOperator c.operator c.operands with
      | none => do
          let start ← c.start.functionForm ctx
          FunctionForm.limited start c.limits
      | some op => do
          let start ← c.start.functionForm ctx
          let operands ← Query.functionForms ctx c.operands
          let orders ← OrderItem.resultTokens ctx c.orderBy
          return FunctionForm.combined op (start :: operands) orders c.limits := by
  obtain ⟨operator, start, operands, orderBy, limits⟩ := c
  rw [SetOperation.functionForm]
  simp only
  cases SetOperation.activeOperator operator operands with
  | none => rfl
  | some op => rfl

theorem Query.anyLimited_eq_any (qs : List Query) : anyLimited qs = qs.any limitedAnywhere := by
  induction qs with
  | nil => rfl
  | cons q rest ih => rw [anyLimited, List.any_cons, ih]

theorem Query.anyLimited_map {φ : Query → Query} {qs : List Query}
    (h : ∀ q ∈ qs, (φ q).limitedAnywhere = q.limitedAnywhere) :
    anyLimited (qs.map φ) = anyLimited qs := by
  induction qs with
  | nil => rfl
  | cons q rest ih =>
      have hrest := ih fun other hother => h other (List.mem_cons_of_mem q hother)
      rw [List.map_cons, anyLimited, anyLimited, h q List.mem_cons_self, hrest]

theorem SetOperation.limitedAnywhere_eq (c : SetOperation) :
    c.limitedAnywhere =
      (c.limits.any || c.start.limitedAnywhere || Query.anyLimited c.operands) := by
  obtain ⟨operator, start, operands, orderBy, limits⟩ := c
  rw [limitedAnywhere]

theorem SetOperation.width_eq (c : SetOperation) : c.width = c.start.width := by
  cases c
  rw [width]

/-- Whether a dialect writes a set operation between its queries where it stands on its own. -/
def SetOperation.writtenBetween (ctx : RenderContext) (c : SetOperation) : Bool :=
  ctx.capabilities.nativeSetOperations && !c.start.limitedAnywhere
    && !Query.anyLimited c.operands

theorem SetOperation.rendered_eq (ctx : RenderContext) (c : SetOperation) :
    c.rendered ctx =
      match SetOperation.activeOperator c.operator c.operands with
      | none => do
          let inner ← c.start.rendered ctx
          return { inner with limits := c.limits.override inner.limits }
      | some op =>
          if c.writtenBetween ctx then do
            let start ← c.start.memberTokens ctx
            let operands ← Query.memberListTokens ctx c.operands
            let orders ← OrderItem.resultTokens ctx c.orderBy
            return ⟨nativeTokens (some op) (start :: operands) orders, c.limits⟩
          else do
            let form ← c.functionForm ctx
            let tokens ← form.tokens ctx
            return ⟨tokens, {}⟩ := by
  rw [SetOperation.functionForm_eq]
  obtain ⟨operator, start, operands, orderBy, limits⟩ := c
  rw [SetOperation.rendered]
  simp only
  cases SetOperation.activeOperator operator operands with
  | none => rfl
  | some op =>
      simp only [bind_assoc, pure_bind]
      rfl

/-- A set operation that combines something is one of its two forms. -/
theorem SetOperation.rendered_of_active {ctx : RenderContext} {c : SetOperation} {op : SetOperator}
    (h : SetOperation.activeOperator c.operator c.operands = some op) :
    c.rendered ctx =
      if c.writtenBetween ctx then do
        let tokens ← c.memberTokens ctx
        return ⟨tokens, c.limits⟩
      else do
        let form ← c.functionForm ctx
        let tokens ← form.tokens ctx
        return ⟨tokens, {}⟩ := by
  rw [rendered_eq, memberTokens_eq, h]
  simp only [bind_assoc, pure_bind]

theorem Update.tokens_eq (ctx : RenderContext) (u : Update) :
    u.tokens ctx =
      if u.assignments.isEmpty then .error (.invalid .updateWithoutAssignments)
      else do
        let l : Level := ⟨ctx, u.target.aliases, u.target.joins⟩
        let assignments ← Expr.assignmentTokens l u.assignments
        let condition ← Expr.optionTokens l .predicate u.condition
        let returning ← l.returningTokens u.returning
        return [.keyword .UPDATE, .space, .name u.target.entity, .space,
            l.declared u.target.aliasName]
          ++ spaced .SET ++ joined listSeparator assignments ++ clauseTokens .WHERE condition
          ++ returning := by
  obtain ⟨target, assignments, condition, returning⟩ := u
  rw [Update.tokens]
  split
  · rfl
  · rfl

theorem CollectionDelete.tokens_eq (ctx : RenderContext) (d : CollectionDelete) :
    d.tokens ctx =
      if ctx.capabilities.collectionModification then
        let l : Level := ⟨ctx, d.target.aliases, d.target.joins⟩
        l.deleteTokens d.target.entity d.target.aliasName (some d.collection)
          (Expr.optionTokens l .predicate d.condition) d.returning
      else .error (ctx.unsupported (.collectionDelete d.collection)) := by
  obtain ⟨target, collection, condition, returning⟩ := d
  rw [CollectionDelete.tokens]
  rfl

namespace Level

/-- What a join ends with: its condition, if it has one. -/
def conditionClause : Option (Except QueryError (List Token)) → Except QueryError (List Token)
  | none => .ok []
  | some written => do
      let written ← written
      return [.space, .conditionKeyword, .space] ++ written

/-- A join that is written with the word JOIN. -/
def keywordJoinTokens (l : Level) (n : JoinNode Expr) (type : JoinType)
    (condition : Option (Except QueryError (List Token))) : Except QueryError (List Token) :=
  if joinsEntity n && !l.context.capabilities.entityJoins then
    .error (l.context.unsupported (.entityJoin n.aliasName))
  else do
    let joined ← l.joinedTokens n
    let condition ← conditionClause condition
    return (if type = .left then [.space, .keyword .LEFT] else []) ++ [.space, .keyword .JOIN]
      ++ (if n.fetch then [.space, .keyword .FETCH] else []) ++ [.space] ++ joined
      ++ [.space, l.declared n.aliasName] ++ condition

theorem joinTokens_eq (l : Level) (id : NodeId)
    (condition : Option (Except QueryError (List Token))) :
    l.joinTokens id condition = (l.joins.require id >>= fun n =>
      if n.type.getD .inner = .cross then l.crossJoinTokens n
      else l.keywordJoinTokens n (n.type.getD .inner) condition) := by
  rw [joinTokens]
  congr 1
  funext n
  cases htype : n.type.getD .inner with
  | cross => rfl
  | _ =>
      simp only [keywordJoinTokens, reduceCtorEq, if_false]
      split
      · rfl
      · cases l.joinedTokens n with
        | error e => rfl
        | ok joined =>
            cases condition with
            | none => rfl
            | some written => cases written <;> rfl

end Level

theorem JoinNode.getElem?_conditionTokens (l : Level) (nodes : List (JoinNode Expr)) (id : NodeId) :
    (JoinNode.conditionTokens l nodes)[id]? =
      nodes[id]?.map fun n => n.condition.map (Expr.tokens l .predicate) := by
  induction nodes generalizing id with
  | nil => rfl
  | cons n rest ih =>
      obtain ⟨aliasName, source, parent, type, fetch, condition, implicit⟩ := n
      cases condition with
      | none => cases id with
        | zero => rfl
        | succ id => exact ih id
      | some e => cases id with
        | zero => rfl
        | succ id => exact ih id

/-- What the joins of a level are given to end with is their conditions, as written there. -/
theorem Level.join_conditionTokens (l : Level) (id : NodeId) :
    (JoinNode.conditionTokens l l.joins.nodes)[id]?.join =
      (l.joins.condition? id).map (Expr.tokens l .predicate) := by
  rw [JoinNode.getElem?_conditionTokens, JoinGraph.condition?, JoinGraph.node?]
  cases l.joins.nodes[id]? <;> rfl

/-! Levels that write every expression alike write the clauses alike. -/

section Congr

variable {l l' : Level} (h : Expr.tokens l' = Expr.tokens l)
include h

theorem Expr.listTokens_congr : listTokens l' = listTokens l := by
  funext es
  rw [listTokens_eq_mapM, listTokens_eq_mapM, h]

theorem Expr.optionTokens_congr : optionTokens l' = optionTokens l := by
  funext position e?
  cases e? with
  | none => rfl
  | some e => rw [optionTokens, optionTokens, h]

theorem Expr.assignmentTokens_congr : assignmentTokens l' = assignmentTokens l := by
  funext bs
  rw [assignmentTokens_eq_mapM, assignmentTokens_eq_mapM]
  refine mapM_congr fun b _ => ?_
  rw [Level.assignmentTokens, Level.assignmentTokens, h]

theorem Level.selectItemTokens_congr : l'.selectItemTokens = l.selectItemTokens := by
  funext i
  rw [selectItemTokens, selectItemTokens, h]

theorem SelectItem.listTokens_congr : listTokens l' = listTokens l := by
  funext is
  rw [listTokens_eq_mapM, listTokens_eq_mapM, Level.selectItemTokens_congr h]

theorem OrderItem.listTokens_congr : listTokens l' = listTokens l := by
  funext is
  rw [listTokens_eq_mapM, listTokens_eq_mapM]
  refine mapM_congr fun i _ => ?_
  rw [Level.orderItemTokens, Level.orderItemTokens, h]

theorem JoinNode.conditionTokens_congr : conditionTokens l' = conditionTokens l := by
  funext nodes
  refine List.ext_getElem? fun id => ?_
  rw [getElem?_conditionTokens, getElem?_conditionTokens, h]

end Congr

end EntityQuery
