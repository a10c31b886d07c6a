import EntityQuery.Proofs.Literals.Bare
import EntityQuery.Proofs.Literals.Expression

/-!
Queries and modifications with a blank, clause by clause. A blank in the condition of a join is
written once for each time that the FROM clause writes the join; a blank under an alias, or on a
modified entity, is not written at all.
-/

namespace EntityQuery

open Token (spaced listSeparator joined)

section Names

variable {once : Prop}

/-- What has a blank is no path. -/
theorem Expr.Blank.bare {e : String → Expr} (h : Blank once e) (aliasName content : String) :
    AliasEntry.bare (.select aliasName (e content)) = .select aliasName .null := by
  cases h <;> rfl

theorem AliasTable.Blank.bare {t : String → AliasTable Expr} (h : Blank once t) (content : String) :
    (t content).bare = (t "").bare := by
  cases h with
  | select before after key aliasName he =>
      simp only [AliasTable.bare, List.map_append, List.map_cons, he.bare]

theorem JoinGraph.Blank.bare {id : NodeId} {g : String → JoinGraph Expr} (h : Blank once id g)
    (content : String) : (g content).bare = (g "").bare := by
  cases h with
  | condition before after n roots he =>
      simp only [JoinGraph.bare, List.map_append, List.map_cons, JoinNode.bare, Option.map_some]

/-- The blank is in no other node's condition. -/
theorem JoinGraph.Blank.condition?_of_ne {id other : NodeId} {g : String → JoinGraph Expr}
    (h : Blank once id g) (hother : other ≠ id) (content : String) :
    (g content).condition? other = (g "").condition? other := by
  cases h with
  | condition before after n roots he =>
      rcases Nat.lt_or_gt_of_ne hother with hlt | hgt
      · simp [JoinGraph.condition?, JoinGraph.node?, List.getElem?_append_left hlt]
      · obtain ⟨k, rfl⟩ := Nat.exists_eq_add_of_lt hgt
        simp [JoinGraph.condition?, JoinGraph.node?, Nat.add_assoc,
          List.getElem?_append_right (Nat.le_add_right _ _)]

theorem Target.Blank.bare {t : String → Target Expr} (h : Blank once t) (ctx : RenderContext)
    (content : String) : Level.bare ⟨ctx, (t content).aliases, (t content).joins⟩ =
      Level.bare ⟨ctx, (t "").aliases, (t "").joins⟩ := by
  cases h with
  | joins t hg => simp only [Level.bare, hg.bare content]
  | aliases t ha => simp only [Level.bare, ha.bare content]

theorem Target.Blank.names {t : String → Target Expr} (h : Blank once t) (content : String) :
    (t content).entity = (t "").entity ∧ (t content).aliasName = (t "").aliasName := by
  cases h <;> exact ⟨rfl, rfl⟩

end Names

section Clauses

variable {l l' : Level} {e : String → Expr}

theorem Expr.Carries.selectItem (he : Carries e) (l : Level) (before after : List (SelectItem Expr))
    (aliasName : Option String) : Settled (OneOf Holds) fun content =>
      SelectItem.listTokens l (before ++ ⟨e content, aliasName⟩ :: after) := by
  simp only [SelectItem.listTokens_eq_mapM]
  refine .mapM (.intro before after ?_)
  simp only [Level.selectItemTokens]
  exact (he l .value).bind fun _ hts => .pure (hts.append _)

theorem Expr.Carries.orderItem (he : Carries e) (l : Level) (before after : List (OrderItem Expr))
    (direction : SortDirection) (nulls : Option NullsOrder) : Settled (OneOf Holds) fun content =>
      OrderItem.listTokens l (before ++ ⟨e content, direction, nulls⟩ :: after) := by
  simp only [OrderItem.listTokens_eq_mapM]
  refine .mapM (.intro before after ?_)
  simp only [Level.orderItemTokens]
  exact (he l .value).bind fun _ hts => .pure (hts.append _)

theorem Expr.Carries.clause (he : Carries e) (l : Level) (word : Keyword) :
    Settled Holds fun content =>
      clauseTokens word <$> Expr.optionTokens l .predicate (some (e content)) := by
  refine (he.optionTokens l .predicate).map fun _ hwritten => ?_
  obtain ⟨ts, hts, rfl⟩ := hwritten
  exact hts.clauseTokens word

end Clauses

section From

variable {l : Level} {conditions : String → List (Option (Except QueryError (List Token)))}
  {id : NodeId} (hother : ∀ other ≠ id, ∀ content,
    (conditions content)[other]?.join = (conditions "")[other]?.join)
include hother

theorem Level.joinListTokens_of_notMem {ids : List NodeId} (h : id ∉ ids) (content : String) :
    l.joinListTokens (conditions content) ids = l.joinListTokens (conditions "") ids := by
  induction ids with
  | nil => rfl
  | cons other rest ih =>
      rw [List.mem_cons, not_or] at h
      rw [joinListTokens, joinListTokens, hother other (Ne.symm h.1), ih h.2]

theorem Level.entryTokens_of_notMem {root : NodeId} (h : id ∉ (l.joins.subtree root).tail)
    (content : String) :
    l.entryTokens (conditions content) root = l.entryTokens (conditions "") root := by
  rw [entryTokens, entryTokens]
  cases hsubtree : l.joins.subtree root with
  | nil => rfl
  | cons first below =>
      rw [hsubtree, List.tail_cons] at h
      simp only [joinListTokens_of_notMem hother h content]

variable {x : String → Except QueryError (List Token)} (hx : Settled Holds x)
  (hid : ∀ content, (conditions content)[id]?.join = some (x content))
include hx hid

omit hother in
theorem Level.settled_joinTokens :
    Settled Holds fun content => l.joinTokens id ((conditions content)[id]?.join) := by
  have hclause : Settled Holds fun content => conditionClause (some (x content)) :=
    hx.bind fun _ hts => .pure (hts.prepend _)
  simp only [hid, joinTokens_eq]
  refine .after _ fun n => .ite _ (.const _) ?_
  simp only [keywordJoinTokens]
  exact .ite _ (.const _) (.after _ fun _ => hclause.bind fun _ hts => .pure (hts.prepend _))

theorem Level.settled_joinListTokens {ids : List NodeId} (hcount : ids.count id ≤ 1) :
    Settled Holds fun content => l.joinListTokens (conditions content) ids := by
  induction ids with
  | nil => exact .const _
  | cons other rest ih =>
      simp only [joinListTokens]
      by_cases heq : other = id
      · subst heq
        have hrest : other ∉ rest := by
          rw [List.count_cons_self] at hcount
          exact List.count_eq_zero.1 (by omega)
        simp only [joinListTokens_of_notMem hother hrest]
        exact (settled_joinTokens hx hid).bind fun _ hts => .after _ fun _ => .pure (hts.append _)
      · rw [List.count_cons_of_ne heq] at hcount
        simp only [hother other heq]
        exact .after _ fun _ => (ih hcount).bind fun _ hts => .pure (hts.prepend _)

/-- The FROM clause writes the content once, or not at all. -/
theorem Level.settled_fromTokens
    (hcount : (l.joins.roots.flatMap fun root => (l.joins.subtree root).tail).count id ≤ 1) :
    Settled Holds fun content => l.fromTokens (conditions content) := by
  have hentries : Settled (OneOf Holds) fun content =>
      l.joins.roots.mapM (l.entryTokens (conditions content)) :=
    .mapM_of_count (fun root => (l.joins.subtree root).tail) id
      (fun root hroot => ⟨_, entryTokens_of_notMem hother hroot⟩) (fun root hone => ?_) hcount
  · exact hentries.bind fun _ hts => .pure (hts.joined _)
  · simp only [entryTokens]
    cases hsubtree : l.joins.subtree root with
    | nil => exact .const _
    | cons first below =>
        rw [hsubtree, List.tail_cons] at hone
        exact .after _ fun _ => (settled_joinListTokens hother hx hid hone).bind fun _ hts =>
          .pure (hts.prepend _)

end From

/-- Whatever fills the blank, a query level is written with one place for the content, or does not
depend on it, and nothing else about it does. -/
structure Select.Carries (s : String → Select) : Prop where
  tokens : ∀ ctx, Settled Holds fun content => (s content).tokens ctx
  limits : ∀ content, (s content).limits = (s "").limits
  width : ∀ content, (s content).items.length = (s "").items.length
  unordered : ∀ content, (s content).orderBy.isEmpty = (s "").orderBy.isEmpty

namespace Select

/-- What stands in front of a query level with common tables. -/
def withTokens (bare recursive : Bool) (tables : List (List Token)) : List Token :=
  if bare then []
  else [.keyword .WITH, .space] ++ (if recursive then [.keyword .RECURSIVE, .space] else [])
    ++ joined listSeparator tables ++ [.space]

/-- The SELECT clause of a query level, which selects the given roots if nothing is listed. -/
def selectTokens (roots : List Token) (distinct unlisted : Bool) (selected : List (List Token)) :
    List Token :=
  [.keyword .SELECT, .space] ++ (if distinct then [.keyword .DISTINCT, .space] else [])
    ++ (if unlisted then roots else joined listSeparator selected)

/-- The clauses of a query level one after another, over the names of the given level and with the
given FROM clause. -/
def clauses (l : Level) (s : Select) (entries : Except QueryError (List Token)) :
    List (Except QueryError (List Token)) :=
  [withTokens s.ctes.isEmpty (s.ctes.any Cte.recursive) <$> Cte.listTokens l.context s.ctes,
    selectTokens l.rootListTokens s.distinct s.items.isEmpty <$> SelectItem.listTokens l s.items,
    (spaced .FROM ++ ·) <$> entries,
    clauseTokens .WHERE <$> Expr.optionTokens l .predicate s.condition,
    listClauseTokens .GROUP_BY <$> Expr.listTokens l s.groupBy,
    clauseTokens .HAVING <$> Expr.optionTokens l .predicate s.having,
    listClauseTokens .ORDER_BY <$> OrderItem.listTokens l s.orderBy]

/-- The FROM clause of a query level. -/
def fromTokens (ctx : RenderContext) (s : Select) : Except QueryError (List Token) :=
  (s.level ctx).fromTokens (JoinNode.conditionTokens (s.level ctx) s.joins.nodes)

/-- A query level with roots is its clauses. -/
theorem tokens_eq_clauses (ctx : RenderContext) (s : Select) :
    s.tokens ctx =
      if s.joins.roots.isEmpty then .error (.invalid .noRoot)
      else if !s.ctes.isEmpty && !ctx.capabilities.withClause then
        .error (ctx.unsupported .withClause)
      else List.flatten <$> (s.clauses (s.level ctx) (s.fromTokens ctx)).mapM id := by
  rw [tokens_eq]
  congr 2
  simp only [clauses, fromTokens, List.mapM_cons, List.mapM_nil, id, map_eq_pure_bind, bind_assoc,
    pure_bind, List.flatten_cons, List.flatten_nil, List.append_nil, assembled, withTokens,
    selectTokens, List.append_assoc]
  rfl

/-- A query level of which all clauses but one are given. -/
theorem settled_tokens {s : String → Select} (ctx : RenderContext)
    (hroots : ∀ content, (s content).joins.roots = (s "").joins.roots)
    (hctes : ∀ content, (s content).ctes.isEmpty = (s "").ctes.isEmpty)
    (given : List (Except QueryError (List Token))) (i : Nat)
    {clause : String → Except QueryError (List Token)} (hclause : Settled Holds clause)
    (h : ∀ content, (s content).clauses ((s content).level ctx) ((s content).fromTokens ctx) =
      given.set i (clause content)) :
    Settled Holds fun content => (s content).tokens ctx := by
  have hclauses : Settled (OneOf Holds) fun content => (given.set i (clause content)).mapM id := by
    by_cases hi : i < given.length
    · exact .mapM (.set hi hclause)
    · simp only [List.set_eq_of_length_le (Nat.not_lt.1 hi)]
      exact .const _
  simp only [tokens_eq_clauses, hroots, hctes, h]
  exact .ite _ (.const _) (.ite _ (.const _) (hclauses.map fun _ hparts => hparts.flatten))

/-- With the same bare names, a level writes the same clauses. -/
theorem clauses_of_bare {l l' : Level} (h : l'.bare = l.bare) : clauses l' = clauses l := by
  have htokens := Expr.tokens_of_bare h
  funext s entries
  simp only [clauses, Level.context_of_bare h, SelectItem.listTokens_congr htokens,
    Expr.optionTokens_congr htokens, Expr.listTokens_congr htokens,
    OrderItem.listTokens_congr htokens, Level.rootListTokens_of_bare h]

variable {s : Select} {e : String → Expr}

theorem carries_table {b : String → CteBody} (hb : ∀ ctx entity,
      Settled Holds fun content => (b content).tokens ctx entity)
    (hwidth : ∀ content, (b content).width = (b "").width) (before after : List Cte) (cte : Cte) :
    Carries fun content =>
      { s with ctes := before ++ { cte with body := b content } :: after } where
  tokens ctx := by
    have htables : Settled (OneOf Holds) fun content =>
        Cte.listTokens ctx (before ++ { cte with body := b content } :: after) := by
      simp only [Cte.listTokens_eq_mapM]
      refine .mapM (.intro before after ?_)
      simp only [Cte.tokens, hwidth]
      exact .after _ fun _ => (hb _ _).bind fun _ hts => .pure (hts.parenthesized.prepend _)
    let recursive := before.any Cte.recursive || (cte.recursive || after.any Cte.recursive)
    have hclause := htables.map (f := withTokens false recursive) fun _ hts =>
      ((hts.joined _).prepend _).append _
    refine settled_tokens ctx (fun _ => rfl) (fun _ => by simp only [isEmpty_append_cons])
      (s.clauses (s.level ctx) (s.fromTokens ctx)) 0 hclause fun _ => ?_
    simp only [clauses, isEmpty_append_cons, List.any_append, List.any_cons]
    rfl
  limits _ := rfl
  width _ := rfl
  unordered _ := rfl

theorem carries_item (he : Expr.Carries e) (before after : List (SelectItem Expr))
    (aliasName : Option String) :
    Carries fun content => { s with items := before ++ ⟨e content, aliasName⟩ :: after } where
  tokens ctx := by
    have hclause := (he.selectItem (s.level ctx) before after aliasName).map
      (f := selectTokens (s.level ctx).rootListTokens s.distinct false)
      fun _ hts => (hts.joined _).prepend _
    refine settled_tokens ctx (fun _ => rfl) (fun _ => rfl)
      (s.clauses (s.level ctx) (s.fromTokens ctx)) 1 hclause fun _ => ?_
    simp only [clauses, isEmpty_append_cons]
    rfl
  limits _ := rfl
  width _ := by simp
  unordered _ := rfl

theorem carries_condition (he : Expr.Carries e) :
    Carries fun content => { s with condition := some (e content) } where
  tokens ctx := settled_tokens ctx (fun _ => rfl) (fun _ => rfl)
    (s.clauses (s.level ctx) (s.fromTokens ctx)) 3 (he.clause (s.level ctx) .WHERE) fun _ => rfl
  limits _ := rfl
  width _ := rfl
  unordered _ := rfl

theorem carries_group (he : Expr.Carries e) (before after : List Expr) :
    Carries fun content => { s with groupBy := before ++ e content :: after } where
  tokens ctx := by
    have hclause := (he.listTokens (s.level ctx) before after).map fun _ hts =>
      hts.listClauseTokens .GROUP_BY
    exact settled_tokens ctx (fun _ => rfl) (fun _ => rfl)
      (s.clauses (s.level ctx) (s.fromTokens ctx)) 4 hclause fun _ => rfl
  limits _ := rfl
  width _ := rfl
  unordered _ := rfl

theorem carries_having (he : Expr.Carries e) :
    Carries fun content => { s with having := some (e content) } where
  tokens ctx := settled_tokens ctx (fun _ => rfl) (fun _ => rfl)
    (s.clauses (s.level ctx) (s.fromTokens ctx)) 5 (he.clause (s.level ctx) .HAVING) fun _ => rfl
  limits _ := rfl
  width _ := rfl
  unordered _ := rfl

theorem carries_order (he : Expr.Carries e) (before after : List (OrderItem Expr))
    (direction : SortDirection) (nulls : Option NullsOrder) :
    Carries fun content =>
      { s with orderBy := before ++ ⟨e content, direction, nulls⟩ :: after } where
  tokens ctx := by
    have hclause := (he.orderItem (s.level ctx) before after direction nulls).map fun _ hts =>
      hts.listClauseTokens .ORDER_BY
    exact settled_tokens ctx (fun _ => rfl) (fun _ => rfl)
      (s.clauses (s.level ctx) (s.fromTokens ctx)) 6 hclause fun _ => rfl
  limits _ := rfl
  width _ := rfl
  unordered _ := by simp

theorem carries_joins {once : Prop} {id : NodeId} {g : String → JoinGraph Expr}
    (h : JoinGraph.Blank once id g) (he : Expr.Carries e)
    (hid : ∀ content, (g content).condition? id = some (e content))
    (hcount : (Scope.joined ⟨s.aliases, g ""⟩).count id ≤ 1) :
    Carries fun content => { s with joins := g content } where
  tokens ctx := by
    let l : Level := ⟨ctx, s.aliases, g ""⟩
    have hbare (content : String) : Level.bare ⟨ctx, s.aliases, g content⟩ = l.bare := by
      simp only [l, Level.bare, h.bare content]
    let conditions (content : String) := JoinNode.conditionTokens l (g content).nodes
    have hconditions (content : String) (other : NodeId) : (conditions content)[other]?.join =
        ((g content).condition? other).map (Expr.tokens l .predicate) := by
      rw [← Expr.tokens_of_bare (hbare content),
        ← Level.join_conditionTokens ⟨ctx, s.aliases, g content⟩,
        JoinNode.conditionTokens_congr (Expr.tokens_of_bare (hbare content))]
    have hother (other : NodeId) (hne : other ≠ id) (content : String) :
        (conditions content)[other]?.join = (conditions "")[other]?.join := by
      rw [hconditions, hconditions, h.condition?_of_ne hne]
    have hwritten (content : String) :
        (conditions content)[id]?.join = some ((e content).tokens l .predicate) := by
      rw [hconditions, hid, Option.map_some]
    have hentries := l.settled_fromTokens hother (he l .predicate) hwritten hcount
    refine settled_tokens ctx (fun content => congrArg (fun l => l.joins.roots) (hbare content))
      (fun _ => rfl) (s.clauses l (.ok [])) 2 (hentries.map fun _ hts => hts.prepend (spaced .FROM))
      fun content => ?_
    rw [fromTokens, level, clauses_of_bare (hbare content),
      Level.fromTokens_of_bare (hbare content),
      JoinNode.conditionTokens_congr (Expr.tokens_of_bare (hbare content))]
    rfl
  limits _ := rfl
  width _ := rfl
  unordered _ := rfl

/-- What an alias names is not written. -/
theorem carries_aliases {once : Prop} {t : String → AliasTable Expr} (h : AliasTable.Blank once t) :
    Carries fun content => { s with aliases := t content } where
  tokens ctx := by
    have hbare (content : String) :
        Level.bare ⟨ctx, t content, s.joins⟩ = Level.bare ⟨ctx, t "", s.joins⟩ := by
      simp only [Level.bare, h.bare content]
    have htokens (content : String) : Select.tokens ctx { s with aliases := t content } =
        Select.tokens ctx { s with aliases := t "" } := by
      rw [tokens_eq_clauses, tokens_eq_clauses, fromTokens, fromTokens, level, level,
        clauses_of_bare (hbare content), Level.fromTokens_of_bare (hbare content),
        JoinNode.conditionTokens_congr (Expr.tokens_of_bare (hbare content))]
      rfl
    exact .same htokens
  limits _ := rfl
  width _ := rfl
  unordered _ := rfl

end Select

end EntityQuery
