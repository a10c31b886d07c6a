import EntityQuery.Proofs.Induction
import EntityQuery.Proofs.Render.Sites
import EntityQuery.Proofs.Rewriting.Levels

/-!
A rewriting that is sound for the paths of each level is sound for whole queries. What is asked of
it is said level by level: how the paths of a level are written before and after it, and that the
contexts inside subqueries, combined queries and common tables correspond again. From that the two
texts agree, in every form that a query is written in.
-/

namespace EntityQuery

open Token (parenthesized listSeparator joined)

/-- Two runs side by side: of a query in one context, and of the rewritten query in another. -/
structure Comparison where
  rewriting : Rewriting
  dialect : Dialect
  /-- Whether both runs fail with the same error if they fail. -/
  exact : Prop
  /-- The contexts that queries are written in. -/
  contexts : RenderContext → RenderContext → Prop
  /-- The levels that may occur. -/
  levels : Scope → Prop
  /-- The paths that may occur. -/
  paths : Path → Prop

instance (body : CteBody) : Decidable (∃ q, body = .query q) :=
  match body with
  | .query q => isTrue ⟨q, rfl⟩
  | .update _ => isFalse nofun
  | .collectionDelete _ => isFalse nofun

/-- Whether the levels and the paths of a text are such that may occur, and its tables queries. -/
def Site.Within (k : Comparison) : Site → Prop
  | .level sc => k.levels sc
  | .path _ p => k.paths p
  | .table _ body => ∃ q, body = .query q
  | _ => True

/-- The names of a level after a rewriting. -/
def Scope.rewrite (r : Rewriting) (sc : Scope) : Scope :=
  ⟨sc.aliases.rewrite r (r.path sc.aliases), sc.joins.rewrite r (r.path sc.aliases)⟩

/-- Where the expressions of a query level are written in a context. -/
def Scope.level (sc : Scope) (ctx : RenderContext) : Level := ⟨ctx, sc.aliases, sc.joins⟩

/-- A rewriting leaves the joins of a level as they are, but for the paths of enclosing queries. -/
theorem Scope.paired_rewrite {exact : Prop} {d : Dialect} {r : Rewriting} {ctx ctx' : RenderContext}
    (hctx : ctx.Paired d ctx') (hdeclared : ∀ a, ctx'.declaredAlias a = ctx.declaredAlias a)
    (hsource : ∀ path, SameText d (ctx.outerPrefixTokens path ++ [.name path])
      (ctx'.outerPrefixTokens (r.source path) ++ [.name (r.source path)])) (sc : Scope) :
    Level.Paired exact d r.source (sc.level ctx) ((sc.rewrite r).level ctx') where
  context := hctx
  roots := rfl
  nodes := List.forall₂_map_right_iff.2 (List.forall₂_same.2 fun n _ => {
    declared := hdeclared n.aliasName
    aliasName := fun _ => rfl
    source := rfl
    parent := rfl
    type := rfl
    fetch := rfl
    condition := Option.isSome_map })
  source := hsource

namespace Comparison

/-- The texts of both runs agree. -/
def Tokens (k : Comparison) : Except QueryError (List Token) → Except QueryError (List Token) → Prop :=
  Agree k.exact (SameText k.dialect)

/-- The texts of both runs agree part by part. -/
def TokenLists (k : Comparison) :
    Except QueryError (List (List Token)) → Except QueryError (List (List Token)) → Prop :=
  Agree k.exact (List.Forall₂ (SameText k.dialect))

/-- What is asked of a comparison: contexts stay comparable on the way into a query, and paths are
written alike on every level. -/
structure Sound (k : Comparison) : Prop where
  paired : ∀ {ctx ctx'}, k.contexts ctx ctx' → ctx.Paired k.dialect ctx'
  nested : ∀ {ctx ctx'}, k.contexts ctx ctx' → k.contexts ctx.nested ctx'.nested
  correlated : ∀ {ctx ctx' sc}, k.contexts ctx ctx' → k.levels sc →
    k.contexts (ctx.correlated sc.aliases) (ctx'.correlated (sc.rewrite k.rewriting).aliases)
  declared : ∀ {ctx ctx'}, k.contexts ctx ctx' → ∀ a, ctx'.declaredAlias a = ctx.declaredAlias a
  source : ∀ {ctx ctx'}, k.contexts ctx ctx' → ∀ path, SameText k.dialect
    (ctx.outerPrefixTokens path ++ [.name path])
    (ctx'.outerPrefixTokens (k.rewriting.source path) ++ [.name (k.rewriting.source path)])
  path : ∀ {ctx ctx' sc p}, k.contexts ctx ctx' → k.levels sc → k.paths p →
    k.Tokens ((sc.level ctx).pathTokens p)
      (((sc.rewrite k.rewriting).level ctx').pathTokens (k.rewriting.path sc.aliases p))
  /-- The order of a combined result stands on a level without names. -/
  empty : k.levels {}

end Comparison

/-- Two levels whose paths are written alike once `f` has rewritten them. -/
structure Level.Linked (k : Comparison) (f : Path → Path) (l l' : Level) : Prop where
  context : l.context.Paired k.dialect l'.context
  inner : k.contexts (l.context.correlated l.aliases) (l'.context.correlated l'.aliases)
  path : ∀ p, k.paths p → k.Tokens (l.pathTokens p) (l'.pathTokens (f p))

/-- An expression is written alike on two linked levels. -/
def Expr.Follows (k : Comparison) (e : Expr) : Prop :=
  ∀ l l' f, l.Linked k f l' → (∀ site ∈ e.sites l.scope, site.Within k) → ∀ position,
    k.Tokens (e.tokens l position) ((e.rewrite k.rewriting f).tokens l' position)

/-- Two function forms with the same text, whoever writes them. -/
def FunctionForm.Same (k : Comparison) (form form' : FunctionForm) : Prop :=
  ∀ around around', around.Paired k.dialect around' →
    k.Tokens (form.tokens around) (form'.tokens around')

/-- Two written queries with the same text and the same limits. -/
structure RenderedLevel.Same (k : Comparison) (r r' : RenderedLevel) : Prop where
  tokens : SameText k.dialect r.tokens r'.tokens
  limits : r'.limits = r.limits

/-- Two queries that are written alike in two contexts, in every form. -/
structure Query.Paired (k : Comparison) (ctx ctx' : RenderContext) (q q' : Query) : Prop where
  rendered : Agree k.exact (RenderedLevel.Same k) (q.rendered ctx) (q'.rendered ctx')
  memberTokens : k.Tokens (q.memberTokens ctx) (q'.memberTokens ctx')
  functionForm : Agree k.exact (FunctionForm.Same k) (q.functionForm ctx) (q'.functionForm ctx')
  subqueryTokens : ∀ around around', around.Paired k.dialect around' →
    k.Tokens (q.subqueryTokens ctx around) (q'.subqueryTokens ctx' around')

/-- A query is written alike in contexts that may be compared. -/
def Query.Follows (k : Comparison) (q : Query) : Prop :=
  ∀ ctx ctx' between, k.contexts ctx ctx' → (∀ site ∈ q.memberSites between, site.Within k) →
    q.Paired k ctx ctx' (q.rewrite k.rewriting)

def CteBody.Follows (k : Comparison) (b : CteBody) : Prop :=
  ∀ ctx ctx' entity, k.contexts ctx ctx' → (∃ q, b = .query q) →
    (∀ site ∈ b.sites, site.Within k) →
      k.Tokens (b.tokens ctx entity) ((b.rewrite k.rewriting).tokens ctx' entity)

section Lists

variable {k : Comparison} {l l' : Level} {φ : Expr → Expr}

theorem Expr.listTokens_agree {es : List Expr}
    (h : ∀ e ∈ es, k.Tokens (e.tokens l .value) ((φ e).tokens l' .value)) :
    k.TokenLists (listTokens l es) (listTokens l' (es.map φ)) := by
  rw [listTokens_eq_mapM, listTokens_eq_mapM]
  exact Agree.mapM_map h

theorem Expr.restTokens_agree {es : List Expr}
    (h : ∀ e ∈ es.tail, k.Tokens (e.tokens l .value) ((φ e).tokens l' .value)) :
    k.TokenLists (restTokens l es) (restTokens l' (es.map φ)) := by
  rw [restTokens_eq_mapM, restTokens_eq_mapM, ← List.map_tail]
  exact Agree.mapM_map h

theorem Expr.firstTokens_agree {es : List Expr} {position : Position}
    (h : ∀ e ∈ es, k.Tokens (e.tokens l position) ((φ e).tokens l' position)) :
    k.Tokens (firstTokens l position es) (firstTokens l' position (es.map φ)) := by
  cases es with
  | nil => exact .ok (.refl _)
  | cons e rest => exact h e List.mem_cons_self

theorem Expr.optionTokens_agree {e? : Option Expr} {position : Position}
    (h : ∀ e ∈ e?, k.Tokens (e.tokens l position) ((φ e).tokens l' position)) :
    Agree k.exact (Option.Rel (SameText k.dialect)) (optionTokens l position e?)
      (optionTokens l' position (e?.map φ)) := by
  cases e? with
  | none => exact .ok .none
  | some e => exact (h e rfl).bind fun _ _ hts => .ok (.some hts)

theorem Expr.branchTokens_agree {bs : List (Expr × Expr)} {position : Position}
    (h : ∀ b ∈ bs, k.Tokens (b.1.tokens l position) ((φ b.1).tokens l' position) ∧
      k.Tokens (b.2.tokens l .value) ((φ b.2).tokens l' .value)) :
    k.Tokens (branchTokens l position bs)
      (branchTokens l' position (bs.map fun b => (φ b.1, φ b.2))) := by
  induction bs with
  | nil => exact .ok (.refl _)
  | cons b rest ih =>
      obtain ⟨htest, hresult⟩ := h b List.mem_cons_self
      have hrest := ih fun other hother => h other (List.mem_cons_of_mem _ hother)
      exact htest.bind fun _ _ htest => hresult.bind fun _ _ hresult => hrest.bind fun _ _ hrest =>
        .ok (((((SameText.refl _).append htest).append (.refl _)).append hresult).append hrest)

end Lists

section Clauses

variable {k : Comparison} {ctx ctx' : RenderContext} {l l' : Level} {f : Path → Path}

/-- An expression of two linked levels, if nothing in it is out of place. -/
theorem Expr.Follows.tokens {e : Expr} (h : e.Follows k) (hl : l.Linked k f l')
    (hsites : ∀ site ∈ e.sites l.scope, site.Within k) (position : Position) :
    k.Tokens (e.tokens l position) ((e.rewrite k.rewriting f).tokens l' position) :=
  h l l' f hl hsites position

theorem SelectItem.listTokens_agree (hl : l.Linked k f l') {is : List (SelectItem Expr)}
    (h : ∀ i ∈ is, i.expr.Follows k) (hsites : ∀ i ∈ is, ∀ site ∈ i.expr.sites l.scope,
      site.Within k) :
    k.TokenLists (listTokens l is) (listTokens l' (is.map (rewrite k.rewriting f))) := by
  rw [listTokens_eq_mapM, listTokens_eq_mapM]
  exact Agree.mapM_map fun i hi => ((h i hi).tokens hl (hsites i hi) .value).bind fun _ _ hts =>
    .ok (hts.append (.refl _))

theorem OrderItem.listTokens_agree (hl : l.Linked k f l') {is : List (OrderItem Expr)}
    (h : ∀ i ∈ is, i.expr.Follows k) (hsites : ∀ i ∈ is, ∀ site ∈ i.expr.sites l.scope,
      site.Within k) :
    k.TokenLists (listTokens l is) (listTokens l' (is.map (rewrite k.rewriting f))) := by
  rw [listTokens_eq_mapM, listTokens_eq_mapM]
  exact Agree.mapM_map fun i hi => ((h i hi).tokens hl (hsites i hi) .value).bind fun _ _ hts =>
    .ok (hts.append (.refl _))

theorem Cte.listTokens_agree {cs : List Cte} (hctx : cs ≠ [] → k.contexts ctx.nested ctx'.nested)
    (h : ∀ c ∈ cs, c.body.Follows k)
    (hsites : ∀ c ∈ cs, ∀ site ∈ .table c.columns c.body :: c.body.sites, site.Within k) :
    k.TokenLists (listTokens ctx cs) (listTokens ctx' (cs.map (rewrite k.rewriting))) := by
  rw [listTokens_eq_mapM, listTokens_eq_mapM]
  refine Agree.mapM_map fun c hc => ?_
  obtain ⟨hquery, hbody⟩ := List.forall_mem_cons.1 (hsites c hc)
  have hwidth : (c.rewrite k.rewriting).body.width = c.body.width := c.body.width_rewrite _
  have htokens := h c hc ctx.nested ctx'.nested c.entity (hctx (List.ne_nil_of_mem hc)) hquery hbody
  rw [Cte.tokens, Cte.tokens, hwidth]
  exact (Agree.of_eq (r := Eq) (fun _ => rfl) rfl).bind fun _ _ _ => htokens.bind fun _ _ hts =>
    .ok ((SameText.refl _).append hts.parenthesized)

theorem Level.join_conditionTokens_agree (hl : l.Linked k f l')
    (hconditions : ∀ id, l'.joins.condition? id =
      (l.joins.condition? id).map (Expr.rewrite k.rewriting f)) {id : NodeId}
    (h : ∀ e ∈ l.joins.condition? id, e.Follows k)
    (hsites : ∀ e ∈ l.joins.condition? id, ∀ site ∈ e.sites l.scope, site.Within k) :
    Option.Rel k.Tokens ((JoinNode.conditionTokens l l.joins.nodes)[id]?.join)
      ((JoinNode.conditionTokens l' l'.joins.nodes)[id]?.join) := by
  rw [join_conditionTokens, join_conditionTokens, hconditions]
  cases hcondition : l.joins.condition? id with
  | none => exact .none
  | some e => exact .some ((h e hcondition).tokens hl (hsites e hcondition) .predicate)

/-- The clauses of two levels that are written alike, one by one. -/
structure Select.ClausesAgree (k : Comparison) (ctx ctx' : RenderContext) (s s' : Select) : Prop where
  distinct : s'.distinct = s.distinct
  recursive : s'.ctes.map Cte.recursive = s.ctes.map Cte.recursive
  items : s'.items.isEmpty = s.items.isEmpty
  paired : ∃ g, Level.Paired k.exact k.dialect g (s.level ctx) (s'.level ctx')
  tables : k.TokenLists (Cte.listTokens ctx s.ctes) (Cte.listTokens ctx' s'.ctes)
  selected : k.TokenLists (SelectItem.listTokens (s.level ctx) s.items)
    (SelectItem.listTokens (s'.level ctx') s'.items)
  /-- The conditions of what no root leads to are not written. -/
  conditions : ∀ root ∈ s.joins.roots, ∀ id ∈ (s.joins.subtree root).tail, Option.Rel k.Tokens
    ((JoinNode.conditionTokens (s.level ctx) s.joins.nodes)[id]?.join)
    ((JoinNode.conditionTokens (s'.level ctx') s'.joins.nodes)[id]?.join)
  condition : Agree k.exact (Option.Rel (SameText k.dialect))
    (Expr.optionTokens (s.level ctx) .predicate s.condition)
    (Expr.optionTokens (s'.level ctx') .predicate s'.condition)
  groups : k.TokenLists (Expr.listTokens (s.level ctx) s.groupBy)
    (Expr.listTokens (s'.level ctx') s'.groupBy)
  having : Agree k.exact (Option.Rel (SameText k.dialect))
    (Expr.optionTokens (s.level ctx) .predicate s.having)
    (Expr.optionTokens (s'.level ctx') .predicate s'.having)
  orders : k.TokenLists (OrderItem.listTokens (s.level ctx) s.orderBy)
    (OrderItem.listTokens (s'.level ctx') s'.orderBy)

/-- Levels are written alike if their clauses are. -/
theorem Select.ClausesAgree.tokens {s s' : Select} (h : s.ClausesAgree k ctx ctx' s') :
    k.Tokens (s.tokens ctx) (s'.tokens ctx') := by
  obtain ⟨g, hpaired⟩ := h.paired
  have hentries := hpaired.fromTokens h.conditions
  have hroots : s'.joins.roots = s.joins.roots := hpaired.roots
  have hcapabilities : ctx'.capabilities = ctx.capabilities := hpaired.context.capabilities
  have hunsupported : ctx'.unsupported .withClause = ctx.unsupported .withClause :=
    hpaired.context.unsupported .withClause
  have hempty : s'.ctes.isEmpty = s.ctes.isEmpty := by
    rw [← List.isEmpty_map (f := Cte.recursive), h.recursive, List.isEmpty_map]
  have hrecursive : s'.ctes.any Cte.recursive = s.ctes.any Cte.recursive := by
    rw [← Function.id_comp Cte.recursive, ← List.any_map, ← List.any_map, h.recursive]
  rw [tokens_eq, tokens_eq, hroots, hempty, hcapabilities, hunsupported]
  refine .guard (fun _ => rfl) fun _ => .guard (fun _ => rfl) fun _ => ?_
  refine h.tables.bind fun _ _ htables => h.selected.bind fun _ _ hselected =>
    hentries.bind fun _ _ hentries => h.condition.bind fun _ _ hcondition =>
    h.groups.bind fun _ _ hgroups => h.having.bind fun _ _ hhaving =>
    h.orders.bind fun _ _ horders => .ok ?_
  rw [assembled, assembled, hempty, hrecursive, h.distinct, h.items, hpaired.rootListTokens]
  refine ((((((((SameText.append ?_ (.refl _)).append (.refl _)).append ?_).append
    (.refl _)).append hentries).append (.clauseTokens _ hcondition)).append
    (.listClauseTokens _ hgroups)).append (.clauseTokens _ hhaving)).append
    (.listClauseTokens _ horders)
  · split
    · exact .refl _
    · exact ((SameText.refl _).append (.joined _ htables)).append (.refl _)
  · split
    · exact .refl _
    · exact .joined _ hselected

/-- A query level whose clauses are rewritten, over joins and aliases that are written alike. -/
theorem Select.tokens_agree {s : Select} {g : String → String} {joins : JoinGraph Expr}
    {aliases : AliasTable Expr} (parts : s.Parts (Expr.Follows k) (CteBody.Follows k))
    (hsites : ∀ site ∈ s.sites.tail, site.Within k)
    (hctes : s.ctes ≠ [] → k.contexts ctx.nested ctx'.nested)
    (hconditions : ∀ id, joins.condition? id =
      (s.joins.condition? id).map (Expr.rewrite k.rewriting f))
    (hpaired : Level.Paired k.exact k.dialect g (s.level ctx) ⟨ctx', aliases, joins⟩)
    (hlinked : (s.level ctx).Linked k f ⟨ctx', aliases, joins⟩) :
    k.Tokens (s.tokens ctx)
      (Select.tokens ctx'
        { s.rewriteBy k.rewriting f with joins := joins, aliases := aliases }) := by
  rw [sites_eq, List.tail_cons] at hsites
  simp only [List.forall_mem_append, List.forall_mem_flatMap, Option.mem_toList] at hsites
  obtain ⟨⟨⟨⟨⟨⟨⟨-, hsctes⟩, hsitems⟩, hsjoins⟩, hscondition⟩, hsgroups⟩, hshaving⟩, hsorders⟩ :=
    hsites
  refine ClausesAgree.tokens {
    distinct := rfl
    recursive := ?_
    items := List.isEmpty_map
    paired := ⟨g, hpaired⟩
    tables := Cte.listTokens_agree hctes parts.ctes hsctes
    selected := SelectItem.listTokens_agree hlinked parts.items hsitems
    conditions := fun root hroot id hid =>
      Level.join_conditionTokens_agree hlinked hconditions (fun e he => parts.of_condition he)
        (hsjoins id (List.mem_flatMap.2 ⟨root, hroot, hid⟩))
    condition := Expr.optionTokens_agree fun e he =>
      (parts.condition e he).tokens hlinked (hscondition e he) .predicate
    groups := Expr.listTokens_agree fun e he =>
      (parts.groupBy e he).tokens hlinked (hsgroups e he) .value
    having := Expr.optionTokens_agree fun e he =>
      (parts.having e he).tokens hlinked (hshaving e he) .predicate
    orders := OrderItem.listTokens_agree hlinked parts.orderBy hsorders }
  rw [rewriteBy, List.map_map]
  rfl

end Clauses

namespace FunctionForm

variable {k : Comparison}

theorem same_level {ts ts' : List Token} (h : SameText k.dialect ts ts') :
    Same k (.level ts) (.level ts') :=
  fun _ _ _ => .ok h

theorem same_word (text : String) : Same k (.word text) (.word text) := fun _ _ _ => .ok (.refl _)

theorem same_number (n : UInt64) : Same k (.number n) (.number n) := fun _ _ _ => .ok (.refl _)

theorem same_order {ts ts' : List Token} (h : SameText k.dialect ts ts') :
    Same k (.order ts) (.order ts') :=
  fun _ _ _ => .ok h.quoted

theorem same_call (function : String) {forms forms' : List FunctionForm}
    (h : List.Forall₂ (Same k) forms forms') :
    Same k (.call function forms) (.call function forms') := by
  intro around around' haround
  have hlist : k.TokenLists (tokensList around forms) (tokensList around' forms') := by
    induction h with
    | nil => exact .ok .nil
    | cons hform _ ih =>
        exact (hform around around' haround).bind fun _ _ hform => ih.bind fun _ _ hrest =>
          .ok (.cons hform hrest)
  rw [tokens, tokens, h.length_eq]
  exact haround.invocation function _ hlist

theorem same_limited {form form' : FunctionForm} (h : Same k form form') (limits : Limits) :
    Agree k.exact (Same k) (limited form limits) (limited form' limits) := by
  obtain ⟨first, max⟩ := limits
  cases max with
  | none => cases first with
    | none => exact .ok h
    | some first => exact .error_same _
  | some max => cases first with
    | none => exact .ok (same_call _ (.cons h (.cons (same_number max) .nil)))
    | some first =>
        exact .ok (same_call _ (.cons h (.cons (same_number max) (.cons (same_number first) .nil))))

theorem same_combined (operator : SetOperator) {forms forms' : List FunctionForm}
    {orders orders' : List (List Token)} (h : List.Forall₂ (Same k) forms forms')
    (horders : List.Forall₂ (SameText k.dialect) orders orders') (limits : Limits) :
    Same k (combined operator forms orders limits) (combined operator forms' orders' limits) := by
  have hgroup : List.Forall₂ (Same k) (orderArguments orders) (orderArguments orders') := by
    have hitems : List.Forall₂ (Same k) (orders.map order) (orders'.map order) :=
      List.forall₂_map_left_iff.2 (List.forall₂_map_right_iff.2 (horders.imp fun _ _ => same_order))
    cases horders with
    | nil => exact .nil
    | cons => exact .cons (same_word _) hitems
  have hlimits : List.Forall₂ (Same k) (limitArguments limits) (limitArguments limits) := by
    rw [limitArguments]
    refine List.rel_append ?_ ?_
    · cases limits.max with
      | none => exact .nil
      | some max => exact .cons (same_word "LIMIT") (.cons (same_number max) .nil)
    · cases limits.first with
      | none => exact .nil
      | some first => exact .cons (same_word "OFFSET") (.cons (same_number first) .nil)
  exact same_call _ (List.rel_append (List.rel_append h hgroup) hlimits)

end FunctionForm

/-- A level that is written alike, both as it stands and inside another query, is so in every
form. -/
theorem Select.paired_of_tokens {k : Comparison} {ctx ctx' : RenderContext} {s s' : Select}
    (hlimits : s'.limits = s.limits) (horder : s'.orderBy.isEmpty = s.orderBy.isEmpty)
    (htokens : k.Tokens (s.tokens ctx) (s'.tokens ctx'))
    (hnested : k.Tokens (s.tokens ctx.nested) (s'.tokens ctx'.nested)) :
    (Query.select s).Paired k ctx ctx' (.select s') where
  rendered := by
    rw [Query.rendered, Query.rendered, hlimits]
    exact htokens.bind fun _ _ hts => .ok ⟨hts, rfl⟩
  memberTokens := by
    rw [Query.memberTokens, Query.memberTokens, horder]
    refine hnested.bind fun _ _ hts => .ok ?_
    split
    · exact hts
    · exact hts.parenthesized
  functionForm := by
    rw [Query.functionForm, Query.functionForm, hlimits]
    exact hnested.bind fun _ _ hts =>
      FunctionForm.same_limited (FunctionForm.same_level hts.parenthesized) _
  subqueryTokens around around' haround := by
    rw [Query.subqueryTokens, Query.subqueryTokens, hlimits]
    split
    · exact hnested.bind fun _ _ hts =>
        (FunctionForm.same_limited (FunctionForm.same_level hts.parenthesized) _).bind
          fun _ _ hform => hform around around' haround
    · exact htokens

section Forms

variable {k : Comparison} (hk : k.Sound) {ctx ctx' : RenderContext}
include hk

theorem Comparison.Sound.linked {sc : Scope} (hctx : k.contexts ctx ctx') (hlevel : k.levels sc) :
    (sc.level ctx).Linked k (k.rewriting.path sc.aliases) ((sc.rewrite k.rewriting).level ctx') where
  context := hk.paired hctx
  inner := hk.correlated hctx hlevel
  path _ hp := hk.path hctx hlevel hp

/-- A query level inside a query, with its paths rewritten by its own aliases. -/
theorem Select.tokens_rewrite {s : Select} (parts : s.Parts (Expr.Follows k) (CteBody.Follows k))
    (hctx : k.contexts ctx ctx') (hsites : ∀ site ∈ s.sites, site.Within k) :
    k.Tokens (s.tokens ctx) ((s.rewrite k.rewriting).tokens ctx') := by
  have hlevel : k.levels s.scope := by
    rw [sites_eq] at hsites
    exact hsites _ List.mem_cons_self
  rw [rewrite_eq]
  exact tokens_agree parts (fun site hsite => hsites site (List.mem_of_mem_tail hsite))
    (fun _ => hk.nested hctx) (JoinGraph.condition?_map (fun _ => rfl) s.joins)
    (s.scope.paired_rewrite (hk.paired hctx) (hk.declared hctx) (hk.source hctx)) (hk.linked hctx hlevel)

theorem Select.follows {s : Select} (parts : s.Parts (Expr.Follows k) (CteBody.Follows k)) :
    (Query.select s).Follows k := by
  intro ctx ctx' between hctx hsites
  rw [Query.memberSites, List.forall_mem_cons] at hsites
  rw [Query.rewrite]
  refine paired_of_tokens ?_ ?_ (tokens_rewrite hk parts hctx hsites.2)
    (tokens_rewrite hk parts (hk.nested hctx) hsites.2)
  · rw [rewrite_eq]
    rfl
  · rw [rewrite_eq]
    exact List.isEmpty_map

theorem SetOperation.resultTokens_agree {is : List (OrderItem Expr)}
    (h : ∀ i ∈ is, i.expr.Follows k) (hctx : k.contexts ctx ctx')
    (hsites : ∀ i ∈ is, ∀ site ∈ i.expr.sites {}, site.Within k) :
    k.TokenLists (OrderItem.resultTokens ctx is)
      (OrderItem.resultTokens ctx'
        (is.map (OrderItem.rewrite k.rewriting (k.rewriting.path {})))) := by
  rw [OrderItem.resultTokens_eq, OrderItem.resultTokens_eq]
  exact OrderItem.listTokens_agree (hk.linked hctx hk.empty) h hsites

end Forms

/-- The parts of two set operations that are written alike in two contexts. -/
structure SetOperation.PairedParts (k : Comparison) (ctx ctx' : RenderContext)
    (c c' : SetOperation) : Prop where
  context : ctx.Paired k.dialect ctx'
  operator : c'.operator = c.operator
  limits : c'.limits = c.limits
  start : c.start.Paired k ctx ctx' c'.start
  operands : List.Forall₂ (Query.Paired k ctx ctx') c.operands c'.operands
  orderBy : k.TokenLists (OrderItem.resultTokens ctx c.orderBy)
    (OrderItem.resultTokens ctx' c'.orderBy)
  /-- Whether a query has limits decides in which form it is written. -/
  limited : c'.start.limitedAnywhere = c.start.limitedAnywhere
  anyLimited : Query.anyLimited c'.operands = Query.anyLimited c.operands

namespace SetOperation

variable {k : Comparison} {ctx ctx' : RenderContext} {c c' : SetOperation}

theorem PairedParts.activeOperator (h : c.PairedParts k ctx ctx' c') :
    activeOperator c'.operator c'.operands = activeOperator c.operator c.operands := by
  have hoperands := h.operands
  rw [SetOperation.activeOperator, SetOperation.activeOperator, h.operator]
  generalize c.operands = qs, c'.operands = qs' at hoperands
  cases hoperands <;> rfl

theorem PairedParts.functionForm (h : c.PairedParts k ctx ctx' c') :
    Agree k.exact (FunctionForm.Same k) (c.functionForm ctx) (c'.functionForm ctx') := by
  rw [functionForm_eq, functionForm_eq, h.activeOperator, h.limits]
  simp only [Query.functionForms_eq_mapM]
  cases SetOperation.activeOperator c.operator c.operands with
  | none => exact h.start.functionForm.bind fun _ _ hform => FunctionForm.same_limited hform _
  | some op =>
      have hoperands := Agree.mapM (h.operands.imp fun _ _ hq => hq.functionForm)
      exact h.start.functionForm.bind fun _ _ hform => hoperands.bind fun _ _ hforms =>
        h.orderBy.bind fun _ _ horders =>
          .ok (FunctionForm.same_combined op (.cons hform hforms) horders _)

/-- Queries with an operator between them, or the first of them on its own. -/
theorem nativeTokens_agree {d : Dialect} (operator : Option SetOperator)
    {members members' orders orders' : List (List Token)}
    (hmembers : List.Forall₂ (SameText d) members members')
    (horders : List.Forall₂ (SameText d) orders orders') :
    SameText d (nativeTokens operator members orders) (nativeTokens operator members' orders') :=
  (SameText.joined _ hmembers).append (.listClauseTokens .ORDER_BY horders)

theorem PairedParts.memberTokens (h : c.PairedParts k ctx ctx' c') :
    k.Tokens (c.memberTokens ctx) (c'.memberTokens ctx') := by
  rw [memberTokens_eq, memberTokens_eq, h.activeOperator]
  simp only [Query.memberListTokens_eq_mapM]
  cases SetOperation.activeOperator c.operator c.operands with
  | none =>
      exact h.start.memberTokens.bind fun _ _ hstart => h.orderBy.bind fun _ _ horders =>
        .ok (nativeTokens_agree none (.cons hstart .nil) horders)
  | some op =>
      have hoperands := Agree.mapM (h.operands.imp fun _ _ hq => hq.memberTokens)
      exact h.start.memberTokens.bind fun _ _ hstart => hoperands.bind fun _ _ hoperands =>
        h.orderBy.bind fun _ _ horders =>
          .ok (nativeTokens_agree (some op) (.cons hstart hoperands) horders)

theorem PairedParts.rendered (h : c.PairedParts k ctx ctx' c') :
    Agree k.exact (RenderedLevel.Same k) (c.rendered ctx) (c'.rendered ctx') := by
  have hbetween : c'.writtenBetween ctx' = c.writtenBetween ctx := by
    rw [writtenBetween, writtenBetween, h.context.capabilities, h.limited, h.anyLimited]
  cases hactive : SetOperation.activeOperator c.operator c.operands with
  | none =>
      rw [rendered_eq, rendered_eq, h.activeOperator, hactive, h.limits]
      exact h.start.rendered.bind fun _ _ hinner =>
        .ok ⟨hinner.tokens, by rw [hinner.limits]⟩
  | some op =>
      rw [rendered_of_active hactive, rendered_of_active (h.activeOperator.trans hactive), hbetween,
        h.limits]
      split
      · exact h.memberTokens.bind fun _ _ hts => .ok ⟨hts, rfl⟩
      · exact h.functionForm.bind fun _ _ hform =>
          (hform ctx ctx' h.context).bind fun _ _ hts => .ok ⟨hts, rfl⟩

/-- Set operations with such parts are written alike in every form. -/
theorem PairedParts.paired (h : c.PairedParts k ctx ctx' c') :
    (Query.combined c).Paired k ctx ctx' (.combined c') where
  rendered := by
    rw [Query.rendered, Query.rendered]
    exact h.rendered
  memberTokens := by
    rw [Query.memberTokens, Query.memberTokens]
    exact h.memberTokens.bind fun _ _ hts => .ok hts.parenthesized
  functionForm := by
    rw [Query.functionForm, Query.functionForm]
    exact h.functionForm
  subqueryTokens around around' haround := by
    rw [Query.subqueryTokens, Query.subqueryTokens]
    exact h.functionForm.bind fun _ _ hform => hform around around' haround

end SetOperation

section Forms

variable {k : Comparison} (hk : k.Sound) {ctx ctx' : RenderContext}
include hk

theorem SetOperation.follows {c : SetOperation} (parts : c.Parts (Expr.Follows k) (Query.Follows k)) :
    (Query.combined c).Follows k := by
  intro ctx ctx' between hctx hsites
  rw [Query.memberSites, sites_eq, List.forall_mem_cons] at hsites
  simp only [List.forall_mem_append, List.forall_mem_flatMap] at hsites
  obtain ⟨-, ⟨hsstart, hsoperands⟩, hsorders⟩ := hsites
  have hoperands (q : Query) (hq : q ∈ c.operands) :=
    parts.operands q hq ctx ctx' _ hctx (hsoperands q hq)
  rw [Query.rewrite, rewrite_eq]
  exact PairedParts.paired {
    context := hk.paired hctx
    operator := rfl
    limits := rfl
    start := parts.start ctx ctx' _ hctx hsstart
    operands := List.forall₂_map_right_iff.2 (List.forall₂_same.2 hoperands)
    orderBy := resultTokens_agree hk parts.orderBy hctx hsorders
    limited := Query.limitedAnywhere_rewrite k.rewriting c.start
    anyLimited := Query.anyLimited_map fun q _ => q.limitedAnywhere_rewrite k.rewriting }

omit hk in
theorem Expr.follows_call {function : String} {args : List Expr} (h : ∀ e ∈ args, e.Follows k) :
    (Expr.call function args).Follows k := by
  intro l l' f hl hsites position
  rw [sites] at hsites
  rw [rewrite, rewriteList_eq_map, tokens, tokens, isOuterCall_map, genericName?_map_rewrite]
  by_cases houter : isOuterCall function args = true
  · rw [if_pos houter, sitesList_eq, List.forall_mem_flatMap] at hsites
    rw [if_pos houter, if_pos houter]
    exact firstTokens_agree fun e he => (h e he).tokens hl (hsites e he) position
  · rw [if_neg houter] at hsites
    rw [if_neg houter, if_neg houter]
    cases hname : genericName? function args with
    | some name =>
        simp only [hname, sitesRest_eq, List.forall_mem_cons, List.forall_mem_flatMap] at hsites
        rw [List.length_map]
        exact hl.context.invocation name _ (restTokens_agree fun e he =>
          (h e (List.mem_of_mem_tail he)).tokens hl (hsites.2 e he) .value)
    | none =>
        simp only [hname, sitesList_eq, List.forall_mem_flatMap] at hsites
        have hlist := listTokens_agree fun e he => (h e he).tokens hl (hsites e he) .value
        exact hlist.bind fun _ _ hargs => .ok (((SameText.refl _).append
          (.joined _ hargs)).parenthesized.cons _)

omit hk in
theorem Expr.follows_aggregate {function : String} {args : List Expr} {distinct : Bool}
    (h : ∀ e ∈ args, e.Follows k) : (Expr.aggregate function args distinct).Follows k := by
  intro l l' f hl hsites position
  rw [sites] at hsites
  rw [rewrite, rewriteList_eq_map, tokens, tokens, isCountStar, isCountStar, List.isEmpty_map]
  rw [isCountStar] at hsites
  split
  · rw [RenderContext.countStarTokens, RenderContext.countStarTokens, hl.context.capabilities]
    split
    · exact .ok (.refl _)
    · exact hl.context.invocation _ _ (.ok .nil)
  · rename_i hcount
    rw [if_neg hcount, sitesList_eq, List.forall_mem_flatMap] at hsites
    have hlist := listTokens_agree fun e he => (h e he).tokens hl (hsites e he) .value
    exact hlist.bind fun _ _ hargs => .ok (((SameText.refl _).append
      (.joined _ hargs)).parenthesized.cons _)

omit hk in
theorem Query.forall_memberSites {q : Query} (h : ∀ site ∈ q.sites, site.Within k) :
    ∀ site ∈ q.memberSites true, site.Within k := by
  cases q with
  | select s => exact List.forall_mem_cons.2 ⟨trivial, h⟩
  | combined c => exact h

omit hk in
theorem Expr.parenthesizeLooser_agree (precedence : Nat) (e : Expr) {r : Rewriting}
    {f : Path → Path} {d : Dialect} {ts ts' : List Token} (h : SameText d ts ts') :
    SameText d (parenthesizeLooser precedence e ts)
      (parenthesizeLooser precedence (e.rewrite r f) ts') := by
  rw [parenthesizeLooser_rewrite]
  exact h.parenthesizeLooser precedence e

/-- What is written on each level alike is written alike as a whole, in every form. -/
theorem Expr.hereditary_follows : Hereditary (Expr.Follows k) (Query.Follows k) (CteBody.Follows k) where
  path p l l' f hl hsites position := by
    rw [Expr.rewrite, Expr.tokens, Expr.tokens]
    exact hl.path p (hsites _ List.mem_cons_self)
  literal v l l' f hl hsites position := by
    rw [Expr.rewrite, Expr.tokens, Expr.tokens]
    exact .of_eq SameText.refl rfl
  parameter p l l' f hl hsites position := by
    rw [Expr.rewrite, Expr.tokens, Expr.tokens, Level.parameterTokens, Level.parameterTokens,
      hl.context.capabilities]
    exact .of_eq SameText.refl rfl
  call function args hargs := Expr.follows_call hargs
  aggregate function args distinct hargs := Expr.follows_aggregate hargs
  subquery q hq l l' f hl hsites position := by
    have htokens := (hq _ _ false hl.inner hsites).subqueryTokens _ _ hl.context
    rw [Expr.rewrite, Expr.tokens, Expr.tokens]
    exact htokens.bind fun _ _ hts => .ok hts.parenthesized
  indexed base index _ l l' f hl hsites position := .ok (.refl _)
  null l l' f hl hsites position := .ok (.refl _)
  caseWhen operand branches otherwise hoperand hbranches hotherwise l l' f hl hsites position := by
    rw [Expr.sites, Expr.sitesOption_eq, Expr.sitesPairs_eq, Expr.sitesOption_eq] at hsites
    simp only [List.forall_mem_append, List.forall_mem_flatMap, Option.mem_toList] at hsites
    obtain ⟨⟨hsoperand, hsbranches⟩, hsotherwise⟩ := hsites
    have hfirst := Expr.optionTokens_agree fun e he =>
      (hoperand e he).tokens hl (hsoperand e he) .value
    have hmiddle (position : Position) := Expr.branchTokens_agree fun b hb =>
      ⟨(hbranches b hb).1.tokens hl (hsbranches b hb).1 position,
        (hbranches b hb).2.tokens hl (hsbranches b hb).2 .value⟩
    have hlast := Expr.optionTokens_agree fun e he =>
      (hotherwise e he).tokens hl (hsotherwise e he) .value
    rw [Expr.rewrite, Expr.rewriteOption_eq_map, Expr.rewriteOption_eq_map,
      Expr.rewritePairs_eq_map, Expr.tokens, Expr.tokens, Option.isSome_map]
    refine hfirst.bind fun _ _ hfirst => (hmiddle _).bind fun _ _ hmiddle =>
      hlast.bind fun _ _ hlast => .ok ?_
    refine (((SameText.append ?_ hmiddle).append (.clauseTokens _ hlast)).append (.refl _)).cons _
    cases hfirst with
    | none => exact .refl _
    | some hfirst => exact hfirst.cons _
  binary left op right hleft hright l l' f hl hsites position := by
    rw [Expr.sites, List.forall_mem_append] at hsites
    rw [Expr.rewrite, Expr.tokens, Expr.tokens]
    exact (hleft.tokens hl hsites.1 _).bind fun _ _ ha =>
      (hright.tokens hl hsites.2 _).bind fun _ _ hb => .ok
        (((Expr.parenthesizeLooser_agree _ left ha).append (.refl _)).append
          (Expr.parenthesizeLooser_agree _ right hb))
  not e he l l' f hl hsites position := by
    rw [Expr.rewrite, Expr.tokens, Expr.tokens]
    exact (he.tokens hl hsites _).bind fun _ _ hts => .ok
      ((SameText.refl _).append (Expr.parenthesizeLooser_agree _ e hts))
  isNull e negated he l l' f hl hsites position := by
    rw [Expr.rewrite, Expr.tokens, Expr.tokens]
    exact (he.tokens hl hsites _).bind fun _ _ hts => .ok (hts.append (.refl _))
  like e pattern escape negated he hpattern l l' f hl hsites position := by
    rw [Expr.sites, List.forall_mem_append] at hsites
    rw [Expr.rewrite, Expr.tokens.eq_def, Expr.tokens.eq_def]
    exact (he.tokens hl hsites.1 _).bind fun _ _ ha =>
      (hpattern.tokens hl hsites.2 _).bind fun _ _ hb => .ok
        (((((ha.append (.refl _)).append (.refl _)).append (.refl _)).append hb).append (.refl _))
  oneOf e values negated he hvalues l l' f hl hsites position := by
    rw [Expr.sites] at hsites
    rw [Expr.rewrite, Expr.rewriteList_eq_map, Expr.tokens, Expr.tokens, List.isEmpty_map,
      Expr.standsAlone_map_rewrite]
    by_cases hempty : values.isEmpty = true
    · rw [if_pos hempty, if_pos hempty]
      exact .ok (.refl _)
    rw [if_neg hempty, if_neg hempty]
    rw [if_neg hempty, Expr.sitesList_eq, List.forall_mem_append, List.forall_mem_flatMap] at hsites
    have hlist := Expr.listTokens_agree fun v hv => (hvalues v hv).tokens hl (hsites.2 v hv) .value
    refine (he.tokens hl hsites.1 _).bind fun _ _ ha => hlist.bind fun _ _ hvalues => .ok ?_
    refine (((ha.append (.refl _)).append (.refl _)).append (.refl _)).append ?_
    split
    · exact .joined _ hvalues
    · exact (SameText.joined _ hvalues).parenthesized
  between e low high negated he hlow hhigh l l' f hl hsites position := by
    rw [Expr.sites, List.forall_mem_append, List.forall_mem_append] at hsites
    rw [Expr.rewrite, Expr.tokens, Expr.tokens]
    exact (he.tokens hl hsites.1.1 _).bind fun _ _ ha =>
      (hlow.tokens hl hsites.1.2 _).bind fun _ _ hb =>
        (hhigh.tokens hl hsites.2 _).bind fun _ _ hc => .ok
          ((((((ha.append (.refl _)).append (.refl _)).append (.refl _)).append hb).append
            (.refl _)).append hc)
  parens e he l l' f hl hsites position := by
    rw [Expr.rewrite, Expr.tokens, Expr.tokens]
    exact (he.tokens hl hsites _).bind fun _ _ hts => .ok hts.parenthesized
  verbatim s l l' f hl hsites position := .ok (.refl _)
  select s parts := Select.follows hk parts
  combined c parts := SetOperation.follows hk parts
  query q hq ctx ctx' entity hctx _ hsites := by
    rw [CteBody.rewrite, CteBody.tokens, CteBody.tokens, Query.limitedAnywhere_rewrite]
    exact .guard (fun _ => rfl) fun _ =>
      ((hq ctx ctx' true hctx (Query.forall_memberSites hsites)).rendered).bind fun _ _ hbody =>
        .ok hbody.tokens
  update u _ _ ctx ctx' entity hctx hquery _ := by
    obtain ⟨q, hq⟩ := hquery
    cases hq
  collectionDelete d _ ctx ctx' entity hctx hquery _ := by
    obtain ⟨q, hq⟩ := hquery
    cases hq

omit hk in
/-- Queries that are written alike and mention the same parameters make the same statement. -/
theorem Statement.render_agree (hctx : ctx.Paired k.dialect ctx') {q q' : Query}
    (hmarkers : q'.markers = q.markers)
    (h : Agree k.exact (RenderedLevel.Same k) (q.rendered ctx) (q'.rendered ctx')) :
    Agree k.exact Eq ((Statement.select q).render ctx) ((Statement.select q').render ctx') := by
  rw [render, render, rendered, rendered]
  refine h.bind fun level level' hlevel => .ok ?_
  have htext : tokensText ctx'.dialect level'.tokens = tokensText ctx.dialect level.tokens := by
    rw [hctx.left, hctx.right]
    exact hlevel.tokens.symm
  rw [htext, hlevel.limits, parameters, parameters, markers, markers, hmarkers]
  rfl

theorem Statement.render_rewrite (hctx : k.contexts ctx ctx') {q : Query}
    (hsites : ∀ site ∈ q.sites, site.Within k) :
    Agree k.exact Eq ((Statement.select q).render ctx)
      ((Statement.select (q.rewrite k.rewriting)).render ctx') := by
  have hq := (Expr.hereditary_follows hk).queries q
  exact render_agree (hk.paired hctx) (q.markers_rewrite k.rewriting)
    (hq ctx ctx' true hctx (Query.forall_memberSites hsites)).rendered

end Forms

end EntityQuery
