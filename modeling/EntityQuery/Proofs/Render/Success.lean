import EntityQuery.Proofs.Induction
import EntityQuery.Proofs.Render.LevelVerdict

/-!
When writing succeeds. Every shape passes on what its parts ask for, and asks for what its own sites
ask for; so a text comes about exactly if every site of the statement can be written. Native set
operations and function forms come to the same verdict, since they write the same queries.
-/

namespace EntityQuery

/-- What an expression asks for, wherever it stands. -/
def Expr.Judged (e : Expr) : Prop :=
  ∀ (l : Level) (position : Position),
    Verdict l.context (e.sites l.scope) (Succeeds (e.tokens l position))

/-- What a query asks for in each of its forms. -/
structure Query.Judged (q : Query) : Prop where
  rendered : ∀ ctx, Verdict ctx q.sites (Succeeds (q.rendered ctx))
  memberTokens : ∀ ctx, ctx.capabilities.nativeSetOperations = true →
    q.limitedAnywhere = false → Verdict ctx (q.memberSites true) (Succeeds (q.memberTokens ctx))
  functionForm : ∀ ctx between, (ctx.capabilities.nativeSetOperations = true → between = false) →
    Verdict ctx (q.memberSites between) (FunctionForm.CanWrite ctx (q.functionForm ctx))
  subqueryTokens : ∀ ctx t, Verdict ctx (q.memberSites false)
    (Succeeds (q.subqueryTokens (ctx.correlated t) ctx))

/-- What the body of a common table asks for, together with the columns of the table. -/
def CteBody.Judged (b : CteBody) : Prop :=
  ∀ ctx entity columns, Verdict ctx (.table columns b :: b.sites)
    (Succeeds (Cte.check entity columns b.width) ∧ Succeeds (b.tokens ctx entity))

section Lists

variable {l : Level}

theorem verdict_listTokens {es : List Expr} (h : ∀ e ∈ es, e.Judged) :
    Verdict l.context (es.flatMap (Expr.sites l.scope)) (Succeeds (Expr.listTokens l es)) := by
  rw [Expr.listTokens_eq_mapM, succeeds_mapM]
  exact Verdict.flatMap fun e he => h e he l .value

theorem verdict_optionTokens {e? : Option Expr} (h : ∀ e ∈ e?, e.Judged) (position : Position) :
    Verdict l.context (e?.toList.flatMap (Expr.sites l.scope))
      (Succeeds (Expr.optionTokens l position e?)) := by
  refine Verdict.congr ?_ (Verdict.option fun e he => h e he l position)
  cases e? with
  | none => simp [Expr.optionTokens]
  | some e => simp [Expr.optionTokens]

theorem verdict_branchTokens {bs : List (Expr × Expr)} (h : ∀ b ∈ bs, b.1.Judged ∧ b.2.Judged)
    (position : Position) :
    Verdict l.context (bs.flatMap fun b => b.1.sites l.scope ++ b.2.sites l.scope)
      (Succeeds (Expr.branchTokens l position bs)) := by
  refine Verdict.congr ?_ (Verdict.flatMap fun b hb =>
    ((h b hb).1 l position).append ((h b hb).2 l .value))
  induction bs with
  | nil => simp [Expr.branchTokens]
  | cons b rest ih =>
      have hrest := ih fun other hother => h other (List.mem_cons_of_mem _ hother)
      rw [Expr.branchTokens, List.forall_mem_cons, ← hrest]
      simp [and_assoc]

theorem verdict_assignmentTokens {bs : List (Expr × Expr)}
    (h : ∀ b ∈ bs, b.1.Judged ∧ b.2.Judged) :
    Verdict l.context (bs.flatMap fun b => b.1.sites l.scope ++ b.2.sites l.scope)
      (Succeeds (Expr.assignmentTokens l bs)) := by
  rw [Expr.assignmentTokens_eq_mapM, succeeds_mapM]
  refine Verdict.flatMap fun b hb => ?_
  refine Verdict.congr ?_ (((h b hb).1 l .value).append ((h b hb).2 l .value))
  simp [Level.assignmentTokens]

theorem verdict_selectItemTokens {is : List (SelectItem Expr)} (h : ∀ i ∈ is, i.expr.Judged) :
    Verdict l.context (is.flatMap fun i => i.expr.sites l.scope)
      (Succeeds (SelectItem.listTokens l is)) := by
  rw [SelectItem.listTokens_eq_mapM, succeeds_mapM]
  refine Verdict.flatMap fun i hi => Verdict.congr ?_ (h i hi l .value)
  simp [Level.selectItemTokens]

theorem verdict_orderItemTokens {is : List (OrderItem Expr)} (h : ∀ i ∈ is, i.expr.Judged) :
    Verdict l.context (is.flatMap fun i => i.expr.sites l.scope)
      (Succeeds (OrderItem.listTokens l is)) := by
  rw [OrderItem.listTokens_eq_mapM, succeeds_mapM]
  refine Verdict.flatMap fun i hi => Verdict.congr ?_ (h i hi l .value)
  simp [Level.orderItemTokens]

theorem verdict_resultTokens (ctx : RenderContext) {is : List (OrderItem Expr)}
    (h : ∀ i ∈ is, i.expr.Judged) :
    Verdict ctx (is.flatMap fun i => i.expr.sites {})
      (Succeeds (OrderItem.resultTokens ctx is)) := by
  rw [OrderItem.resultTokens_eq]
  exact verdict_orderItemTokens (l := ⟨ctx, {}, {}⟩) h

theorem verdict_tables (ctx : RenderContext) {cs : List Cte} (h : ∀ c ∈ cs, c.body.Judged) :
    Verdict ctx (cs.flatMap fun c => .table c.columns c.body :: c.body.sites)
      (Succeeds (Cte.listTokens ctx cs)) := by
  rw [Cte.listTokens_eq_mapM, succeeds_mapM]
  refine Verdict.flatMap fun c hc => Verdict.congr ?_ (h c hc ctx.nested c.entity c.columns).nested
  simp [Cte.tokens]

end Lists

/-- A query level asks for its FROM clause, for its WITH clause, and for what its clauses ask
for. -/
theorem Select.verdict_tokens {s : Select} (parts : s.Parts Expr.Judged CteBody.Judged)
    (ctx : RenderContext) : Verdict ctx s.sites (Succeeds (s.tokens ctx)) := by
  have hwith : Verdict ctx (if s.ctes.isEmpty then [] else [.withClause])
      (s.ctes ≠ [] → ctx.capabilities.withClause = true) := by
    cases s.ctes with
    | nil => exact Verdict.nil.congr (by simp)
    | cons c rest =>
        refine Verdict.congr ?_ (Verdict.single fun _ => Iff.rfl)
        simp [Site.Writable, Site.Sound, Site.SupportedBy]
  have htables := verdict_tables ctx parts.ctes
  have hitems := verdict_selectItemTokens (l := s.level ctx) parts.items
  have hconditions : Verdict ctx
      (s.scope.joined.flatMap fun id => (s.joins.condition? id).toList.flatMap (Expr.sites s.scope))
      (∀ id ∈ s.scope.joined, ∀ e ∈ s.joins.condition? id,
        Succeeds (e.tokens (s.level ctx) .predicate)) := by
    refine Verdict.flatMap fun id _ => Verdict.option fun e he => ?_
    exact parts.of_condition he (s.level ctx) .predicate
  have hcondition := verdict_optionTokens (l := s.level ctx) parts.condition .predicate
  have hgroups := verdict_listTokens (l := s.level ctx) parts.groupBy
  have hhaving := verdict_optionTokens (l := s.level ctx) parts.having .predicate
  have horders := verdict_orderItemTokens (l := s.level ctx) parts.orderBy
  rw [sites_eq]
  refine Verdict.congr ?_ (Verdict.cons (fun _ => Iff.rfl)
    (((((((hwith.append htables).append hitems).append hconditions).append hcondition).append
      hgroups).append hhaving).append horders))
  rw [tokens_eq]
  by_cases hempty : s.joins.roots = []
  · simp [hempty, Site.Writable, Site.Sound, scope]
  · rw [if_neg (by simpa using hempty)]
    by_cases hclause : s.ctes ≠ [] → ctx.capabilities.withClause = true
    · have hfrom : Succeeds ((s.level ctx).fromTokens
          (JoinNode.conditionTokens (s.level ctx) s.joins.nodes)) ↔
            (Site.level s.scope).Writable ctx ∧ ∀ id ∈ s.scope.joined,
              ∀ e ∈ s.joins.condition? id, Succeeds (e.tokens (s.level ctx) .predicate) := by
        refine (s.level ctx).succeeds_fromTokens.trans (and_congr_left fun _ => ?_)
        rw [Site.Writable, Site.Sound, Site.SupportedBy, and_assoc, and_assoc]
        exact (and_iff_right hempty).symm
      rw [if_neg (by simpa using hclause)]
      simp only [succeeds_bind, succeeds_pure, and_true, exists_and_right, exists_eq_ok, hfrom]
      constructor
      · rintro ⟨ht, hi, ⟨hlevel, hj⟩, hc, hg, hh, ho⟩
        exact ⟨hlevel, ⟨⟨⟨⟨⟨⟨⟨hclause, ht⟩, hi⟩, hj⟩, hc⟩, hg⟩, hh⟩, ho⟩⟩
      · rintro ⟨hlevel, ⟨⟨⟨⟨⟨⟨⟨-, ht⟩, hi⟩, hj⟩, hc⟩, hg⟩, hh⟩, ho⟩⟩
        exact ⟨ht, hi, ⟨hlevel, hj⟩, hc, hg, hh, ho⟩
    · rw [if_pos (by simpa using hclause)]
      simp [hclause]

theorem Level.verdict_deleteTokens (l : Level) {e? : Option Expr} (h : ∀ e ∈ e?, e.Judged)
    (entity aliasName : String) (collection : Option String) (returning : List String) :
    Verdict l.context (e?.toList.flatMap (Expr.sites l.scope) ++ l.scope.returningSites returning)
      (Succeeds (l.deleteTokens entity aliasName collection
        (Expr.optionTokens l .predicate e?) returning)) := by
  refine Verdict.congr ?_
    ((verdict_optionTokens h .predicate).append (l.verdict_returningTokens returning))
  simp [deleteTokens]

theorem Update.verdict_tokens {u : Update} (hassignments : ∀ a ∈ u.assignments,
    a.1.Judged ∧ a.2.Judged) (hcondition : ∀ e ∈ u.condition, e.Judged) (ctx : RenderContext) :
    Verdict ctx u.sites (Succeeds (u.tokens ctx)) := by
  let l : Level := ⟨ctx, u.target.aliases, u.target.joins⟩
  have hcount (_ : (Site.assignments u.assignments.length).Complete) :
      u.assignments ≠ [] ↔ (Site.assignments u.assignments.length).Writable ctx := by
    simp [Site.Writable, Site.Sound, Site.SupportedBy]
  have hpairs := verdict_assignmentTokens (l := l) hassignments
  have hclause := verdict_optionTokens (l := l) hcondition .predicate
  rw [sites_eq]
  refine Verdict.congr ?_ (Verdict.cons hcount
    ((hpairs.append hclause).append (l.verdict_returningTokens u.returning)))
  rw [tokens_eq]
  by_cases hempty : u.assignments = []
  · simp [hempty]
  · rw [if_neg (by simpa using hempty)]
    simp [hempty, and_assoc, l]

theorem CollectionDelete.verdict_tokens {d : CollectionDelete}
    (hcondition : ∀ e ∈ d.condition, e.Judged) (ctx : RenderContext) :
    Verdict ctx d.sites (Succeeds (d.tokens ctx)) := by
  let l : Level := ⟨ctx, d.target.aliases, d.target.joins⟩
  have hdelete := l.verdict_deleteTokens hcondition d.target.entity d.target.aliasName
    (some d.collection) d.returning
  rw [sites_eq]
  refine Verdict.congr ?_ (Verdict.cons (fun _ => Iff.rfl) hdelete)
  rw [tokens_eq]
  simp only [Site.Writable, Site.Sound, Site.SupportedBy, true_and]
  cases ctx.capabilities.collectionModification with
  | false => simp
  | true => simp [l]

theorem Delete.verdict_tokens {d : Delete} (hcondition : ∀ e ∈ d.condition, e.Judged)
    (ctx : RenderContext) : Verdict ctx d.sites (Succeeds (d.tokens ctx)) := by
  rw [sites_eq]
  exact Level.verdict_deleteTokens ⟨ctx, d.target.aliases, d.target.joins⟩ hcondition
    d.target.entity d.target.aliasName none d.returning

theorem Select.judged {s : Select} (parts : s.Parts Expr.Judged CteBody.Judged) :
    (Query.select s).Judged where
  rendered ctx := by
    refine Verdict.congr ?_ (verdict_tokens parts ctx)
    simp [Query.rendered]
  memberTokens ctx _ hlimited := by
    have hnested := Site.writable_unlimited hlimited ctx
    refine Verdict.congr ?_ (Verdict.cons (fun _ => iff_of_true trivial hnested)
      (verdict_tokens parts ctx.nested).nested)
    simp [Query.memberTokens]
  functionForm ctx between _ := by
    refine Verdict.congr ?_ (Verdict.cons (fun _ => Iff.rfl) (verdict_tokens parts ctx.nested).nested)
    rw [Query.functionForm, FunctionForm.canWrite_limited_level]
  subqueryTokens ctx t := by
    rw [Query.subqueryTokens]
    by_cases hlimited : s.limits.any = true
    · have htokens := (verdict_tokens parts (ctx.correlated t).nested).nested.correlated
      refine Verdict.congr ?_ (Verdict.cons (fun _ => Iff.rfl) htokens)
      rw [if_pos hlimited, ← FunctionForm.canWrite_limited_level,
        ← FunctionForm.succeeds_bind_tokens, bind_assoc]
    · have hnested := Site.writable_unlimited (Bool.eq_false_iff.2 hlimited) ctx
      refine Verdict.congr ?_ (Verdict.cons (fun _ => iff_of_true trivial hnested)
        (verdict_tokens parts (ctx.correlated t)).correlated)
      rw [if_neg hlimited, true_and]

/-- An operation with an operator and something to combine is active. -/
theorem SetOperation.activeOperator_of_complete {c : SetOperation} {between : Bool}
    (h : (Site.operation c.operator c.operands.length between).Complete) :
    ∃ op, c.operator = some op ∧ activeOperator c.operator c.operands = some op := by
  obtain ⟨hoperator, hoperands⟩ := h
  obtain ⟨op, hop⟩ := Option.isSome_iff_exists.1 hoperator
  refine ⟨op, hop, ?_⟩
  rw [activeOperator, if_neg (by simpa using hoperands), hop]

theorem SetOperation.verdict_functionForm {c : SetOperation}
    (parts : c.Parts Expr.Judged Query.Judged) (ctx : RenderContext) (between : Bool)
    (h : ctx.capabilities.nativeSetOperations = true → c.staysBetween between = false) :
    Verdict ctx (c.sites between) (FunctionForm.CanWrite ctx (c.functionForm ctx)) := by
  have hstart := parts.start.functionForm ctx (c.staysBetween between) h
  have hoperands := Verdict.flatMap fun q hq =>
    (parts.operands q hq).functionForm ctx (c.staysBetween between) h
  have horders := verdict_resultTokens ctx parts.orderBy
  rw [sites_eq]
  intro hcomplete
  obtain ⟨op, hop, hactive⟩ :=
    activeOperator_of_complete ((List.forall_mem_cons.1 hcomplete).1)
  have hmarker : (Site.operation c.operator c.operands.length (c.staysBetween between)).Writable ctx
      ↔ ctx.CanCall op.marker := by
    simp only [Site.Writable, Site.Sound, Site.SupportedBy, true_and, hop, Option.mem_some_iff,
      forall_eq']
    constructor
    · rintro (⟨hnative, hbetween⟩ | hcall)
      · rw [h hnative] at hbetween
        cases hbetween
      · exact hcall
    · exact Or.inr
  refine (Verdict.congr ?_ (Verdict.cons (fun _ => hmarker.symm)
    ((hstart.append hoperands).append horders))) hcomplete
  rw [functionForm_eq, hactive, ← FunctionForm.canWriteAll_mapM, ← Query.functionForms_eq_mapM,
    ← FunctionForm.canWrite_combined]

/-- Queries with an operator between them ask for what the function form would ask for, but for its
marker. -/
theorem SetOperation.verdict_memberTokens {c : SetOperation}
    (parts : c.Parts Expr.Judged Query.Judged) (ctx : RenderContext)
    (hnative : ctx.capabilities.nativeSetOperations = true)
    (hstart : c.start.limitedAnywhere = false) (hoperands : Query.anyLimited c.operands = false) :
    Verdict ctx (c.sites true) (Succeeds (c.memberTokens ctx)) := by
  have hbetween : c.staysBetween true = true := by simp [staysBetween, hstart, hoperands]
  have hfirst := parts.start.memberTokens ctx hnative hstart
  have hrest : Verdict ctx (c.operands.flatMap (Query.memberSites true))
      (∀ q ∈ c.operands, Succeeds (q.memberTokens ctx)) := by
    refine Verdict.flatMap fun q hq => (parts.operands q hq).memberTokens ctx hnative ?_
    rw [Query.anyLimited_eq_any, List.any_eq_false] at hoperands
    simpa using hoperands q hq
  have horders := verdict_resultTokens ctx parts.orderBy
  rw [sites_eq, hbetween]
  intro hcomplete
  obtain ⟨op, hop, hactive⟩ :=
    activeOperator_of_complete ((List.forall_mem_cons.1 hcomplete).1)
  have hmarker : (Site.operation c.operator c.operands.length true).Writable ctx :=
    ⟨trivial, Or.inl ⟨hnative, rfl⟩⟩
  refine (Verdict.congr ?_ (Verdict.cons (fun _ => iff_of_true trivial hmarker)
    ((hfirst.append hrest).append horders))) hcomplete
  rw [memberTokens_eq, hactive, Query.memberListTokens_eq_mapM]
  simp [and_assoc]

theorem SetOperation.verdict_rendered {c : SetOperation}
    (parts : c.Parts Expr.Judged Query.Judged) (ctx : RenderContext) :
    Verdict ctx (c.sites true) (Succeeds (c.rendered ctx)) := by
  intro hcomplete
  have hsite := hcomplete
  rw [sites_eq] at hsite
  obtain ⟨op, hop, hactive⟩ := activeOperator_of_complete ((List.forall_mem_cons.1 hsite).1)
  by_cases hbetween : c.writtenBetween ctx = true
  · have hnative := hbetween
    simp only [writtenBetween, Bool.and_eq_true, Bool.not_eq_true'] at hnative
    obtain ⟨⟨hnative, hstart⟩, hoperands⟩ := hnative
    refine Verdict.congr ?_ (verdict_memberTokens parts ctx hnative hstart hoperands) hcomplete
    rw [rendered_eq, hactive, memberTokens_eq, hactive]
    simp [hbetween]
  · refine Verdict.congr ?_ (verdict_functionForm parts ctx true ?_) hcomplete
    · rw [rendered_eq, hactive, ← FunctionForm.succeeds_bind_tokens]
      simp [hbetween]
    · intro hnative
      simpa [staysBetween, writtenBetween, hnative] using hbetween

theorem SetOperation.judged {c : SetOperation} (parts : c.Parts Expr.Judged Query.Judged) :
    (Query.combined c).Judged where
  rendered ctx := by
    rw [Query.sites, Query.rendered]
    exact verdict_rendered parts ctx
  memberTokens ctx hnative hlimited := by
    rw [Query.limitedAnywhere, limitedAnywhere_eq] at hlimited
    simp only [Bool.or_eq_false_iff] at hlimited
    have htokens := verdict_memberTokens parts ctx hnative hlimited.1.2 hlimited.2
    refine Verdict.congr ?_ htokens
    simp [Query.memberTokens]
  functionForm ctx between h := by
    rw [Query.memberSites, Query.functionForm]
    refine verdict_functionForm parts ctx between fun hnative => ?_
    simp [staysBetween, h hnative]
  subqueryTokens ctx t := by
    have hform := verdict_functionForm parts (ctx.correlated t) false fun _ => rfl
    refine Verdict.congr ?_ hform.correlated
    rw [Query.subqueryTokens, FunctionForm.succeeds_bind_tokens]
    simp only [FunctionForm.CanWrite, RenderContext.canCall_correlated]

theorem Cte.succeeds_check (entity : String) (columns : List String) (width : Nat) :
    Succeeds (check entity columns width) ↔ columns ≠ [] ∧ width = columns.length := by
  rw [check]
  by_cases hcolumns : columns = []
  · simp [hcolumns]
  · by_cases hwidth : width = columns.length <;> simp [hcolumns, hwidth]

/-- A body asks for what it would ask for on its own, if its table fits it and does not limit it. -/
theorem CteBody.judged_of_verdict {b : CteBody} {p : RenderContext → String → Prop}
    (h : ∀ ctx entity, Verdict ctx b.sites (p ctx entity))
    (hp : ∀ ctx entity, Succeeds (b.tokens ctx entity) ↔ b.limited = false ∧ p ctx entity) :
    b.Judged := by
  intro ctx entity columns
  refine Verdict.congr ?_ (Verdict.cons (fun _ => Iff.rfl) (h ctx entity))
  rw [hp, Cte.succeeds_check]
  simp only [Site.Writable, Site.Sound, Site.SupportedBy, and_true, and_assoc]

theorem hereditary_judged : Hereditary Expr.Judged Query.Judged CteBody.Judged where
  path p l position := by
    rw [Expr.sites, Expr.tokens]
    exact Verdict.single fun _ => l.succeeds_pathTokens p
  literal v l position := by
    rw [Expr.sites, Expr.tokens]
    exact Verdict.single fun _ => Level.succeeds_literalTokens l.context position v
  parameter p l position := by
    rw [Expr.sites, Expr.tokens]
    exact Verdict.single fun _ => l.succeeds_parameterTokens p
  call f args hargs l position := by
    have hlist := verdict_listTokens (l := l) hargs
    have hrest := verdict_listTokens (l := l) fun e he => hargs e (List.mem_of_mem_tail he)
    rw [Expr.sites, Expr.tokens]
    by_cases houter : Expr.isOuterCall f args = true
    · rw [if_pos houter, if_pos houter, Expr.sitesList_eq]
      rw [Expr.isOuterCall, Bool.and_eq_true, beq_iff_eq] at houter
      obtain ⟨e, rfl⟩ := List.length_eq_one_iff.1 houter.2
      simpa [Expr.firstTokens] using hargs e List.mem_cons_self l position
    · rw [if_neg houter, if_neg houter]
      cases Expr.genericName? f args with
      | some name =>
          rw [Expr.sitesRest_eq]
          refine Verdict.congr ?_ (Verdict.cons (fun _ => Iff.rfl) hrest)
          simp only [RenderContext.succeeds_invocation, Expr.restTokens_eq_mapM,
            Expr.listTokens_eq_mapM, Site.Writable, Site.Sound, Site.SupportedBy, true_and]
      | none =>
          rw [Expr.sitesList_eq]
          exact hlist.congr (by simp)
  aggregate f args d hargs l position := by
    rw [Expr.sites, Expr.tokens]
    by_cases hcount : Expr.isCountStar f args = true
    · rw [if_pos hcount, if_pos hcount]
      refine Verdict.single fun _ => ?_
      rw [RenderContext.countStarTokens, Site.Writable, Site.Sound, Site.SupportedBy, true_and]
      cases l.context.capabilities.countStar with
      | true => simp
      | false => simp [RenderContext.succeeds_invocation]
    · rw [if_neg hcount, if_neg hcount, Expr.sitesList_eq]
      exact (verdict_listTokens hargs).congr (by simp)
  subquery q hq l position := by
    rw [Expr.sites, Expr.tokens]
    exact (hq.subqueryTokens l.context l.aliases).congr (by simp)
  indexed base index _ l position := by
    rw [Expr.sites, Expr.tokens]
    exact Verdict.single fun _ => by simp [Site.Writable, Site.Sound, Site.SupportedBy]
  null l position := by
    rw [Expr.sites, Expr.tokens]
    exact Verdict.nil.congr (by simp)
  caseWhen operand branches otherwise hoperand hbranches hotherwise l position := by
    have hfirst := verdict_optionTokens (l := l) hoperand .value
    have hmiddle := verdict_branchTokens (l := l) hbranches
      (if operand.isSome then .value else .predicate)
    have hlast := verdict_optionTokens (l := l) hotherwise .value
    rw [Expr.sites, Expr.tokens, Expr.sitesOption_eq, Expr.sitesPairs_eq, Expr.sitesOption_eq]
    exact ((hfirst.append hmiddle).append hlast).congr (by simp [and_assoc])
  binary left op right hleft hright l position := by
    have hboth (position : Position) := (hleft l position).append (hright l position)
    rw [Expr.sites, Expr.tokens]
    exact (hboth (if op.isLogical then .predicate else .value)).congr (by simp)
  not e he l position := by
    rw [Expr.sites, Expr.tokens]
    exact (he l .predicate).congr (by simp)
  isNull e negated he l position := by
    rw [Expr.sites, Expr.tokens]
    exact (he l .value).congr (by simp)
  like e pattern escape negated he hpattern l position := by
    have hboth := (he l .value).append (hpattern l .value)
    cases escape with
    | none =>
        rw [Expr.sites, Expr.tokens]
        exact hboth.congr (by simp)
    | some c =>
        rw [Expr.sites, Expr.tokens]
        exact hboth.congr (by simp)
  oneOf e values negated he hvalues l position := by
    rw [Expr.sites, Expr.tokens]
    cases values with
    | nil => exact Verdict.single fun _ => by simp [Site.Writable, Site.Sound, Site.SupportedBy]
    | cons first rest =>
        rw [if_neg (by simp), if_neg (by simp), Expr.sitesList_eq]
        exact ((he l .value).append (verdict_listTokens hvalues)).congr (by simp)
  between e low high negated he hlow hhigh l position := by
    rw [Expr.sites, Expr.tokens]
    exact (((he l .value).append (hlow l .value)).append (hhigh l .value)).congr
      (by simp [and_assoc])
  parens e he l position := by
    rw [Expr.sites, Expr.tokens]
    exact (he l position).congr (by simp)
  verbatim s l position := by
    rw [Expr.sites, Expr.tokens]
    exact Verdict.nil.congr (by simp)
  select s parts := Select.judged parts
  combined c parts := SetOperation.judged parts
  query q hq := by
    refine CteBody.judged_of_verdict (fun ctx _ => hq.rendered ctx) fun ctx entity => ?_
    rw [CteBody.tokens, CteBody.limited]
    cases q.limitedAnywhere <;> simp
  update u hassignments hcondition := by
    refine CteBody.judged_of_verdict
      (fun ctx _ => Update.verdict_tokens hassignments hcondition ctx) fun ctx entity => ?_
    rw [CteBody.tokens, CteBody.limited, eq_self_iff_true, true_and]
  collectionDelete d hcondition := by
    refine CteBody.judged_of_verdict
      (fun ctx _ => CollectionDelete.verdict_tokens hcondition ctx) fun ctx entity => ?_
    rw [CteBody.tokens, CteBody.limited, eq_self_iff_true, true_and]

/-- A statement is written exactly if each of its sites can be written. -/
theorem Statement.verdict_render (s : Statement) (ctx : RenderContext) :
    Verdict ctx s.sites (Succeeds (s.render ctx)) := by
  have hexpr (e : Expr) : e.Judged := hereditary_judged.expr e
  cases s with
  | select q =>
      exact ((hereditary_judged.queries q).rendered ctx).congr (by simp [render, rendered])
  | update u =>
      have htokens := Update.verdict_tokens (fun a _ => ⟨hexpr a.1, hexpr a.2⟩)
        (fun e (_ : e ∈ u.condition) => hexpr e) ctx
      exact htokens.congr (by simp [render, rendered])
  | delete d =>
      have htokens := Delete.verdict_tokens (fun e (_ : e ∈ d.condition) => hexpr e) ctx
      exact htokens.congr (by simp [render, rendered])
  | collectionDelete d =>
      have htokens := CollectionDelete.verdict_tokens (fun e (_ : e ∈ d.condition) => hexpr e) ctx
      exact htokens.congr (by simp [render, rendered])

end EntityQuery
