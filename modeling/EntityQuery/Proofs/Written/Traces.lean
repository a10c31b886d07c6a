import EntityQuery.Proofs.Written.Basic

/-!
What a text has is what is written of its query. Wherever writing succeeds, the parameters in the
text are those that are written, in order, and no query inside skips rows without a bound on the
rows that it takes: each of the forms that a query is written in checks that or has no place for it.
-/

namespace EntityQuery

open Token (mentions)

/-- Whether rows are skipped without a bound on the rows that are taken. -/
def Limits.SkipsOnly (limits : Limits) : Prop := limits.first.isSome ∧ limits.max = none

/-- Whether a query level, or a set operation that combines nothing, only skips rows. The limits
of a set operation that combines queries are arguments of its call, one by one. -/
def Query.SkipsOnly : Query → Prop
  | .select s => s.limits.SkipsOnly
  | .combined c =>
      SetOperation.activeOperator c.operator c.operands = none ∧ c.limits.SkipsOnly

namespace Written

/-- The names that a text mentions in a place of its own. -/
def names : Written → List String
  | parameter p => p.name.toList
  | query _ => []

def Bounded : Written → Prop
  | parameter _ => True
  | query q => ¬q.SkipsOnly

end Written

/-- What a text mentions is what is written of it, and all queries in it are bounded. -/
structure Traces (written : List Written) (mentioned : List String) : Prop where
  names : mentioned = written.flatMap Written.names
  bounded : ∀ w ∈ written, w.Bounded

namespace Traces

variable {a b : List Written} {m n : List String}

theorem nil : Traces [] [] := ⟨rfl, by simp⟩

theorem append (h : Traces a m) (h' : Traces b n) : Traces (a ++ b) (m ++ n) where
  names := by rw [h.names, h'.names, List.flatMap_append]
  bounded := List.forall_mem_append.2 ⟨h.bounded, h'.bounded⟩

/-- A query inside another one is bounded, and mentions what is written of it. -/
theorem query {q : Query} (h : Traces a m) (hq : ¬q.SkipsOnly) : Traces (.query q :: a) m where
  names := h.names
  bounded := List.forall_mem_cons.2 ⟨hq, h.bounded⟩

theorem of_query {q : Query} (h : Traces (.query q :: a) m) : Traces a m :=
  ⟨h.names, (List.forall_mem_cons.1 h.bounded).2⟩

theorem flatMap {α β : Type} {r : α → β → Prop} {as : List α} {bs : List β} {f : α → List Written}
    {g : β → List String} (h : List.Forall₂ r as bs)
    (htraces : ∀ x ∈ as, ∀ y, r x y → Traces (f x) (g y)) :
    Traces (as.flatMap f) (bs.flatMap g) := by
  induction h with
  | nil => exact nil
  | cons hxy _ ih =>
      rw [List.flatMap_cons, List.flatMap_cons]
      exact (htraces _ List.mem_cons_self _ hxy).append
        (ih fun x hx => htraces x (List.mem_cons_of_mem _ hx))

end Traces

/-- What an expression is written as, wherever it stands. -/
def Expr.Traced (e : Expr) : Prop :=
  ∀ (l : Level) (position : Position) (ts : List Token), e.tokens l position = .ok ts →
    Traces (e.written l.context.dialect) (mentions ts)

/-- What a query is written as in each of its forms. Inside another query it is bounded. -/
structure Query.Traced (q : Query) : Prop where
  rendered : ∀ ctx r, q.rendered ctx = .ok r →
    Traces (q.written ctx.dialect .statement) (mentions r.tokens)
  memberTokens : ∀ ctx ts, q.limitedAnywhere = false → q.memberTokens ctx = .ok ts →
    Traces (.query q :: q.written ctx.dialect .between) (mentions ts)
  functionForm : ∀ ctx form, q.functionForm ctx = .ok form →
    Traces (.query q :: q.written ctx.dialect .argument) form.mentions
  subqueryTokens : ∀ ctx around ts, q.subqueryTokens ctx around = .ok ts →
    Traces (.query q :: q.written ctx.dialect .argument) (mentions ts)

/-- What the body of a common table is written as. -/
def CteBody.Traced (b : CteBody) : Prop :=
  ∀ ctx entity ts, b.tokens ctx entity = .ok ts → Traces (b.written ctx.dialect) (mentions ts)

theorem Level.Mentions.traces {l : Level} {es : List Expr} {mentioned : List String}
    (h : l.Mentions es mentioned) (hes : ∀ e ∈ es, e.Traced) :
    Traces (es.flatMap (Expr.written l.context.dialect)) mentioned := by
  obtain ⟨tss, htss, rfl⟩ := h
  refine Traces.flatMap htss fun e he ts hwritten => ?_
  obtain ⟨position, hwritten⟩ := hwritten
  exact hes e he l position ts hwritten

namespace Limits

variable {limits : Limits}

theorem not_skipsOnly_of_any (h : limits.any = false) : ¬limits.SkipsOnly := by
  rw [any, Bool.or_eq_false_iff] at h
  rintro ⟨hfirst, -⟩
  rw [h.1] at hfirst
  cases hfirst

/-- A limit that a function can state has a bound. -/
theorem not_skipsOnly_of_limited {form limited : FunctionForm}
    (h : FunctionForm.limited form limits = .ok limited) : ¬limits.SkipsOnly := by
  rintro ⟨hfirst, hmax⟩
  obtain ⟨first, hfirst⟩ := Option.isSome_iff_exists.1 hfirst
  rw [FunctionForm.limited, hmax, hfirst] at h
  cases h

end Limits

namespace Select

variable {s : Select} (parts : s.Parts Expr.Traced CteBody.Traced)
include parts

theorem traces_tokens {ctx : RenderContext} {ts : List Token} (h : s.tokens ctx = .ok ts) :
    Traces (s.written ctx.dialect) (mentions ts) := by
  obtain ⟨bodies, names, hbodies, hparts, hmentions⟩ := mentions_tokens h
  rw [written_eq, hmentions]
  exact (Traces.flatMap hbodies fun c hc ts hbody =>
    parts.ctes c hc ctx.nested c.entity ts hbody).append (hparts.traces parts.of_writtenParts)

theorem traced : (Query.select s).Traced where
  rendered ctx r hr := by
    rw [Query.rendered] at hr
    simp only [bind_eq_ok, pure_eq_ok] at hr
    obtain ⟨ts, hts, rfl⟩ := hr
    exact traces_tokens parts hts
  memberTokens ctx ts hlimited hts := by
    rw [Query.memberTokens] at hts
    simp only [bind_eq_ok, pure_eq_ok] at hts
    obtain ⟨written, hwritten, rfl⟩ := hts
    have htraces := traces_tokens parts hwritten
    refine Traces.query ?_ (Limits.not_skipsOnly_of_any hlimited)
    split
    · exact htraces
    · rw [Token.mentions_parenthesized]
      exact htraces
  functionForm ctx form hform := by
    rw [Query.functionForm] at hform
    obtain ⟨ts, hts, hform⟩ := bind_eq_ok.1 hform
    rw [FunctionForm.mentions_limited hform, FunctionForm.mentions, Token.mentions_parenthesized]
    have htraces := traces_tokens parts hts
    exact htraces.query (Limits.not_skipsOnly_of_limited hform)
  subqueryTokens ctx around ts hts := by
    rw [Query.subqueryTokens] at hts
    split at hts
    next =>
      obtain ⟨written, hwritten, hts⟩ := bind_eq_ok.1 hts
      obtain ⟨form, hform, hts⟩ := bind_eq_ok.1 hts
      rw [FunctionForm.mentions_tokens form hts, FunctionForm.mentions_limited hform,
        FunctionForm.mentions, Token.mentions_parenthesized]
      have htraces := traces_tokens parts hwritten
      exact htraces.query (Limits.not_skipsOnly_of_limited hform)
    next hlimited =>
      exact (traces_tokens parts hts).query
        (Limits.not_skipsOnly_of_any (Bool.eq_false_iff.2 hlimited))

end Select

namespace SetOperation

variable {c : SetOperation} (parts : c.Parts Expr.Traced Query.Traced)
include parts

theorem traces_resultTokens {ctx : RenderContext} {orders : List (List Token)}
    (h : OrderItem.resultTokens ctx c.orderBy = .ok orders) :
    Traces ((c.orderBy.map fun i => i.expr).flatMap (Expr.written ctx.dialect))
      (orders.flatMap mentions) :=
  (OrderItem.mentions_resultTokens h).traces (List.forall_mem_map.2 parts.orderBy)

theorem traces_memberTokens {ctx : RenderContext} {ts : List Token}
    (hunlimited : ∀ q ∈ c.members, q.limitedAnywhere = false) (h : c.memberTokens ctx = .ok ts) :
    Traces (c.written ctx.dialect .between) (mentions ts) := by
  cases hactive : activeOperator c.operator c.operands with
  | none =>
      obtain ⟨start, orders, hstart, horders, rfl⟩ := (memberTokens_of_inactive hactive).1 h
      have hinside := parts.start.memberTokens ctx start (hunlimited _ List.mem_cons_self) hstart
      rw [written_of_inactive ctx.dialect .between hactive, if_pos rfl, mentions_nativeTokens,
        List.flatMap_singleton]
      exact hinside.of_query.append (traces_resultTokens parts horders)
  | some op =>
      obtain ⟨members, orders, hall, horders, rfl⟩ := (memberTokens_of_active hactive).1 h
      have hmembers := Traces.flatMap hall fun q hq ts hts =>
        (parts.members q hq).memberTokens ctx ts (hunlimited q hq) hts
      rw [written_of_active ctx.dialect .between hactive, mentions_nativeTokens]
      exact hmembers.append (traces_resultTokens parts horders)

theorem traces_functionForm {ctx : RenderContext} {form : FunctionForm}
    (h : c.functionForm ctx = .ok form) :
    Traces (.query (.combined c) :: c.written ctx.dialect .argument) form.mentions := by
  cases hactive : activeOperator c.operator c.operands with
  | none =>
      obtain ⟨start, hstart, hlimited⟩ := (functionForm_of_inactive hactive).1 h
      have hinside := parts.start.functionForm ctx start hstart
      have hbounded : ¬(Query.combined c).SkipsOnly := fun hskips =>
        Limits.not_skipsOnly_of_limited hlimited hskips.2
      rw [written_of_inactive ctx.dialect .argument hactive, if_neg (by simp), List.append_nil,
        FunctionForm.mentions_limited hlimited]
      exact hinside.of_query.query hbounded
  | some op =>
      obtain ⟨members, orders, hall, horders, rfl⟩ := (functionForm_of_active hactive).1 h
      have hmembers := Traces.flatMap hall fun q hq form hform =>
        (parts.members q hq).functionForm ctx form hform
      have hbounded : ¬(Query.combined c).SkipsOnly := by
        rintro ⟨hnone, -⟩
        rw [hactive] at hnone
        cases hnone
      rw [written_of_active ctx.dialect .argument hactive, FunctionForm.mentions_combined]
      exact (hmembers.append (traces_resultTokens parts horders)).query hbounded

theorem traces_rendered {ctx : RenderContext} {r : RenderedLevel} (h : c.rendered ctx = .ok r) :
    Traces (c.written ctx.dialect .statement) (mentions r.tokens) := by
  cases hactive : activeOperator c.operator c.operands with
  | none =>
      rw [rendered_eq, hactive] at h
      simp only [bind_eq_ok, pure_eq_ok] at h
      obtain ⟨inner, hinner, rfl⟩ := h
      rw [written_of_inactive ctx.dialect .statement hactive, if_neg (by simp), List.append_nil]
      exact parts.start.rendered ctx inner hinner
  | some op =>
      rw [rendered_of_active hactive] at h
      rw [written_statement ctx hactive]
      split at h
      next hbetween =>
        simp only [bind_eq_ok, pure_eq_ok] at h
        obtain ⟨ts, hts, rfl⟩ := h
        rw [if_pos hbetween]
        exact traces_memberTokens parts (unlimited_of_writtenBetween hbetween) hts
      next hbetween =>
        simp only [bind_eq_ok, pure_eq_ok] at h
        obtain ⟨form, hform, ts, hts, rfl⟩ := h
        rw [if_neg hbetween, FunctionForm.mentions_tokens form hts]
        exact (traces_functionForm parts hform).of_query

theorem traced : (Query.combined c).Traced where
  rendered ctx r hr := by
    rw [Query.rendered] at hr
    exact traces_rendered parts hr
  memberTokens ctx ts hlimited hts := by
    rw [Query.limitedAnywhere] at hlimited
    obtain ⟨hlimits, hmembers⟩ := unlimited_of_limitedAnywhere hlimited
    rw [Query.memberTokens] at hts
    simp only [bind_eq_ok, pure_eq_ok] at hts
    obtain ⟨written, hwritten, rfl⟩ := hts
    rw [Token.mentions_parenthesized]
    refine (traces_memberTokens parts hmembers hwritten).query fun hskips => ?_
    exact Limits.not_skipsOnly_of_any hlimits hskips.2
  functionForm ctx form hform := by
    rw [Query.functionForm] at hform
    exact traces_functionForm parts hform
  subqueryTokens ctx around ts hts := by
    rw [Query.subqueryTokens] at hts
    obtain ⟨form, hform, hts⟩ := bind_eq_ok.1 hts
    rw [FunctionForm.mentions_tokens form hts]
    exact traces_functionForm parts hform

end SetOperation

/-- An expression that is not itself a parameter or a subquery is written as the expressions in
it. -/
theorem Expr.traced_of_parts {e : Expr} (hparameter : ∀ p, e ≠ .parameter p)
    (hsubquery : ∀ q, e ≠ .subquery q) (h : ∀ child ∈ e.writtenChildren, child.Traced) :
    e.Traced := by
  intro l position ts hts
  rw [written_eq l.context.dialect hparameter hsubquery]
  exact (mentions_writtenChildren hparameter hsubquery hts).traces h

theorem hereditary_traced : Hereditary Expr.Traced Query.Traced CteBody.Traced where
  path p :=
    Expr.traced_of_parts (by simp) (by simp) (by simp [Expr.writtenChildren, Expr.children])
  literal v :=
    Expr.traced_of_parts (by simp) (by simp) (by simp [Expr.writtenChildren, Expr.children])
  parameter p l position ts hts := by
    rw [Expr.tokens] at hts
    rw [Level.mentions_parameterTokens hts, Expr.written]
    exact ⟨(List.flatMap_singleton Written.names (.parameter p)).symm, by simp [Written.Bounded]⟩
  call f args hargs := Expr.traced_of_parts (by simp) (by simp) hargs
  aggregate f args d hargs := Expr.traced_of_parts (by simp) (by simp) hargs
  subquery q hq l position ts hts := by
    rw [Expr.tokens] at hts
    simp only [bind_eq_ok, pure_eq_ok] at hts
    obtain ⟨written, hwritten, rfl⟩ := hts
    have htraces := hq.subqueryTokens _ l.context written hwritten
    rw [RenderContext.dialect_correlated] at htraces
    rw [Expr.written, Token.mentions_parenthesized]
    exact htraces
  indexed base index _ :=
    Expr.traced_of_parts (by simp) (by simp) (by simp [Expr.writtenChildren])
  null :=
    Expr.traced_of_parts (by simp) (by simp) (by simp [Expr.writtenChildren, Expr.children])
  caseWhen operand branches otherwise hoperand hbranches hotherwise := by
    refine Expr.traced_of_parts (by simp) (by simp) ?_
    simp only [Expr.writtenChildren, Expr.children, List.forall_mem_append, Option.mem_toList]
    exact ⟨⟨hoperand, forall_mem_pairs hbranches⟩, hotherwise⟩
  binary left op right hleft hright :=
    Expr.traced_of_parts (by simp) (by simp) (by simp [Expr.writtenChildren, Expr.children, *])
  not e he :=
    Expr.traced_of_parts (by simp) (by simp) (by simp [Expr.writtenChildren, Expr.children, *])
  isNull e negated he :=
    Expr.traced_of_parts (by simp) (by simp) (by simp [Expr.writtenChildren, Expr.children, *])
  like e pattern escape negated he hpattern :=
    Expr.traced_of_parts (by simp) (by simp) (by simp [Expr.writtenChildren, Expr.children, *])
  oneOf e values negated he hvalues := by
    refine Expr.traced_of_parts (by simp) (by simp) ?_
    rw [Expr.writtenChildren]
    split
    · simp
    · exact List.forall_mem_cons.2 ⟨he, hvalues⟩
  between e low high negated he hlow hhigh :=
    Expr.traced_of_parts (by simp) (by simp) (by simp [Expr.writtenChildren, Expr.children, *])
  parens e he :=
    Expr.traced_of_parts (by simp) (by simp) (by simp [Expr.writtenChildren, Expr.children, *])
  verbatim s :=
    Expr.traced_of_parts (by simp) (by simp) (by simp [Expr.writtenChildren, Expr.children])
  select s parts := Select.traced parts
  combined c parts := SetOperation.traced parts
  query q hq ctx entity ts hts := by
    rw [CteBody.tokens] at hts
    split at hts
    · cases hts
    · simp only [bind_eq_ok, pure_eq_ok] at hts
      obtain ⟨r, hr, rfl⟩ := hts
      rw [CteBody.written]
      exact hq.rendered ctx r hr
  update u hassignments hcondition ctx entity ts hts := by
    rw [CteBody.tokens] at hts
    rw [CteBody.written, Update.written_eq]
    refine (Update.mentions_tokens hts).traces (List.forall_mem_append.2 ⟨?_, ?_⟩)
    · exact forall_mem_pairs hassignments
    · simpa using hcondition
  collectionDelete c hcondition ctx entity ts hts := by
    rw [CteBody.tokens] at hts
    rw [CteBody.written, CollectionDelete.written_eq]
    exact (CollectionDelete.mentions_tokens hts).traces (by simpa using hcondition)

namespace Statement

theorem traces_rendered {s : Statement} {ctx : RenderContext} {level : RenderedLevel}
    (h : s.rendered ctx = .ok level) : Traces (s.written ctx.dialect) (mentions level.tokens) := by
  have hexpr (e : Expr) : e.Traced := hereditary_traced.expr e
  cases s with
  | select q => exact (hereditary_traced.queries q).rendered ctx level h
  | update u =>
      simp only [rendered, bind_eq_ok, pure_eq_ok] at h
      obtain ⟨ts, hts, rfl⟩ := h
      rw [written, Update.written_eq]
      exact (Update.mentions_tokens hts).traces fun e _ => hexpr e
  | delete deletion =>
      simp only [rendered, bind_eq_ok, pure_eq_ok] at h
      obtain ⟨ts, hts, rfl⟩ := h
      rw [written, Delete.written_eq]
      exact (Delete.mentions_tokens hts).traces fun e _ => hexpr e
  | collectionDelete deletion =>
      simp only [rendered, bind_eq_ok, pure_eq_ok] at h
      obtain ⟨ts, hts, rfl⟩ := h
      rw [written, CollectionDelete.written_eq]
      exact (CollectionDelete.mentions_tokens hts).traces fun e _ => hexpr e

end Statement

end EntityQuery
