import EntityQuery.Proofs.Literals.Queries

/-!
Combined queries with a blank, in each of their forms. In function form the order of a combined
result is an argument that holds text: there a literal is quoted again.
-/

namespace EntityQuery

open Token (parenthesized)

/-- A written query with one place for the content. -/
def RenderedLevel.Carries (level : String → RenderedLevel) : Prop :=
  Holds fun content => (level content).tokens

namespace FunctionForm

/-- Whoever writes it, a function form is written with one place for the content, or does not
depend on it. -/
def Carries (form : String → FunctionForm) : Prop :=
  ∀ around, Settled Holds fun content => (form content).tokens around

variable {form : String → FunctionForm} {ts : String → List Token}

theorem carries_level (h : Holds ts) :
    Carries fun content => .level (parenthesized (ts content)) := by
  intro around
  simp only [tokens]
  exact .ok h.parenthesized

theorem carries_order (h : Holds ts) : Carries fun content => .order (ts content) := by
  intro around
  simp only [tokens]
  exact .ok h.quoted

theorem carries_call (function : String) {args : String → List FunctionForm}
    (h : OneOf Carries args) : Carries fun content => .call function (args content) := by
  intro around
  obtain ⟨before, after, form, hform, hargs⟩ := h
  simp only [tokens, tokensList_eq_mapM, hargs, List.length_append, List.length_cons]
  exact around.settled_invocation function _ (.mapM (.intro before after (hform around)))

theorem settled_limited (h : Carries form) (limits : Limits) :
    Settled Carries fun content => limited (form content) limits := by
  simp only [limited]
  cases limits.max with
  | none =>
      cases limits.first with
      | none => exact .ok h
      | some first => exact .const _
  | some max =>
      cases limits.first with
      | none => exact .ok (carries_call "LIMIT" (.head h _))
      | some first => exact .ok (carries_call "LIMIT" (.head h _))

theorem carries_member (operator : SetOperator) {members : String → List FunctionForm}
    (h : OneOf Carries members) (orders : List (List Token)) (limits : Limits) :
    Carries fun content => combined operator (members content) orders limits :=
  carries_call operator.marker ((h.append _).append _)

theorem carries_resultOrder (operator : SetOperator) (members : List FunctionForm)
    {orders : String → List (List Token)} (h : OneOf Holds orders) (limits : Limits) :
    Carries fun content => combined operator members (orders content) limits := by
  have horder := (h.map (f := order) fun _ hts => carries_order hts).cons (word "ORDER_BY")
  simp only [combined, orderArguments, h.isEmpty, Bool.false_eq_true, if_false]
  exact carries_call operator.marker ((horder.prepend members).append _)

end FunctionForm

/-- Whatever fills the blank, a query has one place for the content in each of its forms, or does
not depend on it, and neither do its limits and its width. -/
structure Query.Carries (q : String → Query) : Prop where
  rendered : ∀ ctx, Settled RenderedLevel.Carries fun content => (q content).rendered ctx
  memberTokens : ∀ ctx, Settled Holds fun content => (q content).memberTokens ctx
  functionForm : ∀ ctx, Settled FunctionForm.Carries fun content => (q content).functionForm ctx
  subqueryTokens : ∀ ctx around, Settled Holds fun content => (q content).subqueryTokens ctx around
  limitedAnywhere : ∀ content, (q content).limitedAnywhere = (q "").limitedAnywhere
  width : ∀ content, (q content).width = (q "").width

theorem Select.Carries.query {s : String → Select} (h : Carries s) :
    Query.Carries fun content => .select (s content) where
  rendered ctx := by
    simp only [Query.rendered, h.limits]
    exact (h.tokens ctx).bind fun _ hts => .pure hts
  memberTokens ctx := by
    simp only [Query.memberTokens, h.unordered]
    refine (h.tokens ctx.nested).bind fun _ hts => .pure ?_
    split
    · exact hts
    · exact hts.parenthesized
  functionForm ctx := by
    simp only [Query.functionForm, h.limits]
    exact (h.tokens ctx.nested).bind fun _ hts =>
      FunctionForm.settled_limited (FunctionForm.carries_level hts) _
  subqueryTokens ctx around := by
    simp only [Query.subqueryTokens, h.limits]
    refine .ite _ ?_ (h.tokens ctx)
    exact (h.tokens ctx.nested).bind fun _ hts =>
      (FunctionForm.settled_limited (FunctionForm.carries_level hts) _).bind fun _ hform =>
        hform around
  limitedAnywhere content := by simp only [Query.limitedAnywhere, h.limits content]
  width content := by simp only [Query.width, h.width content]

namespace SetOperation

/-- What is asked of a set operation for each of its forms. -/
structure Carries (c : String → SetOperation) : Prop where
  operator : ∀ content, activeOperator (c content).operator (c content).operands =
    activeOperator (c "").operator (c "").operands
  limits : ∀ content, (c content).limits = (c "").limits
  start : ∀ ctx, Settled RenderedLevel.Carries fun content => (c content).start.rendered ctx
  memberTokens : ∀ ctx, Settled Holds fun content => (c content).memberTokens ctx
  functionForm : ∀ ctx, Settled FunctionForm.Carries fun content => (c content).functionForm ctx
  startLimited : ∀ content, (c content).start.limitedAnywhere = (c "").start.limitedAnywhere
  operandsLimited : ∀ content,
    Query.anyLimited (c content).operands = Query.anyLimited (c "").operands
  width : ∀ content, (c content).start.width = (c "").start.width

theorem Carries.rendered {c : String → SetOperation} (h : Carries c) (ctx : RenderContext) :
    Settled RenderedLevel.Carries fun content => (c content).rendered ctx := by
  have hbetween (content : String) :
      (c content).writtenBetween ctx = (c "").writtenBetween ctx := by
    rw [writtenBetween, writtenBetween, h.startLimited, h.operandsLimited]
  cases hactive : activeOperator (c "").operator (c "").operands with
  | none =>
      simp only [rendered_eq, h.operator, hactive, h.limits]
      exact (h.start ctx).bind fun _ hlevel => .pure hlevel
  | some op =>
      have hoperator (content : String) := (h.operator content).trans hactive
      simp only [rendered_of_active (hoperator _), hbetween, h.limits]
      refine .ite _ ?_ ?_
      · exact (h.memberTokens ctx).bind fun _ hts => .pure hts
      · exact (h.functionForm ctx).bind fun _ hform => (hform ctx).bind fun _ hts => .pure hts

/-- In each of its forms a combined query is written from the forms of what it combines. -/
theorem Carries.query {c : String → SetOperation} (h : Carries c) :
    Query.Carries fun content => .combined (c content) where
  rendered ctx := by
    simp only [Query.rendered]
    exact h.rendered ctx
  memberTokens ctx := by
    simp only [Query.memberTokens]
    exact (h.memberTokens ctx).bind fun _ hts => .pure hts.parenthesized
  functionForm ctx := by
    simp only [Query.functionForm]
    exact h.functionForm ctx
  subqueryTokens ctx around := by
    simp only [Query.subqueryTokens]
    exact (h.functionForm ctx).bind fun _ hform => hform around
  limitedAnywhere content := by
    simp only [Query.limitedAnywhere, limitedAnywhere_eq, h.limits content, h.startLimited content,
      h.operandsLimited content]
  width content := by
    simp only [Query.width, width_eq]
    exact h.width content

/-- Queries with an operator between them, and an order after them. -/
theorem holds_nativeTokens_member (operator : Option SetOperator)
    {members : String → List (List Token)} (h : OneOf Holds members) (orders : List (List Token)) :
    Holds fun content => nativeTokens operator (members content) orders :=
  (h.joined _).append _

theorem holds_nativeTokens_order (operator : Option SetOperator) (members : List (List Token))
    {orders : String → List (List Token)} (h : OneOf Holds orders) :
    Holds fun content => nativeTokens operator members (orders content) :=
  (h.listClauseTokens _).prepend _

variable {c : SetOperation}

theorem carries_start {q : String → Query} (hq : Query.Carries q) :
    Carries fun content => { c with start := q content } where
  operator _ := rfl
  limits _ := rfl
  start := hq.rendered
  memberTokens ctx := by
    simp only [memberTokens_eq]
    cases activeOperator c.operator c.operands with
    | none =>
        refine (hq.memberTokens ctx).bind fun _ hts => .after _ fun orders => .pure ?_
        exact holds_nativeTokens_member none (.head hts []) orders
    | some op =>
        refine (hq.memberTokens ctx).bind fun _ hts => ?_
        refine .after _ fun operands => .after _ fun orders => .pure ?_
        exact holds_nativeTokens_member (some op) (.head hts operands) orders
  functionForm ctx := by
    simp only [functionForm_eq]
    cases activeOperator c.operator c.operands with
    | none => exact (hq.functionForm ctx).bind fun _ hform => FunctionForm.settled_limited hform _
    | some op =>
        refine (hq.functionForm ctx).bind fun _ hform => ?_
        refine .after _ fun operands => .after _ fun orders => .pure ?_
        exact FunctionForm.carries_member op (.head hform operands) orders _
  startLimited := hq.limitedAnywhere
  operandsLimited _ := rfl
  width := hq.width

theorem carries_operand {q : String → Query} (hq : Query.Carries q) (before after : List Query) :
    Carries fun content => { c with operands := before ++ q content :: after } where
  operator _ := by simp only [activeOperator, isEmpty_append_cons]
  limits _ := rfl
  start ctx := .const (c.start.rendered ctx)
  memberTokens ctx := by
    have hoperands : Settled (OneOf Holds) fun content =>
        (before ++ q content :: after).mapM (Query.memberTokens ctx) :=
      .mapM (.intro before after (hq.memberTokens ctx))
    simp only [memberTokens_eq, activeOperator, isEmpty_append_cons, Bool.false_eq_true, if_false,
      Query.memberListTokens_eq_mapM]
    cases c.operator with
    | none => exact .const _
    | some op =>
        refine .after _ fun start => hoperands.bind fun _ hts => .after _ fun orders => .pure ?_
        exact holds_nativeTokens_member (some op) (hts.cons start) orders
  functionForm ctx := by
    have hoperands : Settled (OneOf FunctionForm.Carries) fun content =>
        (before ++ q content :: after).mapM (Query.functionForm ctx) :=
      .mapM (.intro before after (hq.functionForm ctx))
    simp only [functionForm_eq, activeOperator, isEmpty_append_cons, Bool.false_eq_true, if_false,
      Query.functionForms_eq_mapM]
    cases c.operator with
    | none => exact .const _
    | some op =>
        refine .after _ fun start => hoperands.bind fun _ hforms => .after _ fun orders => .pure ?_
        exact FunctionForm.carries_member op (hforms.cons start) orders _
  startLimited _ := rfl
  operandsLimited content := by
    simp only [Query.anyLimited_eq_any, List.any_append, List.any_cons, hq.limitedAnywhere content]
  width _ := rfl

theorem carries_order {e : String → Expr} (he : Expr.Carries e)
    (before after : List (OrderItem Expr)) (direction : SortDirection) (nulls : Option NullsOrder) :
    Carries fun content =>
      { c with orderBy := before ++ ⟨e content, direction, nulls⟩ :: after } where
  operator _ := rfl
  limits _ := rfl
  start ctx := .const (c.start.rendered ctx)
  memberTokens ctx := by
    have horders := he.orderItem ⟨ctx, {}, {}⟩ before after direction nulls
    simp only [memberTokens_eq, OrderItem.resultTokens_eq]
    cases activeOperator c.operator c.operands with
    | none =>
        refine .after _ fun start => horders.bind fun _ hts => .pure ?_
        exact holds_nativeTokens_order none [start] hts
    | some op =>
        refine .after _ fun start => .after _ fun operands => horders.bind fun _ hts => .pure ?_
        exact holds_nativeTokens_order (some op) (start :: operands) hts
  functionForm ctx := by
    have horders := he.orderItem ⟨ctx, {}, {}⟩ before after direction nulls
    simp only [functionForm_eq, OrderItem.resultTokens_eq]
    cases activeOperator c.operator c.operands with
    | none => exact .const _
    | some op =>
        refine .after _ fun start => .after _ fun operands => horders.bind fun _ hts => .pure ?_
        exact FunctionForm.carries_resultOrder op (start :: operands) hts _
  startLimited _ := rfl
  operandsLimited _ := rfl
  width _ := rfl

end SetOperation

end EntityQuery
