import EntityQuery.Proofs.Render.Verdict

/-!
Function forms as calls. What can go wrong when a function form is written is only that one of the
functions it calls is out of reach.
-/

namespace EntityQuery

theorem RenderContext.succeeds_invocation (ctx : RenderContext) (name : String) (count : Nat)
    (args : Except QueryError (List (List Token))) :
    Succeeds (ctx.invocation name count args) ↔ ctx.CanCall name ∧ Succeeds args := by
  rw [invocation, CanCall]
  by_cases hname : ctx.functions.contains name = true
  · simp [hname]
  · by_cases hgeneric : ctx.capabilities.genericFunctions = true
    · simp [hname, hgeneric]
    · simp [hname, hgeneric]

namespace FunctionForm

mutual

/-- The functions that a function form calls. -/
def names : FunctionForm → List String
  | level _ => []
  | word _ => []
  | order _ => []
  | number _ => []
  | call f args => f :: namesList args

def namesList : List FunctionForm → List String
  | [] => []
  | form :: rest => form.names ++ namesList rest

end

theorem namesList_append (forms others : List FunctionForm) :
    namesList (forms ++ others) = namesList forms ++ namesList others := by
  induction forms with
  | nil => rfl
  | cons form rest ih => rw [List.cons_append, namesList, ih, namesList, List.append_assoc]

mutual

theorem succeeds_tokens (ctx : RenderContext) (form : FunctionForm) :
    Succeeds (form.tokens ctx) ↔ ∀ f ∈ form.names, ctx.CanCall f := by
  cases form with
  | level ts => simp [tokens, names]
  | word s => simp [tokens, names]
  | order ts => simp [tokens, names]
  | number n => simp [tokens, names]
  | call f args =>
      have hargs := succeeds_tokensList ctx args
      rw [tokens, RenderContext.succeeds_invocation, hargs, names, List.forall_mem_cons]

theorem succeeds_tokensList (ctx : RenderContext) (forms : List FunctionForm) :
    Succeeds (tokensList ctx forms) ↔ ∀ f ∈ namesList forms, ctx.CanCall f := by
  cases forms with
  | nil => simp [tokensList, namesList]
  | cons form rest =>
      have hform := succeeds_tokens ctx form
      have hrest := succeeds_tokensList ctx rest
      rw [tokensList, namesList, List.forall_mem_append, ← hform, ← hrest]
      simp

end

theorem namesList_orderArguments (orders : List (List Token)) :
    namesList (orderArguments orders) = [] := by
  have hitems : namesList (orders.map order) = [] := by
    induction orders with
    | nil => rfl
    | cons item rest ih => simpa [namesList, names] using ih
  rw [orderArguments]
  split
  · rfl
  · simpa [namesList, names] using hitems

theorem namesList_limitArguments (limits : Limits) : namesList (limitArguments limits) = [] := by
  obtain ⟨first, max⟩ := limits
  cases first <;> cases max <;> rfl

theorem names_combined (operator : SetOperator) (members : List FunctionForm)
    (orders : List (List Token)) (limits : Limits) :
    (combined operator members orders limits).names = operator.marker :: namesList members := by
  rw [combined, names, namesList_append, namesList_append, namesList_orderArguments,
    namesList_limitArguments, List.append_nil, List.append_nil]

/-- Whether a function form can be made, and its functions be called. -/
def CanWrite (ctx : RenderContext) (form : Except QueryError FunctionForm) : Prop :=
  ∃ f, form = .ok f ∧ ∀ name ∈ f.names, ctx.CanCall name

theorem succeeds_bind_tokens (ctx : RenderContext) (form : Except QueryError FunctionForm) :
    Succeeds (form >>= fun f => f.tokens ctx) ↔ CanWrite ctx form := by
  simp only [succeeds_bind, succeeds_tokens, CanWrite]

/-- A query level in a call asks for what its limits ask for, and for no other function. -/
theorem canWrite_limited_level (ctx : RenderContext) (tokens : Except QueryError (List Token))
    (limits : Limits) :
    CanWrite ctx (tokens >>= fun ts => limited (.level (Token.parenthesized ts)) limits) ↔
      (Site.nested limits).Writable ctx ∧ Succeeds tokens := by
  cases tokens with
  | error e => simp [CanWrite, bind, Except.bind]
  | ok ts =>
      obtain ⟨first, max⟩ := limits
      cases first <;> cases max <;>
        simp [CanWrite, bind, Except.bind, limited, names, namesList, Site.Writable, Site.Sound,
          Site.SupportedBy, Limits.any]

/-- Whether function forms can be made, and the functions of all of them be called. -/
def CanWriteAll (ctx : RenderContext) (forms : Except QueryError (List FunctionForm)) : Prop :=
  ∃ fs, forms = .ok fs ∧ ∀ name ∈ namesList fs, ctx.CanCall name

theorem canWriteAll_mapM {α : Type} (ctx : RenderContext)
    (f : α → Except QueryError FunctionForm) (l : List α) :
    CanWriteAll ctx (l.mapM f) ↔ ∀ x ∈ l, CanWrite ctx (f x) := by
  induction l with
  | nil => simp [CanWriteAll, namesList, pure, Except.pure]
  | cons x rest ih =>
      rw [List.forall_mem_cons, ← ih, List.mapM_cons]
      simp only [CanWriteAll, CanWrite, bind_eq_ok, pure_eq_ok]
      constructor
      · rintro ⟨_, ⟨form, hform, forms, hforms, rfl⟩, hnames⟩
        rw [namesList, List.forall_mem_append] at hnames
        exact ⟨⟨form, hform, hnames.1⟩, ⟨forms, hforms, hnames.2⟩⟩
      · rintro ⟨⟨form, hform, hfirst⟩, ⟨forms, hforms, hrest⟩⟩
        refine ⟨form :: forms, ⟨form, hform, forms, hforms, rfl⟩, ?_⟩
        rw [namesList, List.forall_mem_append]
        exact ⟨hfirst, hrest⟩

/-- A set operation in a call asks for its marker and for what its queries and its order ask for. -/
theorem canWrite_combined (ctx : RenderContext) (operator : SetOperator)
    (start : Except QueryError FunctionForm) (operands : Except QueryError (List FunctionForm))
    (orders : Except QueryError (List (List Token))) (limits : Limits) :
    CanWrite ctx (do
        let start ← start
        let operands ← operands
        let orders ← orders
        return combined operator (start :: operands) orders limits) ↔
      ctx.CanCall operator.marker ∧ (CanWrite ctx start ∧ CanWriteAll ctx operands) ∧
        Succeeds orders := by
  simp only [CanWrite, CanWriteAll, bind_eq_ok, pure_eq_ok]
  constructor
  · rintro ⟨_, ⟨form, hform, forms, hforms, tokens, htokens, rfl⟩, hnames⟩
    rw [names_combined, namesList, List.forall_mem_cons, List.forall_mem_append] at hnames
    exact ⟨hnames.1, ⟨⟨form, hform, hnames.2.1⟩, ⟨forms, hforms, hnames.2.2⟩⟩, tokens, htokens⟩
  · rintro ⟨hmarker, ⟨⟨form, hform, hfirst⟩, ⟨forms, hforms, hrest⟩⟩, tokens, htokens⟩
    refine ⟨_, ⟨form, hform, forms, hforms, tokens, htokens, rfl⟩, ?_⟩
    rw [names_combined, namesList, List.forall_mem_cons, List.forall_mem_append]
    exact ⟨hmarker, hfirst, hrest⟩

end FunctionForm

end EntityQuery
