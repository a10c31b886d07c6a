import EntityQuery.Proofs.SetOperations.Tree
import EntityQuery.Proofs.Written.Basic

/-!
Where the order of a set operation goes. An operation that combines queries has its order in its
own text or call, however deep it stands; so has one that combines nothing and stands between
operators. Elsewhere an operation that combines nothing is written as its first query, and its order
leaves no trace.
-/

namespace EntityQuery

open Token (joined comma parenthesized)

theorem Token.infix_joined {separator part : List Token} {parts : List (List Token)}
    (h : part ∈ parts) : part <:+: joined separator parts := by
  induction parts with
  | nil => cases h
  | cons first rest ih =>
      cases rest with
      | nil =>
          rw [List.mem_singleton.1 h]
          simp [joined]
      | cons next rest =>
          rw [Token.joined_cons_cons]
          rcases List.mem_cons.1 h with rfl | h
          · exact (List.prefix_append _ _).isInfix
          · exact (ih h).trans ((List.suffix_append _ _).trans (List.suffix_append _ _)).isInfix

theorem Token.infix_parenthesized (ts : List Token) : ts <:+: parenthesized ts :=
  ⟨[.mark .openParen], [.mark .closeParen], rfl⟩

/-- Each argument of a call is written in it. -/
theorem RenderContext.infix_invocation {ctx : RenderContext} {name : String} {count : Nat}
    {args : Except QueryError (List (List Token))} {ts : List Token}
    (h : ctx.invocation name count args = .ok ts) :
    ∃ written, args = .ok written ∧ ∀ part ∈ written, part <:+: ts := by
  rw [invocation] at h
  split at h
  · simp only [bind_eq_ok, pure_eq_ok] at h
    obtain ⟨written, hargs, rfl⟩ := h
    refine ⟨written, hargs, fun part hpart => ?_⟩
    exact (Token.infix_joined hpart).trans ((List.prefix_append _ _).isInfix.trans
      (List.suffix_cons _ _).isInfix)
  · split at h
    · simp only [bind_eq_ok, pure_eq_ok] at h
      obtain ⟨written, hargs, rfl⟩ := h
      refine ⟨written, hargs, fun part hpart => ?_⟩
      have hinside : part <:+: joined [comma] ([.string name] :: written) :=
        Token.infix_joined (List.mem_cons_of_mem _ hpart)
      exact hinside.trans ((Token.infix_parenthesized _).trans (List.suffix_cons _ _).isInfix)
    · cases h

namespace FunctionForm

/-- Whether a function form stands in another one, as it is or as an argument at some depth. -/
inductive Within (form : FunctionForm) : FunctionForm → Prop
  | refl : Within form form
  | argument {function : String} {args : List FunctionForm} {arg : FunctionForm}
      (hmem : arg ∈ args) (hwithin : Within form arg) : Within form (.call function args)

variable {form whole : FunctionForm}

/-- The text of a function form is part of the text of every form that it stands in. -/
theorem Within.infix_tokens {ctx : RenderContext} (h : form.Within whole) {ts : List Token}
    (hts : whole.tokens ctx = .ok ts) : ∃ us, form.tokens ctx = .ok us ∧ us <:+: ts := by
  induction h generalizing ts with
  | refl => exact ⟨ts, hts, List.infix_refl ts⟩
  | argument hmem _ ih =>
      rw [tokens, tokensList_eq_mapM] at hts
      obtain ⟨written, hargs, hpiece⟩ := RenderContext.infix_invocation hts
      obtain ⟨part, hpart, harg⟩ := exists_of_mem_forall₂ (mapM_eq_ok.1 hargs).flip hmem
      obtain ⟨us, hus, hinside⟩ := ih harg
      exact ⟨us, hus, hinside.trans (hpiece part hpart)⟩

theorem toExprList_eq_map (d : Dialect) (forms : List FunctionForm) :
    toExprList d forms = forms.map (toExpr d) := by
  induction forms with
  | nil => rfl
  | cons form rest ih => rw [toExprList, ih, List.map_cons]

/-- The expression of a function form is part of the expression of every form that it stands in. -/
theorem Within.mem_subexpressions (h : form.Within whole) (d : Dialect) :
    form.toExpr d ∈ (whole.toExpr d).subexpressions := by
  induction h with
  | refl => exact Expr.mem_subexpressions_self _
  | argument hmem _ ih =>
      rw [toExpr, Expr.generic, Expr.subexpressions, Expr.subexpressionsList_eq]
      refine List.mem_cons_of_mem _ (List.mem_flatMap.2 ⟨_, List.mem_cons_of_mem _ ?_, ih⟩)
      rw [toExprList_eq_map]
      exact List.mem_map_of_mem hmem

/-- What stands in a function form stands in it within limits. -/
theorem Within.limited (h : form.Within whole) {limits : Limits} {limitedForm : FunctionForm}
    (hlimited : FunctionForm.limited whole limits = .ok limitedForm) : form.Within limitedForm := by
  obtain ⟨first, max⟩ := limits
  cases max <;> cases first <;> cases hlimited
  · exact h
  · exact .argument List.mem_cons_self h
  · exact .argument List.mem_cons_self h

/-- A call of the operator has what the members of the operation have. -/
theorem Within.combined {member : FunctionForm} {members : List FunctionForm}
    (h : form.Within member) (hmem : member ∈ members) (op : SetOperator)
    (orders : List (List Token)) (limits : Limits) :
    form.Within (FunctionForm.combined op members orders limits) :=
  .argument (List.mem_append_left _ (List.mem_append_left _ hmem)) h

end FunctionForm

/-- The form that a set operation itself has where a query is written in the given form. -/
def SetOperation.ownForm (d : Dialect) (c : SetOperation) (form : QueryForm) : QueryForm :=
  match activeOperator c.operator c.operands with
  | some _ => memberForm d c.start c.operands form
  | none => form

/-- The set operations that a query is made of, each with its own form: the query itself, and what
it combines or, where it combines nothing, its first query. -/
inductive Query.Reaches (d : Dialect) : Query → QueryForm → SetOperation → QueryForm → Prop
  | self (c : SetOperation) (form : QueryForm) : Reaches d (.combined c) form c (c.ownForm d form)
  | first {c r : SetOperation} {form own : QueryForm}
      (hinactive : SetOperation.activeOperator c.operator c.operands = none)
      (h : Reaches d c.start form r own) : Reaches d (.combined c) form r own
  | member {c r : SetOperation} {form own : QueryForm} {q : Query} {op : SetOperator}
      (hactive : SetOperation.activeOperator c.operator c.operands = some op) (hq : q ∈ c.members)
      (h : Reaches d q (SetOperation.memberForm d c.start c.operands form) r own) :
      Reaches d (.combined c) form r own

theorem infix_nativeTokens {part : List Token} {members : List (List Token)} (h : part ∈ members)
    (operator : Option SetOperator) (orders : List (List Token)) :
    part <:+: nativeTokens operator members orders :=
  (Token.infix_joined h).trans (List.prefix_append _ _).isInfix

namespace Query.Reaches

variable {ctx : RenderContext} {q : Query} {form own : QueryForm} {r : SetOperation}

/-- Between operators, every operation that is reached stands between operators too. -/
theorem between {d : Dialect} (h : q.Reaches d form r own) (hform : form = .between)
    {ts : List Token} (hts : q.memberTokens ctx = .ok ts) :
    own = .between ∧ ∃ us, r.memberTokens ctx = .ok us ∧ us <:+: ts := by
  induction h generalizing ts with
  | self c form =>
      subst hform
      rw [Query.memberTokens] at hts
      simp only [bind_eq_ok, pure_eq_ok] at hts
      obtain ⟨written, hwritten, rfl⟩ := hts
      refine ⟨?_, written, hwritten, Token.infix_parenthesized written⟩
      rw [SetOperation.ownForm]
      split <;> rfl
  | first hinactive _ ih =>
      rw [Query.memberTokens] at hts
      simp only [bind_eq_ok, pure_eq_ok] at hts
      obtain ⟨_, hwritten, rfl⟩ := hts
      obtain ⟨start, orders, hstart, -, rfl⟩ :=
        (SetOperation.memberTokens_of_inactive hinactive).1 hwritten
      obtain ⟨hown, us, hus, hpiece⟩ := ih hform hstart
      exact ⟨hown, us, hus, hpiece.trans ((infix_nativeTokens List.mem_cons_self _ _).trans
        (Token.infix_parenthesized _))⟩
  | member hactive hq _ ih =>
      subst hform
      rw [Query.memberTokens] at hts
      simp only [bind_eq_ok, pure_eq_ok] at hts
      obtain ⟨_, hwritten, rfl⟩ := hts
      obtain ⟨members, orders, hall, -, rfl⟩ :=
        (SetOperation.memberTokens_of_active hactive).1 hwritten
      obtain ⟨member, hmember, htokens⟩ := exists_of_mem_forall₂ hall.flip hq
      obtain ⟨hown, us, hus, hpiece⟩ := ih rfl htokens
      exact ⟨hown, us, hus, hpiece.trans ((infix_nativeTokens hmember _ _).trans
        (Token.infix_parenthesized _))⟩

/-- As an argument, every operation that is reached is an argument too. -/
theorem argument {d : Dialect} (h : q.Reaches d form r own) (hform : form = .argument)
    {whole : FunctionForm} (hwhole : q.functionForm ctx = .ok whole) :
    own = .argument ∧ ∃ part, r.functionForm ctx = .ok part ∧ part.Within whole := by
  induction h generalizing whole with
  | self c form =>
      subst hform
      rw [Query.functionForm] at hwhole
      refine ⟨?_, whole, hwhole, .refl⟩
      rw [SetOperation.ownForm]
      split <;> rfl
  | first hinactive _ ih =>
      rw [Query.functionForm] at hwhole
      obtain ⟨start, hstart, hlimited⟩ :=
        (SetOperation.functionForm_of_inactive hinactive).1 hwhole
      obtain ⟨hown, part, hpart, hwithin⟩ := ih hform hstart
      exact ⟨hown, part, hpart, hwithin.limited hlimited⟩
  | member hactive hq _ ih =>
      subst hform
      rw [Query.functionForm] at hwhole
      obtain ⟨members, orders, hall, -, rfl⟩ :=
        (SetOperation.functionForm_of_active hactive).1 hwhole
      obtain ⟨member, hmember, hform⟩ := exists_of_mem_forall₂ hall.flip hq
      obtain ⟨hown, part, hpart, hwithin⟩ := ih rfl hform
      exact ⟨hown, part, hpart, hwithin.combined hmember _ _ _⟩

end Query.Reaches

namespace SetOperation

variable {ctx : RenderContext} {c : SetOperation} {own : QueryForm}

/-- Whether a set operation has its order in its own form. -/
def KeepsOrder (c : SetOperation) (own : QueryForm) : Prop :=
  (activeOperator c.operator c.operands).isSome ∨ own = .between

/-- Whether a text has the text of a set operation in it, in its own form and with its order. -/
inductive OrderedIn (ctx : RenderContext) (c : SetOperation) (ts : List Token) : QueryForm → Prop
  | between {operator : Option SetOperator} {members orders : List (List Token)}
      (horders : OrderItem.resultTokens ctx c.orderBy = .ok orders)
      (htokens : c.memberTokens ctx = .ok (nativeTokens operator members orders))
      (hpiece : nativeTokens operator members orders <:+: ts) : OrderedIn ctx c ts .between
  | argument {op : SetOperator} {members : List FunctionForm} {orders : List (List Token)}
      {us : List Token} (horders : OrderItem.resultTokens ctx c.orderBy = .ok orders)
      (hform : c.functionForm ctx = .ok (.combined op members orders c.limits))
      (hus : (FunctionForm.combined op members orders c.limits).tokens ctx = .ok us)
      (hpiece : us <:+: ts) : OrderedIn ctx c ts .argument

/-- Between operators there is an order whether queries are combined or not. -/
theorem orderedIn_of_memberTokens {us ts : List Token} (h : c.memberTokens ctx = .ok us)
    (hpiece : us <:+: ts) : c.OrderedIn ctx ts .between := by
  cases hactive : activeOperator c.operator c.operands with
  | none =>
      obtain ⟨start, orders, -, horders, rfl⟩ := (memberTokens_of_inactive hactive).1 h
      exact .between horders h hpiece
  | some op =>
      obtain ⟨members, orders, -, horders, rfl⟩ := (memberTokens_of_active hactive).1 h
      exact .between horders h hpiece

theorem orderedIn_of_functionForm {op : SetOperator} {form : FunctionForm} {us ts : List Token}
    (hactive : activeOperator c.operator c.operands = some op) (h : c.functionForm ctx = .ok form)
    (hus : form.tokens ctx = .ok us) (hpiece : us <:+: ts) : c.OrderedIn ctx ts .argument := by
  obtain ⟨members, orders, -, horders, rfl⟩ := (functionForm_of_active hactive).1 h
  exact .argument horders h hus hpiece

end SetOperation

/-- A written query has the order of every operation that is reached and keeps it. -/
theorem Query.Reaches.orderedIn {ctx : RenderContext} {q : Query} {form own : QueryForm}
    {r : SetOperation} (h : q.Reaches ctx.dialect form r own) (hform : form = .statement)
    (hkept : r.KeepsOrder own) {level : RenderedLevel} (hlevel : q.rendered ctx = .ok level) :
    r.OrderedIn ctx level.tokens own := by
  induction h generalizing level with
  | self c form =>
      subst hform
      rw [Query.rendered] at hlevel
      cases hactive : SetOperation.activeOperator c.operator c.operands with
      | none => simp [SetOperation.KeepsOrder, SetOperation.ownForm, hactive] at hkept
      | some op =>
          have hown : c.ownForm ctx.dialect .statement =
              if c.writtenBetween ctx then .between else .argument := by
            rw [SetOperation.ownForm, hactive]
            rfl
          rw [SetOperation.rendered_of_active hactive] at hlevel
          rw [hown]
          split at hlevel
          next hbetween =>
            simp only [bind_eq_ok, pure_eq_ok] at hlevel
            obtain ⟨ts, hts, rfl⟩ := hlevel
            rw [if_pos hbetween]
            exact SetOperation.orderedIn_of_memberTokens hts (List.infix_refl ts)
          next hbetween =>
            simp only [bind_eq_ok, pure_eq_ok] at hlevel
            obtain ⟨form, hform, ts, hts, rfl⟩ := hlevel
            rw [if_neg hbetween]
            exact SetOperation.orderedIn_of_functionForm hactive hform hts (List.infix_refl ts)
  | first hinactive _ ih =>
      rw [Query.rendered, SetOperation.rendered_eq, hinactive] at hlevel
      simp only [bind_eq_ok, pure_eq_ok] at hlevel
      obtain ⟨inner, hinner, rfl⟩ := hlevel
      have hordered := ih hform hkept hinner
      exact hordered
  | @member c r form own q op hactive hq h _ =>
      subst hform
      have hmembers : SetOperation.memberForm ctx.dialect c.start c.operands .statement =
          if c.writtenBetween ctx then .between else .argument := rfl
      rw [hmembers] at h
      rw [Query.rendered, SetOperation.rendered_of_active hactive] at hlevel
      split at hlevel
      next hbetween =>
        simp only [bind_eq_ok, pure_eq_ok] at hlevel
        obtain ⟨ts, hts, rfl⟩ := hlevel
        obtain ⟨members, orders, hall, -, rfl⟩ :=
          (SetOperation.memberTokens_of_active hactive).1 hts
        obtain ⟨member, hmember, htokens⟩ := exists_of_mem_forall₂ hall.flip hq
        obtain ⟨rfl, us, hus, hpiece⟩ := h.between (if_pos hbetween) htokens
        have hnative := infix_nativeTokens hmember (some op) orders
        exact SetOperation.orderedIn_of_memberTokens hus (hpiece.trans hnative)
      next hbetween =>
        simp only [bind_eq_ok, pure_eq_ok] at hlevel
        obtain ⟨whole, hwhole, ts, hts, rfl⟩ := hlevel
        obtain ⟨members, orders, hall, -, rfl⟩ :=
          (SetOperation.functionForm_of_active hactive).1 hwhole
        obtain ⟨member, hmember, hmemberForm⟩ := exists_of_mem_forall₂ hall.flip hq
        obtain ⟨rfl, part, hpart, hwithin⟩ := h.argument (if_neg hbetween) hmemberForm
        obtain ⟨us, hus, hpiece⟩ := (hwithin.combined hmember op orders c.limits).infix_tokens hts
        obtain ⟨rop, hrop⟩ :
            ∃ rop, SetOperation.activeOperator r.operator r.operands = some rop := by
          simpa [SetOperation.KeepsOrder, Option.isSome_iff_exists] using hkept
        exact SetOperation.orderedIn_of_functionForm hrop hpart hus hpiece

mutual

/-- A query without the orders of the operations that are reached and do not keep them. -/
def Query.withoutLostOrders (d : Dialect) (form : QueryForm) : Query → Query
  | .select s => .select s
  | .combined c => .combined (c.withoutLostOrders d form)

def Query.withoutLostOrdersList (d : Dialect) (form : QueryForm) : List Query → List Query
  | [] => []
  | q :: rest => q.withoutLostOrders d form :: Query.withoutLostOrdersList d form rest

def SetOperation.withoutLostOrders (d : Dialect) (form : QueryForm) : SetOperation → SetOperation
  | ⟨operator, start, operands, orderBy, limits⟩ =>
      match SetOperation.activeOperator operator operands with
      | some _ =>
          let members := SetOperation.memberForm d start operands form
          ⟨operator, start.withoutLostOrders d members,
            Query.withoutLostOrdersList d members operands, orderBy, limits⟩
      | none =>
          ⟨operator, start.withoutLostOrders d form, operands,
            if form = .between then orderBy else [], limits⟩

end

section LostOrders

variable (d : Dialect) (form : QueryForm)

theorem Query.withoutLostOrdersList_eq (qs : List Query) :
    withoutLostOrdersList d form qs = qs.map (withoutLostOrders d form) := by
  induction qs with
  | nil => rfl
  | cons q rest ih => rw [withoutLostOrdersList, ih, List.map_cons]

namespace SetOperation

variable {c : SetOperation} {op : SetOperator}

theorem withoutLostOrders_of_active (hactive : activeOperator c.operator c.operands = some op) :
    c.withoutLostOrders d form =
      { c with
        start := c.start.withoutLostOrders d (memberForm d c.start c.operands form)
        operands := c.operands.map
          (Query.withoutLostOrders d (memberForm d c.start c.operands form)) } := by
  obtain ⟨operator, start, operands, orderBy, limits⟩ := c
  rw [withoutLostOrders]
  simp only [hactive, Query.withoutLostOrdersList_eq]

theorem withoutLostOrders_of_inactive (hinactive : activeOperator c.operator c.operands = none) :
    c.withoutLostOrders d form =
      { c with
        start := c.start.withoutLostOrders d form
        orderBy := if form = .between then c.orderBy else [] } := by
  obtain ⟨operator, start, operands, orderBy, limits⟩ := c
  rw [withoutLostOrders]
  simp only [hinactive]

/-- The parts that make an operation combine queries stay. -/
theorem activeOperator_map (f : Query → Query) (operator : Option SetOperator)
    (operands : List Query) :
    activeOperator operator (operands.map f) = activeOperator operator operands := by
  cases operands <;> rfl

end SetOperation

/-- Between operators no order is lost. -/
theorem Query.withoutLostOrders_between (q : Query) : q.withoutLostOrders d .between = q := by
  refine Query.memberInduction (Q := fun q => q.withoutLostOrders d .between = q) (fun s => rfl)
    (fun c hstart hoperands => ?_) q
  rw [withoutLostOrders]
  cases hactive : SetOperation.activeOperator c.operator c.operands with
  | none =>
      rw [SetOperation.withoutLostOrders_of_inactive d .between hactive, hstart, if_pos rfl]
      cases c
      rfl
  | some op =>
      have hmap : c.operands.map (withoutLostOrders d .between) = c.operands :=
        (List.map_congr_left hoperands).trans (List.map_id' c.operands)
      rw [SetOperation.withoutLostOrders_of_active d .between hactive, SetOperation.memberForm,
        hstart, hmap]
      cases c
      rfl

/-- An order is no limit. -/
theorem Query.limitedAnywhere_withoutLostOrders (q : Query) :
    (q.withoutLostOrders d form).limitedAnywhere = q.limitedAnywhere := by
  refine Query.memberInduction
    (Q := fun q => ∀ form, (q.withoutLostOrders d form).limitedAnywhere = q.limitedAnywhere)
    (fun s _ => rfl) (fun c hstart hoperands form => ?_) q form
  rw [withoutLostOrders, limitedAnywhere, limitedAnywhere]
  cases hactive : SetOperation.activeOperator c.operator c.operands with
  | none =>
      rw [SetOperation.withoutLostOrders_of_inactive d form hactive,
        SetOperation.limitedAnywhere_eq, SetOperation.limitedAnywhere_eq, hstart]
  | some op =>
      rw [SetOperation.withoutLostOrders_of_active d form hactive,
        SetOperation.limitedAnywhere_eq, SetOperation.limitedAnywhere_eq, hstart,
        anyLimited_map fun q hq => hoperands q hq _]

theorem SetOperation.activeOperator_withoutLostOrders (c : SetOperation) :
    activeOperator (c.withoutLostOrders d form).operator (c.withoutLostOrders d form).operands =
      activeOperator c.operator c.operands := by
  cases hactive : activeOperator c.operator c.operands with
  | none => rw [withoutLostOrders_of_inactive d form hactive, hactive]
  | some op => rw [withoutLostOrders_of_active d form hactive, activeOperator_map, hactive]

theorem SetOperation.writtenBetween_withoutLostOrders (ctx : RenderContext) (c : SetOperation) :
    (c.withoutLostOrders d form).writtenBetween ctx = c.writtenBetween ctx := by
  have hstart (form : QueryForm) := c.start.limitedAnywhere_withoutLostOrders d form
  cases hactive : activeOperator c.operator c.operands with
  | none =>
      rw [withoutLostOrders_of_inactive d form hactive, writtenBetween, writtenBetween, hstart]
  | some op =>
      rw [withoutLostOrders_of_active d form hactive, writtenBetween, writtenBetween, hstart,
        Query.anyLimited_map fun q _ => q.limitedAnywhere_withoutLostOrders d _]

theorem Query.functionForm_withoutLostOrders (ctx : RenderContext) (q : Query) :
    (q.withoutLostOrders d .argument).functionForm ctx = q.functionForm ctx := by
  refine Query.memberInduction
    (Q := fun q => (q.withoutLostOrders d .argument).functionForm ctx = q.functionForm ctx)
    (fun s => rfl) (fun c hstart hoperands => ?_) q
  rw [withoutLostOrders, functionForm, functionForm]
  cases hactive : SetOperation.activeOperator c.operator c.operands with
  | none =>
      rw [SetOperation.withoutLostOrders_of_inactive d .argument hactive,
        SetOperation.functionForm_eq, SetOperation.functionForm_eq, hactive, hstart]
  | some op =>
      have hforms : functionForms ctx (c.operands.map (withoutLostOrders d .argument)) =
          functionForms ctx c.operands := by
        rw [functionForms_eq_mapM, functionForms_eq_mapM, List.mapM_map]
        exact mapM_congr hoperands
      rw [SetOperation.withoutLostOrders_of_active d .argument hactive,
        SetOperation.functionForm_eq, SetOperation.functionForm_eq,
        SetOperation.activeOperator_map, hactive, SetOperation.memberForm, hstart, hforms]

theorem Query.rendered_withoutLostOrders (ctx : RenderContext) (q : Query) :
    (q.withoutLostOrders ctx.dialect .statement).rendered ctx = q.rendered ctx := by
  refine Query.memberInduction
    (Q := fun q => (q.withoutLostOrders ctx.dialect .statement).rendered ctx = q.rendered ctx)
    (fun s => rfl) (fun c hstart _ => ?_) q
  rw [withoutLostOrders, rendered, rendered]
  cases hactive : SetOperation.activeOperator c.operator c.operands with
  | none =>
      rw [SetOperation.withoutLostOrders_of_inactive ctx.dialect .statement hactive,
        SetOperation.rendered_eq, SetOperation.rendered_eq, hactive, hstart]
  | some op =>
      have hform : SetOperation.memberForm ctx.dialect c.start c.operands .statement =
          if c.writtenBetween ctx then .between else .argument := rfl
      cases hbetween : c.writtenBetween ctx with
      | true =>
          rw [hbetween, if_pos rfl] at hform
          have hsame : c.withoutLostOrders ctx.dialect .statement =
              c.withoutLostOrders ctx.dialect .between := by
            rw [SetOperation.withoutLostOrders_of_active ctx.dialect .statement hactive,
              SetOperation.withoutLostOrders_of_active ctx.dialect .between hactive, hform,
              SetOperation.memberForm]
          have hnone := (Query.combined c).withoutLostOrders_between ctx.dialect
          rw [withoutLostOrders, Query.combined.injEq] at hnone
          rw [hsame, hnone]
      | false =>
          rw [hbetween, if_neg (by simp)] at hform
          have hsame : c.withoutLostOrders ctx.dialect .statement =
              c.withoutLostOrders ctx.dialect .argument := by
            rw [SetOperation.withoutLostOrders_of_active ctx.dialect .statement hactive,
              SetOperation.withoutLostOrders_of_active ctx.dialect .argument hactive, hform,
              SetOperation.memberForm]
          have hcall := (Query.combined c).functionForm_withoutLostOrders ctx.dialect ctx
          rw [withoutLostOrders, functionForm, functionForm, ← hsame] at hcall
          have hactive' := (c.activeOperator_withoutLostOrders ctx.dialect .statement).trans hactive
          rw [SetOperation.rendered_of_active hactive', SetOperation.rendered_of_active hactive,
            SetOperation.writtenBetween_withoutLostOrders, hbetween, if_neg (by simp),
            if_neg (by simp), hcall]

end LostOrders

/-- An expression has the order of every operation that is reached and combines queries, among the
arguments of the call that the operation becomes. -/
theorem Query.Reaches.mem_subexpressions {ctx : RenderContext} {q : Query} {form own : QueryForm}
    {r : SetOperation} (h : q.Reaches ctx.dialect form r own) (hform : form = .argument)
    (hkept : r.KeepsOrder own) {e : Expr} (he : q.asExpression ctx = .ok e) :
    ∃ (op : SetOperator) (members : List Expr) (orders : List (List Token)),
      OrderItem.resultTokens ctx r.orderBy = .ok orders ∧ Expr.generic op.marker
        (members ++ SetTree.orderGroup ctx.dialect orders ++ r.limits.arguments) ∈
          e.subexpressions := by
  rw [asExpression] at he
  simp only [bind_eq_ok, pure_eq_ok] at he
  obtain ⟨whole, hwhole, rfl⟩ := he
  obtain ⟨rfl, part, hpart, hwithin⟩ := h.argument hform hwhole
  obtain ⟨op, hop⟩ : ∃ op, SetOperation.activeOperator r.operator r.operands = some op := by
    simpa [SetOperation.KeepsOrder, Option.isSome_iff_exists] using hkept
  obtain ⟨members, orders, -, horders, rfl⟩ := (SetOperation.functionForm_of_active hop).1 hpart
  refine ⟨op, FunctionForm.toExprList ctx.dialect members, orders, horders, ?_⟩
  have hcall := hwithin.mem_subexpressions ctx.dialect
  rw [FunctionForm.combined, FunctionForm.toExpr, FunctionForm.toExprList_append,
    FunctionForm.toExprList_append, FunctionForm.toExprList_orderArguments,
    Limits.toExprList_limitArguments] at hcall
  exact hcall

/-- The order of a set operation is written at its own level if the operation combines queries or
stands between operators, in a text as in an expression. The order of any other operation that is
reached leaves no trace: the result is that of the query without it. -/
theorem Query.orders_kept_or_lost (ctx : RenderContext) (q : Query) :
    (∀ level, q.rendered ctx = .ok level → ∀ c own, q.Reaches ctx.dialect .statement c own →
      c.KeepsOrder own → c.OrderedIn ctx level.tokens own) ∧
    (∀ e, q.asExpression ctx = .ok e → ∀ c own, q.Reaches ctx.dialect .argument c own →
      c.KeepsOrder own →
        ∃ (op : SetOperator) (members : List Expr) (orders : List (List Token)),
          OrderItem.resultTokens ctx c.orderBy = .ok orders ∧ Expr.generic op.marker
            (members ++ SetTree.orderGroup ctx.dialect orders ++ c.limits.arguments) ∈
              e.subexpressions) ∧
    (q.withoutLostOrders ctx.dialect .statement).rendered ctx = q.rendered ctx ∧
    (q.withoutLostOrders ctx.dialect .argument).asExpression ctx = q.asExpression ctx := by
  refine ⟨fun level hlevel c own hreaches hkept => hreaches.orderedIn rfl hkept hlevel,
    fun e he c own hreaches hkept => hreaches.mem_subexpressions rfl hkept he,
    q.rendered_withoutLostOrders ctx, ?_⟩
  rw [asExpression, asExpression, functionForm_withoutLostOrders]

namespace SetOperation

/-- The staff once more, as the only query of an operation with an order of its own. -/
def rankedStaff : SetOperation where
  start := .combined (staff 10)
  orderBy := [⟨.ofPath "rank", .desc, none⟩]

theorem orders_kept_or_lost_rankedStaff :
    ∃ level, (Query.combined rankedStaff).rendered { dialect := .hibernate } = .ok level ∧
      (staff 10).KeepsOrder .between ∧
      (staff 10).OrderedIn { dialect := .hibernate } level.tokens .between ∧
      (Query.combined { start := .combined (staff 10) }).rendered { dialect := .hibernate } =
        .ok level := by
  obtain ⟨level, hlevel⟩ :
      ∃ level, (Query.combined rankedStaff).rendered { dialect := .hibernate } = .ok level :=
    ⟨_, rfl⟩
  obtain ⟨hkept, -, hlost, -⟩ :=
    Query.orders_kept_or_lost { dialect := .hibernate } (.combined rankedStaff)
  have hreaches : (Query.combined rankedStaff).Reaches .hibernate .statement (staff 10) .between :=
    .first rfl (.self (staff 10) .statement)
  exact ⟨level, hlevel, .inr rfl, hkept level hlevel _ _ hreaches (.inr rfl),
    hlost.trans hlevel⟩

/-- The people by name, as the only query of an operation with an order. -/
def orderedPeople : SetOperation where
  start := .select (Select.addRoot {} "Person" "p")
  orderBy := [⟨.ofPath "name", .asc, none⟩]

/-- On its own, an operation that combines nothing loses its order. -/
theorem order_lost_orderedPeople :
    ¬∀ (ctx : RenderContext) (q : Query) (level : RenderedLevel), q.rendered ctx = .ok level →
      ∀ c own, q.Reaches ctx.dialect .statement c own →
        ∀ orders, OrderItem.resultTokens ctx c.orderBy = .ok orders → ∀ order ∈ orders,
          (tokensText ctx.dialect order).toList <:+:
            (tokensText ctx.dialect level.tokens).toList := by
  intro h
  obtain ⟨level, hlevel⟩ : ∃ level,
      (Query.combined orderedPeople).rendered { dialect := .hibernate } = .ok level := ⟨_, rfl⟩
  have htext : tokensText .hibernate level.tokens = "SELECT p FROM Person p" := by
    cases hlevel
    rfl
  have hwritten := h { dialect := .hibernate } _ level hlevel orderedPeople .statement
    (.self orderedPeople .statement) _ rfl _ List.mem_cons_self
  rw [htext] at hwritten
  have hletter : 'A' ∈ "SELECT p FROM Person p".toList := hwritten.subset (by decide)
  simp at hletter

end SetOperation

end EntityQuery
