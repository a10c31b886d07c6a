import EntityQuery.Proofs.Render.Equations
import EntityQuery.Proofs.Rewriting.Agreement

/-!
One level of a combined query in exchange for another. Whatever relates what is written of the two
levels relates what is written of the queries around them, whether operators stand between queries
or functions are called with them: everything around the levels stays as it is.
-/

namespace EntityQuery

open Token (spaced listSeparator comma joined parenthesized)

section Lists

variable {ε α β : Type} {r : α → α → Prop} {r' : β → β → Prop} {as as' : List α}

/-- Lists that differ in one member. -/
def ApartInOne (r : α → α → Prop) (as as' : List α) : Prop :=
  ∃ before a a' after, r a a' ∧ as = before ++ a :: after ∧ as' = before ++ a' :: after

namespace ApartInOne

theorem intro {a a' : α} (h : r a a') (before after : List α) :
    ApartInOne r (before ++ a :: after) (before ++ a' :: after) :=
  ⟨before, a, a', after, h, rfl, rfl⟩

theorem head {a a' : α} (h : r a a') (after : List α) : ApartInOne r (a :: after) (a' :: after) :=
  intro h [] after

theorem cons (first : α) (h : ApartInOne r as as') : ApartInOne r (first :: as) (first :: as') := by
  obtain ⟨before, a, a', after, h, rfl, rfl⟩ := h
  exact intro h (first :: before) after

theorem append (h : ApartInOne r as as') (back : List α) :
    ApartInOne r (as ++ back) (as' ++ back) := by
  obtain ⟨before, a, a', after, h, rfl, rfl⟩ := h
  rw [List.append_assoc, List.append_assoc]
  exact intro h before (after ++ back)

theorem length_eq (h : ApartInOne r as as') : as'.length = as.length := by
  obtain ⟨before, a, a', after, -, rfl, rfl⟩ := h
  simp

end ApartInOne

/-- A walk over two lists that differ in one member. -/
theorem Agree.mapM_one {f : α → Except ε β}
    (h : ApartInOne (fun a a' => Agree True r' (f a) (f a')) as as') :
    Agree True (ApartInOne r') (as.mapM f) (as'.mapM f) := by
  obtain ⟨before, a, a', after, h, rfl, rfl⟩ := h
  induction before with
  | nil =>
      rw [List.nil_append, List.nil_append, List.mapM_cons, List.mapM_cons]
      exact h.bind fun b b' hb => bind_of_eq rfl fun rest => .ok (.head hb rest)
  | cons first rest ih =>
      rw [List.cons_append, List.cons_append, List.mapM_cons, List.mapM_cons]
      exact bind_of_eq rfl fun b => ih.bind fun _ _ hrest => .ok (.cons b hrest)

end Lists

variable {p : List Token → List Token → Prop} {ts ts' : List Token}

/-- Tokens that are related, between the same tokens. -/
def Inside (p : List Token → List Token → Prop) (ts ts' : List Token) : Prop :=
  ∃ front us us' back, p us us' ∧ ts = front ++ us ++ back ∧ ts' = front ++ us' ++ back

/-- What stands around one of several lists of tokens does not depend on it. -/
theorem Token.exists_joined (separator : List Token) (before after : List (List Token)) :
    ∃ front back, ∀ ts, joined separator (before ++ ts :: after) = front ++ ts ++ back := by
  induction before with
  | nil =>
      cases after with
      | nil => exact ⟨[], [], fun ts => by simp [joined]⟩
      | cons next rest =>
          exact ⟨[], separator ++ joined separator (next :: rest), fun ts => by simp [joined]⟩
  | cons first rest ih =>
      obtain ⟨front, back, h⟩ := ih
      refine ⟨first ++ separator ++ front, back, fun ts => ?_⟩
      have hsplit : joined separator (first :: (rest ++ ts :: after)) =
          first ++ separator ++ joined separator (rest ++ ts :: after) := by
        cases rest <;> simp [joined]
      rw [List.cons_append, hsplit, h]
      simp

namespace Inside

theorem of (h : p ts ts') : Inside p ts ts' := ⟨[], ts, ts', [], h, by simp, by simp⟩

theorem append (h : Inside p ts ts') (back : List Token) :
    Inside p (ts ++ back) (ts' ++ back) := by
  obtain ⟨front, us, us', rest, h, rfl, rfl⟩ := h
  exact ⟨front, us, us', rest ++ back, h, by simp, by simp⟩

theorem prepend (front : List Token) (h : Inside p ts ts') :
    Inside p (front ++ ts) (front ++ ts') := by
  obtain ⟨rest, us, us', back, h, rfl, rfl⟩ := h
  exact ⟨front ++ rest, us, us', back, h, by simp, by simp⟩

theorem parenthesized (h : Inside p ts ts') :
    Inside p (parenthesized ts) (Token.parenthesized ts') :=
  (h.append [.mark .closeParen]).prepend [.mark .openParen]

theorem joined (separator : List Token) {parts parts' : List (List Token)}
    (h : ApartInOne (Inside p) parts parts') :
    Inside p (joined separator parts) (Token.joined separator parts') := by
  obtain ⟨before, part, part', after, h, rfl, rfl⟩ := h
  obtain ⟨front, back, hjoined⟩ := Token.exists_joined separator before after
  rw [hjoined, hjoined]
  exact (h.prepend front).append back

theorem nativeTokens (operator : Option SetOperator) {members members' : List (List Token)}
    (h : ApartInOne (Inside p) members members') (orders : List (List Token)) :
    Inside p (nativeTokens operator members orders)
      (EntityQuery.nativeTokens operator members' orders) :=
  (joined _ h).append _

end Inside

theorem RenderContext.agree_invocation {args args' : Except QueryError (List (List Token))}
    (h : Agree True (ApartInOne (Inside p)) args args') (ctx : RenderContext) (name : String)
    (count : Nat) :
    Agree True (Inside p) (ctx.invocation name count args) (ctx.invocation name count args') := by
  rw [invocation, invocation]
  split
  · exact h.bind fun _ _ hargs => .ok (((Inside.joined _ hargs).append _).prepend [_])
  · split
    · exact h.bind fun _ _ hargs => .ok ((Inside.joined _ (hargs.cons _)).parenthesized.prepend [_])
    · exact Agree.error_same _

namespace FunctionForm

/-- Function forms that are written alike but for something inside. -/
def Apart (p : List Token → List Token → Prop) (ctx : RenderContext) (form form' : FunctionForm) :
    Prop :=
  Agree True (Inside p) (form.tokens ctx) (form'.tokens ctx)

variable {ctx : RenderContext} {form form' : FunctionForm}

theorem apart_call (function : String) {args args' : List FunctionForm}
    (h : ApartInOne (Apart p ctx) args args') :
    Apart p ctx (call function args) (call function args') := by
  rw [Apart, tokens, tokens, tokensList_eq_mapM, tokensList_eq_mapM, h.length_eq]
  exact ctx.agree_invocation (.mapM_one h) _ _

theorem Apart.limited (h : Apart p ctx form form') (limits : Limits) :
    Agree True (Apart p ctx) (form.limited limits) (form'.limited limits) := by
  unfold FunctionForm.limited
  split
  · exact .ok h
  · exact Agree.error_same _
  · exact .ok (apart_call _ (.head h _))
  · exact .ok (apart_call _ (.head h _))

theorem apart_combined (operator : SetOperator) {members members' : List FunctionForm}
    (h : ApartInOne (Apart p ctx) members members') (orders : List (List Token)) (limits : Limits) :
    Apart p ctx (combined operator members orders limits)
      (combined operator members' orders limits) :=
  apart_call _ ((h.append _).append _)

end FunctionForm

/-- Set operations that differ in one of the queries that they combine. -/
inductive SetOperation.Apart (r : Query → Query → Prop) : SetOperation → SetOperation → Prop
  | start (c : SetOperation) {q q' : Query} (h : r q q') :
      Apart r { c with start := q } { c with start := q' }
  | operand (c : SetOperation) {op : SetOperator} (hop : c.operator = some op)
      (before after : List Query) {q q' : Query} (h : r q q') :
      Apart r { c with operands := before ++ q :: after }
        { c with operands := before ++ q' :: after }

/-- Queries that are combined alike and have one level in exchange for another. -/
inductive Query.Exchange (s s' : Select) : Query → Query → Prop
  | level : Exchange s s' (.select s) (.select s')
  | start (c : SetOperation) {q q' : Query} (h : Exchange s s' q q') :
      Exchange s s' (.combined { c with start := q }) (.combined { c with start := q' })
  | operand (c : SetOperation) {op : SetOperator} (hop : c.operator = some op)
      (before after : List Query) {q q' : Query} (h : Exchange s s' q q') :
      Exchange s s' (.combined { c with operands := before ++ q :: after })
        (.combined { c with operands := before ++ q' :: after })

namespace SetOperation

variable {ctx : RenderContext} {c c' : SetOperation}

theorem activeOperator_operand {operator : Option SetOperator} {op : SetOperator}
    (hop : operator = some op) (before after : List Query) (q : Query) :
    activeOperator operator (before ++ q :: after) = some op := by
  simp [activeOperator, hop]

theorem agree_memberTokens
    (h : c.Apart (fun q q' => Agree True (Inside p) (q.memberTokens ctx) (q'.memberTokens ctx)) c') :
    Agree True (Inside p) (c.memberTokens ctx) (c'.memberTokens ctx) := by
  rw [memberTokens_eq, memberTokens_eq]
  cases h with
  | start c h =>
      cases activeOperator c.operator c.operands with
      | none =>
          exact h.bind fun _ _ hstart => Agree.bind_of_eq rfl fun orders =>
            .ok (.nativeTokens none (.head hstart []) orders)
      | some op =>
          exact h.bind fun _ _ hstart => Agree.bind_of_eq rfl fun operands =>
            Agree.bind_of_eq rfl fun orders =>
              .ok (.nativeTokens (some op) (.head hstart operands) orders)
  | operand c hop before after h =>
      have hoperands := Agree.mapM_one (f := Query.memberTokens ctx)
        ⟨before, _, _, after, h, rfl, rfl⟩
      simp only [activeOperator_operand hop, Query.memberListTokens_eq_mapM]
      exact Agree.bind_of_eq rfl fun start => hoperands.bind fun _ _ hoperands =>
        Agree.bind_of_eq rfl fun orders => .ok (.nativeTokens _ (hoperands.cons start) orders)

theorem agree_functionForm
    (h : c.Apart (fun q q' => Agree True (FunctionForm.Apart p ctx) (q.functionForm ctx)
      (q'.functionForm ctx)) c') :
    Agree True (FunctionForm.Apart p ctx) (c.functionForm ctx) (c'.functionForm ctx) := by
  rw [functionForm_eq, functionForm_eq]
  cases h with
  | start c h =>
      cases activeOperator c.operator c.operands with
      | none => exact h.bind fun _ _ hstart => hstart.limited c.limits
      | some op =>
          exact h.bind fun _ _ hstart => Agree.bind_of_eq rfl fun operands =>
            Agree.bind_of_eq rfl fun orders =>
              .ok (FunctionForm.apart_combined op (.head hstart operands) orders c.limits)
  | operand c hop before after h =>
      have hoperands := Agree.mapM_one (f := Query.functionForm ctx)
        ⟨before, _, _, after, h, rfl, rfl⟩
      simp only [activeOperator_operand hop, Query.functionForms_eq_mapM]
      exact Agree.bind_of_eq rfl fun start => hoperands.bind fun _ _ hoperands =>
        Agree.bind_of_eq rfl fun orders =>
          .ok (FunctionForm.apart_combined _ (hoperands.cons start) orders c.limits)

theorem agree_rendered_of_active {op : SetOperator}
    (hop : activeOperator c.operator c.operands = some op)
    (hop' : activeOperator c'.operator c'.operands = some op) (hlimits : c'.limits = c.limits)
    (hbetween : c'.writtenBetween ctx = c.writtenBetween ctx)
    (hmember : Agree True (Inside p) (c.memberTokens ctx) (c'.memberTokens ctx))
    (hform : Agree True (FunctionForm.Apart p ctx) (c.functionForm ctx) (c'.functionForm ctx)) :
    Agree True (fun r r' => Inside p r.tokens r'.tokens ∧ r'.limits = r.limits)
      (c.rendered ctx) (c'.rendered ctx) := by
  rw [rendered_of_active hop, rendered_of_active hop', hbetween, hlimits]
  split
  · exact hmember.bind fun _ _ hts => .ok ⟨hts, rfl⟩
  · exact hform.bind fun _ _ hts => hts.bind fun _ _ hts => .ok ⟨hts, rfl⟩

end SetOperation

/-- Levels that are written alike but for what is related, wherever they stand in a query. -/
structure Select.Apart (p : List Token → List Token → Prop) (ctx : RenderContext)
    (s s' : Select) : Prop where
  tokens : Agree True p (s.tokens ctx) (s'.tokens ctx)
  nested : Agree True p (s.tokens ctx.nested) (s'.tokens ctx.nested)
  ordered : s'.orderBy.isEmpty = s.orderBy.isEmpty
  limits : s'.limits = s.limits
  markers : s'.markers = s.markers

namespace Query.Exchange

variable {ctx : RenderContext} {s s' : Select} {q q' : Query}

theorem limitedAnywhere (h : Exchange s s' q q') (hs : s.Apart p ctx s') :
    q'.limitedAnywhere = q.limitedAnywhere := by
  induction h with
  | level => rw [Query.limitedAnywhere, Query.limitedAnywhere, hs.limits]
  | start c h ih =>
      rw [Query.limitedAnywhere, Query.limitedAnywhere, SetOperation.limitedAnywhere_eq,
        SetOperation.limitedAnywhere_eq, ih]
  | operand c hop before after h ih =>
      rw [Query.limitedAnywhere, Query.limitedAnywhere, SetOperation.limitedAnywhere_eq,
        SetOperation.limitedAnywhere_eq]
      simp only [anyLimited_eq_any, List.any_append, List.any_cons, ih]

theorem markers (h : Exchange s s' q q') (hs : s.Apart p ctx s') : q'.markers = q.markers := by
  induction h with
  | level => rw [Query.markers, Query.markers, hs.markers]
  | start c h ih =>
      rw [Query.markers, Query.markers, SetOperation.markers_eq, SetOperation.markers_eq, ih]
  | operand c hop before after h ih =>
      rw [Query.markers, Query.markers, SetOperation.markers_eq, SetOperation.markers_eq]
      simp only [List.flatMap_append, List.flatMap_cons, ih]

theorem agree_memberTokens (h : Exchange s s' q q') (hs : s.Apart p ctx s') :
    Agree True (Inside p) (q.memberTokens ctx) (q'.memberTokens ctx) := by
  induction h with
  | level =>
      rw [Query.memberTokens, Query.memberTokens, hs.ordered]
      refine hs.nested.bind fun ts ts' hts => .ok ?_
      split
      · exact .of hts
      · exact (Inside.of hts).parenthesized
  | start c h ih =>
      rw [Query.memberTokens, Query.memberTokens]
      exact (SetOperation.agree_memberTokens (.start c ih)).bind fun _ _ hts =>
        .ok hts.parenthesized
  | operand c hop before after h ih =>
      rw [Query.memberTokens, Query.memberTokens]
      exact (SetOperation.agree_memberTokens (.operand c hop before after ih)).bind
        fun _ _ hts => .ok hts.parenthesized

theorem agree_functionForm (h : Exchange s s' q q') (hs : s.Apart p ctx s') :
    Agree True (FunctionForm.Apart p ctx) (q.functionForm ctx) (q'.functionForm ctx) := by
  induction h with
  | level =>
      rw [Query.functionForm, Query.functionForm, hs.limits]
      refine hs.nested.bind fun ts ts' hts => FunctionForm.Apart.limited ?_ s.limits
      rw [FunctionForm.Apart, FunctionForm.tokens, FunctionForm.tokens]
      exact .ok (Inside.of hts).parenthesized
  | start c h ih => exact SetOperation.agree_functionForm (.start c ih)
  | operand c hop before after h ih =>
      exact SetOperation.agree_functionForm (.operand c hop before after ih)

/-- What is written of the queries, and the limits that it does not carry. -/
theorem agree_rendered (h : Exchange s s' q q') (hs : s.Apart p ctx s') :
    Agree True (fun r r' => Inside p r.tokens r'.tokens ∧ r'.limits = r.limits)
      (q.rendered ctx) (q'.rendered ctx) := by
  induction h with
  | level =>
      rw [Query.rendered, Query.rendered, hs.limits]
      exact hs.tokens.bind fun _ _ hts => .ok ⟨.of hts, rfl⟩
  | start c h ih =>
      rw [Query.rendered, Query.rendered]
      cases hactive : SetOperation.activeOperator c.operator c.operands with
      | none =>
          -- Nothing is combined: the start is the statement itself, prefix and limits included.
          rw [SetOperation.rendered_eq, SetOperation.rendered_eq]
          simp only [hactive]
          refine ih.bind fun r r' hr => .ok ⟨hr.1, ?_⟩
          exact congrArg c.limits.override hr.2
      | some op =>
          refine SetOperation.agree_rendered_of_active hactive hactive rfl ?_
            (SetOperation.agree_memberTokens (.start c (h.agree_memberTokens hs)))
            (SetOperation.agree_functionForm (.start c (h.agree_functionForm hs)))
          rw [SetOperation.writtenBetween, SetOperation.writtenBetween, h.limitedAnywhere hs]
  | operand c hop before after h ih =>
      rw [Query.rendered, Query.rendered]
      have hactive := SetOperation.activeOperator_operand hop before after
      refine SetOperation.agree_rendered_of_active (hactive _) (hactive _) rfl ?_
        (SetOperation.agree_memberTokens (.operand c hop before after (h.agree_memberTokens hs)))
        (SetOperation.agree_functionForm (.operand c hop before after (h.agree_functionForm hs)))
      simp only [SetOperation.writtenBetween, anyLimited_eq_any, List.any_append, List.any_cons,
        h.limitedAnywhere hs]

/-- The statements that the queries are, as texts. -/
theorem agree_render (h : Exchange s s' q q') (hs : s.Apart p ctx s') :
    Agree True (fun r r' => ∃ ts ts', Inside p ts ts' ∧ r.text = tokensText ctx.dialect ts ∧
        r' = { r with text := tokensText ctx.dialect ts' })
      ((Statement.select q).render ctx) ((Statement.select q').render ctx) := by
  have hparameters : (Statement.select q').parameters = (Statement.select q).parameters := by
    rw [Statement.parameters, Statement.parameters, Statement.markers, Statement.markers,
      h.markers hs]
  rw [Statement.render, Statement.render, hparameters]
  refine (h.agree_rendered hs).bind fun r r' hr => .ok ⟨r.tokens, r'.tokens, hr.1, rfl, ?_⟩
  rw [hr.2]
  rfl

end Query.Exchange

end EntityQuery
