import Mathlib
import EntityQuery.Proofs.Written.Pieces

/-!
The limits in a text. A limited query inside a statement is written as a call, and so is a set
operation that the dialect does not write between its queries. The last arguments of that call are
the limits, as signed integers with the same bits. So what the text says is the limit itself as
long as it is less than half of what its type holds, and a negative number otherwise.
-/

namespace EntityQuery

open Token (Within joined comma)

/-- The queries that the call of a query stands for: the query itself and, of a set operation that
combines nothing, its first query. -/
inductive Query.StandsFor : Query → Query → Prop
  | refl (q : Query) : StandsFor q q
  | first {c : SetOperation} {r : Query}
      (hinactive : SetOperation.activeOperator c.operator c.operands = none)
      (h : StandsFor c.start r) : StandsFor (.combined c) r

/-- The queries that a statement is written with as calls, if they have limits: those inside it,
and a set operation that the statement itself is, unless it is written between its queries. -/
inductive Statement.Calls (d : Dialect) : Statement → Query → Prop
  | inside {s : Statement} {q r : Query} (hwritten : Written.query q ∈ s.written d)
      (h : q.StandsFor r) : Calls d s r
  | own {q : Query} {c : SetOperation} (h : q.StandsFor (.combined c))
      (hform : c.ownForm d .statement = .argument) : Calls d (.select q) (.combined c)

/-- Whether a text has the call in it that a query becomes. -/
def Query.CalledIn (d : Dialect) (q : Query) (ts : List Token) : Prop :=
  ∃ ctx around form us, ctx.dialect = d ∧ around.dialect = d ∧ q.functionForm ctx = .ok form ∧
    form.tokens around = .ok us ∧ Within us ts

/-- Whether a text has the calls in it of all limited queries that are written of it. -/
def CallsIn (d : Dialect) (written : List Written) (ts : List Token) : Prop :=
  ∀ q, Written.query q ∈ written → q.limitedAnywhere = true → q.CalledIn d ts

namespace Query

theorem CalledIn.within {d : Dialect} {q : Query} {us ts : List Token} (h : q.CalledIn d us)
    (hus : Within us ts) : q.CalledIn d ts := by
  obtain ⟨ctx, around, form, vs, hctx, haround, hform, hvs, hwithin⟩ := h
  exact ⟨ctx, around, form, vs, hctx, haround, hform, hvs, hwithin.trans hus⟩

variable {q r : Query}

/-- A limit is a limit of every query whose call has it. -/
theorem StandsFor.limitedAnywhere (h : q.StandsFor r) (hr : r.limits.any = true) :
    q.limitedAnywhere = true := by
  induction h with
  | refl q =>
      cases q with
      | select s => exact hr
      | combined c =>
          rw [Query.limitedAnywhere, SetOperation.limitedAnywhere_eq]
          simp only [Query.limits] at hr
          rw [hr, Bool.true_or, Bool.true_or]
  | first _ _ ih =>
      rw [Query.limitedAnywhere, SetOperation.limitedAnywhere_eq, ih hr, Bool.or_true,
        Bool.true_or]

/-- The function form of a query has in it those of all queries that it stands for. -/
theorem StandsFor.functionForm {ctx : RenderContext} (h : q.StandsFor r) {whole : FunctionForm}
    (hwhole : q.functionForm ctx = .ok whole) :
    ∃ part, r.functionForm ctx = .ok part ∧ part.Within whole := by
  induction h generalizing whole with
  | refl q => exact ⟨whole, hwhole, .refl⟩
  | first hinactive _ ih =>
      rw [Query.functionForm] at hwhole
      obtain ⟨start, hstart, hlimited⟩ :=
        (SetOperation.functionForm_of_inactive hinactive).1 hwhole
      obtain ⟨part, hpart, hwithin⟩ := ih hstart
      exact ⟨part, hpart, hwithin.limited hlimited⟩

theorem StandsFor.calledIn {d : Dialect} {ts : List Token} (h : q.StandsFor r)
    (hq : q.CalledIn d ts) : r.CalledIn d ts := by
  obtain ⟨ctx, around, form, us, hctx, haround, hform, hus, hwithin⟩ := hq
  obtain ⟨part, hpart, hinside⟩ := h.functionForm hform
  obtain ⟨vs, hvs, hpiece⟩ := hinside.tokens hus
  exact ⟨ctx, around, part, vs, hctx, haround, hpart, hvs, hpiece.trans hwithin⟩

end Query

namespace CallsIn

variable {d : Dialect} {a b : List Written} {us ts : List Token}

theorem append (h : CallsIn d a ts) (h' : CallsIn d b ts) : CallsIn d (a ++ b) ts := by
  intro q hq
  rcases List.mem_append.1 hq with hq | hq
  · exact h q hq
  · exact h' q hq

theorem query {q : Query} (h : CallsIn d a ts) (hq : q.limitedAnywhere = true → q.CalledIn d ts) :
    CallsIn d (.query q :: a) ts := by
  intro r hr
  rcases List.mem_cons.1 hr with hr | hr
  · cases hr
    exact hq
  · exact h r hr

theorem within (h : CallsIn d a us) (hus : Within us ts) : CallsIn d a ts :=
  fun q hq hlimited => (h q hq hlimited).within hus

theorem flatMap {α : Type} {as : List α} {f : α → List Written}
    (h : ∀ x ∈ as, CallsIn d (f x) ts) : CallsIn d (as.flatMap f) ts := by
  intro q hq
  obtain ⟨x, hx, hq⟩ := List.mem_flatMap.1 hq
  exact h x hx q hq

end CallsIn

/-- Whether an expression has the calls in its text of all limited queries that are written of
it. -/
def Expr.KeepsCalls (e : Expr) : Prop :=
  ∀ (l : Level) (position : Position) (ts : List Token), e.tokens l position = .ok ts →
    CallsIn l.context.dialect (e.written l.context.dialect) ts

/-- Whether a query has them in each of its forms. Between operators nothing is limited. -/
structure Query.KeepsCalls (q : Query) : Prop where
  rendered : ∀ ctx r, q.rendered ctx = .ok r →
    CallsIn ctx.dialect (q.written ctx.dialect .statement) r.tokens
  memberTokens : ∀ ctx ts, q.limitedAnywhere = false → q.memberTokens ctx = .ok ts →
    CallsIn ctx.dialect (q.written ctx.dialect .between) ts
  functionForm : ∀ ctx around form ts, around.dialect = ctx.dialect →
    q.functionForm ctx = .ok form → form.tokens around = .ok ts →
      CallsIn ctx.dialect (q.written ctx.dialect .argument) ts
  subqueryTokens : ∀ ctx around ts, around.dialect = ctx.dialect →
    q.subqueryTokens ctx around = .ok ts →
      CallsIn ctx.dialect (.query q :: q.written ctx.dialect .argument) ts

def CteBody.KeepsCalls (b : CteBody) : Prop :=
  ∀ ctx entity ts, b.tokens ctx entity = .ok ts → CallsIn ctx.dialect (b.written ctx.dialect) ts

/-- What expressions keep is kept by a text that they are written in. -/
theorem Level.Holds.callsIn {l : Level} {es : List Expr} {ts : List Token} (h : l.Holds es ts)
    (hes : ∀ e ∈ es, e.KeepsCalls) :
    CallsIn l.context.dialect (es.flatMap (Expr.written l.context.dialect)) ts := by
  refine CallsIn.flatMap fun e he q hq => ?_
  have hliteral : ∀ v, e ≠ .literal v := by
    rintro v rfl
    cases hq
  obtain ⟨us, ⟨position, hus⟩, hwithin⟩ := h e he hliteral
  exact (hes e he l position us hus).within hwithin q hq

theorem Expr.keepsCalls_of_parts {e : Expr} (hparameter : ∀ p, e ≠ .parameter p)
    (hsubquery : ∀ q, e ≠ .subquery q) (h : ∀ child ∈ e.writtenChildren, child.KeepsCalls) :
    e.KeepsCalls := by
  intro l position ts hts
  rw [written_eq l.context.dialect hparameter hsubquery]
  exact (holds_writtenChildren hparameter hsubquery hts).callsIn h

namespace Select

variable {s : Select} (parts : s.Parts Expr.KeepsCalls CteBody.KeepsCalls)
include parts

theorem callsIn_tokens {ctx : RenderContext} {ts : List Token} (h : s.tokens ctx = .ok ts) :
    CallsIn ctx.dialect (s.written ctx.dialect) ts := by
  obtain ⟨hbodies, hparts⟩ := holds_tokens h
  rw [written_eq]
  refine CallsIn.append (CallsIn.flatMap fun c hc => ?_) (hparts.callsIn parts.of_writtenParts)
  obtain ⟨body, hbody, hwithin⟩ := hbodies c hc
  exact (parts.ctes c hc ctx.nested c.entity body hbody).within hwithin

/-- As a call, a query level stands in parentheses among the arguments. -/
theorem callsIn_functionForm {ctx around : RenderContext} {form : FunctionForm} {ts : List Token}
    (hform : (Query.select s).functionForm ctx = .ok form) (hts : form.tokens around = .ok ts) :
    CallsIn ctx.dialect (s.written ctx.dialect) ts := by
  rw [Query.functionForm] at hform
  obtain ⟨level, hlevel, hform⟩ := bind_eq_ok.1 hform
  have hinside : (FunctionForm.level (Token.parenthesized level)).Within form :=
    FunctionForm.Within.refl.limited hform
  obtain ⟨us, hus, hwithin⟩ := hinside.tokens hts
  rw [FunctionForm.tokens, Except.ok.injEq] at hus
  rw [← hus] at hwithin
  have hcalls := callsIn_tokens parts hlevel
  exact hcalls.within (Within.refl.parenthesized.trans hwithin)

theorem keepsCalls : (Query.select s).KeepsCalls where
  rendered ctx r hr := by
    rw [Query.rendered] at hr
    simp only [bind_eq_ok, pure_eq_ok] at hr
    obtain ⟨ts, hts, rfl⟩ := hr
    exact callsIn_tokens parts hts
  memberTokens ctx ts _ hts := by
    rw [Query.memberTokens] at hts
    simp only [bind_eq_ok, pure_eq_ok] at hts
    obtain ⟨level, hlevel, rfl⟩ := hts
    have hcalls := callsIn_tokens parts hlevel
    split
    · exact hcalls
    · exact hcalls.within Within.refl.parenthesized
  functionForm ctx around form ts _ hform hts := callsIn_functionForm parts hform hts
  subqueryTokens ctx around ts haround hts := by
    rw [Query.subqueryTokens] at hts
    split at hts
    next =>
      obtain ⟨level, hlevel, hts⟩ := bind_eq_ok.1 hts
      obtain ⟨form, hlimited, hts⟩ := bind_eq_ok.1 hts
      have hform : (Query.select s).functionForm ctx = .ok form := by
        rw [Query.functionForm]
        exact bind_eq_ok.2 ⟨level, hlevel, hlimited⟩
      exact (callsIn_functionForm parts hform hts).query fun _ =>
        ⟨ctx, around, form, ts, rfl, haround, hform, hts, .refl⟩
    next hunlimited =>
      exact (callsIn_tokens parts hts).query fun hlimited => absurd hlimited hunlimited

end Select

namespace SetOperation

variable {c : SetOperation} (parts : c.Parts Expr.KeepsCalls Query.KeepsCalls)
include parts

theorem callsIn_memberTokens {ctx : RenderContext} {ts : List Token}
    (hunlimited : ∀ q ∈ c.members, q.limitedAnywhere = false) (h : c.memberTokens ctx = .ok ts) :
    CallsIn ctx.dialect (c.written ctx.dialect .between) ts := by
  cases hactive : activeOperator c.operator c.operands with
  | none =>
      obtain ⟨start, orders, hstart, horders, rfl⟩ := (memberTokens_of_inactive hactive).1 h
      have hinside := parts.start.memberTokens ctx start (hunlimited _ List.mem_cons_self) hstart
      have horder := (OrderItem.holds_resultTokens horders fun us hus =>
        Within.refl.nativeTokens_order hus none [start]).callsIn (List.forall_mem_map.2 parts.orderBy)
      rw [written_of_inactive ctx.dialect .between hactive, if_pos rfl]
      exact (hinside.within (Within.refl.nativeTokens_member List.mem_cons_self none orders)).append
        horder
  | some op =>
      obtain ⟨members, orders, hall, horders, rfl⟩ := (memberTokens_of_active hactive).1 h
      have horder := (OrderItem.holds_resultTokens horders fun us hus =>
        Within.refl.nativeTokens_order hus (some op) members).callsIn
          (List.forall_mem_map.2 parts.orderBy)
      rw [written_of_active ctx.dialect .between hactive]
      refine CallsIn.append (CallsIn.flatMap fun q hq => ?_) horder
      obtain ⟨member, hmember, htokens⟩ := exists_of_mem_forall₂ hall.flip hq
      have hinside := (parts.members q hq).memberTokens ctx member (hunlimited q hq) htokens
      refine (hinside.within (Within.refl.nativeTokens_member hmember (some op) orders)).query ?_
      intro hlimited
      rw [hunlimited q hq] at hlimited
      cases hlimited

theorem callsIn_functionForm {ctx around : RenderContext} {form : FunctionForm} {ts : List Token}
    (haround : around.dialect = ctx.dialect) (hform : c.functionForm ctx = .ok form)
    (hts : form.tokens around = .ok ts) :
    CallsIn ctx.dialect (c.written ctx.dialect .argument) ts := by
  cases hactive : activeOperator c.operator c.operands with
  | none =>
      obtain ⟨start, hstart, hlimited⟩ := (functionForm_of_inactive hactive).1 hform
      obtain ⟨us, hus, hwithin⟩ := (FunctionForm.Within.refl.limited hlimited).tokens hts
      have hinside := parts.start.functionForm ctx around start us haround hstart hus
      rw [written_of_inactive ctx.dialect .argument hactive, if_neg (by simp), List.append_nil]
      exact hinside.within hwithin
  | some op =>
      obtain ⟨members, orders, hall, horders, rfl⟩ := (functionForm_of_active hactive).1 hform
      have horder := (OrderItem.holds_resultTokens horders (FunctionForm.within_order hts)).callsIn
        (List.forall_mem_map.2 parts.orderBy)
      rw [written_of_active ctx.dialect .argument hactive]
      refine CallsIn.append (CallsIn.flatMap fun q hq => ?_) horder
      obtain ⟨member, hmember, hmemberForm⟩ := exists_of_mem_forall₂ hall.flip hq
      have hargument : member.Within (FunctionForm.combined op members orders c.limits) :=
        FunctionForm.Within.refl.combined hmember op orders c.limits
      obtain ⟨us, hus, hwithin⟩ := hargument.tokens hts
      have hinside := (parts.members q hq).functionForm ctx around member us haround hmemberForm hus
      exact (hinside.within hwithin).query fun _ =>
        ⟨ctx, around, member, us, rfl, haround, hmemberForm, hus, hwithin⟩

theorem callsIn_rendered {ctx : RenderContext} {r : RenderedLevel} (h : c.rendered ctx = .ok r) :
    CallsIn ctx.dialect (c.written ctx.dialect .statement) r.tokens := by
  cases hactive : activeOperator c.operator c.operands with
  | none =>
      rw [rendered_eq, hactive] at h
      simp only [bind_eq_ok, pure_eq_ok] at h
      obtain ⟨inner, hinner, rfl⟩ := h
      rw [written_of_inactive ctx.dialect .statement hactive, if_neg (by simp), List.append_nil]
      exact parts.start.rendered ctx inner hinner
  | some op =>
      rw [rendered_of_active hactive] at h
      rw [written_statement ctx hactive]
      split at h
      next hbetween =>
        simp only [bind_eq_ok, pure_eq_ok] at h
        obtain ⟨ts, hts, rfl⟩ := h
        rw [if_pos hbetween]
        exact callsIn_memberTokens parts (unlimited_of_writtenBetween hbetween) hts
      next hbetween =>
        simp only [bind_eq_ok, pure_eq_ok] at h
        obtain ⟨form, hform, ts, hts, rfl⟩ := h
        rw [if_neg hbetween]
        exact callsIn_functionForm parts rfl hform hts

theorem keepsCalls : (Query.combined c).KeepsCalls where
  rendered ctx r hr := by
    rw [Query.rendered] at hr
    exact callsIn_rendered parts hr
  memberTokens ctx ts hunlimited hts := by
    rw [Query.limitedAnywhere] at hunlimited
    rw [Query.memberTokens] at hts
    simp only [bind_eq_ok, pure_eq_ok] at hts
    obtain ⟨written, hwritten, rfl⟩ := hts
    have hcalls := callsIn_memberTokens parts (unlimited_of_limitedAnywhere hunlimited).2 hwritten
    exact hcalls.within Within.refl.parenthesized
  functionForm ctx around form ts haround hform hts := by
    rw [Query.functionForm] at hform
    exact callsIn_functionForm parts haround hform hts
  subqueryTokens ctx around ts haround hts := by
    rw [Query.subqueryTokens] at hts
    obtain ⟨form, hform, hts⟩ := bind_eq_ok.1 hts
    have hcalls := callsIn_functionForm parts haround hform hts
    exact hcalls.query fun _ => ⟨ctx, around, form, ts, rfl, haround, by rwa [Query.functionForm],
      hts, .refl⟩

end SetOperation

theorem hereditary_keepsCalls :
    Hereditary Expr.KeepsCalls Query.KeepsCalls CteBody.KeepsCalls where
  path p :=
    Expr.keepsCalls_of_parts (by simp) (by simp) (by simp [Expr.writtenChildren, Expr.children])
  literal v :=
    Expr.keepsCalls_of_parts (by simp) (by simp) (by simp [Expr.writtenChildren, Expr.children])
  parameter p l position ts _ q hq _ := by simp [Expr.written] at hq
  call f args hargs := Expr.keepsCalls_of_parts (by simp) (by simp) hargs
  aggregate f args d hargs := Expr.keepsCalls_of_parts (by simp) (by simp) hargs
  subquery q hq l position ts hts := by
    rw [Expr.tokens] at hts
    simp only [bind_eq_ok, pure_eq_ok] at hts
    obtain ⟨written, hwritten, rfl⟩ := hts
    have hdialect := RenderContext.dialect_correlated l.context l.aliases
    have hcalls := hq.subqueryTokens _ l.context written hdialect.symm hwritten
    rw [hdialect] at hcalls
    exact hcalls.within Within.refl.parenthesized
  indexed base index _ :=
    Expr.keepsCalls_of_parts (by simp) (by simp) (by simp [Expr.writtenChildren])
  null :=
    Expr.keepsCalls_of_parts (by simp) (by simp) (by simp [Expr.writtenChildren, Expr.children])
  caseWhen operand branches otherwise hoperand hbranches hotherwise := by
    refine Expr.keepsCalls_of_parts (by simp) (by simp) ?_
    simp only [Expr.writtenChildren, Expr.children, List.forall_mem_append, Option.mem_toList]
    exact ⟨⟨hoperand, forall_mem_pairs hbranches⟩, hotherwise⟩
  binary left op right hleft hright :=
    Expr.keepsCalls_of_parts (by simp) (by simp) (by simp [Expr.writtenChildren, Expr.children, *])
  not e he :=
    Expr.keepsCalls_of_parts (by simp) (by simp) (by simp [Expr.writtenChildren, Expr.children, *])
  isNull e negated he :=
    Expr.keepsCalls_of_parts (by simp) (by simp) (by simp [Expr.writtenChildren, Expr.children, *])
  like e pattern escape negated he hpattern :=
    Expr.keepsCalls_of_parts (by simp) (by simp) (by simp [Expr.writtenChildren, Expr.children, *])
  oneOf e values negated he hvalues := by
    refine Expr.keepsCalls_of_parts (by simp) (by simp) ?_
    rw [Expr.writtenChildren]
    split
    · simp
    · exact List.forall_mem_cons.2 ⟨he, hvalues⟩
  between e low high negated he hlow hhigh :=
    Expr.keepsCalls_of_parts (by simp) (by simp) (by simp [Expr.writtenChildren, Expr.children, *])
  parens e he :=
    Expr.keepsCalls_of_parts (by simp) (by simp) (by simp [Expr.writtenChildren, Expr.children, *])
  verbatim s :=
    Expr.keepsCalls_of_parts (by simp) (by simp) (by simp [Expr.writtenChildren, Expr.children])
  select s parts := Select.keepsCalls parts
  combined c parts := SetOperation.keepsCalls parts
  query q hq ctx entity ts hts := by
    rw [CteBody.tokens] at hts
    split at hts
    · cases hts
    · simp only [bind_eq_ok, pure_eq_ok] at hts
      obtain ⟨r, hr, rfl⟩ := hts
      exact hq.rendered ctx r hr
  update u hassignments hcondition ctx entity ts hts := by
    rw [CteBody.tokens] at hts
    rw [CteBody.written, Update.written_eq]
    refine (Update.holds_tokens hts).callsIn (List.forall_mem_append.2 ⟨?_, ?_⟩)
    · exact forall_mem_pairs hassignments
    · simpa using hcondition
  collectionDelete c hcondition ctx entity ts hts := by
    rw [CteBody.tokens] at hts
    rw [CteBody.written, CollectionDelete.written_eq]
    exact (CollectionDelete.holds_tokens hts).callsIn (by simpa using hcondition)

namespace Query

variable {q r : Query}

/-- A set operation whose statement is a call is that call, however many operations that combine
nothing stand around it. -/
theorem StandsFor.calledIn_rendered {ctx : RenderContext} (h : q.StandsFor r) {c : SetOperation}
    (hr : r = .combined c) (hform : c.ownForm ctx.dialect .statement = .argument)
    {level : RenderedLevel} (hlevel : q.rendered ctx = .ok level) :
    r.CalledIn ctx.dialect level.tokens := by
  induction h generalizing level with
  | refl q =>
      subst hr
      rw [rendered] at hlevel
      cases hactive : SetOperation.activeOperator c.operator c.operands with
      | none => simp [SetOperation.ownForm, hactive] at hform
      | some op =>
          have hbetween : ¬c.writtenBetween ctx = true := by
            intro hbetween
            have hown : c.ownForm ctx.dialect .statement = .between := by
              rw [SetOperation.ownForm, hactive]
              exact if_pos hbetween
            rw [hown] at hform
            cases hform
          rw [SetOperation.rendered_of_active hactive, if_neg hbetween] at hlevel
          simp only [bind_eq_ok, pure_eq_ok] at hlevel
          obtain ⟨form, hcall, ts, hts, rfl⟩ := hlevel
          exact ⟨ctx, ctx, form, ts, rfl, rfl, by rwa [Query.functionForm], hts, .refl⟩
  | first hinactive _ ih =>
      rw [rendered, SetOperation.rendered_eq, hinactive] at hlevel
      simp only [bind_eq_ok, pure_eq_ok] at hlevel
      obtain ⟨inner, hinner, rfl⟩ := hlevel
      have hcalled := ih hr hinner
      exact hcalled

end Query

theorem Statement.callsIn_rendered {s : Statement} {ctx : RenderContext} {level : RenderedLevel}
    (h : s.rendered ctx = .ok level) :
    CallsIn ctx.dialect (s.written ctx.dialect) level.tokens := by
  have hexpr (e : Expr) : e.KeepsCalls := hereditary_keepsCalls.expr e
  cases s with
  | select q => exact (hereditary_keepsCalls.queries q).rendered ctx level h
  | update u =>
      simp only [rendered, bind_eq_ok, pure_eq_ok] at h
      obtain ⟨ts, hts, rfl⟩ := h
      rw [written, Update.written_eq]
      exact (Update.holds_tokens hts).callsIn fun e _ => hexpr e
  | delete deletion =>
      simp only [rendered, bind_eq_ok, pure_eq_ok] at h
      obtain ⟨ts, hts, rfl⟩ := h
      rw [written, Delete.written_eq]
      exact (Delete.holds_tokens hts).callsIn fun e _ => hexpr e
  | collectionDelete deletion =>
      simp only [rendered, bind_eq_ok, pure_eq_ok] at h
      obtain ⟨ts, hts, rfl⟩ := h
      rw [written, CollectionDelete.written_eq]
      exact (CollectionDelete.holds_tokens hts).callsIn fun e _ => hexpr e

/-- Every limited query that a statement calls a function for has its call in the text. -/
theorem Statement.Calls.calledIn {s : Statement} {ctx : RenderContext} {q : Query}
    (h : s.Calls ctx.dialect q) (hlimited : q.limits.any = true) {level : RenderedLevel}
    (hlevel : s.rendered ctx = .ok level) : q.CalledIn ctx.dialect level.tokens := by
  cases h with
  | inside hwritten h =>
      have hcalls := callsIn_rendered hlevel
      exact h.calledIn (hcalls _ hwritten (h.limitedAnywhere hlimited))
  | own h hform => exact h.calledIn_rendered rfl hform hlevel

/-- The numbers of limits, in the order in which they are stated. -/
def Limits.numbers (limits : Limits) : List UInt64 := limits.max.toList ++ limits.first.toList

namespace Query

/-- The last arguments of the call of a limited query: its limits, each after a word that announces
it if queries are combined. -/
def stated {α : Type} (word : String → α) (number : UInt64 → α) (q : Query) : List α :=
  match q with
  | .select s => s.limits.numbers.map number
  | .combined c =>
      match SetOperation.activeOperator c.operator c.operands with
      | none => c.limits.numbers.map number
      | some _ =>
          (c.limits.max.toList.flatMap fun n => [word "LIMIT", number n])
            ++ c.limits.first.toList.flatMap fun n => [word "OFFSET", number n]

section Stated

variable {α β : Type} (word : String → α) (number number' : UInt64 → α) (q : Query)

/-- Limits are stated the same way, whatever stands for words and numbers. -/
theorem forall₂_stated {R : α → β → Prop} {word : String → α} {number : UInt64 → α}
    {word' : String → β} {number' : UInt64 → β} (hword : ∀ s, R (word s) (word' s))
    (hnumber : ∀ n, R (number n) (number' n)) (q : Query) :
    List.Forall₂ R (q.stated word number) (q.stated word' number') := by
  have hnumbers (ns : List UInt64) : List.Forall₂ R (ns.map number) (ns.map number') := by
    simp [List.forall₂_map_left_iff, List.forall₂_map_right_iff, List.forall₂_same, hnumber]
  cases q with
  | select s => exact hnumbers s.limits.numbers
  | combined c =>
      cases hactive : SetOperation.activeOperator c.operator c.operands with
      | none =>
          simp only [stated, hactive]
          exact hnumbers c.limits.numbers
      | some op =>
          simp only [stated, hactive]
          cases c.limits.max <;> cases c.limits.first <;> simp [hword, hnumber]

theorem map_stated (f : α → β) :
    (q.stated word number).map f = q.stated (f ∘ word) (f ∘ number) := by
  unfold stated
  split
  · exact List.map_map
  · split
    · exact List.map_map
    · simp [List.map_append, List.map_flatMap]

theorem stated_eq_iff :
    q.stated word number = q.stated word number' ↔
      ∀ n ∈ q.limits.numbers, number n = number' n := by
  unfold stated
  split
  · exact List.map_inj_left
  · rename_i c
    split
    · exact List.map_inj_left
    · rw [limits, Limits.numbers]
      cases c.limits.max <;> cases c.limits.first <;> simp

end Stated

/-- A limited query is a call that ends with its limits. -/
theorem exists_call_of_functionForm {ctx : RenderContext} {q : Query} {form : FunctionForm}
    (h : q.functionForm ctx = .ok form) (hlimited : q.limits.any = true) :
    ∃ function inner, inner ≠ [] ∧
      form = .call function (inner ++ q.stated FunctionForm.word FunctionForm.number) := by
  have hlimit {inner limitedForm : FunctionForm} {limits : Limits} (hany : limits.any = true)
      (h : FunctionForm.limited inner limits = .ok limitedForm) :
      limitedForm = .call "LIMIT" ([inner] ++ limits.numbers.map FunctionForm.number) := by
    obtain ⟨first, max⟩ := limits
    cases max <;> cases first <;> cases h
    · cases hany
    · rfl
    · rfl
  cases q with
  | select s =>
      rw [functionForm] at h
      obtain ⟨level, -, h⟩ := bind_eq_ok.1 h
      exact ⟨"LIMIT", [.level (Token.parenthesized level)], by simp, hlimit hlimited h⟩
  | combined c =>
      rw [functionForm] at h
      cases hactive : SetOperation.activeOperator c.operator c.operands with
      | none =>
          obtain ⟨start, -, h⟩ := (SetOperation.functionForm_of_inactive hactive).1 h
          refine ⟨"LIMIT", [start], by simp, (hlimit hlimited h).trans ?_⟩
          simp only [stated, hactive, limits]
      | some op =>
          obtain ⟨members, orders, hall, -, rfl⟩ :=
            (SetOperation.functionForm_of_active hactive).1 h
          have hne : members ++ FunctionForm.orderArguments orders ≠ [] := by
            cases hall
            simp
          have hlimits : FunctionForm.limitArguments c.limits =
              (Query.combined c).stated FunctionForm.word FunctionForm.number := by
            simp only [stated, hactive, FunctionForm.limitArguments]
            cases c.limits.max <;> cases c.limits.first <;> rfl
          refine ⟨op.marker, members ++ FunctionForm.orderArguments orders, hne, ?_⟩
          rw [FunctionForm.combined, hlimits]

end Query

/-- Tokens as the last arguments of a call. -/
def Token.closing (arguments : List Token) : List Token :=
  arguments.flatMap (fun argument => [comma, argument]) ++ [.mark .closeParen]

/-- A call ends with the last of its arguments. -/
theorem RenderContext.exists_closing_of_invocation {ctx : RenderContext} {name : String}
    {count : Nat} {inner : List (List Token)} {arguments ts : List Token} (hne : inner ≠ [])
    (h : ctx.invocation name count (.ok (inner ++ arguments.map fun t => [t])) = .ok ts) :
    ∃ before, ts = before ++ Token.closing arguments := by
  have hjoined (first : List Token) (rest : List (List Token)) :
      joined [comma] (first :: (rest ++ arguments.map fun t => [t])) ++ [.mark .closeParen] =
        joined [comma] (first :: rest) ++ Token.closing arguments := by
    simp [Token.joined_cons, Token.closing, List.flatMap_map]
  rw [invocation] at h
  split at h
  · simp only [bind_eq_ok, pure_eq_ok, Except.ok.injEq] at h
    obtain ⟨_, rfl, rfl⟩ := h
    obtain ⟨first, rest, rfl⟩ := List.exists_cons_of_ne_nil hne
    rw [List.cons_append, hjoined]
    exact ⟨_ :: joined [comma] (first :: rest), rfl⟩
  · split at h
    · simp only [bind_eq_ok, pure_eq_ok, Except.ok.injEq] at h
      obtain ⟨_, rfl, rfl⟩ := h
      rw [Token.parenthesized, hjoined]
      exact ⟨.function "FUNCTION" :: .mark .openParen :: joined [comma] ([.string name] :: inner),
        rfl⟩
    · cases h

/-- Whether a text has the call of a query in it, with tokens as its last arguments. -/
def Query.CalledWith (d : Dialect) (q : Query) (arguments ts : List Token) : Prop :=
  ∃ ctx around form before, ctx.dialect = d ∧ around.dialect = d ∧
    q.functionForm ctx = .ok form ∧
    form.tokens around = .ok (before ++ Token.closing arguments) ∧
    Within (before ++ Token.closing arguments) ts

/-- The call of a limited query states its limits as signed integers with the same bits. -/
theorem Query.CalledIn.calledWith {d : Dialect} {q : Query} {ts : List Token}
    (h : q.CalledIn d ts) (hlimited : q.limits.any = true) :
    q.CalledWith d (q.stated .string fun n => .integer n.toInt64) ts := by
  obtain ⟨ctx, around, form, us, hctx, haround, hform, hus, hwithin⟩ := h
  obtain ⟨function, inner, hne, rfl⟩ := exists_call_of_functionForm hform hlimited
  have hlimits : (q.stated FunctionForm.word FunctionForm.number).mapM
      (FunctionForm.tokens around) =
        .ok ((q.stated Token.string fun n => .integer n.toInt64).map fun t => [t]) := by
    rw [mapM_eq_ok, List.forall₂_map_right_iff]
    exact forall₂_stated (fun s => by rw [FunctionForm.tokens])
      (fun n => by rw [FunctionForm.tokens]) q
  rw [FunctionForm.tokens, FunctionForm.tokensList_eq_mapM, List.mapM_append, hlimits] at hus
  obtain ⟨_, hargs, -⟩ := RenderContext.infix_invocation hus
  simp only [bind_eq_ok, pure_eq_ok, Except.ok.injEq] at hargs
  obtain ⟨written, hinner, _, rfl, -⟩ := hargs
  rw [hinner] at hus
  have hwritten : written ≠ [] := by
    rintro rfl
    cases mapM_eq_ok.1 hinner
    exact hne rfl
  obtain ⟨before, rfl⟩ := RenderContext.exists_closing_of_invocation hwritten hus
  refine ⟨ctx, around, _, before, hctx, haround, hform, ?_, hwithin⟩
  rw [FunctionForm.tokens, FunctionForm.tokensList_eq_mapM, List.mapM_append, hlimits, hinner]
  exact hus

theorem Limits.signed_iff (limits : Limits) :
    limits.Signed ↔ ∀ n ∈ limits.numbers, toString n.toInt64.toInt = toString n.toNat := by
  have hnumeral (n : UInt64) : toString n.toInt64.toInt = toString n.toNat ↔
      n.toInt64.toInt = n.toNat :=
    Int.repr_inj (b := n.toNat)
  simp only [hnumeral, toInt_toInt64_iff, numbers, Signed, List.forall_mem_append,
    Option.mem_toList, Option.mem_def]

namespace Statement

/-- Every limited query that a statement calls a function for has its call in the text, and the last
arguments of the call are its limits, read as signed numbers. They are the numerals of the limits
exactly if signed integers hold them. -/
theorem limits_stated_iff {s : Statement} {ctx : RenderContext} {r : RenderedQuery} {q : Query}
    (h : s.render ctx = .ok r) (hcalled : s.Calls ctx.dialect q) (hlimited : q.limits.any = true) :
    ∃ level arguments, s.rendered ctx = .ok level ∧
      r.text = tokensText ctx.dialect level.tokens ∧
      q.CalledWith ctx.dialect arguments level.tokens ∧
      arguments.map (Token.text ctx.dialect) =
        q.stated ctx.dialect.capabilities.quoted (fun n => toString n.toInt64.toInt) ∧
      (arguments.map (Token.text ctx.dialect) =
        q.stated ctx.dialect.capabilities.quoted (fun n => toString n.toNat) ↔
          q.limits.Signed) := by
  simp only [render, bind_eq_ok, pure_eq_ok] at h
  obtain ⟨level, hlevel, rfl⟩ := h
  have hcall := (hcalled.calledIn hlimited hlevel).calledWith hlimited
  have htexts : (q.stated Token.string fun n => .integer n.toInt64).map (Token.text ctx.dialect) =
      q.stated ctx.dialect.capabilities.quoted (fun n => toString n.toInt64.toInt) := by
    have hword : Token.text ctx.dialect ∘ Token.string = ctx.dialect.capabilities.quoted := by
      funext s
      simp [Token.text]
    have hnumber : (Token.text ctx.dialect ∘ fun n : UInt64 => .integer n.toInt64) =
        fun n => toString n.toInt64.toInt := by
      funext n
      simp [Token.text]
    rw [Query.map_stated, hword, hnumber]
  refine ⟨level, _, hlevel, rfl, hcall, htexts, ?_⟩
  rw [htexts, Query.stated_eq_iff, Limits.signed_iff]

/-- The first people of a list and the guests. -/
def callers (max : UInt64) : SetOperation where
  operator := some .union
  start := .select { Select.addRoot {} "Person" "q" with limits := { max := some max } }
  operands := [.select (Select.addRoot {} "Guest" "g")]
  orderBy := [⟨.ofPath "name", .asc, none⟩]
  limits := { max := some 10, first := some 20 }

/-- The people on a page of a list. -/
def pagedPeople (max : UInt64) : Statement :=
  .select (.select ((Select.addRoot {} "Person" "p").filter
    (.oneOf (.ofPath "p.id") [.subquery (.combined (callers max))] false)))

theorem limits_stated_iff_pagedPeople :
    (pagedPeople 5).Calls .hibernate (.combined (callers 5)) ∧
      (callers 5).limits.any = true ∧
      ∃ r level arguments, (pagedPeople 5).render { dialect := .hibernate } = .ok r ∧
        (pagedPeople 5).rendered { dialect := .hibernate } = .ok level ∧
        (Query.combined (callers 5)).CalledWith .hibernate arguments level.tokens ∧
        arguments.map (Token.text .hibernate) = ["'LIMIT'", "10", "'OFFSET'", "20"] := by
  have hcalls : (pagedPeople 5).Calls .hibernate (.combined (callers 5)) :=
    .inside (.head _) (.refl _)
  obtain ⟨r, hr⟩ : ∃ r, (pagedPeople 5).render { dialect := .hibernate } = .ok r := ⟨_, rfl⟩
  obtain ⟨level, arguments, hlevel, -, hcall, -, hstated⟩ := limits_stated_iff hr hcalls rfl
  have hsigned : (callers 5).limits.Signed := ⟨by simp [callers], by simp [callers]⟩
  exact ⟨hcalls, rfl, r, level, arguments, hr, hlevel, hcall, hstated.2 hsigned⟩

/-- The greatest limit that there is reads as minus one. -/
theorem not_stated_pagedPeople :
    ¬∀ (s : Statement) (ctx : RenderContext) (r : RenderedQuery) (q : Query),
      s.render ctx = .ok r → s.Calls ctx.dialect q → ∀ n ∈ q.limits.numbers,
        (toString n.toNat).toList <:+: r.text.toList := by
  intro h
  have hcalls : (pagedPeople 18446744073709551615).Calls .hibernate
      (callers 18446744073709551615).start := .inside (.tail _ (.head _)) (.refl _)
  have hnumeral := h _ { dialect := .hibernate } _ _ rfl hcalls 18446744073709551615
    List.mem_cons_self
  have hdigit := hnumeral.subset (a := '8') (by decide)
  revert hdigit
  decide +kernel

end Statement

end EntityQuery
