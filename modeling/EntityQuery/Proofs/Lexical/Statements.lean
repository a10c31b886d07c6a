import EntityQuery.Proofs.Induction
import EntityQuery.Proofs.Lexical.Levels

/-!
The text of a statement is well formed if its names are plain: its literals end, whatever they say,
and its parentheses fit. Every part of a statement is balanced by itself, so the parts may be put
together in any of the forms that a query has.
-/

namespace EntityQuery

open Token (parenthesized spaced listSeparator joined)

/-- An expression with plain names is balanced, wherever it stands. -/
def Expr.Closes (e : Expr) : Prop :=
  ∀ l position, Level.Plain l → (∀ name ∈ e.names, Text.Plain name) →
    Yields (Balanced l.context.dialect) (e.tokens l position)

/-- The forms of a query in a context are balanced. -/
structure Query.BalancedIn (ctx : RenderContext) (q : Query) : Prop where
  rendered : Yields (fun r => Balanced ctx.dialect r.tokens) (q.rendered ctx)
  memberTokens : Yields (Balanced ctx.dialect) (q.memberTokens ctx)
  functionForm : Yields (FunctionForm.Balanced ctx.dialect) (q.functionForm ctx)
  subqueryTokens : ∀ around, around.dialect = ctx.dialect →
    Yields (Balanced ctx.dialect) (q.subqueryTokens ctx around)

/-- A query with plain names is balanced in all its forms. -/
def Query.Closes (q : Query) : Prop :=
  ∀ ctx, RenderContext.Plain ctx → (∀ name ∈ q.names, Text.Plain name) → q.BalancedIn ctx

def CteBody.Closes (b : CteBody) : Prop :=
  ∀ ctx entity, RenderContext.Plain ctx → (∀ name ∈ b.names, Text.Plain name) →
    Yields (Balanced ctx.dialect) (b.tokens ctx entity)

section Lists

variable {l : Level} (hl : l.Plain)
include hl

theorem Expr.listTokens_balanced {es : List Expr} (h : ∀ e ∈ es, e.Closes)
    (hnames : ∀ name ∈ namesList es, Text.Plain name) :
    Yields (fun tss => ∀ ts ∈ tss, Balanced l.context.dialect ts) (listTokens l es) := by
  rw [namesList_eq, List.forall_mem_flatMap] at hnames
  rw [listTokens_eq_mapM]
  exact .mapM fun e he => h e he l .value hl (hnames e he)

theorem Expr.optionTokens_balanced {e? : Option Expr} (h : ∀ e ∈ e?, e.Closes)
    (hnames : ∀ name ∈ namesOption e?, Text.Plain name) (position : Position) :
    Yields (fun ts? => ∀ ts ∈ ts?, Balanced l.context.dialect ts) (optionTokens l position e?) := by
  cases e? with
  | none => exact .ok (by simp)
  | some e => exact (h e rfl l position hl hnames).bind fun ts hts => .ok (by simpa using hts)

theorem Expr.branchTokens_balanced {bs : List (Expr × Expr)}
    (h : ∀ b ∈ bs, b.1.Closes ∧ b.2.Closes) (hnames : ∀ name ∈ namesPairs bs, Text.Plain name)
    (position : Position) : Yields (Balanced l.context.dialect) (branchTokens l position bs) := by
  induction bs with
  | nil => exact .ok .nil
  | cons b rest ih =>
      rw [namesPairs, List.forall_mem_append, List.forall_mem_append] at hnames
      obtain ⟨hfirst, hrest⟩ := List.forall_mem_cons.1 h
      refine (hfirst.1 l position hl hnames.1.1).bind fun _ htest =>
        (hfirst.2 l .value hl hnames.1.2).bind fun _ hresult =>
          (ih hrest hnames.2).bind fun _ hothers => .ok ?_
      exact ((((Balanced.spaced _).append htest).append (.spaced _)).append hresult).append hothers

theorem Expr.assignmentTokens_balanced {bs : List (Expr × Expr)}
    (h : ∀ b ∈ bs, b.1.Closes ∧ b.2.Closes) (hnames : ∀ name ∈ namesPairs bs, Text.Plain name) :
    Yields (fun tss => ∀ ts ∈ tss, Balanced l.context.dialect ts) (assignmentTokens l bs) := by
  rw [namesPairs_eq, List.forall_mem_flatMap] at hnames
  rw [assignmentTokens_eq_mapM]
  refine .mapM fun b hb => ?_
  obtain ⟨hpath, hvalue⟩ := List.forall_mem_append.1 (hnames b hb)
  exact ((h b hb).1 l .value hl hpath).bind fun _ hpath =>
    ((h b hb).2 l .value hl hvalue).bind fun _ hvalue =>
      .ok ((hpath.append (.of_plain (by simp [Token.Plain]))).append hvalue)

theorem SelectItem.listTokens_balanced {is : List (SelectItem Expr)}
    (h : ∀ i ∈ is, i.expr.Closes) (hnames : ∀ name ∈ namesList is, Text.Plain name) :
    Yields (fun tss => ∀ ts ∈ tss, Balanced l.context.dialect ts) (listTokens l is) := by
  rw [namesList_eq, List.forall_mem_flatMap] at hnames
  rw [listTokens_eq_mapM]
  refine .mapM fun i hi => ?_
  obtain ⟨hexpr, halias⟩ := List.forall_mem_append.1 (hnames i hi)
  refine (h i hi l .value hl hexpr).bind fun _ hts => .ok (hts.append ?_)
  cases haliasName : i.aliasName with
  | none => exact .nil
  | some a =>
      exact (Balanced.spaced _).append (.cons (t := .name a) (halias a (by simp [haliasName])) .nil)

theorem OrderItem.listTokens_balanced {is : List (OrderItem Expr)}
    (h : ∀ i ∈ is, i.expr.Closes) (hnames : ∀ name ∈ namesList is, Text.Plain name) :
    Yields (fun tss => ∀ ts ∈ tss, Balanced l.context.dialect ts) (listTokens l is) := by
  rw [namesList_eq, List.forall_mem_flatMap] at hnames
  rw [listTokens_eq_mapM]
  exact .mapM fun i hi => (h i hi l .value hl (hnames i hi)).bind fun _ hts =>
    .ok (hts.append (.orderTokens i.direction i.nulls))

omit hl in
theorem Cte.listTokens_balanced {ctx : RenderContext} (hctx : ctx.Plain) {cs : List Cte}
    (h : ∀ c ∈ cs, c.body.Closes) (hnames : ∀ name ∈ namesList cs, Text.Plain name) :
    Yields (fun tss => ∀ ts ∈ tss, Balanced ctx.dialect ts) (listTokens ctx cs) := by
  rw [namesList_eq, List.forall_mem_flatMap] at hnames
  rw [listTokens_eq_mapM]
  refine .mapM fun c hc => ?_
  obtain ⟨hentity, hcontent⟩ := List.forall_mem_cons.1 (hnames c hc)
  obtain ⟨hcolumns, hbody⟩ := List.forall_mem_append.1 hcontent
  have hcheck : Yields (fun _ => True) (Cte.check c.entity c.columns c.body.width) :=
    fun _ _ => trivial
  have hlist : Balanced ctx.dialect
      (joined listSeparator (c.columns.map fun c => [Token.name c])) := by
    refine .listed fun part hpart => ?_
    obtain ⟨column, hcolumn, rfl⟩ := List.mem_map.1 hpart
    exact .cons (t := .name column) (hcolumns column hcolumn) .nil
  refine hcheck.bind fun _ _ => (h c hc ctx.nested c.entity hctx.nested hbody).bind
    fun _ hts => .ok ?_
  exact ((Balanced.cons (t := .name c.entity) hentity hlist.parenthesized).append
    (.of_plain (by simp [Token.Plain]))).append hts.parenthesized

end Lists

section Queries

variable {ctx : RenderContext}

/-- A level is balanced if its clauses are. -/
theorem Select.tokens_balanced {s : Select} (parts : s.Parts Expr.Closes CteBody.Closes)
    (hctx : ctx.Plain) (hnames : ∀ name ∈ s.names, Text.Plain name) :
    Yields (Balanced ctx.dialect) (s.tokens ctx) := by
  rw [names_eq] at hnames
  simp only [List.forall_mem_append] at hnames
  obtain ⟨⟨⟨⟨⟨⟨⟨hscope, hctes⟩, hitems⟩, hnodes⟩, hcondition⟩, hgroups⟩, hhaving⟩, horders⟩ := hnames
  have hl : (s.level ctx).Plain := ⟨hctx, hscope⟩
  rw [JoinNode.namesList_eq] at hnodes
  simp only [List.forall_mem_flatMap] at hnodes
  have hentries : Yields (Balanced ctx.dialect)
      ((s.level ctx).fromTokens (JoinNode.conditionTokens (s.level ctx) s.joins.nodes)) :=
    hl.fromTokens fun id written hwritten => by
      have hjoined : (JoinNode.conditionTokens (s.level ctx) s.joins.nodes)[id]?.join =
          (s.joins.condition? id).map (Expr.tokens (s.level ctx) .predicate) :=
        Level.join_conditionTokens (s.level ctx) id
      rw [hjoined] at hwritten
      obtain ⟨e, he, rfl⟩ := Option.map_eq_some_iff.1 hwritten
      obtain ⟨n, hn, hcondition⟩ := Option.bind_eq_some_iff.1 he
      exact parts.of_condition he _ _ hl fun name hname =>
        hnodes n (List.mem_of_getElem? hn) e (by simpa using hcondition) name hname
  rw [tokens_eq]
  refine .guard (.guard ?_)
  refine (Cte.listTokens_balanced hctx parts.ctes hctes).bind fun tables htables => ?_
  refine (SelectItem.listTokens_balanced hl parts.items hitems).bind fun selected hselected => ?_
  refine hentries.bind fun entries hentries => ?_
  refine (Expr.optionTokens_balanced hl parts.condition hcondition _).bind fun _ hcondition => ?_
  refine (Expr.listTokens_balanced hl parts.groupBy hgroups).bind fun _ hgroups => ?_
  refine (Expr.optionTokens_balanced hl parts.having hhaving _).bind fun _ hhaving => ?_
  refine (OrderItem.listTokens_balanced hl parts.orderBy horders).bind fun _ horders => .ok ?_
  have hopening : Balanced ctx.dialect (if s.ctes.isEmpty then [] else [.keyword .WITH, .space]
      ++ (if s.ctes.any Cte.recursive then [.keyword .RECURSIVE, .space] else [])
      ++ joined listSeparator tables ++ [.space]) := by
    split
    · exact .nil
    · exact (((Balanced.of_plain (by simp [Token.Plain])).append
        (.optional (.of_plain (by simp [Token.Plain])))).append (.listed htables)).append
          (.of_plain (by simp [Token.Plain]))
  have hlist : Balanced ctx.dialect (if s.items.isEmpty then (s.level ctx).rootListTokens
      else joined listSeparator selected) := by
    split
    · exact hl.rootListTokens
    · exact .listed hselected
  have hwords : Balanced ctx.dialect [.keyword .SELECT, .space] := .of_plain (by simp [Token.Plain])
  have hdistinct : Balanced ctx.dialect (if s.distinct then [.keyword .DISTINCT, .space] else []) :=
    .optional (.of_plain (by simp [Token.Plain]))
  exact ((((((((hopening.append hwords).append hdistinct).append hlist).append (.spaced _)).append
    hentries).append (.clauseTokens _ hcondition)).append (.listClauseTokens _ hgroups)).append
      (.clauseTokens _ hhaving)).append (.listClauseTokens _ horders)

theorem Select.closes {s : Select} (parts : s.Parts Expr.Closes CteBody.Closes) :
    (Query.select s).Closes := by
  intro ctx hctx hnames
  have htokens := tokens_balanced parts hctx hnames
  have hnested : Yields (Balanced ctx.dialect) (s.tokens ctx.nested) :=
    tokens_balanced parts hctx.nested hnames
  have hform : Yields (FunctionForm.Balanced ctx.dialect) (do
      let level ← s.tokens ctx.nested
      FunctionForm.limited (.level (parenthesized level)) s.limits) :=
    hnested.bind fun _ hts =>
      FunctionForm.Balanced.limited (f := .level _) hts.parenthesized s.limits
  refine ⟨?_, ?_, ?_, fun around haround => ?_⟩
  · rw [Query.rendered]
    exact htokens.bind fun _ hts => .ok hts
  · rw [Query.memberTokens]
    refine hnested.bind fun _ hts => .ok ?_
    split
    · exact hts
    · exact hts.parenthesized
  · rw [Query.functionForm]
    exact hform
  · rw [Query.subqueryTokens]
    split
    · rw [← bind_assoc]
      exact hform.bind fun form hform => haround ▸ FunctionForm.balanced_tokens form (haround ▸ hform)
    · exact htokens

theorem SetOperation.closes {c : SetOperation} (parts : c.Parts Expr.Closes Query.Closes) :
    (Query.combined c).Closes := by
  intro ctx hctx hnames
  rw [Query.names, names_eq] at hnames
  simp only [List.forall_mem_append] at hnames
  obtain ⟨⟨hstart, hoperands⟩, horders⟩ := hnames
  rw [Query.namesList_eq, List.forall_mem_flatMap] at hoperands
  have start := parts.start ctx hctx hstart
  have operands (q : Query) (hq : q ∈ c.operands) := parts.operands q hq ctx hctx (hoperands q hq)
  have horders : Yields (fun tss => ∀ ts ∈ tss, Balanced ctx.dialect ts)
      (OrderItem.resultTokens ctx c.orderBy) := by
    rw [OrderItem.resultTokens_eq]
    exact OrderItem.listTokens_balanced (Level.plain_empty hctx) parts.orderBy horders
  have hmembers : Yields (fun tss => ∀ ts ∈ tss, Balanced ctx.dialect ts)
      (Query.memberListTokens ctx c.operands) := by
    rw [Query.memberListTokens_eq_mapM]
    exact .mapM fun q hq => (operands q hq).memberTokens
  have hforms : Yields (fun forms => ∀ form ∈ forms, FunctionForm.Balanced ctx.dialect form)
      (Query.functionForms ctx c.operands) := by
    rw [Query.functionForms_eq_mapM]
    exact .mapM fun q hq => (operands q hq).functionForm
  have hmember : Yields (Balanced ctx.dialect) (c.memberTokens ctx) := by
    rw [memberTokens_eq]
    split
    · refine start.memberTokens.bind fun _ hstart => horders.bind fun _ horders => .ok ?_
      exact .nativeTokens _ (by simpa using hstart) horders
    · refine start.memberTokens.bind fun _ hstart => hmembers.bind fun _ hmembers =>
        horders.bind fun _ horders => .ok ?_
      exact .nativeTokens _ (List.forall_mem_cons.2 ⟨hstart, hmembers⟩) horders
  have hform : Yields (FunctionForm.Balanced ctx.dialect) (c.functionForm ctx) := by
    rw [functionForm_eq]
    split
    · exact start.functionForm.bind fun _ hstart => hstart.limited c.limits
    · refine start.functionForm.bind fun _ hstart => hforms.bind fun _ hforms =>
        horders.bind fun orders _ => .ok ?_
      exact FunctionForm.balanced_combined _ (List.forall_mem_cons.2 ⟨hstart, hforms⟩) orders c.limits
  refine ⟨?_, ?_, ?_, fun around haround => ?_⟩
  · rw [Query.rendered]
    cases hactive : activeOperator c.operator c.operands with
    | none =>
        rw [rendered_eq, hactive]
        exact start.rendered.bind fun _ hinner => .ok hinner
    | some op =>
        rw [rendered_of_active hactive]
        split
        · exact hmember.bind fun _ hts => .ok hts
        · exact hform.bind fun form hform =>
            (FunctionForm.balanced_tokens form hform).bind fun _ hts => .ok hts
  · rw [Query.memberTokens]
    exact hmember.bind fun _ hts => .ok hts.parenthesized
  · rw [Query.functionForm]
    exact hform
  · rw [Query.subqueryTokens]
    exact hform.bind fun form hform => haround ▸ FunctionForm.balanced_tokens form (haround ▸ hform)

theorem Update.tokens_balanced {u : Update} (hctx : ctx.Plain)
    (hassignments : ∀ a ∈ u.assignments, a.1.Closes ∧ a.2.Closes)
    (hcondition : ∀ e ∈ u.condition, e.Closes) (hnames : ∀ name ∈ u.names, Text.Plain name) :
    Yields (Balanced ctx.dialect) (u.tokens ctx) := by
  rw [names_eq] at hnames
  simp only [List.forall_mem_cons, List.forall_mem_append] at hnames
  obtain ⟨hentity, halias, ⟨⟨hscope, hnassignments⟩, hncondition⟩, hreturning⟩ := hnames
  let l : Level := ⟨ctx, u.target.aliases, u.target.joins⟩
  have hl : l.Plain := ⟨hctx, hscope⟩
  rw [tokens_eq]
  refine .guard ?_
  refine (Expr.assignmentTokens_balanced hl hassignments hnassignments).bind fun _ hassigned => ?_
  refine (Expr.optionTokens_balanced hl hcondition hncondition _).bind fun _ hcondition => ?_
  refine (hl.returningTokens hreturning).bind fun _ hreturning => .ok ?_
  have htarget : Balanced ctx.dialect [.keyword .UPDATE, .space, .name u.target.entity, .space,
      l.declared u.target.aliasName] :=
    .of_plain (by simpa [Token.Plain] using ⟨hentity, hl.declared halias⟩)
  exact (((htarget.append (.spaced _)).append (.listed hassigned)).append
    (.clauseTokens _ hcondition)).append hreturning

theorem CollectionDelete.tokens_balanced {d : CollectionDelete} (hctx : ctx.Plain)
    (hcondition : ∀ e ∈ d.condition, e.Closes) (hnames : ∀ name ∈ d.names, Text.Plain name) :
    Yields (Balanced ctx.dialect) (d.tokens ctx) := by
  rw [names_eq] at hnames
  simp only [List.forall_mem_cons, List.forall_mem_append] at hnames
  obtain ⟨hentity, halias, hcollection, ⟨hscope, hncondition⟩, hreturning⟩ := hnames
  have hl : Level.Plain ⟨ctx, d.target.aliases, d.target.joins⟩ := ⟨hctx, hscope⟩
  rw [tokens_eq]
  split
  · exact hl.deleteTokens hentity halias (by simpa using hcollection)
      (Expr.optionTokens_balanced hl hcondition hncondition _) hreturning
  · exact .error _

end Queries

section Calls

theorem Expr.closes_call {function : String} {args : List Expr} (h : ∀ e ∈ args, e.Closes) :
    (Expr.call function args).Closes := by
  intro l position hl hnames
  rw [names, List.forall_mem_cons, List.forall_mem_append] at hnames
  obtain ⟨hfunction, hgeneric, hargs⟩ := hnames
  rw [tokens]
  split
  · cases args with
    | nil => exact .ok .nil
    | cons first rest =>
        rw [namesList, List.forall_mem_append] at hargs
        exact h first List.mem_cons_self l position hl hargs.1
  · cases hname : genericName? function args with
    | none =>
        exact (listTokens_balanced hl h hargs).bind fun _ hwritten =>
          .ok (.callTokens hfunction false hwritten)
    | some name =>
        refine RenderContext.balanced_invocation (hgeneric name (by simp [hname])) _ ?_
        cases args with
        | nil => exact .ok (by simp)
        | cons first rest =>
            rw [namesList, List.forall_mem_append] at hargs
            exact listTokens_balanced hl (fun e he => h e (List.mem_cons_of_mem first he)) hargs.2

theorem Expr.closes_aggregate {function : String} {args : List Expr} {distinct : Bool}
    (h : ∀ e ∈ args, e.Closes) : (Expr.aggregate function args distinct).Closes := by
  intro l position hl hnames
  rw [names, List.forall_mem_cons] at hnames
  rw [tokens]
  split
  · rw [RenderContext.countStarTokens]
    split
    · refine .ok (.cons (t := .function "COUNT") (by decide : Text.Plain "COUNT") (.parenthesized ?_))
      exact .of_plain (by simp [Token.Plain])
    · exact RenderContext.balanced_invocation (by decide) _ (.ok (by simp))
  · exact (listTokens_balanced hl h hnames.2).bind fun _ hwritten =>
      .ok (.callTokens hnames.1.upper distinct hwritten)

end Calls

/-- What is balanced part by part is balanced as a whole. -/
theorem Expr.hereditary_closes : Hereditary Expr.Closes Query.Closes CteBody.Closes where
  path p l position hl hnames := by
    rw [Expr.tokens]
    exact hl.pathTokens hnames
  literal value l position hl _ := by
    rw [Expr.tokens]
    exact Level.Plain.literalTokens position value
  parameter p l position hl hnames := by
    rw [Expr.tokens]
    exact Level.Plain.parameterTokens hnames
  call _ _ hargs := Expr.closes_call hargs
  aggregate _ _ _ hargs := Expr.closes_aggregate hargs
  subquery q hq l position hl hnames := by
    have hdialect := l.context.dialect_correlated l.aliases
    have hquery := (hq _ (hl.context.correlated l.aliases) hnames).subqueryTokens l.context
      hdialect.symm
    rw [hdialect] at hquery
    rw [Expr.tokens]
    exact hquery.bind fun _ hts => .ok hts.parenthesized
  indexed base index _ l position hl hnames := by
    rw [Expr.tokens]
    exact .ok .nil
  null l position hl hnames := by
    rw [Expr.tokens]
    exact .ok (.of_plain (by simp [Token.Plain]))
  caseWhen operand branches otherwise hoperand hbranches hotherwise l position hl hnames := by
    rw [Expr.names, List.forall_mem_append, List.forall_mem_append] at hnames
    obtain ⟨⟨hnoperand, hnbranches⟩, hnotherwise⟩ := hnames
    rw [Expr.tokens]
    refine (Expr.optionTokens_balanced hl hoperand hnoperand _).bind fun first hfirst =>
      (Expr.branchTokens_balanced hl hbranches hnbranches _).bind fun _ hwritten =>
        (Expr.optionTokens_balanced hl hotherwise hnotherwise _).bind fun _ hlast => .ok ?_
    refine .cons (t := .keyword .CASE) trivial ((((?_ : Balanced _ _).append hwritten).append
      (.clauseTokens _ hlast)).append (.of_plain (by simp [Token.Plain])))
    cases first with
    | none => exact .nil
    | some ts => exact .cons (t := .space) trivial (hfirst ts rfl)
  binary left op right hleft hright l position hl hnames := by
    rw [Expr.names, List.forall_mem_append] at hnames
    rw [Expr.tokens]
    refine (hleft l _ hl hnames.1).bind fun _ ha => (hright l _ hl hnames.2).bind fun _ hb => .ok ?_
    exact ((ha.parenthesizeLooser _ left).append
      (.of_plain (by cases op <;> simp [Token.Plain, BinaryOperator.token]))).append
        (hb.parenthesizeLooser _ right)
  not e he l position hl hnames := by
    rw [Expr.tokens]
    exact (he l _ hl hnames).bind fun _ hts =>
      .ok ((Balanced.negation true).append (hts.parenthesizeLooser _ e))
  isNull e negated he l position hl hnames := by
    rw [Expr.tokens]
    exact (he l _ hl hnames).bind fun _ hts => .ok (hts.append (.of_plain (by simp [Token.Plain])))
  like e pattern escape negated he hpattern l position hl hnames := by
    rw [Expr.names, List.forall_mem_append] at hnames
    rw [Expr.tokens.eq_def]
    refine (he l _ hl hnames.1).bind fun _ ha => (hpattern l _ hl hnames.2).bind fun _ hb => .ok ?_
    refine (((((ha.append (.of_plain (by simp [Token.Plain]))).append (.negation negated)).append
      (.of_plain (by simp [Token.Plain]))).append hb).append ?_)
    cases escape with
    | none => exact .nil
    | some c => exact (Balanced.spaced _).append (.of_plain (by simp [Token.Plain]))
  oneOf e values negated he hvalues l position hl hnames := by
    rw [Expr.names, List.forall_mem_append] at hnames
    rw [Expr.tokens]
    split
    · exact .ok (.of_plain (by simp [Token.Plain]))
    · refine (he l _ hl hnames.1).bind fun _ ha =>
        (Expr.listTokens_balanced hl hvalues hnames.2).bind fun _ hwritten => .ok ?_
      refine (((ha.append (.of_plain (by simp [Token.Plain]))).append (.negation negated)).append
        (.of_plain (by simp [Token.Plain]))).append ?_
      split
      · exact .listed hwritten
      · exact (Balanced.listed hwritten).parenthesized
  between e low high negated he hlow hhigh l position hl hnames := by
    rw [Expr.names, List.forall_mem_append, List.forall_mem_append] at hnames
    rw [Expr.tokens]
    refine (he l _ hl hnames.1.1).bind fun _ ha => (hlow l _ hl hnames.1.2).bind fun _ hb =>
      (hhigh l _ hl hnames.2).bind fun _ hc => .ok ?_
    exact (((((ha.append (.of_plain (by simp [Token.Plain]))).append (.negation negated)).append
      (.of_plain (by simp [Token.Plain]))).append hb).append (.spaced _)).append hc
  parens e he l position hl hnames := by
    rw [Expr.tokens]
    exact (he l _ hl hnames).bind fun _ hts => .ok hts.parenthesized
  verbatim s l position hl hnames := by
    rw [Expr.tokens]
    exact .ok (.cons (t := .raw s) (hnames s List.mem_cons_self) .nil)
  select _ parts := Select.closes parts
  combined _ parts := SetOperation.closes parts
  query q hq ctx entity hctx hnames := by
    rw [CteBody.tokens]
    exact .guard ((hq ctx hctx hnames).rendered.bind fun _ hbody => .ok hbody)
  update u hassignments hcondition ctx entity hctx hnames := by
    rw [CteBody.tokens]
    exact Update.tokens_balanced hctx hassignments hcondition hnames
  collectionDelete d hcondition ctx entity hctx hnames := by
    rw [CteBody.tokens]
    exact CollectionDelete.tokens_balanced hctx hcondition hnames

theorem Delete.tokens_balanced {ctx : RenderContext} {d : Delete} (hctx : ctx.Plain)
    (hnames : ∀ name ∈ d.names, Text.Plain name) : Yields (Balanced ctx.dialect) (d.tokens ctx) := by
  rw [names] at hnames
  simp only [List.forall_mem_cons, List.forall_mem_append] at hnames
  obtain ⟨hentity, halias, ⟨hscope, hcondition⟩, hreturning⟩ := hnames
  have hl : Level.Plain ⟨ctx, d.target.aliases, d.target.joins⟩ := ⟨hctx, hscope⟩
  have hcollection : ∀ c ∈ (none : Option String), Text.Plain c := by simp
  have hwritten := Expr.optionTokens_balanced hl (Expr.hereditary_closes.option d.condition)
    hcondition .predicate
  rw [tokens]
  exact hl.deleteTokens hentity halias hcollection hwritten hreturning

theorem Statement.rendered_balanced {ctx : RenderContext} (hctx : ctx.Plain) {s : Statement}
    (hnames : ∀ name ∈ s.names, Text.Plain name) :
    Yields (fun r => Balanced ctx.dialect r.tokens) (s.rendered ctx) := by
  have hparts := Expr.hereditary_closes
  cases s with
  | select q => exact (hparts.queries q ctx hctx hnames).rendered
  | update u =>
      exact (Update.tokens_balanced hctx (hparts.pairs u.assignments) (hparts.option u.condition)
        hnames).bind fun _ hts => .ok hts
  | delete d => exact (Delete.tokens_balanced hctx hnames).bind fun _ hts => .ok hts
  | collectionDelete d =>
      exact (CollectionDelete.tokens_balanced hctx (hparts.option d.condition) hnames).bind
        fun _ hts => .ok hts

/-- Whatever its literals say, a statement with plain names has a well-formed text. -/
theorem Statement.wellFormed_render {ctx : RenderContext} (hctx : ctx.Plain) {s : Statement}
    (hnames : ∀ name ∈ s.names, Text.Plain name) {r : RenderedQuery} (hr : s.render ctx = .ok r) :
    Text.WellFormed r.text := by
  rw [render] at hr
  simp only [bind_eq_ok, pure_eq_ok] at hr
  obtain ⟨level, hlevel, rfl⟩ := hr
  exact .of_opens (rendered_balanced hctx hnames level hlevel)

namespace Select

/-- Persons whose notes end sadly, or who are called like someone with a quote in the name. -/
def sadNotes : Select where
  joins := { nodes := [{ aliasName := "p", source := .root "Person" }], roots := [0] }
  aliases := ⟨[("p", .join "p" 0 false)]⟩
  condition := some (.binary
    (.like (.ofPath "p.note") (.string "% :'(") (some '\\') false) .or
    (.binary (.generic "unaccent" [.ofPath "p.name"]) .eq (.string "O'Neill")))

end Select

set_option maxRecDepth 4000 in
theorem Statement.wellFormed_render_sadNotes :
    let ctx : RenderContext := {
      dialect := .eclipseLink
      functions := ⟨["unaccent"]⟩
      options := { aliasPrefix := some "x_" } }
    let s := Statement.select (.select .sadNotes)
    ctx.Plain ∧ (∀ name ∈ s.names, Text.Plain name) ∧ ∃ r, s.render ctx = .ok r ∧
      r.text = "SELECT x_p FROM Person x_p WHERE x_p.note LIKE '% :''(' ESCAPE '\\\\' " ++
        "OR OPERATOR('unaccent',x_p.name) = 'O''Neill'" ∧ Text.WellFormed r.text := by
  intro ctx s
  have hctx : ctx.Plain := ⟨by decide, by simp [ctx]⟩
  have hnames : ∀ name ∈ s.names, Text.Plain name := by decide
  have hwritten : (s.render ctx).map RenderedQuery.text =
      .ok ("SELECT x_p FROM Person x_p WHERE x_p.note LIKE '% :''(' ESCAPE '\\\\' " ++
        "OR OPERATOR('unaccent',x_p.name) = 'O''Neill'") := by rfl
  obtain ⟨r, hr, htext⟩ := map_eq_ok.1 hwritten
  exact ⟨hctx, hnames, r, hr, htext, wellFormed_render hctx hnames hr⟩

end EntityQuery
