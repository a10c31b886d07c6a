import EntityQuery.Proofs.Render.Coverage

/-!
The parameters of a statement against those that its text mentions. Every parameter of the text is
known; and unless parts of the statement are known but not written, the parameters are those of the
text, in the order in which it first mentions them.
-/

namespace EntityQuery

open Token (mentions)

/-- The function form of a level mentions what the level mentions. -/
theorem Select.mentions_functionForm {s : Select} {ctx : RenderContext} {form : FunctionForm}
    (h : (Query.select s).functionForm ctx = .ok form) :
    ∃ ts, s.tokens ctx.nested = .ok ts ∧ form.mentions = mentions ts := by
  rw [Query.functionForm] at h
  obtain ⟨ts, hts, hform⟩ := bind_eq_ok.1 h
  refine ⟨ts, hts, ?_⟩
  rw [FunctionForm.mentions_limited hform, FunctionForm.mentions, Token.mentions_parenthesized]

theorem Select.accounted {s : Select} (parts : s.Parts Expr.Accounted CteBody.Accounted) :
    (Query.select s).Accounted where
  rendered ctx r hr := by
    rw [Query.rendered] at hr
    simp only [bind_eq_ok, pure_eq_ok] at hr
    obtain ⟨ts, hts, rfl⟩ := hr
    exact covers_tokens parts hts
  memberTokens ctx between ts hts := by
    rw [Query.memberTokens] at hts
    simp only [bind_eq_ok, pure_eq_ok] at hts
    obtain ⟨written, hwritten, rfl⟩ := hts
    have hcovers := (covers_tokens parts hwritten).cons (.nested s.limits)
    split
    · exact hcovers
    · rw [Token.mentions_parenthesized]
      exact hcovers
  functionForm ctx between form hform := by
    obtain ⟨ts, hts, hmentions⟩ := mentions_functionForm hform
    rw [hmentions]
    exact (covers_tokens parts hts).cons (.nested s.limits)
  subqueryTokens ctx around ts hts := by
    rw [Query.subqueryTokens] at hts
    split at hts
    · obtain ⟨written, hwritten, hts⟩ := bind_eq_ok.1 hts
      obtain ⟨form, hform, hts⟩ := bind_eq_ok.1 hts
      rw [FunctionForm.mentions_tokens form hts, FunctionForm.mentions_limited hform,
        FunctionForm.mentions, Token.mentions_parenthesized]
      exact (covers_tokens parts hwritten).cons (.nested s.limits)
    · exact (covers_tokens parts hts).cons (.nested s.limits)

/-- An operation without an operator or operands is not plain, so only some of what it mentions
need be written. -/
theorem SetOperation.covers_of_inactive {c : SetOperation} (between : Bool) {mentioned : List String}
    (h : activeOperator c.operator c.operands = none)
    (hsub : mentioned ⊆ c.start.markers ++ c.orderBy.flatMap fun i => i.expr.markers) :
    Covers (c.sites between) mentioned c.markers := by
  rw [sites_eq, markers_eq]
  refine Covers.of_not_plain List.mem_cons_self ?_ (List.Subset.trans hsub ?_)
  · rintro ⟨hoperator, hoperands⟩
    obtain ⟨op, hop⟩ := Option.isSome_iff_exists.1 hoperator
    rw [activeOperator, if_neg (by simpa using hoperands), hop] at h
    cases h
  · intro name hname
    simp only [List.mem_append] at hname ⊢
    tauto

theorem SetOperation.covers_functionForm {c : SetOperation}
    (parts : c.Parts Expr.Accounted Query.Accounted) {ctx : RenderContext} (between : Bool)
    {form : FunctionForm} (h : c.functionForm ctx = .ok form) :
    Covers (c.sites between) form.mentions c.markers := by
  cases hactive : activeOperator c.operator c.operands with
  | none =>
      obtain ⟨start, hstart, hform⟩ := (functionForm_of_inactive hactive).1 h
      rw [FunctionForm.mentions_limited hform]
      have hcovers := parts.start.functionForm ctx true start hstart
      exact covers_of_inactive between hactive
        (List.subset_append_of_subset_left _ hcovers.subset)
  | some op =>
      obtain ⟨members, orders, hmembers, horders, rfl⟩ := (functionForm_of_active hactive).1 h
      have hmembers := Covers.flatMap hmembers fun q hq form hform =>
        (parts.members q hq).functionForm ctx (c.staysBetween between) form hform
      have horders := covers_resultTokens parts.orderBy horders
      rw [sites_eq, markers_eq, FunctionForm.mentions_combined, ← List.flatMap_cons,
        ← List.flatMap_cons]
      exact (hmembers.append horders).cons _

theorem SetOperation.covers_memberTokens {c : SetOperation}
    (parts : c.Parts Expr.Accounted Query.Accounted) {ctx : RenderContext} (between : Bool)
    {ts : List Token} (h : c.memberTokens ctx = .ok ts) :
    Covers (c.sites between) (mentions ts) c.markers := by
  cases hactive : activeOperator c.operator c.operands with
  | none =>
      obtain ⟨start, orders, hstart, horders, rfl⟩ := (memberTokens_of_inactive hactive).1 h
      have hstart := parts.start.memberTokens ctx true start hstart
      have horders := covers_resultTokens parts.orderBy horders
      refine covers_of_inactive between hactive ?_
      rw [mentions_nativeTokens, List.flatMap_singleton]
      exact (hstart.append horders).subset
  | some op =>
      obtain ⟨members, orders, hmembers, horders, rfl⟩ := (memberTokens_of_active hactive).1 h
      have hmembers := Covers.flatMap hmembers fun q hq ts hts =>
        (parts.members q hq).memberTokens ctx (c.staysBetween between) ts hts
      have horders := covers_resultTokens parts.orderBy horders
      rw [sites_eq, markers_eq, mentions_nativeTokens, ← List.flatMap_cons, ← List.flatMap_cons]
      exact (hmembers.append horders).cons _

theorem SetOperation.accounted {c : SetOperation}
    (parts : c.Parts Expr.Accounted Query.Accounted) : (Query.combined c).Accounted where
  rendered ctx r hr := by
    rw [Query.rendered] at hr
    cases hactive : activeOperator c.operator c.operands with
    | none =>
        rw [rendered_eq, hactive] at hr
        simp only [bind_eq_ok, pure_eq_ok] at hr
        obtain ⟨inner, hinner, rfl⟩ := hr
        have hcovers := parts.start.rendered ctx inner hinner
        exact covers_of_inactive true hactive
          (List.subset_append_of_subset_left _ hcovers.subset)
    | some op =>
        rw [rendered_of_active hactive] at hr
        split at hr
        · simp only [bind_eq_ok, pure_eq_ok] at hr
          obtain ⟨ts, hts, rfl⟩ := hr
          exact covers_memberTokens parts true hts
        · simp only [bind_eq_ok, pure_eq_ok] at hr
          obtain ⟨form, hform, ts, hts, rfl⟩ := hr
          rw [FunctionForm.mentions_tokens form hts]
          exact covers_functionForm parts true hform
  memberTokens ctx between ts hts := by
    rw [Query.memberTokens] at hts
    simp only [bind_eq_ok, pure_eq_ok] at hts
    obtain ⟨written, hwritten, rfl⟩ := hts
    rw [Token.mentions_parenthesized]
    exact covers_memberTokens parts between hwritten
  functionForm ctx between form hform := by
    rw [Query.functionForm] at hform
    exact covers_functionForm parts between hform
  subqueryTokens ctx around ts hts := by
    rw [Query.subqueryTokens] at hts
    obtain ⟨form, hform, hts⟩ := bind_eq_ok.1 hts
    rw [FunctionForm.mentions_tokens form hts]
    exact covers_functionForm parts false hform

/-- The name of a function that is called by its name is no parameter. -/
theorem Expr.markersList_of_genericName? {function name : String} {args : List Expr}
    (h : genericName? function args = some name) : markersList args = markersList args.tail := by
  cases args with
  | nil => rfl
  | cons first rest =>
      cases first with
      | literal v => rfl
      | _ => simp [genericName?] at h

theorem hereditary_accounted : Hereditary Expr.Accounted Query.Accounted CteBody.Accounted where
  path p l position ts hts := by
    rw [Expr.tokens] at hts
    rw [Level.mentions_pathTokens hts, Expr.markers]
    exact Covers.nil
  literal v l position ts hts := by
    rw [Expr.tokens] at hts
    rw [Level.mentions_literalTokens hts, Expr.markers]
    exact Covers.nil
  parameter p l position ts hts := by
    rw [Expr.tokens] at hts
    rw [Level.mentions_parameterTokens hts, Expr.markers]
    exact Covers.refl
  call f args hargs l position ts hts := by
    rw [Expr.tokens] at hts
    rw [Expr.sites, Expr.markers]
    by_cases houter : Expr.isOuterCall f args = true
    · rw [if_pos houter] at hts
      rw [if_pos houter]
      rw [Expr.isOuterCall, Bool.and_eq_true, beq_iff_eq] at houter
      obtain ⟨e, rfl⟩ := List.length_eq_one_iff.1 houter.2
      simpa [Expr.sitesList, Expr.markersList] using hargs e List.mem_cons_self l position ts hts
    · rw [if_neg houter] at hts
      rw [if_neg houter]
      cases hname : Expr.genericName? f args with
      | some name =>
          simp only [hname] at hts
          obtain ⟨written, hwritten, hmentions⟩ := RenderContext.mentions_invocation hts
          rw [Expr.restTokens_eq_mapM, ← Expr.listTokens_eq_mapM] at hwritten
          rw [Expr.sitesRest_eq, hmentions, Expr.markersList_of_genericName? hname,
            Expr.markersList_eq]
          have htail : ∀ e ∈ args.tail, e.Accounted := fun e he =>
            hargs e (List.mem_of_mem_tail he)
          exact ((Level.mentions_listTokens hwritten).covers htail).cons (.function name)
      | none =>
          simp only [hname, bind_eq_ok, pure_eq_ok] at hts
          obtain ⟨written, hwritten, rfl⟩ := hts
          rw [Expr.sitesList_eq, mentions_callTokens, Expr.markersList_eq]
          exact (Level.mentions_listTokens hwritten).covers hargs
  aggregate f args d hargs l position ts hts := by
    rw [Expr.tokens] at hts
    rw [Expr.sites, Expr.markers]
    by_cases hcount : Expr.isCountStar f args = true
    · rw [if_pos hcount] at hts
      rw [Expr.isCountStar, Bool.and_eq_true, List.isEmpty_iff] at hcount
      rw [mentions_countStarTokens hts, hcount.1]
      exact Covers.nil
    · rw [if_neg hcount] at hts
      simp only [bind_eq_ok, pure_eq_ok] at hts
      obtain ⟨written, hwritten, rfl⟩ := hts
      rw [if_neg hcount, Expr.sitesList_eq, mentions_callTokens, Expr.markersList_eq]
      exact (Level.mentions_listTokens hwritten).covers hargs
  subquery q hq l position ts hts := by
    rw [Expr.tokens] at hts
    simp only [bind_eq_ok, pure_eq_ok] at hts
    obtain ⟨written, hwritten, rfl⟩ := hts
    rw [Expr.sites, Expr.markers, Token.mentions_parenthesized]
    exact hq.subqueryTokens _ l.context written hwritten
  indexed base index _ l position ts hts := by
    rw [Expr.tokens, Except.ok.injEq] at hts
    rw [Expr.sites, Expr.markers, ← hts]
    exact Covers.of_not_plain List.mem_cons_self id (List.nil_subset _)
  null l position ts hts := by
    rw [Expr.tokens, Except.ok.injEq] at hts
    simpa [← hts, Expr.markers] using Covers.nil
  caseWhen operand branches otherwise hoperand hbranches hotherwise l position ts hts := by
    rw [Expr.tokens] at hts
    simp only [bind_eq_ok, pure_eq_ok] at hts
    obtain ⟨first, hfirst, middle, hmiddle, last, hlast, rfl⟩ := hts
    have hcovers := (((Level.mentions_optionTokens hfirst).covers (by simpa using hoperand)).append
      ((Level.mentions_branchTokens hmiddle).covers (forall_mem_pairs hbranches))).append
      ((Level.mentions_optionTokens hlast).covers (by simpa using hotherwise))
    rw [Expr.sites, Expr.markers, Expr.sitesOption_eq, Expr.sitesPairs_eq, Expr.sitesOption_eq,
      Expr.markersOption_eq, Expr.markersPairs_eq, Expr.markersOption_eq]
    cases first with
    | none => simpa [List.flatMap_assoc] using hcovers
    | some tokens => simpa [List.flatMap_assoc] using hcovers
  binary left op right hleft hright l position ts hts := by
    rw [Expr.tokens] at hts
    simp only [bind_eq_ok, pure_eq_ok] at hts
    obtain ⟨a, ha, b, hb, rfl⟩ := hts
    rw [Expr.sites, Expr.markers]
    simpa [mentions_operator] using (hleft l _ a ha).append (hright l _ b hb)
  not e he l position ts hts := by
    rw [Expr.tokens] at hts
    simp only [bind_eq_ok, pure_eq_ok] at hts
    obtain ⟨written, hwritten, rfl⟩ := hts
    rw [Expr.sites, Expr.markers]
    simpa using he l .predicate written hwritten
  isNull e negated he l position ts hts := by
    rw [Expr.tokens] at hts
    simp only [bind_eq_ok, pure_eq_ok] at hts
    obtain ⟨written, hwritten, rfl⟩ := hts
    rw [Expr.sites, Expr.markers]
    simpa using he l .value written hwritten
  like e pattern escape negated he hpattern l position ts hts := by
    rw [Expr.sites, Expr.markers]
    cases escape with
    | none =>
        rw [Expr.tokens] at hts
        simp only [bind_eq_ok, pure_eq_ok] at hts
        obtain ⟨a, ha, b, hb, rfl⟩ := hts
        simpa using (he l .value a ha).append (hpattern l .value b hb)
    | some c =>
        rw [Expr.tokens] at hts
        simp only [bind_eq_ok, pure_eq_ok] at hts
        obtain ⟨a, ha, b, hb, rfl⟩ := hts
        simpa using (he l .value a ha).append (hpattern l .value b hb)
  oneOf e values negated he hvalues l position ts hts := by
    rw [Expr.tokens] at hts
    rw [Expr.sites, Expr.markers]
    cases values with
    | nil =>
        rw [if_pos (by simp), Except.ok.injEq] at hts
        rw [if_pos (by simp), ← hts]
        exact Covers.of_not_plain List.mem_cons_self id (List.nil_subset _)
    | cons first rest =>
        rw [if_neg (by simp)] at hts
        simp only [bind_eq_ok, pure_eq_ok] at hts
        obtain ⟨a, ha, written, hwritten, rfl⟩ := hts
        have hcovers := (he l .value a ha).append
          ((Level.mentions_listTokens hwritten).covers hvalues)
        rw [if_neg (by simp), Expr.sitesList_eq, Expr.markersList_eq]
        split
        · simpa using hcovers
        · simpa using hcovers
  between e low high negated he hlow hhigh l position ts hts := by
    rw [Expr.tokens] at hts
    simp only [bind_eq_ok, pure_eq_ok] at hts
    obtain ⟨a, ha, b, hb, c, hc, rfl⟩ := hts
    rw [Expr.sites, Expr.markers]
    simpa using ((he l .value a ha).append (hlow l .value b hb)).append (hhigh l .value c hc)
  parens e he l position ts hts := by
    rw [Expr.tokens] at hts
    simp only [bind_eq_ok, pure_eq_ok] at hts
    obtain ⟨written, hwritten, rfl⟩ := hts
    rw [Expr.sites, Expr.markers, Token.mentions_parenthesized]
    exact he l position written hwritten
  verbatim s l position ts hts := by
    rw [Expr.tokens, Except.ok.injEq] at hts
    simpa [← hts, Expr.markers] using Covers.nil
  select s parts := Select.accounted parts
  combined c parts := SetOperation.accounted parts
  query q hq ctx entity ts hts := by
    rw [CteBody.tokens] at hts
    split at hts
    · cases hts
    · simp only [bind_eq_ok, pure_eq_ok] at hts
      obtain ⟨r, hr, rfl⟩ := hts
      rw [CteBody.sites, CteBody.markers]
      exact hq.rendered ctx r hr
  update u hassignments hcondition ctx entity ts hts := by
    rw [CteBody.tokens] at hts
    rw [CteBody.sites, CteBody.markers]
    exact Update.covers_tokens hassignments hcondition hts
  collectionDelete d hcondition ctx entity ts hts := by
    rw [CteBody.tokens] at hts
    rw [CteBody.sites, CteBody.markers]
    exact CollectionDelete.covers_tokens hcondition hts

namespace Statement

theorem covers_rendered {s : Statement} {ctx : RenderContext} {level : RenderedLevel}
    (h : s.rendered ctx = .ok level) : Covers s.sites (mentions level.tokens) s.markers := by
  have hexpr (e : Expr) : e.Accounted := hereditary_accounted.expr e
  cases s with
  | select q => exact (hereditary_accounted.queries q).rendered ctx level h
  | update u =>
      simp only [rendered, bind_eq_ok, pure_eq_ok] at h
      obtain ⟨ts, hts, rfl⟩ := h
      exact Update.covers_tokens (fun a _ => ⟨hexpr a.1, hexpr a.2⟩) (fun e _ => hexpr e) hts
  | delete d =>
      simp only [rendered, bind_eq_ok, pure_eq_ok] at h
      obtain ⟨ts, hts, rfl⟩ := h
      exact Delete.covers_tokens (fun e _ => hexpr e) hts
  | collectionDelete d =>
      simp only [rendered, bind_eq_ok, pure_eq_ok] at h
      obtain ⟨ts, hts, rfl⟩ := h
      exact CollectionDelete.covers_tokens (fun e _ => hexpr e) hts

/-- Whoever runs a query knows every parameter that its text mentions, each once; and if all sites
are plain, these are the parameters in the order in which the text first mentions them. -/
theorem parameters_of_render {s : Statement} {ctx : RenderContext} {r : RenderedQuery}
    (h : s.render ctx = .ok r) :
    ∃ level, s.rendered ctx = .ok level ∧ r.text = tokensText ctx.dialect level.tokens ∧
      mentions level.tokens ⊆ r.parameters ∧ r.parameters.Nodup ∧
      ((∀ site ∈ s.sites, site.Plain) → r.parameters = firstMentions (mentions level.tokens)) := by
  simp only [render, bind_eq_ok, pure_eq_ok] at h
  obtain ⟨level, hlevel, rfl⟩ := h
  have hcovers := covers_rendered hlevel
  refine ⟨level, hlevel, rfl, ?_, nodup_firstMentions s.markers, ?_⟩
  · intro name hname
    exact mem_firstMentions.2 (hcovers.subset hname)
  · intro hplain
    rw [hcovers.eq_of_plain hplain]
    rfl

/-- People and the owners of offices, by name and age. The name is asked for in both queries and in
the order, which is a text literal where set operations are calls. -/
def search : Statement :=
  .select (.combined {
    operator := some .unionAll
    start := .select {
      items := [⟨.bound 0 "p" (some "name"), some "name"⟩]
      joins := { nodes := [{ aliasName := "p", source := .root "Person" }], roots := [0] }
      condition := some (.binary (.binary (.bound 0 "p" (some "name")) .eq (.named "name" none))
        .and (.binary (.bound 0 "p" (some "age")) .gt (.named "age" none))) }
    operands := [.select {
      items := [⟨.bound 1 "o" (some "name"), some "name"⟩]
      joins := {
        nodes := [
          { aliasName := "f", source := .root "Office" },
          { aliasName := "o", source := .ofAttribute "owner" .singular, parent := some 0,
            condition := some (.binary (.bound 1 "o" (some "name")) .eq (.named "name" none)) }]
        roots := [0] } }]
    orderBy := [⟨.call "COALESCE" [.ofPath "name", .named "fallback" none], .asc, none⟩] })

theorem parameters_of_render_search :
    ∃ r level, search.render { dialect := .eclipseLink } = .ok r ∧
      search.rendered { dialect := .eclipseLink } = .ok level ∧
      mentions level.tokens = ["name", "age", "name", "fallback"] ∧
      r.parameters = firstMentions (mentions level.tokens) := by
  obtain ⟨r, hr⟩ : ∃ r, search.render { dialect := .eclipseLink } = .ok r := ⟨_, rfl⟩
  obtain ⟨level, hlevel, -, -, -, hparameters⟩ := parameters_of_render hr
  have hplain : ∀ site ∈ search.sites, site.Plain := by decide
  have hmentions : mentions level.tokens = ["name", "age", "name", "fallback"] := by
    rw [(covers_rendered hlevel).eq_of_plain hplain]
    rfl
  exact ⟨r, level, hr, hlevel, hmentions, hparameters hplain⟩

end Statement

end EntityQuery
