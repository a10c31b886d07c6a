import EntityQuery.Proofs.Literals.SetOperations
import EntityQuery.Render.Statement

/-!
The content of a literal cannot change the text around it. Whatever a literal holds, its statement
fails in the same way, or is written without it, or is written with it inside quotes, between two
texts that do not depend on it.

The induction is on the way to the blank. It needs that the blank is written once: a FROM clause
whose entries start at the same root writes the conditions of its joins once for each entry.
-/

namespace EntityQuery

/-- Whatever fills the blank, the body of a common table is written with one place for the content,
or does not depend on it, and neither does its width. -/
structure CteBody.Carries (b : String → CteBody) : Prop where
  tokens : ∀ ctx entity, Settled Holds fun content => (b content).tokens ctx entity
  width : ∀ content, (b content).width = (b "").width

/-- A query in a common table is written as it would be on its own. -/
theorem Query.Carries.body {q : String → Query} (h : Carries q) :
    CteBody.Carries fun content => .query (q content) where
  tokens ctx entity := by
    simp only [CteBody.tokens, h.limitedAnywhere]
    exact .ite _ (.const _) ((h.rendered ctx).bind fun _ hlevel => .pure hlevel)
  width content := h.width content

/-- A subquery has one place for the content if its query has. -/
theorem Expr.carries_subquery {q : String → Query} (h : Query.Carries q) :
    Carries fun content => .subquery (q content) := by
  intro l position
  simp only [tokens]
  exact (h.subqueryTokens _ _).bind fun _ hts => .pure hts.parenthesized

section Modifications

variable {once : Prop} {e : String → Expr} {ctx : RenderContext}

theorem Expr.Carries.assigned (he : Carries e) (l : Level) (before after : List (Expr × Expr))
    (value : Expr) : Settled (OneOf Holds) fun content =>
      Expr.assignmentTokens l (before ++ (e content, value) :: after) := by
  simp only [Expr.assignmentTokens_eq_mapM]
  refine .mapM (.intro before after ?_)
  simp only [Level.assignmentTokens]
  exact (he l .value).bind fun _ hts => .after _ fun _ => .pure ((hts.append _).append _)

theorem Expr.Carries.value (he : Carries e) (l : Level) (before after : List (Expr × Expr))
    (path : Expr) : Settled (OneOf Holds) fun content =>
      Expr.assignmentTokens l (before ++ (path, e content) :: after) := by
  simp only [Expr.assignmentTokens_eq_mapM]
  refine .mapM (.intro before after ?_)
  simp only [Level.assignmentTokens]
  exact .after _ fun _ => (he l .value).bind fun _ hts => .pure (hts.prepend _)

/-- What is written of a modification does not depend on the joins and the names of its target,
but for where paths lead. -/
theorem Update.tokens_target {t : String → Target Expr} (h : Target.Blank once t) (u : Update)
    (content : String) :
    Update.tokens ctx { u with target := t content } =
      Update.tokens ctx { u with target := t "" } := by
  have hbare := h.bare ctx content
  have htokens := Expr.tokens_of_bare hbare
  obtain ⟨hentity, haliasName⟩ := h.names content
  simp only [tokens_eq, Expr.assignmentTokens_congr htokens, Expr.optionTokens_congr htokens,
    Level.returningTokens_of_bare hbare, hentity, haliasName]
  rfl

theorem CollectionDelete.tokens_target {t : String → Target Expr} (h : Target.Blank once t)
    (d : CollectionDelete) (content : String) :
    CollectionDelete.tokens ctx { d with target := t content } =
      CollectionDelete.tokens ctx { d with target := t "" } := by
  have hbare := h.bare ctx content
  obtain ⟨hentity, haliasName⟩ := h.names content
  simp only [tokens_eq, Expr.optionTokens_congr (Expr.tokens_of_bare hbare),
    Level.deleteTokens_of_bare hbare, hentity, haliasName]

theorem Delete.tokens_target {t : String → Target Expr} (h : Target.Blank once t) (d : Delete)
    (content : String) :
    Delete.tokens ctx { d with target := t content } =
      Delete.tokens ctx { d with target := t "" } := by
  have hbare := h.bare ctx content
  obtain ⟨hentity, haliasName⟩ := h.names content
  simp only [tokens, Expr.optionTokens_congr (Expr.tokens_of_bare hbare),
    Level.deleteTokens_of_bare hbare, hentity, haliasName]

theorem Update.settled_assignments {bs : String → List (Expr × Expr)} (u : Update)
    (hempty : ∀ content, (bs content).isEmpty = false)
    (h : ∀ l, Settled (OneOf Holds) fun content => Expr.assignmentTokens l (bs content)) :
    Settled Holds fun content => Update.tokens ctx { u with assignments := bs content } := by
  simp only [tokens_eq, hempty]
  refine .ite _ (.const _) ((h _).bind fun _ hts => .after _ fun _ => .after _ fun _ => .pure ?_)
  exact (((hts.joined _).prepend _).append _).append _

theorem Update.settled_condition (he : Expr.Carries e) (u : Update) :
    Settled Holds fun content => Update.tokens ctx { u with condition := some (e content) } := by
  simp only [tokens_eq]
  refine .ite _ (.const _) (.after _ fun _ => ?_)
  refine (he.optionTokens _ .predicate).bind fun _ hwritten => .after _ fun _ => .pure ?_
  obtain ⟨ts, hts, rfl⟩ := hwritten
  exact ((hts.clauseTokens _).prepend _).append _

theorem Level.settled_deleteTokens (he : Expr.Carries e) (l : Level) (entity aliasName : String)
    (collection : Option String) (returning : List String) :
    Settled Holds fun content => l.deleteTokens entity aliasName collection
      (Expr.optionTokens l .predicate (some (e content))) returning := by
  simp only [deleteTokens]
  refine (he.optionTokens l .predicate).bind fun _ hwritten => .after _ fun _ => .pure ?_
  obtain ⟨ts, hts, rfl⟩ := hwritten
  exact ((hts.clauseTokens _).prepend _).append _

theorem CollectionDelete.settled_condition (he : Expr.Carries e) (d : CollectionDelete) :
    Settled Holds fun content =>
      CollectionDelete.tokens ctx { d with condition := some (e content) } := by
  simp only [tokens_eq]
  exact .ite _ (Level.settled_deleteTokens he _ _ _ _ _) (.const _)

theorem Delete.settled_condition (he : Expr.Carries e) (d : Delete) :
    Settled Holds fun content => Delete.tokens ctx { d with condition := some (e content) } := by
  simp only [tokens]
  exact Level.settled_deleteTokens he _ _ _ none _

end Modifications

theorem Update.Blank.returning {once : Prop} {u : String → Update} (h : Blank once u)
    (content : String) : (u content).returning = (u "").returning := by
  cases h <;> rfl

theorem CollectionDelete.Blank.returning {once : Prop} {d : String → CollectionDelete}
    (h : Blank once d) (content : String) : (d content).returning = (d "").returning := by
  cases h <;> rfl

mutual

theorem Expr.Blank.carries : ∀ {e : String → Expr}, Expr.Blank True e → Expr.Carries e
  | _, .literal => fun _ _ => .ok .literal
  | _, .scalar name => Expr.carries_parameter (fun _ => rfl) fun _ => rfl
  | _, .listed name before after => Expr.carries_parameter (fun _ => rfl) fun _ => by
      simp [Parameter.isMultiple, ParameterValue.isMultiple]
  | _, .argument function before after h hname =>
      Expr.carries_argument h h.carries function before after hname
  | _, .aggregated function before after distinct h =>
      Expr.carries_aggregated h.carries function before after distinct
  | _, .subquery h => Expr.carries_subquery h.carries
  | _, .index base h => fun _ _ => .const _
  | _, .caseOperand branches otherwise h => Expr.carries_caseOperand h.carries branches otherwise
  | _, .caseTest operand before after result otherwise h =>
      Expr.carries_caseTest h.carries operand before after result otherwise
  | _, .caseResult operand before after test otherwise h =>
      Expr.carries_caseResult h.carries operand before after test otherwise
  | _, .caseOtherwise operand branches h => Expr.carries_caseOtherwise h.carries operand branches
  | _, .left op right h => Expr.carries_left h h.carries op right
  | _, .right left op h => Expr.carries_right h h.carries left op
  | _, .not h => Expr.carries_not h h.carries
  | _, .isNull negated h => Expr.carries_isNull h.carries negated
  | _, .likeOperand pattern escape negated h =>
      Expr.carries_likeOperand h.carries pattern escape negated
  | _, .likePattern operand escape negated h =>
      Expr.carries_likePattern h.carries operand escape negated
  | _, .choiceOperand values negated h => Expr.carries_choiceOperand h.carries values negated
  | _, .choiceValue operand before after negated h =>
      Expr.carries_choiceValue h h.carries operand before after negated
  | _, .betweenOperand low high negated h => Expr.carries_betweenOperand h.carries low high negated
  | _, .betweenLow operand high negated h => Expr.carries_betweenLow h.carries operand high negated
  | _, .betweenHigh operand low negated h => Expr.carries_betweenHigh h.carries operand low negated
  | _, .parens h => Expr.carries_parens h.carries

theorem Query.Blank.carries : ∀ {q : String → Query}, Query.Blank True q → Query.Carries q
  | _, .select h => h.carries.query
  | _, .combined h => h.carries.query

theorem Select.Blank.carries : ∀ {s : String → Select}, Select.Blank True s → Select.Carries s
  | _, .table s before after cte h =>
      Select.carries_table h.carries.tokens h.carries.width before after cte
  | _, .item s before after aliasName h => Select.carries_item h.carries before after aliasName
  | _, .joins s h hwritten => by
      obtain ⟨e, he, hid⟩ := h.carries
      exact Select.carries_joins h he hid (hwritten trivial)
  | _, .aliases s h => Select.carries_aliases h
  | _, .condition s h => Select.carries_condition h.carries
  | _, .group s before after h => Select.carries_group h.carries before after
  | _, .having s h => Select.carries_having h.carries
  | _, .order s before after direction nulls h =>
      Select.carries_order h.carries before after direction nulls

theorem JoinGraph.Blank.carries : ∀ {id : NodeId} {g : String → JoinGraph Expr},
    JoinGraph.Blank True id g →
      ∃ e, Expr.Carries e ∧ ∀ content, (g content).condition? id = some (e content)
  | _, _, .condition before after n roots h =>
      ⟨_, h.carries, fun content => by simp [JoinGraph.condition?, JoinGraph.node?]⟩

theorem SetOperation.Blank.carries : ∀ {c : String → SetOperation},
    SetOperation.Blank True c → SetOperation.Carries c
  | _, .start c h => SetOperation.carries_start h.carries
  | _, .operand c before after h => SetOperation.carries_operand h.carries before after
  | _, .order c before after direction nulls h =>
      SetOperation.carries_order h.carries before after direction nulls

theorem CteBody.Blank.carries : ∀ {b : String → CteBody}, CteBody.Blank True b → CteBody.Carries b
  | _, .query h => h.carries.body
  | _, .update h => {
      tokens := fun ctx _ => h.settled_tokens ctx
      width := fun content => congrArg List.length (h.returning content) }
  | _, .collectionDelete h => {
      tokens := fun ctx _ => h.settled_tokens ctx
      width := fun content => congrArg List.length (h.returning content) }

theorem Update.Blank.settled_tokens : ∀ {u : String → Update}, Update.Blank True u →
    ∀ ctx, Settled Holds fun content => (u content).tokens ctx
  | _, .target u h => fun _ => .same (u.tokens_target h)
  | _, .assigned u before after value h => fun _ =>
      u.settled_assignments (fun _ => isEmpty_append_cons ..) fun l =>
        h.carries.assigned l before after value
  | _, .value u before after path h => fun _ =>
      u.settled_assignments (fun _ => isEmpty_append_cons ..) fun l =>
        h.carries.value l before after path
  | _, .condition u h => fun _ => u.settled_condition h.carries

theorem CollectionDelete.Blank.settled_tokens : ∀ {d : String → CollectionDelete},
    CollectionDelete.Blank True d → ∀ ctx, Settled Holds fun content => (d content).tokens ctx
  | _, .target d h => fun _ => .same (d.tokens_target h)
  | _, .condition d h => fun _ => d.settled_condition h.carries

end

theorem Delete.Blank.settled_tokens {d : String → Delete} (h : Blank True d) (ctx : RenderContext) :
    Settled Holds fun content => (d content).tokens ctx := by
  cases h with
  | target d h => exact .same (d.tokens_target h)
  | condition d h => exact d.settled_condition (h.carries)

theorem Statement.Blank.settled_rendered {x : String → Statement} (h : Blank True x)
    (ctx : RenderContext) :
    Settled RenderedLevel.Carries fun content => (x content).rendered ctx := by
  cases h with
  | select h => exact (h.carries).rendered ctx
  | update h => exact (h.settled_tokens ctx).bind fun _ hts => .pure hts
  | delete h => exact (h.settled_tokens ctx).bind fun _ hts => .pure hts
  | collectionDelete h => exact (h.settled_tokens ctx).bind fun _ hts => .pure hts

namespace Statement

/-- The content of a blank is confined: the statement fails in the same way whatever the content
is, or has a text without it, or a text with the content as one literal, quoted again as often as
it stands in text that is passed as an argument. -/
def Confines (ctx : RenderContext) (x : String → Statement) : Prop :=
  (∃ e, ∀ content, (x content).render ctx = .error e) ∨
  (∃ text, ∀ content, ∃ r, (x content).render ctx = .ok r ∧ r.text = text) ∨
  ∃ (place : Place) (pre post : String),
    (∀ content, ∃ level, (x content).rendered ctx = .ok level ∧
      level.tokens = place.fill content) ∧
    ∀ content, ∃ r, (x content).render ctx = .ok r ∧
      r.text = pre ++ Quoted.doubled^[place.depth] ("'" ++ Quoted.doubled content ++ "'") ++ post

/-- No literal breaks out of its quotes, in any statement and context, unless it is in a condition
that a FROM clause writes several times. -/
theorem confines_of_blank (ctx : RenderContext) {x : String → Statement} (h : Blank True x) :
    Confines ctx x := by
  cases h.settled_rendered ctx with
  | @same y hsame =>
      cases y with
      | error e => exact .inl ⟨e, fun content => by rw [render, hsame]; rfl⟩
      | ok level =>
          refine .inr (.inl ⟨tokensText ctx.dialect level.tokens, fun content => ?_⟩)
          rw [render, hsame]
          exact ⟨_, rfl, rfl⟩
  | @value level hlevel hholds =>
      obtain ⟨place, hplace⟩ := hholds
      obtain ⟨pre, post, htext⟩ := place.exists_text ctx.dialect
      refine .inr (.inr ⟨place, pre, post, fun content => ⟨_, hlevel content, hplace content⟩,
        fun content => ?_⟩)
      rw [render, hlevel]
      exact ⟨_, rfl, (congrArg _ (hplace content)).trans (htext content)⟩

/-- In a confined text, a letter takes the room of one letter. -/
theorem Confines.length_le {ctx : RenderContext} {x : String → Statement} (h : Confines ctx x)
    {r r' : RenderedQuery} (hr : (x "").render ctx = .ok r) (hr' : (x "a").render ctx = .ok r') :
    r'.text.length ≤ r.text.length + 1 := by
  obtain ⟨e, herror⟩ | ⟨text, htext⟩ | ⟨place, pre, post, -, htext⟩ := h
  · rw [herror] at hr
    cases hr
  · obtain ⟨_, hempty, rfl⟩ := htext ""
    obtain ⟨_, hletter, heq⟩ := htext "a"
    cases hr.symm.trans hempty
    cases hr'.symm.trans hletter
    rw [heq]
    omega
  · obtain ⟨_, hempty, hpre⟩ := htext ""
    obtain ⟨_, hletter, hpost⟩ := htext "a"
    cases hr.symm.trans hempty
    cases hr'.symm.trans hletter
    have hplain : Quoted.doubled "a" = "a" := by decide
    have hnone : Quoted.doubled "" = "" := by decide
    rw [hpre, hpost, hplain, hnone]
    simp only [Quoted.doubled_iterate_append, String.length_append,
      Function.iterate_fixed hplain, Function.iterate_fixed hnone]
    have hlength : "a".length = 1 := by decide
    omega

/-- People and companies together. -/
def parties : SetOperation where
  operator := some .union
  start := .select {
    joins := { nodes := [{ aliasName := "p", source := .root "Person" }], roots := [0] }
    aliases := ⟨[("p", .join "p" 0 false)]⟩ }
  operands := [.select {
    joins := { nodes := [{ aliasName := "c", source := .root "Company" }], roots := [0] }
    aliases := ⟨[("c", .join "c" 0 false)]⟩ }]

/-- The parties by name, those without a name under a given one. -/
def ranking (content : String) : Statement :=
  .select (.combined { parties with
    orderBy := [⟨.call "COALESCE" [.ofPath "name", .literal (.string content)], .asc, none⟩] })

theorem blank_ranking : Blank True ranking :=
  .select (.combined (.order parties [] [] .asc none
    (.argument "COALESCE" [.ofPath "name"] [] .literal nofun)))

/-- The literal is quoted again in the order that is passed to the function for unions. -/
theorem confines_ranking :
    Blank True ranking ∧ ∃ (place : Place) (pre post : String),
      (∀ content, ∃ level, (ranking content).rendered { dialect := .eclipseLink } = .ok level ∧
        level.tokens = place.fill content) ∧
      ∀ content, ∃ r, (ranking content).render { dialect := .eclipseLink } = .ok r ∧
        r.text = pre ++ Quoted.doubled^[place.depth] ("'" ++ Quoted.doubled content ++ "'")
          ++ post := by
  refine ⟨blank_ranking, ?_⟩
  have hempty :
      ((ranking "").render { dialect := .eclipseLink }).map (·.text.length) = .ok 110 := by
    decide +kernel
  have hletter :
      ((ranking "a").render { dialect := .eclipseLink }).map (·.text.length) = .ok 111 := by
    decide +kernel
  obtain ⟨e, herror⟩ | ⟨text, htext⟩ | hplace :=
    confines_of_blank { dialect := .eclipseLink } blank_ranking
  · rw [herror] at hempty
    cases hempty
  · obtain ⟨r, hr, rfl⟩ := htext ""
    obtain ⟨r', hr', heq⟩ := htext "a"
    rw [hr] at hempty
    rw [hr', Except.map, heq] at hletter
    cases hempty.symm.trans hletter
  · exact hplace

example : (ranking "it's").render { dialect := .eclipseLink } = .ok { text :=
    "FUNCTION('SET_UNION',(SELECT p FROM Person p),(SELECT c FROM Company c)," ++
      "'ORDER_BY','COALESCE(name, ''it''''s'') ASC')" } := by
  decide +kernel

/-- People with their phones. -/
def people : Select where
  aliases := ⟨[("p", .join "p" 0 false), ("q", .join "q" 1 false)]⟩

/-- The phones of one kind. The FROM clause starts twice at the same root. -/
def phones (content : String) : Statement :=
  .select (.select { people with
    joins := ⟨[{ aliasName := "p", source := .root "Person" },
      { aliasName := "q", source := .ofEntity "Phone", parent := some 0,
        condition := some (.binary (.ofPath "q.kind") .eq (.literal (.string content))) }],
      [0, 0]⟩ })

theorem blank_phones : Blank False phones :=
  .select (.select (.joins people (.condition [{ aliasName := "p", source := .root "Person" }] []
    { aliasName := "q", source := .ofEntity "Phone", parent := some 0 } [0, 0]
    (.right (.ofPath "q.kind") .eq .literal)) False.elim))

/-- A condition that is written twice holds the content twice. -/
theorem not_confines_phones :
    ¬ ∀ (ctx : RenderContext) (x : String → Statement), Blank False x → Confines ctx x := by
  intro h
  obtain ⟨r, hr, hempty⟩ : ∃ r, (phones "").render { dialect := .hibernate } = .ok r ∧
      r.text.length = 95 := ⟨_, rfl, by decide⟩
  obtain ⟨r', hr', hletter⟩ : ∃ r, (phones "a").render { dialect := .hibernate } = .ok r ∧
      r.text.length = 97 := ⟨_, rfl, by decide⟩
  have hlength := (h { dialect := .hibernate } phones blank_phones).length_le hr hr'
  omega

end Statement

end EntityQuery
