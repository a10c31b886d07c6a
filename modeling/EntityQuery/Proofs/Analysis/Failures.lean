import EntityQuery.Proofs.Analysis.Removal

/-!
Replacements of sizes that fail. A size is counted under the node that its owner names. If the
first one of a level is to be counted under a node that does not exist, the replacement fails, and
then the clause that it was working on is lost. It fails for no other reason.
-/

namespace EntityQuery

namespace SizeState

variable {α β : Type} {scope : SizeScope} {clause : ClauseKind} {state : SizeState}
  {parent : Option NodeId} {ps qs : List Path}

/-- How a step ends that may count under a node, or finds none to count under. -/
inductive Outcome (state : SizeState) (parent : Option NodeId) :
    Except QueryError (α × SizeState) → Prop
  | unchanged (a : α) (h : parent = none) : Outcome state parent (.ok (a, state))
  | missing {id : NodeId} (h : parent = some id) (hnode : state.joins.node? id = none) :
      Outcome state parent (.error (.unresolved (.node id)))
  | counted (a : α) {id : NodeId} {next : SizeState} (h : parent = some id)
      (hnode : (state.joins.node? id).isSome = true) (hcounted : next.counted = true) :
      Outcome state parent (.ok (a, next))

/-- How the replacement of the sizes of some paths ends. The first one that has a node to be counted
under is counted, unless nothing is. -/
structure Ends (scope : SizeScope) (clause : ClauseKind) (ps : List Path)
    (step : SizeState → Except QueryError (α × SizeState)) : Prop where
  counting : ∀ state, scope.strategy state clause = .count →
    Outcome state (ps.findSome? state.aliases.countParent?) (step state)
  plain : ∀ state, scope.strategy state clause = .subquery → ∃ a, step state = .ok (a, state)

theorem Outcome.map {x : Except QueryError (α × SizeState)} (h : Outcome state parent x)
    (f : α × SizeState → β) :
    Outcome state parent (x >>= fun r => pure (f r, r.2)) := by
  cases h with
  | unchanged a h => exact .unchanged _ h
  | missing h hnode => exact .missing h hnode
  | counted a h hnode hcounted => exact .counted _ h hnode hcounted

theorem outcome_joinCollection (state : SizeState) (id : NodeId) (collection aliasName : String) :
    Outcome state (some id) (state.joinCollection id collection aliasName) := by
  rw [joinCollection, JoinGraph.join, JoinGraph.pushUnder, JoinGraph.require]
  cases hnode : state.joins.node? id with
  | none => exact .missing rfl hnode
  | some n => exact .counted _ rfl (by rw [hnode]; rfl) rfl

theorem strategy_of_counted (scope : SizeScope) (clause : ClauseKind)
    (h : state.counted = true) : scope.strategy state clause = .subquery := by
  simp [SizeScope.strategy, h]

theorem strategy_of_not_allowsCount (scope : SizeScope) (state : SizeState)
    (h : clause.allowsCount = false) : scope.strategy state clause = .subquery := by
  simp [SizeScope.strategy, h]

theorem ends_pure (a : α) : Ends scope clause [] fun state => .ok (a, state) where
  counting _ _ := .unchanged a rfl
  plain _ _ := ⟨a, rfl⟩

/-- After a size has been counted, no other is. -/
theorem Ends.bind {step : SizeState → Except QueryError (α × SizeState)}
    {next : α → SizeState → Except QueryError (β × SizeState)} (h : Ends scope clause ps step)
    (hnext : ∀ a, Ends scope clause qs (next a)) :
    Ends scope clause (ps ++ qs) fun state => step state >>= fun r => next r.1 r.2 where
  counting state hcount := by
    have houtcome := h.counting state hcount
    rw [List.findSome?_append]
    generalize step state = result at houtcome
    cases houtcome with
    | unchanged a hnone =>
        rw [hnone, Option.none_or]
        exact (hnext a).counting state hcount
    | missing hsome hnode =>
        rw [hsome]
        exact .missing rfl hnode
    | @counted a id after hsome hnode hcounted =>
        rw [hsome]
        obtain ⟨b, hb⟩ := (hnext a).plain after (strategy_of_counted scope clause hcounted)
        rw [ok_bind, hb]
        exact .counted b rfl hnode hcounted
  plain state hplain := by
    obtain ⟨a, ha⟩ := h.plain state hplain
    obtain ⟨b, hb⟩ := (hnext a).plain state hplain
    exact ⟨b, bind_eq_ok.2 ⟨(a, state), ha, hb⟩⟩

theorem ends_replaceSize? (scope : SizeScope) (clause : ClauseKind) (p : Path) :
    Ends scope clause [p] (replaceSize? scope clause p) where
  counting state hcount := by
    rw [List.findSome?_singleton]
    have hcases := replacedSize scope clause p state
    generalize replaceSize? scope clause p state = result at hcases
    cases hcases with
    | ownerless h => exact .unchanged _ (AliasTable.countParent?_eq_none h)
    | subquery _ _ _ h =>
        rcases h with hnone | hsubquery
        · exact .unchanged _ hnone
        · cases hcount.symm.trans hsubquery
    | @count _ collection aliasName parent helements hparent =>
        rw [AliasTable.countParent?, helements]
        dsimp only
        rw [hparent]
        exact (outcome_joinCollection state parent collection aliasName).map _
  plain state hplain := by
    have hcases := replacedSize scope clause p state
    generalize replaceSize? scope clause p state = result at hcases
    cases hcases with
    | ownerless => exact ⟨_, rfl⟩
    | subquery => exact ⟨_, rfl⟩
    | count _ _ hcount => cases hplain.symm.trans hcount

theorem walk_ends (scope : SizeScope) (clause : ClauseKind) :
    SizeWalk scope clause fun _ ps step => Ends scope clause ps step where
  pure := ends_pure
  bind h hnext := h.bind hnext
  size := ends_replaceSize? scope clause

/-- In some clauses nothing is counted, and then nothing fails. -/
theorem Ends.exists_ok {step : SizeState → Except QueryError (α × SizeState)}
    (h : Ends scope clause ps step) (hclause : clause.allowsCount = false) (state : SizeState) :
    ∃ a, step state = .ok (a, state) :=
  h.plain state (strategy_of_not_allowsCount scope state hclause)

theorem ends_option (scope : SizeScope) (clause : ClauseKind) (e? : Option Expr) :
    Ends scope clause (e?.toList.flatMap Expr.sizePaths)
      (Expr.replaceSizesOption scope clause e?) :=
  Expr.walks_option (walk_ends scope clause) fun e _ => e.walks (walk_ends scope clause)

theorem ends_list (scope : SizeScope) (clause : ClauseKind) (es : List Expr) :
    Ends scope clause (es.flatMap Expr.sizePaths) (Expr.replaceSizesList scope clause es) :=
  Expr.walks_list (walk_ends scope clause) fun e _ => e.walks (walk_ends scope clause)

theorem succeeds_replaceInConditions (scope : SizeScope) (ids : List NodeId) (state : SizeState) :
    Succeeds (state.replaceInConditions scope ids) := by
  induction ids generalizing state with
  | nil => exact succeeds_ok state
  | cons id rest ih =>
      rw [replaceInConditions]
      split
      next => exact ih state
      next e _ =>
        obtain ⟨e', he⟩ := (e.walks (walk_ends scope .join)).exists_ok rfl state
        rw [he]
        exact ih _

end SizeState

open SizeState (Outcome)

namespace Select

variable {s s' : Select} {counted : Bool}

/-- The node that the first size of a level is counted under, if any is counted. -/
def countParent? (s : Select) : Option NodeId :=
  s.countablePaths.findSome? s.aliases.countParent?

/-- Whether the first size of a level would be counted under a node that does not exist. -/
structure Dangling (s : Select) (id : NodeId) : Prop where
  strategy : s.sizeStrategy .select = .count
  first : s.countParent? = some id
  missing : s.joins.node? id = none

/-- What is left of a level without the clause that a replacement was working on. If this is the
order, the sizes of the selected items have been replaced; nothing else has changed. -/
inductive Spoiled (s : Select) : Select → Prop
  | items (h : s.items ≠ []) : s.Spoiled { s with items := [] }
  | orderBy {items : List (SelectItem Expr)} (h : s.orderBy ≠ [])
      (hitems : List.Forall₂ SelectItem.Resized s.items items) :
      s.Spoiled { s with items := items, orderBy := [] }

theorem Spoiled.ne (h : s.Spoiled s') : s' ≠ s := by
  intro heq
  cases h with
  | items h => exact h (congrArg Select.items heq).symm
  | orderBy h => exact h (congrArg Select.orderBy heq).symm

/-- How a replacement of the sizes of a level ends. -/
inductive Ending (s : Select) (counted : Bool) : Except SizeFailure Select → Prop
  | ok {s' : Select} (h : counted = false → ∀ id, ¬s.Dangling id) : s.Ending counted (.ok s')
  | error {id : NodeId} {left : Select} (hfirst : counted = false) (h : s.Dangling id)
      (hleft : s.Spoiled left) : s.Ending counted (.error ⟨.unresolved (.node id), left⟩)

theorem replaceSizesAfter_of_items_error {e : QueryError}
    (h : SelectItem.replaceSizesList ⟨s.distinct, s.groupBy⟩ s.items
      ⟨s.joins, s.aliases, counted⟩ = .error e) :
    s.replaceSizesAfter counted = .error ⟨e, { s with items := [] }⟩ := by
  rw [replaceSizesAfter]
  simp only [h]
  rfl

theorem replaceSizesAfter_of_orderBy_error {e : QueryError} {items : List (SelectItem Expr)}
    {state : SizeState}
    (hitems : SelectItem.replaceSizesList ⟨s.distinct, s.groupBy⟩ s.items
      ⟨s.joins, s.aliases, counted⟩ = .ok (items, state))
    (h : OrderItem.replaceSizesList ⟨s.distinct, s.groupBy⟩ s.orderBy state = .error e) :
    s.replaceSizesAfter counted =
      .error ⟨e, { s.withState state with items := items, orderBy := [] }⟩ := by
  rw [replaceSizesAfter]
  simp only [hitems, SizeFailure.attempt_ok, ok_bind, withState, h]
  rfl

/-- After the first two clauses, a replacement cannot fail any more. -/
theorem succeeds_of_orderBy_ok {items : List (SelectItem Expr)} {orderBy : List (OrderItem Expr)}
    {state next : SizeState}
    (hitems : SelectItem.replaceSizesList ⟨s.distinct, s.groupBy⟩ s.items
      ⟨s.joins, s.aliases, counted⟩ = .ok (items, state))
    (h : OrderItem.replaceSizesList ⟨s.distinct, s.groupBy⟩ s.orderBy state =
      .ok (orderBy, next)) : Succeeds (s.replaceSizesAfter counted) := by
  let scope : SizeScope := ⟨s.distinct, s.groupBy⟩
  obtain ⟨condition, hcondition⟩ :=
    (SizeState.ends_option scope .condition s.condition).exists_ok rfl next
  obtain ⟨groupBy, hgroup⟩ := (SizeState.ends_list scope .groupBy s.groupBy).exists_ok rfl next
  obtain ⟨having, hhaving⟩ := (SizeState.ends_option scope .having s.having).exists_ok rfl next
  obtain ⟨last, hlast⟩ :=
    SizeState.succeeds_replaceInConditions scope next.joins.depthFirst next
  rw [replaceSizesAfter]
  simp only [hitems, SizeFailure.attempt_ok, ok_bind, withState, h, scope, hcondition, hgroup,
    hhaving, hlast, succeeds_pure]

theorem strategy_eq_count_iff (s : Select) (counted : Bool) :
    SizeScope.strategy ⟨s.distinct, s.groupBy⟩ ⟨s.joins, s.aliases, counted⟩ .select = .count ↔
      counted = false ∧ s.sizeStrategy .select = .count := by
  cases counted with
  | false => simp [sizeStrategy]
  | true => simp [SizeScope.strategy]

theorem countParent?_eq (s : Select) : s.countParent? =
    ((s.items.flatMap fun i => i.expr.sizePaths).findSome? s.aliases.countParent?).or
      ((s.orderBy.flatMap fun i => i.expr.sizePaths).findSome? s.aliases.countParent?) :=
  List.findSome?_append

theorem not_dangling_of_none (h : s.countParent? = none) (id : NodeId) : ¬s.Dangling id := by
  intro hdangling
  cases h.symm.trans hdangling.first

theorem not_dangling_of_node {parent : NodeId} (h : s.countParent? = some parent)
    (hnode : (s.joins.node? parent).isSome = true) (id : NodeId) : ¬s.Dangling id := by
  intro hdangling
  obtain rfl := Option.some.inj (h.symm.trans hdangling.first)
  rw [hdangling.missing] at hnode
  cases hnode

/-- The selected items come first, then the order. Only as long as nothing has been counted can a
replacement fail. -/
theorem ending_replaceSizesAfter (s : Select) (counted : Bool) :
    s.Ending counted (s.replaceSizesAfter counted) := by
  let scope : SizeScope := ⟨s.distinct, s.groupBy⟩
  let state : SizeState := ⟨s.joins, s.aliases, counted⟩
  have hitems := SelectItem.walks_list (SizeState.walk_ends scope .select) s.items
  have horder := OrderItem.walks_list (SizeState.walk_ends scope .orderBy) s.orderBy
  have hparent := s.countParent?_eq
  cases hstrategy : scope.strategy state .select with
  | subquery =>
      obtain ⟨items, hselect⟩ := hitems.plain state hstrategy
      obtain ⟨orderBy, hsorted⟩ := horder.plain state hstrategy
      obtain ⟨s', hok⟩ := succeeds_of_orderBy_ok hselect hsorted
      rw [hok]
      refine .ok fun hfirst id hdangling => ?_
      have hcount := (strategy_eq_count_iff s counted).2 ⟨hfirst, hdangling.strategy⟩
      cases hstrategy.symm.trans hcount
  | count =>
      have hcount := (strategy_eq_count_iff s counted).1 hstrategy
      have hselected := hitems.counting state hstrategy
      generalize hselect : SelectItem.replaceSizesList scope s.items state = result at hselected
      cases hselected with
      | missing hsome hnode =>
          rw [hsome] at hparent
          rw [replaceSizesAfter_of_items_error hselect]
          refine .error hcount.1 ⟨hcount.2, hparent, hnode⟩ (.items fun hnil => ?_)
          rw [hnil] at hsome
          cases hsome
      | counted items hsome hnode hcounted =>
          rw [hsome] at hparent
          obtain ⟨orderBy, hsorted⟩ :=
            horder.plain _ (SizeState.strategy_of_counted scope .orderBy hcounted)
          obtain ⟨s', hok⟩ := succeeds_of_orderBy_ok hselect hsorted
          rw [hok]
          exact .ok fun _ => not_dangling_of_node hparent hnode
      | unchanged items hnone =>
          rw [hnone, Option.none_or] at hparent
          have hordered := horder.counting state hstrategy
          generalize hsorted : OrderItem.replaceSizesList scope s.orderBy state = result
            at hordered
          cases hordered with
          | missing hsome hnode =>
              have hasked : ∀ i ∈ s.items, i.expr.Asks .select fun _ => True :=
                fun _ _ _ _ _ => trivial
              obtain ⟨hresized, -⟩ := SelectItem.steps_list hasked _ _ _ hselect
              rw [replaceSizesAfter_of_orderBy_error hselect hsorted]
              refine .error hcount.1 ⟨hcount.2, hparent.trans hsome, hnode⟩
                (.orderBy (fun hnil => ?_) hresized)
              rw [hnil] at hsome
              cases hsome
          | counted orderBy hsome hnode =>
              obtain ⟨s', hok⟩ := succeeds_of_orderBy_ok hselect hsorted
              rw [hok]
              exact .ok fun _ => not_dangling_of_node (hparent.trans hsome) hnode
          | unchanged orderBy hnone =>
              obtain ⟨s', hok⟩ := succeeds_of_orderBy_ok hselect hsorted
              rw [hok]
              exact .ok fun _ => not_dangling_of_none (hparent.trans hnone)

/-- A replacement of sizes fails exactly if none has counted before and the first size would be
counted under a node that does not exist. It then says which node is missing, and it does not leave
the level as it was: the select clause or the order is lost. -/
theorem failed_replaceSizes (s : Select) (counted : Bool) :
    ((∃ failure, s.replaceSizesAfter counted = .error failure) ↔
      counted = false ∧ ∃ id, s.Dangling id) ∧
    ∀ failure, s.replaceSizesAfter counted = .error failure →
      (∃ id, s.Dangling id ∧ failure.error = .unresolved (.node id)) ∧
      s.Spoiled failure.left ∧ failure.left ≠ s := by
  have hending := s.ending_replaceSizesAfter counted
  generalize s.replaceSizesAfter counted = result at hending
  cases hending with
  | ok h =>
      refine ⟨⟨?_, fun ⟨hfirst, id, hdangling⟩ => absurd hdangling (h hfirst id)⟩, ?_⟩
      · rintro ⟨failure, ⟨⟩⟩
      · rintro failure ⟨⟩
  | @error id left hfirst h hleft =>
      refine ⟨⟨fun _ => ⟨hfirst, id, h⟩, fun _ => ⟨_, rfl⟩⟩, ?_⟩
      rintro _ ⟨⟩
      exact ⟨⟨id, h, rfl⟩, hleft, hleft.ne⟩

/-- `SELECT d.name, SIZE(x.people) FROM Document d`, where `x` names a node that does not exist. -/
def nameless : Select where
  items := [⟨.ofPath "d.name", none⟩, ⟨.size (.ofPath "x.people"), none⟩]
  joins := { nodes := [{ aliasName := "d", source := .root "Document" }], roots := [0] }
  aliases := ⟨[("d", .join "d" 0 false), ("x", .join "x" 7 false)]⟩

theorem failed_replaceSizes_nameless : nameless.Dangling 7 ∧
    ∃ failure, nameless.replaceSizes = .error failure ∧
      failure.error = .unresolved (.node 7) ∧ nameless.Spoiled failure.left := by
  have hdangling : nameless.Dangling 7 := ⟨rfl, rfl, rfl⟩
  obtain ⟨failure, hfailed⟩ := (failed_replaceSizes nameless false).1.2 ⟨rfl, 7, hdangling⟩
  obtain ⟨⟨id, hid, herror⟩, hspoiled, -⟩ :=
    (failed_replaceSizes nameless false).2 failure hfailed
  obtain rfl := Option.some.inj (hdangling.first.symm.trans hid.first)
  exact ⟨hdangling, failure, hfailed, herror, hspoiled⟩

/-- The failure leaves nothing to select. -/
theorem not_left_alone_nameless :
    ¬∀ failure, nameless.replaceSizes = .error failure → failure.left = nameless := by
  intro h
  have hfailed : ∃ left, nameless.replaceSizes = .error ⟨.unresolved (.node 7), left⟩ ∧
      left.items = [] := ⟨_, rfl, rfl⟩
  obtain ⟨left, hleft, hitems⟩ := hfailed
  have hsame : left = nameless := h _ hleft
  rw [hsame] at hitems
  cases hitems

end Select

end EntityQuery
