import EntityQuery.Proofs.Analysis.Groups
import EntityQuery.Proofs.Analysis.Replaced

/-!
Replacing the sizes of a query level. It cannot fail on a level that was put together by calls, it
leaves no size of a path with an owner, and it touches nothing else: at most one collection is
joined after all other nodes, and groups are added only then. So a second replacement finds nothing
to do.
-/

namespace EntityQuery

open SizeState (Steps)

variable {scope : SizeScope} {asked : Path → Prop}

/-- A selected item with its sizes replaced. -/
structure SelectItem.Resized (i i' : SelectItem Expr) : Prop where
  aliasName : i'.aliasName = i.aliasName
  expr : i.expr.Resized i'.expr

/-- An item of an order with its sizes replaced. -/
structure OrderItem.Resized (i i' : OrderItem Expr) : Prop where
  direction : i'.direction = i.direction
  nulls : i'.nulls = i.nulls
  expr : i.expr.Resized i'.expr

/-- A join node with the sizes in its condition replaced. -/
structure JoinNode.Resized (n n' : JoinNode Expr) : Prop where
  same : n' = { n with condition := n'.condition }
  condition : Option.Rel Expr.Resized n.condition n'.condition

theorem SelectItem.Resized.eq_of_sizeFree {i i' : SelectItem Expr} (h : i.Resized i')
    (hfree : i.expr.SizeFree) : i' = i := by
  obtain ⟨e, a⟩ := i
  obtain ⟨e', a'⟩ := i'
  obtain ⟨rfl, hexpr⟩ := h
  exact congrArg (SelectItem.mk · a') (hexpr.unchanged hfree)

theorem OrderItem.Resized.eq_of_sizeFree {i i' : OrderItem Expr} (h : i.Resized i')
    (hfree : i.expr.SizeFree) : i' = i := by
  obtain ⟨e, direction, nulls⟩ := i
  obtain ⟨e', direction', nulls'⟩ := i'
  obtain ⟨rfl, rfl, hexpr⟩ := h
  exact congrArg (OrderItem.mk · direction' nulls') (hexpr.unchanged hfree)

theorem JoinNode.Resized.eq_of_sizeFree {n n' : JoinNode Expr} (h : n.Resized n')
    (hfree : ∀ e ∈ n.condition, e.SizeFree) : n' = n := by
  rw [h.same, Expr.eq_of_rel h.condition hfree]

theorem SelectItem.steps_list {is : List (SelectItem Expr)}
    (h : ∀ i ∈ is, i.expr.Asks .select asked) :
    Steps asked (List.Forall₂ SelectItem.Resized is) (SelectItem.replaceSizesList scope is) := by
  induction is with
  | nil => exact SizeState.steps_pure .nil
  | cons i rest ih =>
      obtain ⟨hi, hrest⟩ := List.forall_mem_cons.1 h
      refine (i.expr.replaces hi).bind fun e he => (ih hrest).map ({ i with expr := e } :: ·) ?_
      exact fun _ => .cons ⟨rfl, he⟩

theorem OrderItem.steps_list {is : List (OrderItem Expr)}
    (h : ∀ i ∈ is, i.expr.Asks .orderBy asked) :
    Steps asked (List.Forall₂ OrderItem.Resized is) (OrderItem.replaceSizesList scope is) := by
  induction is with
  | nil => exact SizeState.steps_pure .nil
  | cons i rest ih =>
      obtain ⟨hi, hrest⟩ := List.forall_mem_cons.1 h
      refine (i.expr.replaces hi).bind fun e he => (ih hrest).map ({ i with expr := e } :: ·) ?_
      exact fun _ => .cons ⟨rfl, rfl, he⟩

/-- In some clauses nothing is counted. -/
theorem Expr.asks_none {clause : ClauseKind} (h : clause.allowsCount = false) (e : Expr) :
    e.Asks clause fun _ => False :=
  fun hallowed => absurd (h.symm.trans hallowed) Bool.false_ne_true

namespace SizeState

/-- A state after the sizes in the conditions of some nodes have been replaced. -/
structure ConditionsResized (ids : List NodeId) (state next : SizeState) : Prop where
  same : next = { state with joins := next.joins }
  roots : next.joins.roots = state.joins.roots
  nodes : ∀ id, Option.Rel (fun n n' => if id ∈ ids then JoinNode.Resized n n' else n' = n)
    (state.joins.node? id) (next.joins.node? id)

theorem ConditionsResized.refl (state : SizeState) : state.ConditionsResized [] state where
  same := rfl
  roots := rfl
  nodes id := by
    cases state.joins.node? id with
    | none => exact .none
    | some n => exact .some (by simp)

theorem ConditionsResized.cons {id : NodeId} {ids : List NodeId} {state middle next : SizeState}
    (hid : id ∉ ids) (h : state.ConditionsResized [id] middle)
    (h' : middle.ConditionsResized ids next) : state.ConditionsResized (id :: ids) next where
  same := by rw [h'.same, h.same]
  roots := h'.roots.trans h.roots
  nodes other := by
    have hfirst := h.nodes other
    have hrest := h'.nodes other
    generalize state.joins.node? other = start, middle.joins.node? other = between,
      next.joins.node? other = final at hfirst hrest
    cases hfirst with
    | none =>
        cases hrest
        exact .none
    | some hfirst =>
        cases hrest with
        | some hrest =>
            refine .some ?_
            rcases eq_or_ne other id with rfl | hne
            · rw [if_neg hid] at hrest
              rw [if_pos List.mem_cons_self, hrest]
              rwa [if_pos (List.mem_singleton.2 rfl)] at hfirst
            · rw [if_neg (by simpa using hne)] at hfirst
              simpa [hne, hfirst] using hrest

/-- A condition that is put back with its sizes replaced. -/
theorem conditionsResized_setCondition {state : SizeState} {id : NodeId} {e e' : Expr}
    (hcondition : (state.joins.node? id).bind JoinNode.condition = some e) (h : e.Resized e') :
    state.ConditionsResized [id] { state with
      joins := state.joins.modify id fun n => { n with condition := some e' } } where
  same := rfl
  roots := rfl
  nodes other := by
    rw [JoinGraph.node?_modify]
    rcases eq_or_ne id other with rfl | hne
    · obtain ⟨n, hn, hsome⟩ := Option.bind_eq_some_iff.1 hcondition
      rw [if_pos rfl, hn, Option.map_some]
      exact .some (by simpa using ⟨rfl, hsome ▸ .some h⟩)
    · rw [if_neg hne]
      cases state.joins.node? other with
      | none => exact .none
      | some n => exact .some (by simp [hne.symm])

theorem conditionsResized_none {state : SizeState} {id : NodeId}
    (hcondition : (state.joins.node? id).bind JoinNode.condition = none) :
    state.ConditionsResized [id] state where
  same := rfl
  roots := rfl
  nodes other := by
    cases hn : state.joins.node? other with
    | none => exact .none
    | some n =>
        refine .some ?_
        split
        next hother =>
          obtain rfl := List.mem_singleton.1 hother
          rw [hn, Option.bind_some] at hcondition
          exact ⟨rfl, hcondition ▸ .none⟩
        next => rfl

/-- The conditions of different nodes, one after another. Nothing is counted on the way. -/
theorem conditionsResized_replaceInConditions {ids : List NodeId} (hids : ids.Nodup)
    {state next : SizeState} (h : state.replaceInConditions scope ids = .ok next) :
    state.ConditionsResized ids next := by
  induction ids generalizing state with
  | nil =>
      cases h
      exact .refl _
  | cons id rest ih =>
      obtain ⟨hid, hrest⟩ := List.nodup_cons.1 hids
      rw [replaceInConditions] at h
      split at h
      next hnone => exact (conditionsResized_none hnone).cons hid (ih hrest h)
      next e hsome =>
        obtain ⟨⟨e', middle⟩, he, hothers⟩ := bind_eq_ok.1 h
        obtain ⟨hresized, hmiddle⟩ := e.replaces (e.asks_none rfl) _ _ _ he
        obtain rfl := hmiddle.eq_of_none
        exact (conditionsResized_setCondition hsome hresized).cons hid (ih hrest hothers)

/-- The conditions of all nodes. -/
theorem ConditionsResized.forall₂ {ids : List NodeId} {state next : SizeState}
    (h : state.ConditionsResized ids next) (hall : ∀ id < state.joins.size, id ∈ ids) :
    List.Forall₂ JoinNode.Resized state.joins.nodes next.joins.nodes := by
  refine forall₂_of_getElem? fun id => ?_
  have hnode := h.nodes id
  rw [JoinGraph.node?, JoinGraph.node?] at hnode
  rcases Nat.lt_or_ge id state.joins.size with hid | hid
  · simpa only [if_pos (hall id hid)] using hnode
  · rw [List.getElem?_eq_none hid] at hnode ⊢
    generalize next.joins.nodes[id]? = final at hnode ⊢
    cases hnode
    exact .none

end SizeState

theorem SizeFailure.attempt_eq_ok {α : Type} {step : Except QueryError α} {left : Select} {a : α} :
    SizeFailure.attempt step left = .ok a ↔ step = .ok a := by
  cases step <;> simp [attempt, Except.mapError]

namespace Select

/-- The paths whose sizes the clauses ask for where they may be counted. -/
def countablePaths (s : Select) : List Path :=
  s.items.flatMap (fun i => i.expr.sizePaths) ++ s.orderBy.flatMap fun i => i.expr.sizePaths

/-- What counting over a join adds to a level: nothing, or one node at the end of its joins, with
its alias and with groups that ask for no size. -/
inductive Counted (s : Select) : List (JoinNode Expr) → AliasTable Expr → List Expr → Prop
  | nothing : s.Counted [] s.aliases []
  | collection {p : Path} {owner collection : String} {parent : NodeId} {groups : List Expr}
      (size : p ∈ s.countablePaths) (elements : p.elements = [owner, collection])
      (named : s.aliases.joinNode? owner = some parent) (sizeFree : ∀ e ∈ groups, e.SizeFree) :
      s.Counted [s.joins.countNode parent owner collection]
        (s.aliases.insertJoin (s.joins.countNode parent owner collection).aliasName s.joins.size
          true) groups

variable {added : List (JoinNode Expr)} {t : AliasTable Expr} {groups : List Expr}

theorem Counted.condition_eq_none {s : Select} (h : s.Counted added t groups) :
    ∀ n ∈ added, n.condition = none := by
  cases h with
  | nothing => simp
  | collection => simp [JoinGraph.countNode]

theorem Counted.sizeFree {s : Select} (h : s.Counted added t groups) :
    ∀ e ∈ groups, e.SizeFree := by
  cases h with
  | nothing => simp
  | collection _ _ _ hfree => exact hfree

/-- Only paths with an owner are counted. -/
theorem Counted.eq_of_sizeFree {s : Select} (h : s.Counted added t groups)
    (hfree : ∀ p ∈ s.countablePaths, p.elements.length < 2) :
    added = [] ∧ t = s.aliases ∧ groups = [] := by
  cases h with
  | nothing => exact ⟨rfl, rfl, rfl⟩
  | collection size elements =>
      have hshort := hfree _ size
      rw [elements] at hshort
      exact absurd hshort (Nat.lt_irrefl 2)

/-- The clauses of a level with their sizes replaced, apart from joins and groups. -/
structure ClausesResized (s s' : Select) : Prop where
  ctes : s'.ctes = s.ctes
  distinct : s'.distinct = s.distinct
  limits : s'.limits = s.limits
  items : List.Forall₂ SelectItem.Resized s.items s'.items
  orderBy : List.Forall₂ OrderItem.Resized s.orderBy s'.orderBy
  condition : Option.Rel Expr.Resized s.condition s'.condition
  having : Option.Rel Expr.Resized s.having s'.having

theorem ClausesResized.items_sizeFree {s s' : Select} (h : s.ClausesResized s') :
    ∀ i ∈ s'.items, i.expr.SizeFree :=
  forall_of_forall₂ h.items fun hresized => hresized.expr.sizeFree

theorem ClausesResized.orderBy_sizeFree {s s' : Select} (h : s.ClausesResized s') :
    ∀ i ∈ s'.orderBy, i.expr.SizeFree :=
  forall_of_forall₂ h.orderBy fun hresized => hresized.expr.sizeFree

/-- A level with its sizes replaced. Every node keeps its place, and so does every group. -/
structure SizesReplaced (s s' : Select) : Prop extends s.ClausesResized s' where
  roots : s'.joins.roots = s.joins.roots
  added : ∃ kept added listed groups,
    s'.joins.nodes = kept ++ added ∧ List.Forall₂ JoinNode.Resized s.joins.nodes kept ∧
    s'.groupBy = listed ++ groups ∧ List.Forall₂ Expr.Resized s.groupBy listed ∧
    s.Counted added s'.aliases groups

/-- The implicit groups ask for no size where the selected items and the order do not. -/
theorem sizeFree_of_implicit {s : Select} (hitems : ∀ i ∈ s.items, i.expr.SizeFree)
    (horder : ∀ i ∈ s.orderBy, i.expr.SizeFree) : ∀ e ∈ s.implicitGroups, e.SizeFree := by
  intro e he
  cases (requires_of_mem_implicitGroups he).2.1 with
  | item hi => exact hitems _ hi
  | order hi => exact horder _ hi
  | root => exact .of_children rfl (by simp [Expr.bound, Expr.children])

/-- What a replacement does, clause by clause. Only the first two clauses may count, so from then on
the state is the same. -/
theorem exists_of_replaceSizesAfter {s s' : Select} {counted : Bool} (h : s.Named)
    (hok : s.replaceSizesAfter counted = .ok s') :
    ∃ (replaced : Select) (state : SizeState),
      SizeState.Counts (· ∈ s.countablePaths) ⟨s.joins, s.aliases, counted⟩ state ∧
      s.ClausesResized replaced ∧ List.Forall₂ Expr.Resized s.groupBy replaced.groupBy ∧
      List.Forall₂ JoinNode.Resized state.joins.nodes replaced.joins.nodes ∧
      replaced.joins.roots = state.joins.roots ∧ replaced.aliases = state.aliases ∧
      s' = if state.counted then replaced.applyImplicitGroups else replaced := by
  rw [replaceSizesAfter] at hok
  simp only [bind_eq_ok, SizeFailure.attempt_eq_ok, pure_eq_ok, withState] at hok
  obtain ⟨⟨items, selected⟩, hselect, ⟨orderBy, state⟩, horder, ⟨condition, after⟩, hwhere,
    ⟨groupBy, after'⟩, hgroup, ⟨having, after''⟩, hhaving, last, hlast, hresult⟩ := hok
  dsimp only at hselect horder hwhere hgroup hhaving hlast hresult
  have hasked : ∀ i ∈ s.items, i.expr.Asks .select (· ∈ s.countablePaths) :=
    fun i hi _ p hp => List.mem_append_left _ (List.mem_flatMap.2 ⟨i, hi, hp⟩)
  obtain ⟨hitems, hselected⟩ := SelectItem.steps_list hasked _ _ _ hselect
  have hasked : ∀ i ∈ s.orderBy, i.expr.Asks .orderBy (· ∈ s.countablePaths) :=
    fun i hi _ p hp => List.mem_append_right _ (List.mem_flatMap.2 ⟨i, hi, hp⟩)
  obtain ⟨hordered, hcounted⟩ := OrderItem.steps_list hasked _ _ _ horder
  obtain ⟨hcondition, hsame⟩ := Expr.steps_option (fun e _ => e.replaces)
    (fun e _ => e.asks_none rfl) _ _ _ hwhere
  obtain rfl := hsame.eq_of_none
  obtain ⟨hgroups, hsame⟩ := Expr.steps_list (fun e _ => e.replaces)
    (fun e _ => e.asks_none rfl) _ _ _ hgroup
  obtain rfl := hsame.eq_of_none
  obtain ⟨hfiltered, hsame⟩ := Expr.steps_option (fun e _ => e.replaces)
    (fun e _ => e.asks_none rfl) _ _ _ hhaving
  obtain rfl := hsame.eq_of_none
  have hcounts := hselected.trans hcounted
  have hwf := (hcounts.named h).grown.wellFormed
  have hconditions := SizeState.conditionsResized_replaceInConditions hwf.nodup hlast
  have hlastCounted : last.counted = after''.counted := by rw [hconditions.same]
  have hlastAliases : last.aliases = after''.aliases := by rw [hconditions.same]
  let replaced : Select := { s with
    items := items, orderBy := orderBy, condition := condition, groupBy := groupBy
    having := having, joins := last.joins, aliases := last.aliases }
  have hclauses : s.ClausesResized replaced :=
    ⟨rfl, rfl, rfl, hitems, hordered, hcondition, hfiltered⟩
  have hnodes := hconditions.forall₂ fun id => hwf.mem_depthFirst.2
  exact ⟨replaced, after'', hcounts, hclauses, hgroups, hnodes, hconditions.roots, hlastAliases,
    hlastCounted ▸ hresult.symm⟩

theorem sizesReplaced {s s' : Select} (h : s.Named) (hok : s.replaceSizes = .ok s') :
    s.SizesReplaced s' := by
  obtain ⟨replaced, state, hcounts, hclauses, hgroups, hnodes, hroots, haliases, rfl⟩ :=
    exists_of_replaceSizesAfter h hok
  cases hcounts with
  | nothing =>
      refine ⟨hclauses, hroots, _, [], _, [], (List.append_nil _).symm, hnodes,
        (List.append_nil _).symm, hgroups, ?_⟩
      exact haliases ▸ .nothing
  | collection size elements named first =>
      obtain ⟨kept, node, hlisted, hkept, hnode⟩ := exists_of_forall₂_concat hnodes
      obtain rfl := hnode.eq_of_sizeFree (by simp [JoinGraph.countNode])
      have hfree := sizeFree_of_implicit hclauses.items_sizeFree hclauses.orderBy_sizeFree
      refine ⟨{ hclauses with }, hroots, kept, _, _, _, hlisted, hkept, rfl, hgroups, ?_⟩
      exact haliases ▸ .collection size elements named hfree

/-- No size of a path with an owner is left on the level. -/
theorem SizesReplaced.sizeFree {s s' : Select} (h : s.SizesReplaced s') :
    s'.Parts Expr.SizeFree fun _ => True where
  ctes _ _ := trivial
  items := h.items_sizeFree
  joins := by
    obtain ⟨kept, added, _, _, hnodes, hkept, -, -, hcounted⟩ := h.added
    rw [hnodes]
    intro n hn
    rcases List.mem_append.1 hn with hn | hn
    · exact forall_of_forall₂ hkept (fun hresized => Expr.sizeFree_of_rel hresized.condition) n hn
    · simp [hcounted.condition_eq_none n hn]
  condition := Expr.sizeFree_of_rel h.condition
  groupBy := by
    obtain ⟨_, _, listed, groups, -, -, hgroups, hlisted, hcounted⟩ := h.added
    rw [hgroups]
    exact List.forall_mem_append.2
      ⟨forall_of_forall₂ hlisted Expr.Resized.sizeFree, hcounted.sizeFree⟩
  having := Expr.sizeFree_of_rel h.having
  orderBy := h.orderBy_sizeFree

/-- Where no size is left, nothing is replaced. -/
theorem SizesReplaced.eq_of_sizeFree {s s' : Select} (h : s.SizesReplaced s')
    (hfree : s.Parts Expr.SizeFree fun _ => True) : s' = s := by
  obtain ⟨kept, added, listed, groups, hnodes, hkept, hgroups, hlisted, hcounted⟩ := h.added
  have hcountable : ∀ p ∈ s.countablePaths, p.elements.length < 2 := by
    intro p hp
    rcases List.mem_append.1 hp with hp | hp
    · obtain ⟨i, hi, hp⟩ := List.mem_flatMap.1 hp
      exact hfree.items i hi p hp
    · obtain ⟨i, hi, hp⟩ := List.mem_flatMap.1 hp
      exact hfree.orderBy i hi p hp
  obtain ⟨rfl, haliases, rfl⟩ := hcounted.eq_of_sizeFree hcountable
  rw [List.append_nil] at hnodes hgroups
  obtain ⟨ctes, distinct, items, ⟨nodes, roots⟩, aliases, condition, groupBy, having, orderBy,
    limits⟩ := s
  obtain ⟨ctes', distinct', items', ⟨nodes', roots'⟩, aliases', condition', groupBy', having',
    orderBy', limits'⟩ := s'
  obtain ⟨⟨rfl, rfl, rfl, hitems, horder, hcondition, hhaving⟩, rfl, -⟩ := h
  dsimp only at *
  obtain rfl := eq_of_forall₂ hitems hfree.items SelectItem.Resized.eq_of_sizeFree
  obtain rfl := eq_of_forall₂ horder hfree.orderBy OrderItem.Resized.eq_of_sizeFree
  obtain rfl := eq_of_forall₂ hkept hfree.joins JoinNode.Resized.eq_of_sizeFree
  obtain rfl := eq_of_forall₂ hlisted hfree.groupBy Expr.Resized.unchanged
  obtain rfl := Expr.eq_of_rel hcondition hfree.condition
  obtain rfl := Expr.eq_of_rel hhaving hfree.having
  rw [hnodes, hgroups, haliases]

/-- On a level that was put together by calls, sizes can be replaced. None of a path with an owner
is left, all that there was besides the sizes is still there, and a second replacement does
nothing. -/
theorem replaceSizes_ofCalls (calls : List BuilderCall) :
    ∃ s', (ofCalls calls).replaceSizes = .ok s' ∧ (s'.Parts Expr.SizeFree fun _ => True) ∧
      (ofCalls calls).SizesReplaced s' ∧ s'.replaceSizes = .ok s' := by
  have hnamed : (ofCalls calls).Named := named_foldl_run (s := {}) AliasTable.Names.empty calls
  obtain ⟨s', hok, hnamed'⟩ := names_replaceSizesAfter hnamed false
  have hreplaced := sizesReplaced hnamed hok
  obtain ⟨s'', hok', -⟩ := names_replaceSizesAfter hnamed' false
  have hagain := (sizesReplaced hnamed' hok').eq_of_sizeFree hreplaced.sizeFree
  exact ⟨s', hok, hreplaced.sizeFree, hreplaced, hagain ▸ hok'⟩

end Select

end EntityQuery
