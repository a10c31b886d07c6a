import EntityQuery.Proofs.Aliases.JoinsOnly
import EntityQuery.Proofs.Query.Calls
import EntityQuery.Proofs.SetOperations.Exchange

/-!
Select aliases that are not replaced. Two sequences of calls that differ in the alias of one
selected item lead to levels that differ in that alias and in the select aliases of their tables,
whatever is called afterwards. If the alias is not one of a join, the levels have the same join
aliases, and their texts differ in what the item is called.
-/

namespace EntityQuery

open Token (spaced listSeparator joined)

section Lists

variable {α β γ : Type}

theorem modify_append_of_lt {as : List α} {i : Nat} (h : i < as.length) (bs : List α) (f : α → α) :
    (as ++ bs).modify i f = as.modify i f ++ bs := by
  induction as generalizing i with
  | nil => cases h
  | cons a rest ih =>
      cases i with
      | zero => rfl
      | succ i =>
          have hrest := ih (Nat.lt_of_succ_lt_succ h)
          simp [List.modify_succ_cons, hrest]

theorem modify_length_append (as : List α) (a : α) (f : α → α) :
    (as ++ [a]).modify as.length f = as ++ [f a] := by
  simp [List.modify_eq_take_cons_drop]

theorem map_modify {f : α → α} {k : β → β} {g : α → β} (h : ∀ a, g (f a) = k (g a)) (as : List α)
    (i : Nat) : (as.modify i f).map g = (as.map g).modify i k := by
  induction as generalizing i with
  | nil => simp
  | cons a rest ih =>
      cases i with
      | zero => simp [h]
      | succ i => simp [List.modify_succ_cons, ih]

theorem zipWith_modify {f : α → α} {k : γ → γ} {g : α → β → γ} (h : ∀ a b, g (f a) b = k (g a b))
    (as : List α) (bs : List β) (i : Nat) :
    List.zipWith g (as.modify i f) bs = (List.zipWith g as bs).modify i k := by
  induction as generalizing bs i with
  | nil => simp
  | cons a rest ih =>
      cases bs with
      | nil => simp
      | cons b bs =>
          cases i with
          | zero => simp [h]
          | succ i => simp [List.modify_succ_cons, ih]

/-- A walk over a list with another member at one place. -/
theorem mapM_modify {ε : Type} {f g : α → Except ε β} {k : α → α} {h : β → β} {as : List α} {i : Nat}
    (hother : ∀ a ∈ as, g a = f a) (hat : ∀ a, as[i]? = some a → g (k a) = (f a).map h) :
    (as.modify i k).mapM g = (as.mapM f).map (List.modify · i h) := by
  induction as generalizing i with
  | nil => cases i <;> rfl
  | cons a rest ih =>
      obtain ⟨ha, hrest⟩ := List.forall_mem_cons.1 hother
      cases i with
      | zero =>
          rw [List.modify_zero_cons, List.mapM_cons, List.mapM_cons, hat a rfl, mapM_congr hrest]
          cases f a with
          | error e => rfl
          | ok b => cases rest.mapM f <;> rfl
      | succ i =>
          rw [List.modify_succ_cons, List.mapM_cons, List.mapM_cons, ha, ih hrest hat]
          cases f a with
          | error e => rfl
          | ok b => cases rest.mapM f <;> rfl

end Lists

/-- An item under another alias. -/
def SelectItem.labelled (a : String) (i : SelectItem Expr) : SelectItem Expr :=
  { i with aliasName := some a }

namespace Select

/-- A level with an alias on one of its items, and another table. -/
def labelled (s : Select) (i : Nat) (a : String) (t : AliasTable Expr) : Select :=
  { s with items := s.items.modify i (SelectItem.labelled a), aliases := t }

/-- Whether there is an item without an alias at a place. -/
def BareAt (s : Select) (i : Nat) : Prop := s.items[i]?.map SelectItem.aliasName = some none

variable {s s' : Select} {i : Nat} {a : String} {t : AliasTable Expr}

theorem BareAt.lt (h : s.BareAt i) : i < s.items.length := by
  obtain ⟨item, hitem, -⟩ := Option.map_eq_some_iff.1 h
  exact (List.getElem?_eq_some_iff.1 hitem).1

theorem map_expr_labelled (s : Select) (i : Nat) (a : String) (t : AliasTable Expr) :
    (s.labelled i a t).items.map SelectItem.expr = s.items.map SelectItem.expr := by
  have hmap := map_modify (f := SelectItem.labelled a) (k := id) (g := SelectItem.expr)
    (fun _ => rfl) s.items i
  rwa [List.modify_id] at hmap

theorem applyImplicitGroups_labelled (s : Select) (i : Nat) (a : String) (t : AliasTable Expr) :
    (s.labelled i a t).applyImplicitGroups = s.applyImplicitGroups.labelled i a t := by
  have hexprs := map_expr_labelled s i a t
  have haggregates : (s.labelled i a t).aggregates = s.aggregates := by
    have hany := congrArg (List.any · (Expr.aggregates ClauseKind.select.sizesAggregate)) hexprs
    simp only [List.any_map] at hany
    exact congrArg (· || _) hany
  have hroots : (s.labelled i a t).selectedRoots = s.selectedRoots := by
    have hempty := congrArg List.isEmpty hexprs
    simp only [List.isEmpty_map] at hempty
    simp only [selectedRoots, hempty]
    rfl
  have hcandidates : (s.labelled i a t).groupCandidates = s.groupCandidates := by
    rw [groupCandidates, hroots, hexprs]
    rfl
  simp only [applyImplicitGroups, implicitGroups, haggregates, hcandidates]
  rfl

/-- A level, and the same level with an alias on an item that has none. The alias may stand in the
table; the join aliases do not. -/
structure AliasedAt (i : Nat) (a : String) (s s' : Select) : Prop where
  eq : s' = s.labelled i a s'.aliases
  joins : s.aliases.SameJoins s'.aliases
  bare : s.BareAt i

/-- The same node of such levels. -/
def AliasedBesides (i : Nat) (a : String) (r r' : NodeId × Select) : Prop :=
  r'.1 = r.1 ∧ AliasedAt i a r.2 r'.2

end Select

open Select (AliasedAt)
open BuilderCall (succeedOr)

namespace SizeState

/-- States that differ in their select aliases alone. -/
structure SameJoins (state state' : SizeState) : Prop where
  aliases : state.aliases.SameJoins state'.aliases
  joins : state'.joins = state.joins
  counted : state'.counted = state.counted

variable {state state' : SizeState}

theorem SameJoins.agree_joinCollection (h : state.SameJoins state') (parent : NodeId)
    (collection aliasName : String) :
    Agree True (fun r r' => r'.1 = r.1 ∧ r.2.SameJoins r'.2)
      (state.joinCollection parent collection aliasName)
      (state'.joinCollection parent collection aliasName) := by
  rw [joinCollection, joinCollection, h.joins]
  exact Agree.bind_of_eq rfl fun added => .ok ⟨rfl, h.aliases.insertJoin _ _ _, rfl, rfl⟩

theorem SameJoins.agree_replaceSize? (h : state.SameJoins state') (scope : SizeScope)
    (clause : ClauseKind) (p : Path) :
    Agree True (fun r r' => r'.1 = r.1 ∧ r.2.SameJoins r'.2)
      (replaceSize? scope clause p state) (replaceSize? scope clause p state') := by
  rw [replaceSize?, replaceSize?]
  split
  · exact .ok ⟨rfl, h⟩
  · exact .ok ⟨rfl, h⟩
  next owner collection _ _ =>
    have hstrategy : scope.strategy state' clause = scope.strategy state clause := by
      rw [SizeScope.strategy, SizeScope.strategy, h.joins, h.counted]
    simp only [hstrategy, h.joins, h.aliases.joinNode?]
    split
    next parent _ _ =>
      refine (h.agree_joinCollection parent collection _).bind fun r r' hr => ?_
      obtain ⟨hnode, hnext⟩ := hr
      rw [hnode]
      exact .ok ⟨rfl, hnext⟩
    next => exact .ok ⟨rfl, h⟩

/-- Sizes are replaced alike whatever the select aliases are. -/
theorem simulation_sameJoins :
    Simulation fun state state' => state.Named ∧ state.SameJoins state' where
  joins h := h.2.joins
  replaceSize? scope clause p := by
    rintro state state' ⟨hnamed, hsame⟩
    obtain ⟨e, next, hok, hnext⟩ := named_replaceSize? scope clause p hnamed
    obtain ⟨⟨e', next'⟩, hok', he, hrelated⟩ :=
      (hsame.agree_replaceSize? scope clause p).exists_ok hok
    obtain rfl : e' = e := he
    exact ⟨e', next, next', hok, hok', hnext, hrelated⟩
  setCondition := by
    rintro state state' ⟨hnamed, hsame⟩ id e
    refine ⟨hnamed.setCondition id e, hsame.aliases, ?_, hsame.counted⟩
    rw [hsame.joins]

end SizeState

namespace Select

variable {s s' : Select} {i : Nat} {a : String} {t : AliasTable Expr}

theorem BareAt.append (h : s.BareAt i) (items : List (SelectItem Expr)) :
    BareAt { s with items := s.items ++ items } i := by
  rw [BareAt, List.getElem?_append_left h.lt]
  exact h

theorem aliasedAt_succeedOr {ε : Type} {x x' : Except ε Select} (h : AliasedAt i a s s')
    (hx : Agree True (AliasedAt i a) x x') : AliasedAt i a (succeedOr s x) (succeedOr s' x') := by
  cases hx with
  | ok hresult => exact hresult
  | error => exact h

theorem AliasedAt.of_items {items : List (SelectItem Expr)}
    (hitems : items = s.items.modify i (SelectItem.labelled a)) (ht : s.aliases.SameJoins t)
    (hbare : s.BareAt i) : AliasedAt i a s { s with items := items, aliases := t } := by
  subst hitems
  exact ⟨rfl, ht, hbare⟩

/-- A change of one node in place. -/
theorem AliasedAt.modify (h : AliasedAt i a s s') (id : NodeId)
    (f : JoinNode Expr → JoinNode Expr) :
    AliasedAt i a { s with joins := s.joins.modify id f }
      { s' with joins := s'.joins.modify id f } := by
  refine ⟨?_, h.joins, h.bare⟩
  rw [h.eq]
  rfl

theorem AliasedAt.applyImplicitGroups (h : AliasedAt i a s s') :
    AliasedAt i a s.applyImplicitGroups s'.applyImplicitGroups := by
  refine ⟨?_, h.joins, h.bare⟩
  rw [h.eq, applyImplicitGroups_labelled]
  rfl

theorem aliasedAt_withSizes (hbare : s.BareAt i) (a : String) {items : List Expr}
    {orderBy : List (OrderItem Expr)} {condition : Option Expr} {groupBy : List Expr}
    {having : Option Expr} {last last' : SizeState} (hlength : items.length = s.items.length)
    (hlast : last.SameJoins last') :
    AliasedAt i a (s.withSizes items orderBy condition groupBy having last)
      ((s.labelled i a t).withSizes items orderBy condition groupBy having last') := by
  obtain ⟨joins, aliases, counted⟩ := last
  obtain ⟨joins', aliases', counted'⟩ := last'
  obtain ⟨haliases, rfl, rfl⟩ := hlast
  have hbare' : (List.zipWith (fun item e => { item with expr := e }) s.items items)[i]?.map
      SelectItem.aliasName = some none := by
    obtain ⟨item, hitem, hnone⟩ := Option.map_eq_some_iff.1 hbare
    have hlt : i < items.length := hlength ▸ hbare.lt
    simp [List.getElem?_zipWith, hitem, List.getElem?_eq_getElem hlt, hnone]
  have hitems := zipWith_modify (f := SelectItem.labelled a) (k := SelectItem.labelled a)
    (g := fun item (e : Expr) => { item with expr := e }) (fun _ _ => rfl) s.items items i
  have hreplaced := AliasedAt.of_items (s := { s with
      items := List.zipWith (fun item e => { item with expr := e }) s.items items
      orderBy := orderBy, condition := condition, groupBy := groupBy
      having := having, joins := joins', aliases := aliases })
    hitems haliases hbare'
  rw [withSizes, withSizes]
  split
  · exact hreplaced.applyImplicitGroups
  · exact hreplaced

section Labelled

variable (ht : s.aliases.SameJoins t) (hbare : s.BareAt i)
include ht hbare

theorem aliasedAt_labelled (a : String) : AliasedAt i a s (s.labelled i a t) := ⟨rfl, ht, hbare⟩

/-- A node that is added to both levels. -/
theorem agree_named (a aliasName : String) (added : Except QueryError (NodeId × JoinGraph Expr)) :
    Agree True (AliasedBesides i a) (added >>= fun added => pure (s.named aliasName added))
      (added >>= fun added => pure ((s.labelled i a t).named aliasName added)) :=
  Agree.bind_of_eq rfl fun _ => .ok ⟨rfl, rfl, ht.insertJoin _ _ _, hbare⟩

theorem agree_join (a path aliasName : String) (relation : Relation) (type : JoinType) :
    Agree True (AliasedBesides i a) (s.join path aliasName relation type)
      ((s.labelled i a t).join path aliasName relation type) := by
  rw [Select.join, Select.join]
  cases Dotted.rest? path with
  | none => exact Agree.error_same _
  | some attr =>
      exact Agree.bind_of_eq rfl fun _ => Agree.bind_of_eq (ht.requireJoin _) fun _ =>
        agree_named ht hbare a aliasName _

theorem agree_joinFetch (a path aliasName : String) (relation : Relation) :
    Agree True (AliasedBesides i a) (s.joinFetch path aliasName relation)
      ((s.labelled i a t).joinFetch path aliasName relation) := by
  refine (agree_join ht hbare a path aliasName relation .left).bind fun r r' hr => ?_
  obtain ⟨node, joined⟩ := r
  obtain ⟨node', joined'⟩ := r'
  obtain ⟨rfl, hjoined⟩ : node' = node ∧ AliasedAt i a joined joined' := hr
  exact .ok ⟨rfl, hjoined.modify node' fun n => { n with fetch := true }⟩

theorem agree_joinEntity (a parent entity aliasName : String) (type : JoinType)
    (condition : Expr) :
    Agree True (AliasedBesides i a) (s.joinEntity parent entity aliasName type condition)
      ((s.labelled i a t).joinEntity parent entity aliasName type condition) :=
  Agree.bind_of_eq (ht.requireJoin _) fun _ => agree_named ht hbare a aliasName _

theorem agree_crossJoin (a parent entity aliasName : String) :
    Agree True (AliasedBesides i a) (s.crossJoin parent entity aliasName)
      ((s.labelled i a t).crossJoin parent entity aliasName) :=
  Agree.bind_of_eq (ht.requireJoin _) fun _ => agree_named ht hbare a aliasName _

theorem agree_on (a : String) (node : NodeId) (condition : Expr) :
    Agree True (AliasedAt i a) (s.on node condition) ((s.labelled i a t).on node condition) :=
  Agree.bind_of_eq rfl fun _ =>
    .ok ((aliasedAt_labelled ht hbare a).modify node fun n =>
      { n with condition := some (Expr.conjoin n.condition condition) })

theorem aliasedAt_select (a : String) (e : Expr) (aliasName : Option String) :
    AliasedAt i a (s.select e aliasName) ((s.labelled i a t).select e aliasName) := by
  refine .of_items (modify_append_of_lt hbare.lt _ _).symm ?_ (hbare.append _)
  cases aliasName with
  | none => exact ht
  | some b => exact ht.insertSelect b e

theorem aliasedAt_rebound (a : String) (m : Renumbering) (g : JoinGraph Expr) (ctes : List Cte) :
    AliasedAt i a (s.rebound m g ctes) ((s.labelled i a t).rebound m g ctes) := by
  have hitems := map_modify (f := SelectItem.labelled a) (k := SelectItem.labelled a)
    (g := SelectItem.rebind m) (fun _ => rfl) s.items i
  refine .of_items hitems (ht.rebind m) ?_
  rw [BareAt, rebound, List.getElem?_map, Option.map_map]
  exact hbare

theorem agree_copy (hs : s.Named) (a : String) :
    Agree True (AliasedAt i a) s.copy (s.labelled i a t).copy := by
  have hwf := hs.grown.wellFormed
  rw [Select.copy_eq hwf, Select.copy_eq (s := s.labelled i a t) hwf]
  refine (Agree.of_eq (r := Eq) (fun _ => rfl) rfl).map fun ctes ctes' hctes => ?_
  rw [hctes]
  exact aliasedAt_rebound ht hbare a _ _ _

theorem aliasedAt_replaceSizes (hs : s.Named) (a : String) (counted : Bool) :
    AliasedAt i a ((BuilderCall.replaceSizes counted).run s)
      ((BuilderCall.replaceSizes counted).run (s.labelled i a t)) := by
  obtain ⟨items, orderBy, condition, groupBy, having, last, last', hlength, ⟨-, hlast⟩, hok, hok'⟩ :=
    s.exists_withSizes SizeState.simulation_sameJoins counted (t := t)
      ⟨hs, ht, rfl, rfl⟩ (map_expr_labelled s i a t)
  have hok' : (s.labelled i a t).replaceSizesAfter counted =
    .ok ((s.labelled i a t).withSizes items orderBy condition groupBy having last') := hok'
  rw [BuilderCall.run, BuilderCall.run, hok, hok']
  exact aliasedAt_withSizes hbare a hlength hlast

/-- Every call does the same to both levels. -/
theorem aliasedAt_run (hs : s.Named) (a : String) (call : BuilderCall) :
    AliasedAt i a (call.run s) (call.run (s.labelled i a t)) := by
  have hsame := aliasedAt_labelled ht hbare a
  cases call with
  | addRoot entity aliasName => exact ⟨rfl, ht.insertJoin _ _ _, hbare⟩
  | correlate path aliasName => exact ⟨rfl, ht.insertJoin _ _ _, hbare⟩
  | join path aliasName relation type =>
      exact aliasedAt_succeedOr hsame
        ((agree_join ht hbare a path aliasName relation type).map fun _ _ hr => hr.2)
  | joinFetch path aliasName relation =>
      exact aliasedAt_succeedOr hsame
        ((agree_joinFetch ht hbare a path aliasName relation).map fun _ _ hr => hr.2)
  | joinEntity parent entity aliasName type condition =>
      exact aliasedAt_succeedOr hsame
        ((agree_joinEntity ht hbare a parent entity aliasName type condition).map fun _ _ hr => hr.2)
  | crossJoin parent entity aliasName =>
      exact aliasedAt_succeedOr hsame
        ((agree_crossJoin ht hbare a parent entity aliasName).map fun _ _ hr => hr.2)
  | on node condition =>
      exact aliasedAt_succeedOr hsame (agree_on ht hbare a node condition)
  | select e aliasName => exact aliasedAt_select ht hbare a e aliasName
  | copy => exact aliasedAt_succeedOr hsame (agree_copy ht hbare hs a)
  | replaceSizes counted => exact aliasedAt_replaceSizes ht hbare hs a counted
  | applyImplicitGroups => exact hsame.applyImplicitGroups
  | distinct | filter | group | filterGroups | order | take | drop | withCte =>
      exact ⟨rfl, ht, hbare⟩

end Labelled

theorem AliasedAt.foldl_run (h : AliasedAt i a s s') (hs : s.Named) (calls : List BuilderCall) :
    AliasedAt i a (calls.foldl BuilderCall.run s) (calls.foldl BuilderCall.run s') := by
  -- Copies and replacements of sizes need names that fit, so these are carried along.
  induction calls generalizing s s' with
  | nil => exact h
  | cons call rest ih =>
      have hstep := aliasedAt_run h.joins h.bare hs a call
      rw [← h.eq] at hstep
      exact ih hstep (named_run hs call)

/-- Whatever is called before and after an item is selected, an alias that no join has at the time
makes no other difference. -/
theorem aliasedAt_ofCalls (before after : List BuilderCall) (e : Expr) {a : String}
    (hfree : (ofCalls before).aliases.joinNode? a = none) :
    AliasedAt (ofCalls before).items.length a (ofCalls (before ++ .select e none :: after))
      (ofCalls (before ++ .select e (some a) :: after)) := by
  have hnamed : (ofCalls before).Named := named_foldl_run (s := {}) AliasTable.Names.empty before
  have hselect : AliasedAt (ofCalls before).items.length a ((ofCalls before).select e none)
      ((ofCalls before).select e (some a)) := by
    refine .of_items ?_ (.of_free hnamed.sorted hfree e) ?_
    · exact (modify_length_append _ ⟨e, none⟩ (SelectItem.labelled a)).symm
    · simp [BareAt, Select.select]
  simp only [ofCalls, List.foldl_append, List.foldl_cons]
  exact hselect.foldl_run (named_run hnamed (.select e none)) after

/-- What is written of two levels that differ in what the item at a place is called: the same, but
that the alias follows the item. -/
def Labels (s : Select) (ctx : RenderContext) (i : Nat) (a : String) (ts ts' : List Token) : Prop :=
  ∃ opening values clauses, s.values ctx = .ok values ∧ i < values.length ∧
    ts = opening ++ joined listSeparator values ++ clauses ∧
    ts' = opening ++ joined listSeparator (values.modify i (· ++ (spaced .AS ++ [.name a])))
      ++ clauses

/-- A level is put together with its values between what does not depend on their aliases. -/
theorem labels_assembled {ctx : RenderContext} (hbare : s.BareAt i) (a : String)
    (t : AliasTable Expr) {selected : List (List Token)}
    (hselected : SelectItem.listTokens (s.level ctx) s.items = .ok selected)
    (tables : List (List Token)) (entries : List Token) (condition : Option (List Token))
    (groups : List (List Token)) (having : Option (List Token)) (orders : List (List Token)) :
    s.Labels ctx i a (s.assembled ctx tables selected entries condition groups having orders)
      ((s.labelled i a t).assembled ctx tables
        (selected.modify i (· ++ (spaced .AS ++ [.name a]))) entries condition groups having
        orders) := by
  have hitems : s.items.isEmpty = false :=
    List.isEmpty_eq_false_iff.2 (List.ne_nil_of_length_pos (Nat.zero_lt_of_lt hbare.lt))
  have hitems' : (s.labelled i a t).items.isEmpty = false := by
    rw [List.isEmpty_eq_false_iff, ← List.length_pos_iff, labelled, List.length_modify]
    exact Nat.zero_lt_of_lt hbare.lt
  rw [SelectItem.listTokens_eq_mapM] at hselected
  have hlength : s.items.length = selected.length := (mapM_eq_ok.1 hselected).length_eq
  have hvalues : s.values ctx = .ok selected := by
    rw [values, hitems]
    exact hselected
  let opening : List Token :=
    (if s.ctes.isEmpty then []
      else [Token.keyword .WITH, .space]
        ++ (if s.ctes.any Cte.recursive then [Token.keyword .RECURSIVE, .space] else [])
        ++ joined listSeparator tables ++ [Token.space])
      ++ [Token.keyword .SELECT, .space]
      ++ (if s.distinct then [Token.keyword .DISTINCT, .space] else [])
  let clauses : List Token :=
    spaced .FROM ++ entries ++ clauseTokens .WHERE condition ++ listClauseTokens .GROUP_BY groups
      ++ clauseTokens .HAVING having ++ listClauseTokens .ORDER_BY orders
  refine ⟨opening, selected, clauses, hvalues, hlength ▸ hbare.lt, ?_, ?_⟩
  · simp only [assembled, hitems, opening, clauses, List.append_assoc]
    rfl
  · simp only [assembled, hitems', opening, clauses, List.append_assoc]
    rfl

section Tokens

variable {ctx : RenderContext} (hinline : ctx.options.inlineAliases = false)
variable (houter : ctx.outer = none)
include hinline houter

theorem listTokens_labelled (ht : s.aliases.SameJoins t) (hbare : s.BareAt i) (a : String) :
    SelectItem.listTokens ((s.labelled i a t).level ctx) (s.labelled i a t).items =
      (SelectItem.listTokens (s.level ctx) s.items).map
        (List.modify · i (· ++ (spaced .AS ++ [.name a]))) := by
  have htokens : Expr.tokens ((s.labelled i a t).level ctx) = Expr.tokens (s.level ctx) :=
    Expr.tokens_sameJoins hinline houter ht s.joins
  rw [SelectItem.listTokens_congr htokens, SelectItem.listTokens_eq_mapM,
    SelectItem.listTokens_eq_mapM]
  refine mapM_modify (fun _ _ => rfl) fun item hitem => ?_
  obtain ⟨e, aliasName⟩ := item
  obtain rfl : aliasName = none := by
    rw [BareAt, hitem] at hbare
    exact Option.some.inj hbare
  rw [Level.selectItemTokens, Level.selectItemTokens, SelectItem.labelled]
  cases e.tokens (s.level ctx) .value with
  | error => rfl
  | ok ts => simp [Except.map]

theorem agree_tokens (h : AliasedAt i a s s') :
    Agree True (s.Labels ctx i a) (s.tokens ctx) (s'.tokens ctx) := by
  rw [h.eq]
  obtain ⟨-, ht, hbare⟩ := h
  generalize s'.aliases = t at ht
  have htokens : Expr.tokens ((s.labelled i a t).level ctx) = Expr.tokens (s.level ctx) :=
    Expr.tokens_sameJoins hinline houter ht s.joins
  rw [Select.tokens_eq, Select.tokens_eq, listTokens_labelled hinline houter ht hbare a,
    JoinNode.conditionTokens_congr htokens, Expr.optionTokens_congr htokens,
    Expr.listTokens_congr htokens, OrderItem.listTokens_congr htokens]
  refine Agree.guard (fun _ => rfl) fun _ => Agree.guard (fun _ => rfl) fun _ => ?_
  refine Agree.bind_of_eq rfl fun tables => ?_
  cases hselected : SelectItem.listTokens (s.level ctx) s.items with
  | error e => exact Agree.error_same e
  | ok selected =>
      rw [Except.map, ok_bind, ok_bind]
      refine Agree.bind_of_eq (Level.fromTokens_aliases s.joins _) fun entries => ?_
      refine Agree.bind_of_eq rfl fun condition => Agree.bind_of_eq rfl fun groups => ?_
      refine Agree.bind_of_eq rfl fun having => Agree.bind_of_eq rfl fun orders => .ok ?_
      exact labels_assembled hbare a t hselected tables entries condition groups having orders

end Tokens

theorem AliasedAt.markers (h : AliasedAt i a s s') : s'.markers = s.markers := by
  have hitems : (s'.items.flatMap fun i => i.expr.markers) =
      s.items.flatMap fun i => i.expr.markers := by
    have hexprs := map_expr_labelled s i a s'.aliases
    rw [← h.eq] at hexprs
    rw [← List.flatMap_map, hexprs, List.flatMap_map]
  rw [Select.markers_eq, Select.markers_eq, hitems, h.eq]
  rfl

theorem AliasedAt.apart (h : AliasedAt i a s s') {ctx : RenderContext}
    (hinline : ctx.options.inlineAliases = false) (houter : ctx.outer = none) :
    s.Apart (fun ts ts' => ∃ c ∈ [ctx, ctx.nested], s.Labels c i a ts ts') ctx s' := by
  have htokens : Agree True (s.Labels ctx i a) (s.tokens ctx) (s'.tokens ctx) :=
    agree_tokens hinline houter h
  have hnested : Agree True (s.Labels ctx.nested i a) (s.tokens ctx.nested) (s'.tokens ctx.nested) :=
    agree_tokens hinline houter h
  exact {
    tokens := htokens.imp fun _ _ hts => ⟨ctx, by simp, hts⟩
    nested := hnested.imp fun _ _ hts => ⟨ctx.nested, by simp, hts⟩
    ordered := h.eq ▸ rfl
    limits := h.eq ▸ rfl
    markers := h.markers }

/-- The alias is the one difference of the texts. -/
theorem Labels.exists_texts {ctx : RenderContext} {ts ts' : List Token}
    (h : s.Labels ctx i a ts ts') (d : Dialect) :
    ∃ front back, tokensText d ts = front ++ back ∧
      tokensText d ts' = front ++ (" AS " ++ a) ++ back := by
  obtain ⟨opening, values, clauses, -, hlt, rfl, rfl⟩ := h
  obtain ⟨before, value, after, hvalues, -, hmodified⟩ :=
    List.exists_of_modify (· ++ (spaced .AS ++ [.name a])) hlt
  obtain ⟨front, back, hjoined⟩ := Token.exists_joined listSeparator before after
  have halias : tokensText d (spaced .AS ++ [.name a]) = " AS " ++ a := by
    have hword : " " ++ ("AS" ++ " ") = " AS " := rfl
    rw [← hword, String.append_assoc, String.append_assoc]
    simp [spaced, tokensText, Token.text, Keyword.text]
  refine ⟨tokensText d (opening ++ front ++ value), tokensText d (back ++ clauses), ?_, ?_⟩
  · rw [hvalues, hjoined]
    simp only [tokensText_append, String.append_assoc]
  · rw [hmodified, hjoined, ← halias]
    simp only [tokensText_append, String.append_assoc]

/-- The results of two queries that are alike but for what an item of one of their levels is
called. The prefix of the context is left out where the level is combined with others. -/
def LabelsText (s : Select) (ctx : RenderContext) (i : Nat) (a : String) (r r' : RenderedQuery) :
    Prop :=
  ∃ ts ts', Inside (fun us us' => ∃ c ∈ [ctx, ctx.nested], s.Labels c i a us us') ts ts' ∧
    r.text = tokensText ctx.dialect ts ∧ r' = { r with text := tokensText ctx.dialect ts' }

theorem LabelsText.exists_texts {ctx : RenderContext} {r r' : RenderedQuery}
    (h : s.LabelsText ctx i a r r') :
    ∃ front back, r.text = front ++ back ∧ r'.text = front ++ (" AS " ++ a) ++ back := by
  obtain ⟨_, _, ⟨start, us, us', rest, ⟨c, -, hlabels⟩, rfl, rfl⟩, htext, rfl⟩ := h
  obtain ⟨front, back, hplain, hlabelled⟩ := hlabels.exists_texts ctx.dialect
  refine ⟨tokensText ctx.dialect start ++ front, back ++ tokensText ctx.dialect rest, ?_, ?_⟩
  · simp only [htext, tokensText_append, hplain, String.append_assoc]
  · simp only [tokensText_append, hlabelled, String.append_assoc]

end Select

/-- The context of a statement whose select aliases are not replaced. -/
def RenderContext.unreplaced (d : Dialect) (functions : FunctionRegistry)
    (aliasPrefix : Option String) : RenderContext where
  dialect := d
  functions := functions
  options := { inlineAliases := false, aliasPrefix := aliasPrefix }

namespace Query

/-- With select aliases left alone, an alias that no join has when it is given to an item is written
after the item and changes nothing else of the text, whatever is called before and afterwards, and
whatever the level is combined with. -/
theorem render_select_alias (d : Dialect) (functions : FunctionRegistry)
    (aliasPrefix : Option String) (before after : List BuilderCall) (e : Expr) (a : String)
    (hfree : (Select.ofCalls before).aliases.joinNode? a = none) {q q' : Query}
    (h : Exchange (.ofCalls (before ++ .select e none :: after))
      (.ofCalls (before ++ .select e (some a) :: after)) q q') :
    let ctx := RenderContext.unreplaced d functions aliasPrefix
    let plain := Select.ofCalls (before ++ .select e none :: after)
    Agree True (plain.LabelsText ctx (Select.ofCalls before).items.length a)
      ((Statement.select q).render ctx) ((Statement.select q').render ctx) :=
  h.agree_render ((Select.aliasedAt_ofCalls before after e hfree).apart rfl rfl)

end Query

/-- People by name. The name may be called something in the select list. -/
def Select.people (aliasName : Option String) : Select :=
  ofCalls ([.addRoot "Person" "p"] ++ .select (.ofPath "p.name") aliasName ::
    [.order [⟨.ofPath "p.name", .asc, none⟩]])

namespace Query

/-- Two lists of people. The names may be called something in the first. -/
def peopleTwice (aliasName : Option String) : Query :=
  .combined {
    operator := some .union, start := .select (.people aliasName)
    operands := [.select (.people none)] }

theorem render_select_alias_people_twice :
    (Select.ofCalls [.addRoot "Person" "p"]).aliases.joinNode? "n" = none ∧
      Exchange (.people none) (.people (some "n")) (peopleTwice none) (peopleTwice (some "n")) ∧
      Succeeds ((Statement.select (peopleTwice none)).render
        (.unreplaced .hibernate {} (some "x_"))) ∧
      Agree True ((Select.people none).LabelsText (.unreplaced .hibernate {} (some "x_")) 0 "n")
        ((Statement.select (peopleTwice none)).render (.unreplaced .hibernate {} (some "x_")))
        ((Statement.select (peopleTwice (some "n"))).render
          (.unreplaced .hibernate {} (some "x_"))) := by
  have hfree : (Select.ofCalls [.addRoot "Person" "p"]).aliases.joinNode? "n" = none := by decide
  have htwice : Exchange (.people none) (.people (some "n")) (peopleTwice none)
      (peopleTwice (some "n")) :=
    .start { operator := some .union, start := .select {}, operands := [.select (.people none)] }
      .level
  exact ⟨hfree, htwice, ⟨_, rfl⟩, render_select_alias .hibernate {} (some "x_") _ _ _ _ hfree htwice⟩

/-- An item that is called like a join takes its name away: paths that start with the name no longer
carry the prefix of the join, in every clause. -/
theorem not_render_select_alias_people :
    ¬Agree True ((Select.people none).LabelsText (.unreplaced .hibernate {} (some "x_")) 0 "p")
      ((Statement.select (.select (.people none))).render (.unreplaced .hibernate {} (some "x_")))
      ((Statement.select (.select (.people (some "p")))).render
        (.unreplaced .hibernate {} (some "x_"))) := by
  have hplain : (Statement.select (.select (.people none))).render
      (.unreplaced .hibernate {} (some "x_")) =
        .ok { text := "SELECT x_p.name FROM Person x_p ORDER BY x_p.name ASC" } := rfl
  have hlabelled : (Statement.select (.select (.people (some "p")))).render
      (.unreplaced .hibernate {} (some "x_")) =
        .ok { text := "SELECT p.name AS p FROM Person x_p ORDER BY p.name ASC" } := rfl
  rw [hplain, hlabelled]
  intro hagree
  cases hagree with
  | ok hlabels =>
      obtain ⟨front, back, hfront, hback⟩ := hlabels.exists_texts
      have hlength := congrArg String.length hfront
      have hlength' := congrArg String.length hback
      have hshort : "SELECT x_p.name FROM Person x_p ORDER BY x_p.name ASC".length = 53 := by decide
      have hlong : "SELECT p.name AS p FROM Person x_p ORDER BY p.name ASC".length = 54 := by decide
      have halias : (" AS " ++ "p").length = 5 := by decide
      rw [hshort, String.length_append] at hlength
      rw [hlong, String.length_append, String.length_append, halias] at hlength'
      omega

end Query

end EntityQuery
