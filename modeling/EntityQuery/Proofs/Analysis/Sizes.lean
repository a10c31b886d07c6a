import EntityQuery.Analysis.Sizes
import EntityQuery.Proofs.Induction
import EntityQuery.Proofs.Joins.Naming
import EntityQuery.Proofs.Outcome

/-!
Replacing sizes in two states at once: what holds between the states and is kept by the one step
that looks at them holds between the results. On a level whose aliases name its nodes a replacement
cannot fail, since a size is counted under a node that its owner names; and it leaves a level of the
same kind, since a counted collection comes with its alias.
-/

namespace EntityQuery

namespace Expr

/-- The path whose size an expression is. -/
def sizePath? : Expr → Option Path
  | .call f [.path p] => if isSizeCall f then some p else none
  | _ => none

/-- The paths whose sizes an expression asks for, outside subqueries. -/
def sizePaths (e : Expr) : List Path := e.subexpressions.filterMap sizePath?

theorem sizePaths_eq (e : Expr) :
    e.sizePaths = e.sizePath?.toList ++ e.children.flatMap sizePaths := by
  rw [sizePaths, subexpressions_eq, List.filterMap_cons, List.filterMap_flatMap]
  cases e.sizePath? <;> rfl

theorem mem_sizePaths_of_child {e child : Expr} (hchild : child ∈ e.children) {p : Path}
    (hp : p ∈ child.sizePaths) : p ∈ e.sizePaths := by
  rw [sizePaths_eq]
  exact List.mem_append_right _ (List.mem_flatMap_of_mem hchild hp)

/-- A call other than that of the size of a path. -/
theorem sizePath?_call {f : String} {args : List Expr}
    (hother : ∀ p, isSizeCall f = true → args = [.path p] → False) :
    sizePath? (.call f args) = none := by
  unfold sizePath?
  split
  next g p heq =>
    cases heq
    rw [if_neg fun hf => hother p hf rfl]
  next => rfl

end Expr

variable {α β : Type} {R : SizeState → SizeState → Prop}

@[simp] theorem SizeFailure.attempt_ok (a : α) (left : Select) :
    SizeFailure.attempt (.ok a) left = .ok a := rfl

@[simp] theorem SizeFailure.attempt_pure (a : α) (left : Select) :
    SizeFailure.attempt (pure a) left = .ok a := rfl

namespace SizeState

/-- Steps that succeed in states that are related, with the same value, and keep them related. -/
def Kept (R : SizeState → SizeState → Prop)
    (step : SizeState → Except QueryError (α × SizeState)) : Prop :=
  ∀ state state', R state state' → ∃ a next next',
    step state = .ok (a, next) ∧ step state' = .ok (a, next') ∧ R next next'

theorem kept_pure (a : α) : Kept R fun state => .ok (a, state) :=
  fun state state' h => ⟨a, state, state', rfl, rfl, h⟩

theorem Kept.bind {step : SizeState → Except QueryError (α × SizeState)}
    {next : α → SizeState → Except QueryError (β × SizeState)} (h : Kept R step)
    (hnext : ∀ a, Kept R (next a)) :
    Kept R fun state => step state >>= fun r => next r.1 r.2 := by
  intro state state' hstate
  obtain ⟨a, middle, middle', ha, ha', hmiddle⟩ := h state state' hstate
  obtain ⟨b, after, after', hb, hb', hafter⟩ := hnext a middle middle' hmiddle
  exact ⟨b, after, after', bind_eq_ok.2 ⟨(a, middle), ha, hb⟩,
    bind_eq_ok.2 ⟨(a, middle'), ha', hb'⟩, hafter⟩

/-- What makes a replacement of sizes keep states related: the one step that looks at the state
does, and so does a condition that is put back. -/
structure Simulation (R : SizeState → SizeState → Prop) : Prop where
  joins : ∀ {state state'}, R state state' → state'.joins = state.joins
  replaceSize? : ∀ scope clause p, Kept R (replaceSize? scope clause p)
  setCondition : ∀ {state state'}, R state state' → ∀ id (e : Expr),
    R { state with joins := state.joins.modify id fun n => { n with condition := some e } }
      { state' with joins := state'.joins.modify id fun n => { n with condition := some e } }

end SizeState

theorem splitLast?_eq_some {xs before : List String} {last : String}
    (h : splitLast? xs = some (before, last)) : xs = before ++ [last] := by
  induction xs generalizing before with
  | nil => cases h
  | cons x rest ih =>
      cases rest with
      | nil =>
          cases h
          rfl
      | cons next rest =>
          simp only [splitLast?, Option.map_eq_some_iff] at h
          obtain ⟨⟨others, _⟩, hrest, hcons⟩ := h
          cases hcons
          rw [ih hrest, List.cons_append]

theorem splitLast?_eq_none {xs : List String} (h : splitLast? xs = none) : xs = [] := by
  induction xs with
  | nil => rfl
  | cons x rest ih =>
      cases rest with
      | nil => cases h
      | cons next rest =>
          simp only [splitLast?, Option.map_eq_none_iff] at h
          cases ih h

/-- The node that the collection of a path is joined under if its elements are counted. -/
def AliasTable.countParent? (t : AliasTable Expr) (p : Path) : Option NodeId :=
  match p.elements with
  | [owner, _] => t.joinNode? owner
  | _ => none

theorem AliasTable.countParent?_eq_none {t : AliasTable Expr} {p : Path}
    (h : p.elements.length < 2) : t.countParent? p = none := by
  rw [countParent?]
  split
  next helements => simp [helements] at h
  next => rfl

/-- What stands for the size of a path, case by case. -/
inductive ReplacedSize (scope : SizeScope) (clause : ClauseKind) (p : Path) (state : SizeState) :
    Except QueryError (Option Expr × SizeState) → Prop
  | ownerless (h : p.elements.length < 2) : ReplacedSize scope clause p state (.ok (none, state))
  | subquery (path aliasName : String) (howned : ¬p.elements.length < 2)
      (h : state.aliases.countParent? p = none ∨ scope.strategy state clause = .subquery) :
      ReplacedSize scope clause p state (.ok (some (sizeSubquery path aliasName), state))
  | count {owner collection aliasName : String} {parent : NodeId}
      (helements : p.elements = [owner, collection])
      (hparent : state.aliases.joinNode? owner = some parent)
      (hstrategy : scope.strategy state clause = .count)
      (halias : aliasName =
        state.joins.freshAlias ("_".intercalate [owner] ++ "_" ++ collection)) :
      ReplacedSize scope clause p state
        (state.joinCollection parent collection aliasName >>= fun r =>
          pure (some (Expr.count (Expr.bound r.1 aliasName none)), r.2))

theorem replacedSize (scope : SizeScope) (clause : ClauseKind) (p : Path) (state : SizeState) :
    ReplacedSize scope clause p state (replaceSize? scope clause p state) := by
  rw [replaceSize?]
  split
  next hnone => exact .ownerless (by simp [splitLast?_eq_none hnone])
  next collection hsplit => exact .ownerless (by simp [splitLast?_eq_some hsplit])
  next owner collection hne hsplit =>
    have helements := splitLast?_eq_some hsplit
    match owner with
    | [] => exact (hne rfl).elim
    | first :: second :: rest =>
        refine .subquery _ _ (by simp [helements]) (.inl ?_)
        rw [AliasTable.countParent?, helements]
        cases rest <;> rfl
    | [name] =>
        have hparent : state.aliases.countParent? p = state.aliases.joinNode? name := by
          rw [AliasTable.countParent?, helements]
          rfl
        dsimp only
        split
        next parent hjoin hstrategy => exact .count helements hjoin hstrategy rfl
        next hother =>
          refine .subquery _ _ (by simp [helements]) ?_
          rw [hparent]
          cases hjoin : state.aliases.joinNode? name with
          | none => exact .inl rfl
          | some parent =>
              cases hstrategy : scope.strategy state clause with
              | subquery => exact .inr rfl
              | count => exact (hother parent hjoin hstrategy).elim

open SizeState (Kept Simulation)

/-- Properties of steps that replace the sizes of some paths, one after another: they hold of the
replacement of one size and of steps without any, and pass to steps in a row. -/
structure SizeWalk (scope : SizeScope) (clause : ClauseKind)
    (C : ∀ α : Type, List Path → (SizeState → Except QueryError (α × SizeState)) → Prop) :
    Prop where
  pure : ∀ {α : Type} (a : α), C α [] fun state => .ok (a, state)
  bind : ∀ {α β : Type} {ps qs : List Path} {step : SizeState → Except QueryError (α × SizeState)}
    {next : α → SizeState → Except QueryError (β × SizeState)}, C α ps step →
    (∀ a, C β qs (next a)) → C β (ps ++ qs) fun state => step state >>= fun r => next r.1 r.2
  size : ∀ p, C (Option Expr) [p] (replaceSize? scope clause p)

section Walks

variable {scope : SizeScope} {clause : ClauseKind}
  {C : ∀ α : Type, List Path → (SizeState → Except QueryError (α × SizeState)) → Prop}

/-- Where an expression is not a size itself, those in its children are replaced. -/
theorem Expr.walks_of_children {e : Expr} (hsize : e.sizePath? = none)
    {step : SizeState → Except QueryError (α × SizeState)}
    (hchildren : C α (e.children.flatMap sizePaths) step) : C α e.sizePaths step := by
  rwa [sizePaths_eq, hsize]

variable (h : SizeWalk scope clause C)
include h

theorem SizeWalk.map {ps : List Path} {step : SizeState → Except QueryError (α × SizeState)}
    (hstep : C α ps step) (f : α → β) :
    C β ps fun state => step state >>= fun r => Pure.pure (f r.1, r.2) := by
  have hmap := h.bind hstep fun a => h.pure (f a)
  rwa [List.append_nil] at hmap

namespace Expr

theorem walks_list {es : List Expr}
    (hes : ∀ e ∈ es, C Expr e.sizePaths (e.replaceSizes scope clause)) :
    C (List Expr) (es.flatMap sizePaths) (replaceSizesList scope clause es) := by
  induction es with
  | nil => exact h.pure []
  | cons e rest ih =>
      obtain ⟨he, hrest⟩ := List.forall_mem_cons.1 hes
      exact h.bind he fun e => h.map (ih hrest) (e :: ·)

theorem walks_option {e? : Option Expr}
    (he : ∀ e ∈ e?, C Expr e.sizePaths (e.replaceSizes scope clause)) :
    C (Option Expr) (e?.toList.flatMap sizePaths) (replaceSizesOption scope clause e?) := by
  cases e? with
  | none => exact h.pure none
  | some e => exact h.bind (he e rfl) fun e => h.pure (some e)

theorem walks_pairs {bs : List (Expr × Expr)}
    (hbs : ∀ b ∈ bs, C Expr b.1.sizePaths (b.1.replaceSizes scope clause) ∧
      C Expr b.2.sizePaths (b.2.replaceSizes scope clause)) :
    C (List (Expr × Expr)) ((bs.flatMap fun b => [b.1, b.2]).flatMap sizePaths)
      (replaceSizesPairs scope clause bs) := by
  induction bs with
  | nil => exact h.pure []
  | cons b rest ih =>
      obtain ⟨hb, hrest⟩ := List.forall_mem_cons.1 hbs
      exact h.bind hb.1 fun a => h.bind hb.2 fun b => h.map (ih hrest) ((a, b) :: ·)

/-- The sizes in an expression are replaced one after another, from left to right. Subqueries are
left alone. -/
theorem hereditary_walks : Hereditary (fun e => C Expr e.sizePaths (e.replaceSizes scope clause))
    (fun _ => True) (fun _ => True) where
  path p := by
    simp only [replaceSizes]
    exact h.pure (path p)
  literal v := by
    simp only [replaceSizes]
    exact h.pure (literal v)
  parameter p := by
    simp only [replaceSizes]
    exact h.pure (parameter p)
  call f args ih := by
    by_cases hsize : isSizeCall f = true ∧ ∃ p, args = [path p]
    · obtain ⟨hf, p, rfl⟩ := hsize
      have hpaths : (call f [path p]).sizePaths = [p] := by
        simp [sizePaths, subexpressions, subexpressionsList, sizePath?, hf]
      rw [hpaths, funext fun state => replaceSizes.eq_4 scope clause state f p hf]
      exact h.map (h.size p) (·.getD (call f [path p]))
    · have hother : ∀ p, isSizeCall f = true → args = [path p] → False :=
        fun p hf hargs => hsize ⟨hf, p, hargs⟩
      rw [funext fun state => replaceSizes.eq_5 scope clause state f args hother]
      exact walks_of_children (sizePath?_call hother) (h.map (walks_list h ih) (call f))
  aggregate f _ d ih := by
    simp only [replaceSizes]
    exact walks_of_children rfl (h.map (walks_list h ih) (aggregate f · d))
  subquery q _ := by
    simp only [replaceSizes]
    exact h.pure (subquery q)
  indexed base _ ih := by
    simp only [replaceSizes]
    exact walks_of_children rfl (h.bind ih fun index => h.pure (indexed base index))
  null := by
    simp only [replaceSizes]
    exact h.pure null
  caseWhen operand branches otherwise hoperand hbranches hotherwise := by
    simp only [replaceSizes]
    refine walks_of_children rfl ?_
    rw [children, List.flatMap_append, List.flatMap_append, List.append_assoc]
    exact h.bind (walks_option h hoperand) fun operand =>
      h.bind (walks_pairs h hbranches) fun branches =>
        h.map (walks_option h hotherwise) (caseWhen operand branches)
  binary _ op _ hleft hright := by
    simp only [replaceSizes]
    exact walks_of_children rfl (h.bind hleft fun left =>
      h.bind hright fun right => h.pure (binary left op right))
  not _ ih := by
    simp only [replaceSizes]
    exact walks_of_children rfl (h.bind ih fun e => h.pure (not e))
  isNull _ negated ih := by
    simp only [replaceSizes]
    exact walks_of_children rfl (h.bind ih fun e => h.pure (isNull e negated))
  like _ _ escape negated ih hpattern := by
    simp only [replaceSizes]
    exact walks_of_children rfl (h.bind ih fun e =>
      h.bind hpattern fun pattern => h.pure (like e pattern escape negated))
  oneOf _ _ negated ih hvalues := by
    simp only [replaceSizes]
    exact walks_of_children rfl (h.bind ih fun e =>
      h.map (walks_list h hvalues) (oneOf e · negated))
  between _ _ _ negated ih hlow hhigh := by
    simp only [replaceSizes]
    exact walks_of_children rfl (h.bind ih fun e => h.bind hlow fun low =>
      h.bind hhigh fun high => h.pure (between e low high negated))
  parens _ ih := by
    simp only [replaceSizes]
    exact walks_of_children rfl (h.bind ih fun e => h.pure (parens e))
  verbatim s := by
    simp only [replaceSizes]
    exact h.pure (verbatim s)
  select _ _ := trivial
  combined _ _ := trivial
  query _ _ := trivial
  update _ _ _ := trivial
  collectionDelete _ _ := trivial

theorem walks (e : Expr) : C Expr e.sizePaths (e.replaceSizes scope clause) :=
  (hereditary_walks h).expr e

end Expr

end Walks

theorem SelectItem.walks_list {scope : SizeScope}
    {C : ∀ α : Type, List Path → (SizeState → Except QueryError (α × SizeState)) → Prop}
    (h : SizeWalk scope .select C) (is : List (SelectItem Expr)) :
    C (List (SelectItem Expr)) (is.flatMap fun i => i.expr.sizePaths)
      (SelectItem.replaceSizesList scope is) := by
  induction is with
  | nil => exact h.pure []
  | cons i rest ih => exact h.bind (i.expr.walks h) fun e => h.map ih ({ i with expr := e } :: ·)

theorem OrderItem.walks_list {scope : SizeScope}
    {C : ∀ α : Type, List Path → (SizeState → Except QueryError (α × SizeState)) → Prop}
    (h : SizeWalk scope .orderBy C) (is : List (OrderItem Expr)) :
    C (List (OrderItem Expr)) (is.flatMap fun i => i.expr.sizePaths)
      (OrderItem.replaceSizesList scope is) := by
  induction is with
  | nil => exact h.pure []
  | cons i rest ih => exact h.bind (i.expr.walks h) fun e => h.map ih ({ i with expr := e } :: ·)

/-- Sizes are replaced alike in states that are related, expression by expression. -/
theorem SizeState.Simulation.walk (h : Simulation R) (scope : SizeScope) (clause : ClauseKind) :
    SizeWalk scope clause fun _ _ step => Kept R step where
  pure := kept_pure
  bind hstep hnext := hstep.bind hnext
  size := h.replaceSize? scope clause

namespace Expr

variable (scope : SizeScope) (clause : ClauseKind)

theorem kept (h : Simulation R) (e : Expr) : Kept R (e.replaceSizes scope clause) :=
  walks (h.walk scope clause) e

theorem kept_list (h : Simulation R) (es : List Expr) :
    Kept R (replaceSizesList scope clause es) :=
  walks_list (h.walk scope clause) fun e _ => e.kept scope clause h

theorem kept_option (h : Simulation R) (e? : Option Expr) :
    Kept R (replaceSizesOption scope clause e?) :=
  walks_option (h.walk scope clause) fun e _ => e.kept scope clause h

theorem length_replaceSizesList {es : List Expr} {state : SizeState} {r : List Expr × SizeState}
    (h : replaceSizesList scope clause es state = .ok r) : r.1.length = es.length := by
  induction es generalizing state r with
  | nil =>
      cases h
      rfl
  | cons e rest ih =>
      rw [replaceSizesList] at h
      simp only [bind_eq_ok, pure_eq_ok] at h
      obtain ⟨first, -, tail, htail, rfl⟩ := h
      exact congrArg Nat.succ (ih htail)

end Expr

/-- The sizes of selected items are replaced in their expressions; each keeps its alias. -/
theorem SelectItem.replaceSizesList_eq (scope : SizeScope) (is : List (SelectItem Expr))
    (state : SizeState) :
    SelectItem.replaceSizesList scope is state =
      Expr.replaceSizesList scope .select (is.map SelectItem.expr) state >>= fun r =>
        pure (List.zipWith (fun i e => { i with expr := e }) is r.1, r.2) := by
  induction is generalizing state with
  | nil => rfl
  | cons i rest ih =>
      simp only [SelectItem.replaceSizesList, List.map_cons, Expr.replaceSizesList, ih, bind_assoc,
        pure_bind]
      rfl

theorem OrderItem.kept_list (h : Simulation R) (scope : SizeScope) (is : List (OrderItem Expr)) :
    Kept R (OrderItem.replaceSizesList scope is) := walks_list (h.walk scope .orderBy) is

theorem SizeState.related_replaceInConditions (hR : Simulation R) (scope : SizeScope)
    (ids : List NodeId) {state state' : SizeState} (h : R state state') :
    ∃ next next', state.replaceInConditions scope ids = .ok next ∧
      state'.replaceInConditions scope ids = .ok next' ∧ R next next' := by
  induction ids generalizing state state' with
  | nil => exact ⟨state, state', rfl, rfl, h⟩
  | cons id rest ih =>
      rw [replaceInConditions, replaceInConditions, hR.joins h]
      split
      · exact ih h
      next e _ =>
        obtain ⟨e', after, after', he, he', hafter⟩ := e.kept scope .join hR state state' h
        obtain ⟨last, last', hlast, hlast', hrelated⟩ := ih (hR.setCondition hafter id e')
        exact ⟨last, last', bind_eq_ok.2 ⟨(e', after), he, hlast⟩,
          bind_eq_ok.2 ⟨(e', after'), he', hlast'⟩, hrelated⟩

/-- A query level after its sizes have been replaced. -/
def Select.withSizes (s : Select) (items : List Expr) (orderBy : List (OrderItem Expr))
    (condition : Option Expr) (groupBy : List Expr) (having : Option Expr) (last : SizeState) :
    Select :=
  let replaced : Select :=
    { s with
      items := List.zipWith (fun i e => { i with expr := e }) s.items items
      orderBy := orderBy, condition := condition, groupBy := groupBy
      having := having, joins := last.joins, aliases := last.aliases }
  if last.counted then replaced.applyImplicitGroups else replaced

/-- Levels that differ in their aliases alone have their sizes replaced alike. -/
theorem Select.exists_withSizes (hR : Simulation R) (s : Select) (counted : Bool)
    {listed : List (SelectItem Expr)} {t : AliasTable Expr}
    (h : R { joins := s.joins, aliases := s.aliases, counted := counted }
      { joins := s.joins, aliases := t, counted := counted })
    (hlisted : listed.map SelectItem.expr = s.items.map SelectItem.expr) :
    ∃ items orderBy condition groupBy having last last',
      items.length = s.items.length ∧ R last last' ∧
      s.replaceSizesAfter counted =
        .ok (s.withSizes items orderBy condition groupBy having last) ∧
      ({ s with items := listed, aliases := t } : Select).replaceSizesAfter counted =
        .ok (({ s with items := listed, aliases := t } : Select).withSizes items orderBy condition
          groupBy having last') := by
  obtain ⟨items, state, state', hitems, hitems', hstate⟩ :=
    Expr.kept_list ⟨s.distinct, s.groupBy⟩ .select hR (s.items.map SelectItem.expr) _ _ h
  obtain ⟨orderBy, state, state', horder, horder', hstate⟩ :=
    OrderItem.kept_list hR ⟨s.distinct, s.groupBy⟩ s.orderBy state state' hstate
  obtain ⟨condition, state, state', hcondition, hcondition', hstate⟩ :=
    Expr.kept_option ⟨s.distinct, s.groupBy⟩ .condition hR s.condition state state' hstate
  obtain ⟨groupBy, state, state', hgroup, hgroup', hstate⟩ :=
    Expr.kept_list ⟨s.distinct, s.groupBy⟩ .groupBy hR s.groupBy state state' hstate
  obtain ⟨having, state, state', hhaving, hhaving', hstate⟩ :=
    Expr.kept_option ⟨s.distinct, s.groupBy⟩ .having hR s.having state state' hstate
  obtain ⟨last, last', hlast, hlast', hrelated⟩ :=
    SizeState.related_replaceInConditions hR ⟨s.distinct, s.groupBy⟩ state.joins.depthFirst hstate
  have hselected := SelectItem.replaceSizesList_eq ⟨s.distinct, s.groupBy⟩ s.items
    { joins := s.joins, aliases := s.aliases, counted := counted }
  have hselected' := SelectItem.replaceSizesList_eq ⟨s.distinct, s.groupBy⟩ listed
    { joins := s.joins, aliases := t, counted := counted }
  rw [hitems, ok_bind] at hselected
  rw [hlisted, hitems', ok_bind] at hselected'
  rw [← hR.joins hstate] at hlast'
  have hlength := Expr.length_replaceSizesList _ _ hitems
  rw [List.length_map] at hlength
  refine ⟨items, orderBy, condition, groupBy, having, last, last', hlength, hrelated, ?_, ?_⟩
  · simp only [replaceSizesAfter, withState, hselected, horder, hcondition, hgroup, hhaving, hlast,
      SizeFailure.attempt_ok, SizeFailure.attempt_pure, ok_bind]
    rfl
  · simp only [replaceSizesAfter, withState, hselected', horder', hcondition', hgroup', hhaving',
      hlast', SizeFailure.attempt_ok, SizeFailure.attempt_pure, ok_bind]
    rfl

namespace SizeState

/-- Whether the aliases of a level name its nodes. -/
def Named (state : SizeState) : Prop := state.aliases.Names state.joins

/-- A collection is counted under a node that exists, and under an alias of its own. -/
theorem named_joinCollection {state : SizeState} (h : state.Named) {parent : NodeId}
    (hparent : parent < state.joins.size) (collection aliasName : String) :
    ∃ node state', state.joinCollection parent collection aliasName = .ok (node, state') ∧
      state'.Named := by
  have hrequire : ∃ n, state.joins.require parent = .ok n := by
    obtain ⟨n, hn⟩ := Option.isSome_iff_exists.1 (JoinGraph.node?_isSome.2 hparent)
    exact ⟨n, by rw [JoinGraph.require, hn]⟩
  obtain ⟨n, hn⟩ := hrequire
  have hadded := AliasTable.Names.push h
    (n := { aliasName := aliasName, source := .ofAttribute collection .collection
            parent := some parent, type := some .left })
    (fun p hp => Option.some.inj hp ▸ hparent) rfl true
  refine ⟨state.joins.size, ⟨_, _, true⟩, ?_,
    hadded.modify state.joins.size (f := fun n => { n with implicit := true }) (fun _ => rfl)
      (fun _ hn => hn) fun _ => rfl⟩
  rw [joinCollection, JoinGraph.join, JoinGraph.pushUnder, hn]
  rfl

theorem Named.setCondition {state : SizeState} (h : state.Named) (id : NodeId) (e : Expr) :
    Named { state with
      joins := state.joins.modify id fun n => { n with condition := some e } } :=
  AliasTable.Names.modify h id (fun _ => rfl) (fun _ hn => hn) fun _ => rfl

end SizeState

open SizeState (Named)

/-- An alias that names a node names one that exists. -/
theorem AliasTable.Names.lt_of_joinNode? {ε : Type} {t : AliasTable ε} {g : JoinGraph ε}
    (h : t.Names g) {aliasName : String} {node : NodeId}
    (hnode : t.joinNode? aliasName = some node) : node < g.size := by
  rw [AliasTable.joinNode?] at hnode
  split at hnode
  next hfind =>
    cases hnode
    have hn := h.nodes _ _ _ _ (AliasTable.mem_of_find? hfind)
    obtain ⟨n, hn, -⟩ := Option.map_eq_some_iff.1 hn
    exact (List.getElem?_eq_some_iff.1 hn).1
  next => cases hnode

/-- Where aliases name nodes, a size can be replaced, and they do so afterwards. -/
theorem named_replaceSize? (scope : SizeScope) (clause : ClauseKind) (p : Path) {state : SizeState}
    (hstate : state.Named) :
    ∃ e next, replaceSize? scope clause p state = .ok (e, next) ∧ next.Named := by
  have hcases := replacedSize scope clause p state
  generalize replaceSize? scope clause p state = result at hcases
  cases hcases with
  | ownerless => exact ⟨_, state, rfl, hstate⟩
  | subquery => exact ⟨_, state, rfl, hstate⟩
  | @count _ collection aliasName _ _ hparent =>
      obtain ⟨node, after, hjoin, hafter⟩ := SizeState.named_joinCollection hstate
        (hstate.lt_of_joinNode? hparent) collection aliasName
      exact ⟨_, after, bind_eq_ok.2 ⟨(node, after), hjoin, rfl⟩, hafter⟩

/-- A state whose aliases name its nodes, beside itself. -/
theorem SizeState.simulation_named :
    Simulation fun state state' => state' = state ∧ state.Named where
  joins h := h.1 ▸ rfl
  replaceSize? scope clause p := by
    rintro state _ ⟨rfl, hstate⟩
    obtain ⟨e, next, hok, hnext⟩ := named_replaceSize? scope clause p hstate
    exact ⟨e, next, next, hok, hok, rfl, hnext⟩
  setCondition := by
    rintro state _ ⟨rfl, hstate⟩ id e
    exact ⟨rfl, hstate.setCondition id e⟩

/-- Replacing sizes succeeds where aliases name nodes, and they do so afterwards. -/
theorem Select.names_replaceSizesAfter {s : Select} (h : s.aliases.Names s.joins) (counted : Bool) :
    ∃ s', s.replaceSizesAfter counted = .ok s' ∧ s'.aliases.Names s'.joins := by
  obtain ⟨items, orderBy, condition, groupBy, having, last, -, -, ⟨-, hnamed⟩, hok, -⟩ :=
    s.exists_withSizes SizeState.simulation_named counted ⟨rfl, h⟩ rfl
  refine ⟨_, hok, ?_⟩
  unfold withSizes
  split <;> exact hnamed

end EntityQuery
