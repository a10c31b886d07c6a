import EntityQuery.Proofs.Analysis.Sizes
import EntityQuery.Proofs.Query.SelectAliases

/-!
What replacing sizes makes of an expression. None of the sizes that are asked for is left, an
expression that asks for none stays as it is, and on the way at most one collection is joined: one
whose size is asked for, under the node that the path starts from.
-/

namespace EntityQuery

namespace Expr

/-- Whether all sizes in an expression are those of paths without an owner. -/
def SizeFree (e : Expr) : Prop := ∀ p ∈ e.sizePaths, p.elements.length < 2

theorem SizeFree.child {e child : Expr} (h : e.SizeFree) (hchild : child ∈ e.children) :
    child.SizeFree :=
  fun p hp => h p (mem_sizePaths_of_child hchild hp)

theorem SizeFree.of_children {e : Expr} (hsize : e.sizePath? = none)
    (h : ∀ child ∈ e.children, child.SizeFree) : e.SizeFree := by
  intro p hp
  rw [sizePaths_eq, hsize, Option.toList_none, List.nil_append] at hp
  obtain ⟨child, hchild, hp⟩ := List.mem_flatMap.1 hp
  exact h child hchild p hp

/-- What a replacement of sizes makes of an expression. -/
structure Resized (e e' : Expr) : Prop where
  sizeFree : e'.SizeFree
  /-- Where there is nothing to replace, nothing changes. -/
  unchanged : e.SizeFree → e' = e
  /-- Nothing becomes a path, so no call becomes the size of one. -/
  path : ∀ p, e' = .path p → e = .path p

theorem Resized.of_children {e e' : Expr} (hpath : ∀ p, e' ≠ .path p) (hsize : e'.sizePath? = none)
    (hfree : ∀ child ∈ e'.children, child.SizeFree)
    (hunchanged : (∀ child ∈ e.children, child.SizeFree) → e' = e) : e.Resized e' where
  sizeFree := .of_children hsize hfree
  unchanged h := hunchanged fun _ => h.child
  path p hp := absurd hp (hpath p)

/-- What asks for no size stays as it is. -/
theorem Resized.self {e : Expr} (hsize : e.sizePath? = none) (hchildren : e.children = []) :
    e.Resized e where
  sizeFree := .of_children hsize (by simp [hchildren])
  unchanged _ := rfl
  path _ hp := hp

theorem sizeFree_of_rel {e? e?' : Option Expr} (h : Option.Rel Resized e? e?') :
    ∀ e ∈ e?', e.SizeFree := by
  cases h with
  | none => simp
  | some hresized => simpa using hresized.sizeFree

theorem eq_of_rel {e? e?' : Option Expr} (h : Option.Rel Resized e? e?')
    (hfree : ∀ e ∈ e?, e.SizeFree) : e?' = e? := by
  cases h with
  | none => rfl
  | some hresized => rw [hresized.unchanged (hfree _ rfl)]

end Expr

/-- The node of a collection that is joined for counting its elements. -/
def JoinGraph.countNode (g : JoinGraph Expr) (parent : NodeId) (owner collection : String) :
    JoinNode Expr where
  aliasName := g.freshAlias ("_".intercalate [owner] ++ "_" ++ collection)
  source := .ofAttribute collection .collection
  parent := some parent
  type := some .left
  implicit := true

namespace SizeState

/-- The state with a collection joined for counting its elements. -/
def counting (state : SizeState) (parent : NodeId) (owner collection : String) : SizeState where
  joins := state.joins.push (state.joins.countNode parent owner collection)
  aliases := state.aliases.insertJoin (state.joins.countNode parent owner collection).aliasName
    state.joins.size true
  counted := true

/-- What becomes of a state while sizes of paths are replaced: nothing, or it is the first time that
one of them is counted. -/
inductive Counts (asked : Path → Prop) (state : SizeState) : SizeState → Prop
  | nothing : state.Counts asked state
  | collection {p : Path} {owner collection : String} {parent : NodeId} (size : asked p)
      (elements : p.elements = [owner, collection])
      (named : state.aliases.joinNode? owner = some parent) (first : state.counted = false) :
      state.Counts asked (state.counting parent owner collection)

variable {asked : Path → Prop} {α β : Type}

theorem Counts.trans {state middle next : SizeState} (h : state.Counts asked middle)
    (h' : middle.Counts asked next) : state.Counts asked next := by
  cases h with
  | nothing => exact h'
  | collection size elements named first =>
      cases h' with
      | nothing => exact .collection size elements named first
      | collection _ _ _ again => cases again

/-- The aliases still name the nodes: a path that is counted starts from a node that exists. -/
theorem Counts.named {state next : SizeState} (h : state.Counts asked next) (hstate : state.Named) :
    next.Named := by
  cases h with
  | nothing => exact hstate
  | @collection _ owner collection parent _ _ named _ =>
      exact AliasTable.Names.push (n := state.joins.countNode parent owner collection) hstate
        (fun _ hparent => Option.some.inj hparent ▸ hstate.lt_of_joinNode? named) rfl true

theorem Counts.eq_of_none {state next : SizeState} (h : state.Counts (fun _ => False) next) :
    next = state := by
  cases h with
  | nothing => rfl
  | collection size => exact size.elim

/-- Steps whose values have a property, and which count one of the paths at most. -/
def Steps (asked : Path → Prop) (q : α → Prop)
    (step : SizeState → Except QueryError (α × SizeState)) : Prop :=
  ∀ state a next, step state = .ok (a, next) → q a ∧ state.Counts asked next

theorem steps_pure {q : α → Prop} {a : α} (h : q a) :
    Steps asked q fun state => .ok (a, state) := by
  rintro state _ _ ⟨⟩
  exact ⟨h, .nothing⟩

theorem Steps.bind {q : α → Prop} {q' : β → Prop}
    {step : SizeState → Except QueryError (α × SizeState)}
    {next : α → SizeState → Except QueryError (β × SizeState)} (h : Steps asked q step)
    (hnext : ∀ a, q a → Steps asked q' (next a)) :
    Steps asked q' fun state => step state >>= fun r => next r.1 r.2 := by
  intro state b after hok
  obtain ⟨⟨a, middle⟩, ha, hb⟩ := bind_eq_ok.1 hok
  obtain ⟨hq, hmiddle⟩ := h state a middle ha
  obtain ⟨hq', hafter⟩ := hnext a hq middle b after hb
  exact ⟨hq', hmiddle.trans hafter⟩

theorem Steps.map {q : α → Prop} {q' : β → Prop}
    {step : SizeState → Except QueryError (α × SizeState)} (h : Steps asked q step) (f : α → β)
    (hf : ∀ a, q a → q' (f a)) :
    Steps asked q' fun state => step state >>= fun r => pure (f r.1, r.2) :=
  h.bind fun a hq => steps_pure (hf a hq)

theorem joinCollection_eq_ok {state next : SizeState} {parent node : NodeId}
    {owner collection : String}
    (h : state.joinCollection parent collection
      (state.joins.freshAlias ("_".intercalate [owner] ++ "_" ++ collection)) = .ok (node, next)) :
    next = state.counting parent owner collection := by
  rw [joinCollection, JoinGraph.join, JoinGraph.pushUnder] at h
  simp only [bind_eq_ok, pure_eq_ok] at h
  obtain ⟨_, ⟨_, -, rfl⟩, hnext⟩ := h
  cases hnext
  simp only [counting, JoinGraph.countNode, JoinGraph.push, JoinGraph.modify, JoinGraph.size,
    modify_length_append]
  rfl

end SizeState

open SizeState (Steps Counts)

theorem SizeScope.strategy_eq_count {scope : SizeScope} {state : SizeState} {clause : ClauseKind}
    (h : scope.strategy state clause = .count) :
    clause.allowsCount = true ∧ state.counted = false := by
  rw [strategy] at h
  split at h
  next hcount =>
    simp only [Bool.and_eq_true, Bool.not_eq_true'] at hcount
    exact ⟨hcount.1.1.1.1, hcount.2⟩
  next => cases h

/-- The size of a path without an owner stays. -/
theorem Expr.Resized.size_self {f : String} {p : Path} (h : p.elements.length < 2) :
    (Expr.call f [.path p]).Resized (.call f [.path p]) where
  sizeFree := by
    intro q hq
    cases hf : isSizeCall f <;>
      simp [sizePaths, subexpressions, subexpressionsList, sizePath?, hf] at hq
    exact hq ▸ h
  unchanged _ := rfl
  path _ hp := hp

/-- The size of a path with an owner is replaced, by something that asks for none. -/
theorem Expr.Resized.size {f : String} {p : Path} {e : Expr} (hf : isSizeCall f = true)
    (h : ¬p.elements.length < 2) (hsize : e.sizePaths = []) (hpath : ∀ q, e ≠ .path q) :
    (Expr.call f [.path p]).Resized e where
  sizeFree := by simp [SizeFree, hsize]
  unchanged hfree := absurd (hfree p (by simp [sizePaths, subexpressions, sizePath?, hf])) h
  path q hq := absurd hq (hpath q)

/-- The one step that looks at the state. -/
theorem steps_replaceSize? (scope : SizeScope) {clause : ClauseKind} {asked : Path → Prop}
    {p : Path} (hasked : clause.allowsCount = true → asked p) {f : String}
    (hf : Expr.isSizeCall f = true) :
    Steps asked (fun r => (Expr.call f [.path p]).Resized (r.getD (.call f [.path p])))
      (replaceSize? scope clause p) := by
  intro state r next h
  have hcases := replacedSize scope clause p state
  rw [h] at hcases
  generalize hresult : Except.ok (r, next) = result at hcases
  cases hcases with
  | ownerless hlength =>
      cases hresult
      exact ⟨.size_self hlength, .nothing⟩
  | subquery path aliasName howned =>
      cases hresult
      exact ⟨.size hf howned rfl (by simp [sizeSubquery]), .nothing⟩
  | count helements hparent hstrategy halias =>
      subst halias
      obtain ⟨⟨node, after⟩, hjoin, hnext⟩ := bind_eq_ok.1 hresult.symm
      cases hnext
      obtain ⟨hallowed, hfirst⟩ := SizeScope.strategy_eq_count hstrategy
      obtain rfl := SizeState.joinCollection_eq_ok hjoin
      have howned : ¬p.elements.length < 2 := by simp [helements]
      exact ⟨.size hf howned rfl (by simp [Expr.count]),
        .collection (hasked hallowed) helements hparent hfirst⟩

namespace Expr

variable (scope : SizeScope) (clause : ClauseKind) (asked : Path → Prop)

/-- Whether the sizes that an expression asks for are among some, where they may be counted. -/
def Asks (e : Expr) : Prop := clause.allowsCount = true → ∀ p ∈ e.sizePaths, asked p

/-- Whether the sizes in an expression are replaced as they should be. -/
def Replaces (e : Expr) : Prop :=
  e.Asks clause asked → Steps asked e.Resized (e.replaceSizes scope clause)

variable {scope clause asked}

theorem Asks.child {e child : Expr} (h : e.Asks clause asked) (hchild : child ∈ e.children) :
    child.Asks clause asked :=
  fun hallowed p hp => h hallowed p (mem_sizePaths_of_child hchild hp)

theorem steps_list {es : List Expr} (h : ∀ e ∈ es, e.Replaces scope clause asked)
    (hasked : ∀ e ∈ es, e.Asks clause asked) :
    Steps asked (List.Forall₂ Resized es) (replaceSizesList scope clause es) := by
  induction es with
  | nil => exact SizeState.steps_pure .nil
  | cons e rest ih =>
      obtain ⟨he, hrest⟩ := List.forall_mem_cons.1 h
      obtain ⟨hfirst, hothers⟩ := List.forall_mem_cons.1 hasked
      exact (he hfirst).bind fun e' hresized => (ih hrest hothers).map (e' :: ·)
        fun _ => .cons hresized

theorem steps_option {e? : Option Expr} (h : ∀ e ∈ e?, e.Replaces scope clause asked)
    (hasked : ∀ e ∈ e?, e.Asks clause asked) :
    Steps asked (Option.Rel Resized e?) (replaceSizesOption scope clause e?) := by
  cases e? with
  | none => exact SizeState.steps_pure .none
  | some e => exact (h e rfl (hasked e rfl)).map some fun _ => .some

theorem steps_pairs {bs : List (Expr × Expr)}
    (h : ∀ b ∈ bs, b.1.Replaces scope clause asked ∧ b.2.Replaces scope clause asked)
    (hasked : ∀ b ∈ bs, b.1.Asks clause asked ∧ b.2.Asks clause asked) :
    Steps asked (List.Forall₂ (fun b b' => b.1.Resized b'.1 ∧ b.2.Resized b'.2) bs)
      (replaceSizesPairs scope clause bs) := by
  induction bs with
  | nil => exact SizeState.steps_pure .nil
  | cons b rest ih =>
      obtain ⟨hb, hrest⟩ := List.forall_mem_cons.1 h
      obtain ⟨hfirst, hothers⟩ := List.forall_mem_cons.1 hasked
      exact (hb.1 hfirst.1).bind fun a' ha => (hb.2 hfirst.2).bind fun b' hb =>
        (ih hrest hothers).map ((a', b') :: ·) fun _ => .cons ⟨ha, hb⟩

/-- A call keeps its function; it is the size of a path only if it was. -/
theorem Resized.call {f : String} {args args' : List Expr} (h : List.Forall₂ Resized args args')
    (hother : ∀ p, isSizeCall f = true → args = [.path p] → False) :
    (Expr.call f args).Resized (.call f args') := by
  have hother' : ∀ p, isSizeCall f = true → args' = [.path p] → False := by
    rintro p hf rfl
    obtain ⟨e, _, hresized, hnil, rfl⟩ := List.forall₂_cons_right_iff.1 h
    cases hnil
    exact hother p hf (by rw [hresized.path p rfl])
  refine .of_children (by simp) (sizePath?_call hother') (forall_of_forall₂ h Resized.sizeFree)
    fun hfree => ?_
  rw [eq_of_forall₂ h hfree Resized.unchanged]

/-- Around one expression. -/
theorem Resized.inside {e e' : Expr} (h : e.Resized e') (f : Expr → Expr)
    (hchildren : ∀ e, (f e).children = [e]) (hpath : ∀ e p, f e ≠ .path p)
    (hsize : ∀ e, (f e).sizePath? = none) : (f e).Resized (f e') := by
  refine .of_children (hpath e') (hsize e') (by simp [hchildren, h.sizeFree]) fun hfree => ?_
  rw [h.unchanged (hfree e (by simp [hchildren]))]

/-- Sizes are replaced in every expression, shape by shape. Subqueries are left alone. -/
theorem hereditary_replaces :
    Hereditary (Replaces scope clause asked) (fun _ => True) (fun _ => True) where
  path p hasked := by
    simp only [replaceSizes]
    exact SizeState.steps_pure (.self rfl rfl)
  literal v hasked := by
    simp only [replaceSizes]
    exact SizeState.steps_pure (.self rfl rfl)
  parameter p hasked := by
    simp only [replaceSizes]
    exact SizeState.steps_pure (.self rfl rfl)
  call f args ih hasked := by
    by_cases hsize : isSizeCall f = true ∧ ∃ p, args = [.path p]
    · obtain ⟨hf, p, rfl⟩ := hsize
      have hpath : clause.allowsCount = true → asked p := fun hallowed =>
        hasked hallowed p (by simp [sizePaths, subexpressions, sizePath?, hf])
      have hstep := (steps_replaceSize? scope hpath hf).map (·.getD (.call f [.path p]))
        fun _ h => h
      intro state e' next h
      rw [replaceSizes.eq_4 scope clause state f p hf] at h
      exact hstep state e' next h
    · have hother : ∀ p, isSizeCall f = true → args = [.path p] → False :=
        fun p hf hargs => hsize ⟨hf, p, hargs⟩
      have hstep := (steps_list ih fun e he => hasked.child he).map (Expr.call f)
        fun _ h => Resized.call h hother
      intro state e' next h
      rw [replaceSizes.eq_5 scope clause state f args hother] at h
      exact hstep state e' next h
  aggregate f args d ih hasked := by
    simp only [replaceSizes]
    refine (steps_list ih fun e he => hasked.child he).map (aggregate f · d) fun args' h => ?_
    refine .of_children (by simp) rfl (forall_of_forall₂ h Resized.sizeFree) fun hfree => ?_
    rw [eq_of_forall₂ h hfree Resized.unchanged]
  subquery q _ hasked := by
    simp only [replaceSizes]
    exact SizeState.steps_pure (.self rfl rfl)
  indexed base index ih hasked := by
    simp only [replaceSizes]
    exact (ih (hasked.child (by simp [children]))).map (indexed base) fun _ h =>
      h.inside (indexed base) (fun _ => rfl) (by simp) fun _ => rfl
  null hasked := by
    simp only [replaceSizes]
    exact SizeState.steps_pure (.self rfl rfl)
  caseWhen operand branches otherwise hoperand hbranches hotherwise hasked := by
    obtain ⟨hfirst, hmiddle, hlast⟩ :=
      forall_children_caseWhen.1 fun child (hchild : child ∈ _) => hasked.child hchild
    simp only [replaceSizes]
    refine (steps_option hoperand hfirst).bind fun operand' ho =>
      (steps_pairs hbranches hmiddle).bind fun branches' hb =>
        (steps_option hotherwise hlast).map (caseWhen operand' branches') fun otherwise' he => ?_
    refine .of_children (by simp) rfl (forall_children_caseWhen.2
      ⟨sizeFree_of_rel ho, forall_of_forall₂ hb fun h => ⟨h.1.sizeFree, h.2.sizeFree⟩,
        sizeFree_of_rel he⟩) fun hfree => ?_
    obtain ⟨hfirst, hmiddle, hlast⟩ := forall_children_caseWhen.1 hfree
    have hpairs := eq_of_forall₂ hb hmiddle fun h hfree =>
      Prod.ext (h.1.unchanged hfree.1) (h.2.unchanged hfree.2)
    rw [eq_of_rel ho hfirst, hpairs, eq_of_rel he hlast]
  binary left op right hleft hright hasked := by
    simp only [replaceSizes]
    refine (hleft (hasked.child (by simp [children]))).bind fun left' hl =>
      (hright (hasked.child (by simp [children]))).map (binary left' op) fun right' hr => ?_
    refine .of_children (by simp) rfl (by simp [children, hl.sizeFree, hr.sizeFree]) fun hfree => ?_
    rw [hl.unchanged (hfree left (by simp [children])),
      hr.unchanged (hfree right (by simp [children]))]
  not e ih hasked := by
    simp only [replaceSizes]
    exact (ih (hasked.child (by simp [children]))).map not fun _ h =>
      h.inside not (fun _ => rfl) (by simp) fun _ => rfl
  isNull e negated ih hasked := by
    simp only [replaceSizes]
    exact (ih (hasked.child (by simp [children]))).map (isNull · negated) fun _ h =>
      h.inside (isNull · negated) (fun _ => rfl) (by simp) fun _ => rfl
  like e pattern escape negated ih hpattern hasked := by
    simp only [replaceSizes]
    refine (ih (hasked.child (by simp [children]))).bind fun e' h =>
      (hpattern (hasked.child (by simp [children]))).map (like e' · escape negated)
        fun pattern' hp => ?_
    refine .of_children (by simp) rfl (by simp [children, h.sizeFree, hp.sizeFree]) fun hfree => ?_
    rw [h.unchanged (hfree e (by simp [children])),
      hp.unchanged (hfree pattern (by simp [children]))]
  oneOf e values negated ih hvalues hasked := by
    simp only [replaceSizes]
    refine (ih (hasked.child (by simp [children]))).bind fun e' h =>
      (steps_list hvalues fun v hv => hasked.child (List.mem_cons_of_mem e hv)).map
        (oneOf e' · negated) fun values' hv => ?_
    refine .of_children (by simp) rfl (List.forall_mem_cons.2
      ⟨h.sizeFree, forall_of_forall₂ hv Resized.sizeFree⟩) fun hfree => ?_
    obtain ⟨he, hrest⟩ := List.forall_mem_cons.1 hfree
    rw [h.unchanged he, eq_of_forall₂ hv hrest Resized.unchanged]
  between e low high negated ih hlow hhigh hasked := by
    simp only [replaceSizes]
    refine (ih (hasked.child (by simp [children]))).bind fun e' h =>
      (hlow (hasked.child (by simp [children]))).bind fun low' hl =>
        (hhigh (hasked.child (by simp [children]))).map (between e' low' · negated)
          fun high' hh => ?_
    refine .of_children (by simp) rfl (by simp [children, h.sizeFree, hl.sizeFree, hh.sizeFree])
      fun hfree => ?_
    rw [h.unchanged (hfree e (by simp [children])), hl.unchanged (hfree low (by simp [children])),
      hh.unchanged (hfree high (by simp [children]))]
  parens e ih hasked := by
    simp only [replaceSizes]
    exact (ih (hasked.child (by simp [children]))).map parens fun _ h =>
      h.inside parens (fun _ => rfl) (by simp) fun _ => rfl
  verbatim s hasked := by
    simp only [replaceSizes]
    exact SizeState.steps_pure (.self rfl rfl)
  select _ _ := trivial
  combined _ _ := trivial
  query _ _ := trivial
  update _ _ _ := trivial
  collectionDelete _ _ := trivial

theorem replaces (e : Expr) : e.Replaces scope clause asked := hereditary_replaces.expr e

end Expr

end EntityQuery
