import Mathlib.Logic.Relation
import EntityQuery.Proofs.Copy.Statement

/-!
What cannot be copied. A copy is made of the queries and modifications that a statement is put
together from, and is refused if one of them is a delete of collection elements. Expressions are
taken over with the subqueries they hold, so a delete in the WITH clause of a subquery is not come
across, and is copied along.
-/

namespace EntityQuery

/-- A computation fails only for the given reasons, and whenever there is one of them. -/
structure FailsBy {ε α : Type} (p : ε → Prop) (x : Except ε α) : Prop where
  reason : ∀ e, x = .error e → p e
  clear : Succeeds x → ∀ e, ¬p e

namespace FailsBy

variable {ε α β : Type} {p q : ε → Prop}

theorem pure (a : α) : FailsBy (fun _ : ε => False) (pure a : Except ε α) where
  reason e he := by cases he
  clear _ _ := id

theorem error (e : ε) : FailsBy (· = e) (.error e : Except ε α) where
  reason _ he := (Except.error.inj he).symm
  clear h := absurd h (not_succeeds_error e)

theorem congr {x : Except ε α} (h : FailsBy p x) (hpq : ∀ e, p e ↔ q e) : FailsBy q x where
  reason e he := (hpq e).1 (h.reason e he)
  clear hx e he := h.clear hx e ((hpq e).2 he)

theorem bind {x : Except ε α} {f : α → Except ε β} (h : FailsBy p x)
    (hf : ∀ a, FailsBy q (f a)) : FailsBy (fun e => p e ∨ q e) (x >>= f) := by
  cases x with
  | error e =>
      refine ⟨?_, fun hsucceeds => absurd hsucceeds (not_succeeds_error e)⟩
      rintro _ ⟨⟩
      exact .inl (h.reason e rfl)
  | ok a =>
      refine ⟨fun e he => .inr ((hf a).reason e he), fun hsucceeds e he => ?_⟩
      rcases he with he | he
      · exact h.clear (succeeds_ok a) e he
      · exact (hf a).clear hsucceeds e he

theorem map {x : Except ε α} (h : FailsBy p x) (f : α → β) :
    FailsBy p (x >>= fun a => Pure.pure (f a)) :=
  (h.bind fun a => pure (f a)).congr fun _ => or_iff_left id

theorem mapM {f : α → Except ε β} {p : α → ε → Prop} {as : List α}
    (h : ∀ a ∈ as, FailsBy (p a) (f a)) : FailsBy (fun e => ∃ a ∈ as, p a e) (as.mapM f) := by
  induction as with
  | nil =>
      rw [List.mapM_nil]
      exact (pure []).congr fun e => by simp
  | cons a rest ih =>
      have hrest := ih fun other hother => h other (List.mem_cons_of_mem a hother)
      rw [List.mapM_cons]
      refine ((h a List.mem_cons_self).bind fun b => hrest.map (b :: ·)).congr fun e => ?_
      simp only [List.mem_cons, exists_eq_or_imp]

theorem succeeds_iff {x : Except ε α} (h : FailsBy p x) : Succeeds x ↔ ∀ e, ¬p e := by
  refine ⟨h.clear, fun hclear => ?_⟩
  cases x with
  | ok a => exact succeeds_ok a
  | error e => exact absurd (h.reason e rfl) (hclear e)

/-- The only reason there is is the one that is given. -/
theorem error_iff {x : Except ε α} (h : FailsBy p x) {e : ε} (honly : ∀ e', p e' → e' = e) :
    x = .error e ↔ p e := by
  refine ⟨h.reason e, fun he => ?_⟩
  cases x with
  | ok a => exact absurd he (h.clear (succeeds_ok a) e)
  | error e' => rw [honly e' (h.reason e' rfl)]

end FailsBy

/-- A statement, or something that it is made of. -/
inductive Fragment where
  | expr (e : Expr)
  | query (q : Query)
  | body (b : CteBody)
  | delete (d : Delete)

namespace Fragment

/-- The queries and modifications right inside a fragment. -/
def queries : Fragment → List Fragment
  | .expr (.subquery q) => [.query q]
  | .expr _ => []
  | .query (.select s) => s.ctes.map fun c => .body c.body
  | .query (.combined c) => c.members.map .query
  | .body (.query q) => [.query q]
  | .body (.update _) => []
  | .body (.collectionDelete _) => []
  | .delete _ => []

/-- The expressions that the names and joins of a level hold. -/
def scopeExpressions (joins : JoinGraph Expr) (aliases : AliasTable Expr) : List Expr :=
  joins.nodes.filterMap JoinNode.condition ++ aliases.values.filterMap fun
    | .select _ e => some e
    | .join .. => none

/-- The expressions right inside a fragment. -/
def expressions : Fragment → List Expr
  | .expr e => e.children
  | .query (.select s) =>
      s.items.map SelectItem.expr ++ scopeExpressions s.joins s.aliases ++ s.condition.toList
        ++ s.groupBy ++ s.having.toList ++ s.orderBy.map OrderItem.expr
  | .query (.combined c) => c.orderBy.map OrderItem.expr
  | .body (.query _) => []
  | .body (.update u) =>
      scopeExpressions u.target.joins u.target.aliases
        ++ u.assignments.flatMap (fun a => [a.1, a.2]) ++ u.condition.toList
  | .body (.collectionDelete d) =>
      scopeExpressions d.target.joins d.target.aliases ++ d.condition.toList
  | .delete d => scopeExpressions d.target.joins d.target.aliases ++ d.condition.toList

/-- The joins that are numbered anew where a fragment is copied. -/
def joins? : Fragment → Option (JoinGraph Expr)
  | .query (.select s) => some s.joins
  | .body (.update u) => some u.target.joins
  | .delete d => some d.target.joins
  | _ => none

/-- One fragment is part of another, with no expression between them. -/
def Reaches : Fragment → Fragment → Prop :=
  Relation.ReflTransGen fun whole part => part ∈ whole.queries

/-- One fragment is part of another, at any depth. -/
def Contains : Fragment → Fragment → Prop :=
  Relation.ReflTransGen fun whole part => part ∈ whole.queries ++ whole.expressions.map .expr

/-- What a fragment contains is reached, or is in an expression of a fragment that is reached. -/
theorem contains_iff {whole part : Fragment} :
    whole.Contains part ↔ whole.Reaches part ∨
      ∃ between, whole.Reaches between ∧ ∃ e ∈ between.expressions, (expr e).Contains part := by
  constructor
  · intro h
    induction h using Relation.ReflTransGen.head_induction_on with
    | refl => exact .inl .refl
    | head hstep hrest ih =>
        rcases List.mem_append.1 hstep with hquery | hexpr
        · rcases ih with hreaches | ⟨between, hreaches, he⟩
          · exact .inl (hreaches.head hquery)
          · exact .inr ⟨between, hreaches.head hquery, he⟩
        · obtain ⟨e, he, rfl⟩ := List.mem_map.1 hexpr
          exact .inr ⟨_, .refl, e, he, hrest⟩
  · have hcontains {a b : Fragment} (h : a.Reaches b) : a.Contains b :=
      Relation.ReflTransGen.mono (fun _ _ hstep => List.mem_append_left _ hstep) _ _ h
    rintro (hreaches | ⟨between, hreaches, e, he, hinside⟩)
    · exact hcontains hreaches
    · have hstep : expr e ∈ between.queries ++ between.expressions.map expr :=
        List.mem_append_right _ (List.mem_map_of_mem he)
      exact (hcontains hreaches).trans (hinside.head hstep)

/-- Why a fragment cannot be copied, whatever it contains: it is a delete of collection elements, or
lists a root that is none of its nodes. -/
def Obstructs (f : Fragment) : CopyFailure → Prop
  | .collectionDelete => ∃ d, f = .body (.collectionDelete d)
  | .missingNode id => ∃ g ∈ f.joins?, id ∈ g.roots ∧ g.node? id = none

/-- Why a fragment cannot be copied, on account of something that is reached from it. -/
def Refuses (f : Fragment) (failure : CopyFailure) : Prop :=
  ∃ part, f.Reaches part ∧ part.Obstructs failure

theorem refuses_iff {f : Fragment} {failure : CopyFailure} :
    f.Refuses failure ↔ f.Obstructs failure ∨ ∃ part ∈ f.queries, part.Refuses failure := by
  constructor
  · rintro ⟨part, hreaches, hobstructs⟩
    rcases hreaches.cases_head with rfl | ⟨first, hfirst, hrest⟩
    · exact .inl hobstructs
    · exact .inr ⟨first, hfirst, part, hrest, hobstructs⟩
  · rintro (hobstructs | ⟨first, hfirst, part, hrest, hobstructs⟩)
    · exact ⟨f, .refl, hobstructs⟩
    · exact ⟨part, hrest.head hfirst, hobstructs⟩

theorem not_refuses {f : Fragment} {failure : CopyFailure} (hown : ¬f.Obstructs failure)
    (hparts : ∀ part ∈ f.queries, ¬part.Refuses failure) : ¬f.Refuses failure := by
  rw [refuses_iff]
  rintro (hobstructs | ⟨part, hpart, hrefuses⟩)
  · exact hown hobstructs
  · exact hparts part hpart hrefuses

end Fragment

namespace JoinGraph

variable {ε : Type} (g : JoinGraph ε)

/-- Why a graph cannot be copied. -/
def Misses (failure : CopyFailure) : Prop :=
  ∃ id ∈ g.roots, g.node? id = none ∧ failure = .missingNode id

theorem failsBy_copyNodes (ids : List NodeId) (target : JoinGraph ε) (numbers : Renumbering) :
    FailsBy (fun failure => ∃ id ∈ ids, g.node? id = none ∧ failure = .missingNode id)
      (g.copyNodes ids target numbers) := by
  induction ids generalizing target numbers with
  | nil => exact (FailsBy.pure _).congr fun failure => by simp
  | cons id rest ih =>
      unfold copyNodes
      cases hnode : g.node? id with
      | none =>
          refine ⟨?_, fun h => absurd h (not_succeeds_error _)⟩
          rintro failure ⟨⟩
          exact ⟨id, List.mem_cons_self, hnode, rfl⟩
      | some n =>
          refine (ih _ _).congr fun failure => ?_
          simp [hnode]

/-- What hangs under a node is a node, so only a root can be missing. -/
theorem failsBy_copyInto (f : Renumbering → ε → ε) (target : JoinGraph ε) :
    FailsBy g.Misses (g.copyInto f target) := by
  refine ((g.failsBy_copyNodes g.depthFirst target {}).map _).congr fun failure => ?_
  constructor
  · rintro ⟨id, hid, hnode, rfl⟩
    obtain ⟨root, hroot, hwalk⟩ := List.mem_flatMap.1 hid
    rcases eq_or_mem_children hwalk with rfl | ⟨parent, hparent⟩
    · exact ⟨id, hroot, hnode, rfl⟩
    · have hsome := node?_isSome.2 (lt_of_parent? hparent)
      rw [hnode] at hsome
      cases hsome
  · rintro ⟨id, hid, hnode, rfl⟩
    exact ⟨id, List.mem_flatMap.2 ⟨id, hid, List.mem_cons_self⟩, hnode, rfl⟩

end JoinGraph

namespace Fragment

/-- A fragment that is not a delete of collection elements is obstructed by its joins alone. -/
theorem obstructs_iff_misses {f : Fragment} {g : JoinGraph Expr} (hjoins : f.joins? = some g)
    (failure : CopyFailure) : f.Obstructs failure ↔ g.Misses failure := by
  cases failure with
  | collectionDelete =>
      have hother : ¬∃ d, f = .body (.collectionDelete d) := by
        rintro ⟨d, rfl⟩
        cases hjoins
      refine iff_of_false hother ?_
      rintro ⟨id, -, -, hfailure⟩
      cases hfailure
  | missingNode id =>
      simp only [Obstructs, JoinGraph.Misses, hjoins, Option.mem_some_iff, exists_eq_left',
        CopyFailure.missingNode.injEq]
      constructor
      · rintro ⟨hroot, hnode⟩
        exact ⟨id, hroot, hnode, rfl⟩
      · rintro ⟨other, hroot, hnode, rfl⟩
        exact ⟨hroot, hnode⟩

/-- A fragment without joins of its own is refused for what it is made of. -/
theorem refuses_iff_queries {f : Fragment} (hjoins : f.joins? = none)
    (hother : ∀ d, f ≠ .body (.collectionDelete d)) (failure : CopyFailure) :
    f.Refuses failure ↔ ∃ part ∈ f.queries, part.Refuses failure := by
  rw [refuses_iff, or_iff_right]
  cases failure with
  | collectionDelete =>
      rintro ⟨d, hd⟩
      exact hother d hd
  | missingNode id => simp [Obstructs, hjoins]

theorem refuses_combined (c : SetOperation) (failure : CopyFailure) :
    (query (.combined c)).Refuses failure ↔ ∃ q ∈ c.members, (query q).Refuses failure := by
  rw [refuses_iff_queries (f := query (.combined c)) rfl nofun]
  simp [queries]

theorem refuses_body_query (q : Query) (failure : CopyFailure) :
    (body (.query q)).Refuses failure ↔ (query q).Refuses failure := by
  rw [refuses_iff_queries (f := body (.query q)) rfl nofun]
  simp [queries]

/-- A fragment that nothing but expressions stands in is refused for itself. -/
theorem refuses_iff_obstructs {f : Fragment} (hqueries : f.queries = []) (failure : CopyFailure) :
    f.Refuses failure ↔ f.Obstructs failure := by
  rw [refuses_iff, hqueries]
  simp

end Fragment

theorem Target.failsBy_copy (t : Target Expr) : FailsBy t.joins.Misses (t.copy Expr.rebind) :=
  (t.joins.failsBy_copyInto Expr.rebind {}).map _

theorem Update.failsBy_copy (u : Update) : FailsBy (Fragment.body (.update u)).Refuses u.copy := by
  refine (u.target.failsBy_copy.map _).congr fun failure => ?_
  rw [Fragment.refuses_iff_obstructs rfl, Fragment.obstructs_iff_misses rfl]

theorem Delete.failsBy_copy (d : Delete) : FailsBy (Fragment.delete d).Refuses d.copy := by
  refine (d.target.failsBy_copy.map _).congr fun failure => ?_
  rw [Fragment.refuses_iff_obstructs rfl, Fragment.obstructs_iff_misses rfl]

theorem CollectionDelete.refuses_iff (d : CollectionDelete) (failure : CopyFailure) :
    (Fragment.body (.collectionDelete d)).Refuses failure ↔ failure = .collectionDelete := by
  rw [Fragment.refuses_iff_obstructs rfl]
  cases failure with
  | collectionDelete => exact iff_of_true ⟨d, rfl⟩ rfl
  | missingNode id => simp [Fragment.Obstructs, Fragment.joins?]

/-- A copied level has its joins copied first, and then its common tables. -/
theorem Select.copy_bind (s : Select) :
    s.copy = do
      let (joins, numbers) ← s.joins.copyInto Expr.rebind {}
      let ctes ← Cte.copyList s.ctes
      return s.rebound numbers joins ctes := by
  obtain ⟨ctes, distinct, items, joins, aliases, condition, groupBy, having, orderBy, limits⟩ := s
  rw [copy]
  rfl

theorem Cte.failsBy_copyList {cs : List Cte}
    (h : ∀ c ∈ cs, FailsBy (Fragment.body c.body).Refuses c.body.copy) :
    FailsBy (fun failure => ∃ c ∈ cs, (Fragment.body c.body).Refuses failure) (copyList cs) := by
  rw [copyList_eq_mapM]
  exact FailsBy.mapM (p := fun c => (Fragment.body c.body).Refuses) fun c hc => (h c hc).map _

/-- What a query is refused for is reached from it. -/
theorem hereditary_failsBy_copy :
    Hereditary (fun _ => True) (fun q => FailsBy (Fragment.query q).Refuses q.copy)
      (fun b => FailsBy (Fragment.body b).Refuses b.copy) := by
  refine .of_queries ?select ?combined ?query ?update ?collectionDelete
  case select =>
    intro s hbodies
    rw [Query.copy, Select.copy_bind]
    refine (((s.joins.failsBy_copyInto Expr.rebind {}).bind fun copied =>
      (Cte.failsBy_copyList hbodies).map _).map _).congr fun failure => ?_
    rw [Fragment.refuses_iff, Fragment.obstructs_iff_misses rfl]
    simp [Fragment.queries]
  case combined =>
    intro c hstart hoperands
    rw [Query.copy, SetOperation.copy_eq, Query.copyList_eq_mapM]
    refine ((hstart.bind fun start => (FailsBy.mapM (p := fun q => (Fragment.query q).Refuses)
      hoperands).map _).map _).congr fun failure => ?_
    rw [Fragment.refuses_combined]
    simp [SetOperation.members]
  case query =>
    intro q hq
    rw [CteBody.copy]
    exact (hq.map _).congr fun failure => (Fragment.refuses_body_query q failure).symm
  case update =>
    intro u
    rw [CteBody.copy]
    exact u.failsBy_copy.map _
  case collectionDelete =>
    intro d
    rw [CteBody.copy]
    exact (FailsBy.error _).congr fun failure => (d.refuses_iff failure).symm

namespace Statement

/-- A statement as a fragment. -/
def fragment : Statement → Fragment
  | .select q => .query q
  | .update u => .body (.update u)
  | .delete d => .delete d
  | .collectionDelete d => .body (.collectionDelete d)

/-- Every join graph that a copy numbers anew has all the roots that it lists. -/
def Rooted (s : Statement) : Prop :=
  ∀ part, s.fragment.Reaches part → ∀ g ∈ part.joins?, ∀ id ∈ g.roots, (g.node? id).isSome

theorem failsBy_copy (s : Statement) : FailsBy s.fragment.Refuses s.copy := by
  cases s with
  | select q => exact (hereditary_failsBy_copy.queries q).map _
  | update u => exact u.failsBy_copy.map _
  | delete d => exact d.failsBy_copy.map _
  | collectionDelete d =>
      exact (FailsBy.error _).congr fun failure => (d.refuses_iff failure).symm

theorem rooted_iff (s : Statement) : s.Rooted ↔ ∀ id, ¬s.fragment.Refuses (.missingNode id) := by
  constructor
  · rintro hrooted id ⟨part, hreaches, g, hg, hid, hnode⟩
    have hsome := hrooted part hreaches g hg id hid
    rw [hnode] at hsome
    cases hsome
  · intro hclear part hreaches g hg id hid
    rw [Option.isSome_iff_ne_none]
    intro hnode
    exact hclear id ⟨part, hreaches, g, hg, hid, hnode⟩

theorem refuses_collectionDelete_iff (s : Statement) :
    s.fragment.Refuses .collectionDelete ↔
      ∃ d, s.fragment.Reaches (.body (.collectionDelete d)) := by
  constructor
  · rintro ⟨_, hreaches, d, rfl⟩
    exact ⟨d, hreaches⟩
  · rintro ⟨d, hreaches⟩
    exact ⟨_, hreaches, d, rfl⟩

/-- When a statement is copied. It is unless a delete of collection elements is reached, or a root
is missing; and if no root is, the delete is what is reported. A delete that is not reached stands
in an expression. -/
theorem copy_refused_iff (s : Statement) :
    (Succeeds s.copy ↔ s.Rooted ∧ ¬∃ d, s.fragment.Reaches (.body (.collectionDelete d))) ∧
    (s.copy = .error .collectionDelete → ∃ d, s.fragment.Reaches (.body (.collectionDelete d))) ∧
    (s.Rooted → (s.copy = .error .collectionDelete ↔
      ∃ d, s.fragment.Reaches (.body (.collectionDelete d)))) ∧
    ∀ d, s.fragment.Contains (.body (.collectionDelete d)) ↔
      s.fragment.Reaches (.body (.collectionDelete d)) ∨
        ∃ part, s.fragment.Reaches part ∧
          ∃ e ∈ part.expressions, (Fragment.expr e).Contains (.body (.collectionDelete d)) := by
  have hfails := s.failsBy_copy
  have hdelete := s.refuses_collectionDelete_iff
  refine ⟨?_, fun h => hdelete.1 (hfails.reason _ h), fun hrooted => ?_,
    fun _ => Fragment.contains_iff⟩
  · rw [hfails.succeeds_iff, rooted_iff, ← hdelete]
    constructor
    · exact fun hclear => ⟨fun id => hclear _, hclear _⟩
    · rintro ⟨hmissing, hreached⟩ (_ | id)
      · exact hreached
      · exact hmissing id
  · rw [← hdelete]
    refine hfails.error_iff fun failure hfailure => ?_
    cases failure with
    | collectionDelete => rfl
    | missingNode id => exact absurd hfailure ((rooted_iff s).1 hrooted id)

end Statement

/-- Documents, beside what a delete of the phones of all persons reports. -/
def Select.silenced : Select where
  ctes := [⟨"Silent", ["id"], .collectionDelete { CollectionDelete.ofEntity "Person" "p" "phones" with
    returning := ["p.id"] }, false⟩]
  joins := { nodes := [{ aliasName := "d", source := .root "Document" }], roots := [0] }

/-- The same as a common table. -/
def Statement.relayed : Statement :=
  .select (.select { Select.silenced with ctes := [⟨"Relay", ["id"], .query (.select .silenced), false⟩] })

/-- The same as a subquery. -/
def Statement.guarded : Statement :=
  .select (.select { Select.silenced with
    ctes := []
    condition := some (.call "EXISTS" [.subquery (.select .silenced)]) })

namespace Statement

/-- The delete is reached through the body of a common table. -/
theorem copy_refused_iff_relayed :
    relayed.Rooted ∧ relayed.copy = .error .collectionDelete ∧
      ∃ d, relayed.fragment.Reaches (.body (.collectionDelete d)) := by
  have hlevel (s : Select) (hjoins : s.joins = Select.silenced.joins) (id : NodeId) :
      ¬(Fragment.query (.select s)).Obstructs (.missingNode id) := by
    rintro ⟨_, ⟨⟩, hid, hnode⟩
    rw [hjoins] at hid hnode
    obtain rfl : id = 0 := List.mem_singleton.1 hid
    cases hnode
  have hrooted : relayed.Rooted := by
    refine (rooted_iff _).2 fun id => ?_
    refine Fragment.not_refuses (hlevel _ rfl id) (List.forall_mem_singleton.2 ?_)
    refine Fragment.not_refuses nofun (List.forall_mem_singleton.2 ?_)
    refine Fragment.not_refuses (hlevel _ rfl id) (List.forall_mem_singleton.2 ?_)
    exact Fragment.not_refuses nofun nofun
  have hcopy : relayed.copy = .error .collectionDelete := rfl
  exact ⟨hrooted, hcopy, ((copy_refused_iff relayed).2.2.1 hrooted).1 hcopy⟩

/-- A delete in a subquery is copied along. -/
theorem not_copy_refused_guarded :
    ¬(guarded.copy = .error .collectionDelete ↔
      ∃ d, guarded.fragment.Contains (.body (.collectionDelete d))) := by
  intro hclaim
  have hcopy : Succeeds guarded.copy := ⟨_, rfl⟩
  have hcontains : ∃ d, guarded.fragment.Contains (.body (.collectionDelete d)) :=
    ⟨_, .head (b := .expr (.call "EXISTS" [.subquery (.select .silenced)])) (.head _)
      (.head (b := .expr (.subquery (.select .silenced))) (.head _)
        (.head (b := .query (.select .silenced)) (.head _) (.single (.head _))))⟩
  rw [hclaim.2 hcontains] at hcopy
  exact not_succeeds_error _ hcopy

end Statement

end EntityQuery
