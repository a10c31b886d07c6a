import EntityQuery.Proofs.Analysis.Sizes
import EntityQuery.Proofs.Copy.Statement

/-!
What every sequence of calls keeps on a query level. Calls that put clauses together, copies,
replacements of sizes and implicit groups may come in any order, and calls that fail may come
between them: parents stay older than their children, the roots stay the nodes without a parent,
and the alias table names the nodes by the aliases that they carry.
-/

namespace EntityQuery

/-- What can be done to a query level. -/
inductive BuilderCall where
  | addRoot (entity aliasName : String)
  | correlate (path aliasName : String)
  | join (path aliasName : String) (relation : Relation) (type : JoinType)
  | joinFetch (path aliasName : String) (relation : Relation)
  | joinEntity (parent entity aliasName : String) (type : JoinType) (condition : Expr)
  | crossJoin (parent entity aliasName : String)
  | on (node : NodeId) (condition : Expr)
  | select (expr : Expr) (aliasName : Option String)
  | distinct
  | filter (condition : Expr)
  | group (exprs : List Expr)
  | filterGroups (condition : Expr)
  | order (items : List (OrderItem Expr))
  | take (n : UInt64)
  | drop (n : UInt64)
  | withCte (cte : Cte)
  | copy
  /-- Replaces sizes, where collections may have been counted by replacements before. -/
  | replaceSizes (counted : Bool)
  | applyImplicitGroups

namespace BuilderCall

/-- The level that a call which may fail leads to. -/
def succeedOr {ε : Type} (s : Select) (result : Except ε Select) : Select :=
  result.toOption.getD s

/-- The level that a call leads to. A call that fails leaves the level as it is, and a replacement
of sizes leaves what it has done so far. -/
def run (s : Select) : BuilderCall → Select
  | addRoot entity aliasName => s.addRoot entity aliasName
  | correlate path aliasName => s.correlate path aliasName
  | join path aliasName relation type =>
      succeedOr s ((s.join path aliasName relation type).map Prod.snd)
  | joinFetch path aliasName relation =>
      succeedOr s ((s.joinFetch path aliasName relation).map Prod.snd)
  | joinEntity parent entity aliasName type condition =>
      succeedOr s ((s.joinEntity parent entity aliasName type condition).map Prod.snd)
  | crossJoin parent entity aliasName =>
      succeedOr s ((s.crossJoin parent entity aliasName).map Prod.snd)
  | on node condition => succeedOr s (s.on node condition)
  | select expr aliasName => s.select expr aliasName
  | distinct => { s with distinct := true }
  | filter condition => s.filter condition
  | group exprs => s.group exprs
  | filterGroups condition => s.filterGroups condition
  | order items => s.order items
  | take n => s.take n
  | drop n => s.drop n
  | withCte cte => s.withCte cte
  | copy => succeedOr s s.copy
  | replaceSizes counted =>
      match s.replaceSizesAfter counted with
      | .ok replaced => replaced
      | .error failure => failure.left
  | applyImplicitGroups => s.applyImplicitGroups

end BuilderCall

/-- What holds of a level if a call fails, and of its result if it succeeds, holds of what the call
leads to. -/
theorem BuilderCall.of_succeedOr {ε : Type} {P : Select → Prop} {s : Select}
    {result : Except ε Select} (h : P s) (hresult : ∀ s', result = .ok s' → P s') :
    P (BuilderCall.succeedOr s result) := by
  cases result with
  | error => exact h
  | ok s' => exact hresult s' rfl

namespace Select

/-- The level that a sequence of calls leads to. -/
def ofCalls (calls : List BuilderCall) : Select := calls.foldl BuilderCall.run {}

/-- Whether the alias table of a level names its nodes. -/
def Named (s : Select) : Prop := s.aliases.Names s.joins

variable {s : Select}

theorem named_pushUnder (h : s.Named) {parent : NodeId} {n : JoinNode Expr}
    {added : NodeId × JoinGraph Expr} (hok : s.joins.pushUnder parent n = .ok added)
    (hplaced : JoinNode.Placed { n with parent := some parent }) :
    (s.named n.aliasName added).2.Named := by
  simp only [JoinGraph.pushUnder, JoinGraph.require, bind_eq_ok, pure_eq_ok] at hok
  obtain ⟨found, hfound, rfl⟩ := hok
  have hlt : parent < s.joins.size := by
    refine JoinGraph.node?_isSome.1 ?_
    cases hnode : s.joins.node? parent with
    | none =>
        rw [hnode] at hfound
        cases hfound
    | some n => rfl
  exact AliasTable.Names.push h (n := { n with parent := some parent })
    (fun p hp => Option.some.inj hp ▸ hlt) hplaced false

theorem named_join (h : s.Named) {path aliasName : String} {relation : Relation} {type : JoinType}
    {r : NodeId × Select} (hok : s.join path aliasName relation type = .ok r) : r.2.Named := by
  rw [Select.join] at hok
  cases hattr : Dotted.rest? path with
  | none =>
      rw [hattr] at hok
      cases hok
  | some attr =>
      rw [hattr] at hok
      simp only [bind_eq_ok, pure_eq_ok] at hok
      obtain ⟨_, -, parent, -, added, hadded, rfl⟩ := hok
      exact named_pushUnder h hadded rfl

/-- A change of one node in place, such as a condition that is added. -/
theorem named_modify (h : s.Named) (id : NodeId) {f : JoinNode Expr → JoinNode Expr}
    (hparent : ∀ n, (f n).parent = n.parent) (hplaced : ∀ n : JoinNode Expr, n.Placed → (f n).Placed)
    (halias : ∀ n, (f n).aliasName = n.aliasName) :
    Named { s with joins := s.joins.modify id f } :=
  AliasTable.Names.modify h id hparent hplaced halias

theorem named_copy (h : s.Named) {s' : Select} (hok : s.copy = .ok s') : s'.Named := by
  rw [Select.copy_eq h.grown.wellFormed] at hok
  obtain ⟨ctes, -, rfl⟩ := map_eq_ok.1 hok
  exact AliasTable.Names.renumbered h Expr.rebind

/-- No call parts the aliases of a level from its nodes. -/
theorem named_run (h : s.Named) (call : BuilderCall) : (call.run s).Named := by
  cases call with
  | addRoot entity aliasName =>
      exact AliasTable.Names.push h (n := { aliasName := aliasName, source := .root entity })
        (fun _ hp => nomatch hp) trivial false
  | correlate path aliasName =>
      exact AliasTable.Names.push h (n := { aliasName := aliasName, source := .correlated path })
        (fun _ hp => nomatch hp) trivial false
  | join path aliasName relation type =>
      refine BuilderCall.of_succeedOr h fun s' hok => ?_
      obtain ⟨r, hr, rfl⟩ := map_eq_ok.1 hok
      exact named_join h hr
  | joinFetch path aliasName relation =>
      refine BuilderCall.of_succeedOr h fun s' hok => ?_
      obtain ⟨r, hr, rfl⟩ := map_eq_ok.1 hok
      rw [Select.joinFetch] at hr
      simp only [bind_eq_ok, pure_eq_ok] at hr
      obtain ⟨joined, hjoined, rfl⟩ := hr
      exact named_modify (named_join h hjoined) joined.1 (fun _ => rfl) (fun _ hn => hn)
        fun _ => rfl
  | joinEntity parent entity aliasName type condition =>
      refine BuilderCall.of_succeedOr h fun s' hok => ?_
      obtain ⟨r, hr, rfl⟩ := map_eq_ok.1 hok
      rw [Select.joinEntity] at hr
      simp only [bind_eq_ok, pure_eq_ok] at hr
      obtain ⟨_, -, added, hadded, rfl⟩ := hr
      exact named_pushUnder h hadded rfl
  | crossJoin parent entity aliasName =>
      refine BuilderCall.of_succeedOr h fun s' hok => ?_
      obtain ⟨r, hr, rfl⟩ := map_eq_ok.1 hok
      rw [Select.crossJoin] at hr
      simp only [bind_eq_ok, pure_eq_ok] at hr
      obtain ⟨_, -, added, hadded, rfl⟩ := hr
      exact named_pushUnder h hadded rfl
  | on node condition =>
      refine BuilderCall.of_succeedOr h fun s' hok => ?_
      rw [Select.on] at hok
      simp only [bind_eq_ok, pure_eq_ok] at hok
      obtain ⟨_, -, rfl⟩ := hok
      exact named_modify h node (fun _ => rfl) (fun _ hn => hn) fun _ => rfl
  | select expr aliasName =>
      cases aliasName with
      | none => exact h
      | some a => exact h.insertSelect a expr
  | copy => exact BuilderCall.of_succeedOr h fun s' hok => named_copy h hok
  | replaceSizes counted =>
      obtain ⟨replaced, hok, hreplaced⟩ := names_replaceSizesAfter h counted
      rw [BuilderCall.run, hok]
      exact hreplaced
  | distinct | filter | group | filterGroups | order | take | drop | withCte
  | applyImplicitGroups => exact h

theorem named_foldl_run (h : s.Named) (calls : List BuilderCall) :
    (calls.foldl BuilderCall.run s).Named := by
  induction calls generalizing s with
  | nil => exact h
  | cons call rest ih => exact ih (named_run h call)

/-- Whatever has been called, in whatever order and with whatever failures, the joins of a level
are grown and its aliases name them. -/
theorem named_ofCalls (calls : List BuilderCall) :
    (ofCalls calls).aliases.Names (ofCalls calls).joins :=
  named_foldl_run (s := {}) AliasTable.Names.empty calls

end Select

end EntityQuery
