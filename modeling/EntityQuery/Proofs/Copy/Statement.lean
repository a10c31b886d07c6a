import EntityQuery.Proofs.Copy.Alike
import EntityQuery.Proofs.Copy.Expression
import EntityQuery.Proofs.Outcome
import EntityQuery.Query.Copy

/-!
A copy is written like its original. A copied level is its original with the clauses bound to the
new numbers of its nodes, which no context tells apart; the queries around a level are alike because
their parts are.
-/

namespace EntityQuery

mutual

/-- Whether the join graphs that a copy numbers anew are well formed: those of the levels reached
through set operations and common tables, and those of the targets of modifications. -/
def Query.GraphsWellFormed : Query → Prop
  | .select s => s.GraphsWellFormed
  | .combined c => c.GraphsWellFormed

def Query.AllGraphsWellFormed : List Query → Prop
  | [] => True
  | q :: rest => q.GraphsWellFormed ∧ Query.AllGraphsWellFormed rest

def Select.GraphsWellFormed : Select → Prop
  | ⟨ctes, _, _, joins, _, _, _, _, _, _⟩ => joins.WellFormed ∧ Cte.AllGraphsWellFormed ctes

def SetOperation.GraphsWellFormed : SetOperation → Prop
  | ⟨_, start, operands, _, _⟩ => start.GraphsWellFormed ∧ Query.AllGraphsWellFormed operands

def Cte.AllGraphsWellFormed : List Cte → Prop
  | [] => True
  | ⟨_, _, body, _⟩ :: rest => body.GraphsWellFormed ∧ Cte.AllGraphsWellFormed rest

def CteBody.GraphsWellFormed : CteBody → Prop
  | .query q => q.GraphsWellFormed
  | .update u => u.target.joins.WellFormed
  | .collectionDelete _ => True

end

/-- Whether the join graphs that a copy of the statement numbers anew are well formed. -/
def Statement.GraphsWellFormed : Statement → Prop
  | .select q => q.GraphsWellFormed
  | .update u => u.target.joins.WellFormed
  | .delete d => d.target.joins.WellFormed
  | .collectionDelete _ => True

theorem Select.graphsWellFormed_iff (s : Select) :
    s.GraphsWellFormed ↔ s.joins.WellFormed ∧ Cte.AllGraphsWellFormed s.ctes := by
  obtain ⟨ctes, distinct, items, joins, aliases, condition, groupBy, having, orderBy, limits⟩ := s
  rw [GraphsWellFormed]

theorem SetOperation.graphsWellFormed_iff (c : SetOperation) :
    c.GraphsWellFormed ↔ c.start.GraphsWellFormed ∧ Query.AllGraphsWellFormed c.operands := by
  obtain ⟨operator, start, operands, orderBy, limits⟩ := c
  rw [GraphsWellFormed]

theorem Query.allGraphsWellFormed_iff (qs : List Query) :
    AllGraphsWellFormed qs ↔ ∀ q ∈ qs, q.GraphsWellFormed := by
  induction qs with
  | nil => simp [AllGraphsWellFormed]
  | cons q rest ih => rw [AllGraphsWellFormed, ih, List.forall_mem_cons]

theorem Cte.allGraphsWellFormed_iff (cs : List Cte) :
    AllGraphsWellFormed cs ↔ ∀ c ∈ cs, c.body.GraphsWellFormed := by
  induction cs with
  | nil => simp [AllGraphsWellFormed]
  | cons c rest ih =>
      obtain ⟨entity, columns, body, recursive⟩ := c
      rw [AllGraphsWellFormed, ih, List.forall_mem_cons]

theorem SelectItem.listTokens_map {m : Renumbering} {l l' : Level} {is : List (SelectItem Expr)}
    (h : ∀ i ∈ is, (i.expr.rebind m).tokens l' .value = i.expr.tokens l .value) :
    SelectItem.listTokens l' (is.map (SelectItem.rebind m)) = SelectItem.listTokens l is := by
  induction is with
  | nil => rfl
  | cons i rest ih =>
      have hrest := ih fun other hother => h other (List.mem_cons_of_mem _ hother)
      have hi := h i List.mem_cons_self
      obtain ⟨e, aliasName⟩ := i
      cases aliasName with
      | none => rw [List.map_cons, SelectItem.rebind, listTokens, listTokens, hi, hrest]
      | some a => rw [List.map_cons, SelectItem.rebind, listTokens, listTokens, hi, hrest]

theorem OrderItem.listTokens_map {m : Renumbering} {l l' : Level} {is : List (OrderItem Expr)}
    (h : ∀ i ∈ is, (i.expr.rebind m).tokens l' .value = i.expr.tokens l .value) :
    OrderItem.listTokens l' (is.map (OrderItem.rebind m)) = OrderItem.listTokens l is := by
  induction is with
  | nil => rfl
  | cons i rest ih =>
      have hrest := ih fun other hother => h other (List.mem_cons_of_mem _ hother)
      rw [List.map_cons, OrderItem.rebind, listTokens, listTokens, hrest]
      rw [h i List.mem_cons_self]

/-- A query level with its clauses bound to new numbers of its nodes. -/
def Select.rebound (s : Select) (m : Renumbering) (joins : JoinGraph Expr) (ctes : List Cte) :
    Select where
  ctes := ctes
  distinct := s.distinct
  items := s.items.map (SelectItem.rebind m)
  joins := joins
  aliases := s.aliases.rebind Expr.rebind m
  condition := Expr.rebindOption m s.condition
  groupBy := Expr.rebindList m s.groupBy
  having := Expr.rebindOption m s.having
  orderBy := s.orderBy.map (OrderItem.rebind m)
  limits := s.limits

namespace Select

variable {s : Select} {m : Renumbering} {g' : JoinGraph Expr} {ctes : List Cte}
variable (h : s.joins.Renumbers m g') (hctes : List.Forall₂ Cte.Alike s.ctes ctes)
include h

theorem conditions_rebound (ctx : RenderContext) (id : NodeId) :
    (JoinNode.conditionTokens ⟨ctx, s.aliases.rebind Expr.rebind m, g'⟩ g'.nodes)[m.apply id]?.join =
      (JoinNode.conditionTokens (s.level ctx) s.joins.nodes)[id]?.join := by
  have hthere := Level.join_conditionTokens ⟨ctx, s.aliases.rebind Expr.rebind m, g'⟩ (m.apply id)
  have hhere := (s.level ctx).join_conditionTokens id
  have hexpr (e : Expr) := (tokens_rebind h ctx s.aliases).expr e .predicate
  rw [h.condition?, Option.map_map] at hthere
  refine hthere.trans (Eq.trans ?_ hhere.symm)
  exact Option.map_congr fun e _ => hexpr e

include hctes

theorem tokens_rebound (ctx : RenderContext) : (s.rebound m g' ctes).tokens ctx = s.tokens ctx := by
  have hexpr (e : Expr) (position : Position) :=
    (tokens_rebind h ctx s.aliases).expr e position
  have hfrom := Level.fromTokens_rebind h ctx s.aliases (conditions_rebound h ctx)
  have hroots : g'.roots.isEmpty = s.joins.roots.isEmpty := by rw [h.roots, List.isEmpty_map]
  have hctesEmpty := Cte.isEmpty_alike hctes
  have htables := Cte.listTokens_alike ctx hctes
  have hitems := SelectItem.listTokens_map fun i (_ : i ∈ s.items) => hexpr i.expr .value
  have horders := OrderItem.listTokens_map fun i (_ : i ∈ s.orderBy) => hexpr i.expr .value
  have hgroups := Expr.listTokens_map fun e (_ : e ∈ s.groupBy) => hexpr e .value
  have hcondition := Expr.optionTokens_map fun e (_ : e ∈ s.condition) => hexpr e .predicate
  have hhaving := Expr.optionTokens_map fun e (_ : e ∈ s.having) => hexpr e .predicate
  have hassembled : (s.rebound m g' ctes).assembled ctx = s.assembled ctx := by
    funext tables selected entries condition groups having orders
    have hrootList := Level.rootListTokens_rebind h ctx s.aliases
    simp only [assembled, rebound, level, hctesEmpty, Cte.any_recursive_alike hctes,
      List.isEmpty_map, hrootList]
    rfl
  rw [tokens_eq, tokens_eq, hassembled]
  simp only [rebound, level, Expr.rebindOption_eq_map, Expr.rebindList_eq_map, hroots, hctesEmpty,
    htables, hitems, hfrom, hcondition, hgroups, hhaving, horders]

theorem markers_rebound : (s.rebound m g' ctes).markers = s.markers := by
  have hctes := Cte.markersList_alike hctes
  rw [Cte.markersList_eq, Cte.markersList_eq] at hctes
  have hmarkers (e : Expr) : (e.rebind m).markers = e.markers := e.markers_rebind m
  rw [markers_eq, markers_eq]
  simp only [rebound, hctes, h.depthFirst, List.flatMap_map, h.condition?, SelectItem.rebind,
    OrderItem.rebind, Expr.rebindOption_eq_map, Expr.rebindList_eq_map, hmarkers,
    Option.toList_map]

/-- A level is not told apart from the one with new numbers. -/
theorem alike_rebound : (Query.select s).Alike (.select (s.rebound m g' ctes)) where
  rendered ctx := by
    rw [Query.rendered, Query.rendered, tokens_rebound h hctes]
    rfl
  memberTokens ctx := by
    have horders : (s.rebound m g' ctes).orderBy.isEmpty = s.orderBy.isEmpty := List.isEmpty_map
    rw [Query.memberTokens, Query.memberTokens, tokens_rebound h hctes, horders]
  functionForm ctx := by
    rw [Query.functionForm, Query.functionForm, tokens_rebound h hctes]
    rfl
  limitedAnywhere := rfl
  width := List.length_map _
  markers := markers_rebound h hctes

end Select

theorem Expr.assignmentTokens_map {l l' : Level} {f : Expr → Expr}
    (h : ∀ e, (f e).tokens l' .value = e.tokens l .value) (bs : List (Expr × Expr)) :
    assignmentTokens l' (bs.map fun b => (f b.1, f b.2)) = assignmentTokens l bs := by
  induction bs with
  | nil => rfl
  | cons b rest ih => rw [List.map_cons, assignmentTokens, assignmentTokens, h, h, ih]

/-- The target of a modification with new numbers for its nodes. -/
def Target.rebound (t : Target Expr) (m : Renumbering) (joins : JoinGraph Expr) : Target Expr :=
  { t with joins := joins, aliases := t.aliases.rebind Expr.rebind m }

/-- An update with its clauses bound to new numbers of its nodes. -/
def Update.rebound (u : Update) (m : Renumbering) (joins : JoinGraph Expr) : Update :=
  { u with
    target := u.target.rebound m joins
    assignments := Expr.rebindPairs m u.assignments
    condition := Expr.rebindOption m u.condition }

/-- A delete with its condition bound to new numbers of its nodes. -/
def Delete.rebound (d : Delete) (m : Renumbering) (joins : JoinGraph Expr) : Delete :=
  { d with
    target := d.target.rebound m joins
    condition := Expr.rebindOption m d.condition }

section Modification

variable {m : Renumbering} {g g' : JoinGraph Expr}

theorem Level.returningTokens_rebind (h : g.Renumbers m g') (ctx : RenderContext)
    (t : AliasTable Expr) (paths : List String) :
    returningTokens ⟨ctx, t.rebind Expr.rebind m, g'⟩ paths = returningTokens ⟨ctx, t, g⟩ paths := by
  have hpath (path : String) : pathTokens ⟨ctx, t.rebind Expr.rebind m, g'⟩ (Path.ofString path) =
      pathTokens ⟨ctx, t, g⟩ (Path.ofString path) :=
    pathTokens_rebind h ctx t (Path.ofString path)
  simp only [returningTokens, hpath]

theorem Update.tokens_rebound {u : Update} (h : u.target.joins.Renumbers m g')
    (ctx : RenderContext) : (u.rebound m g').tokens ctx = u.tokens ctx := by
  have hexpr (e : Expr) (position : Position) :=
    (tokens_rebind h ctx u.target.aliases).expr e position
  have hassignments := Expr.assignmentTokens_map (fun e => hexpr e .value) u.assignments
  have hcondition := Expr.optionTokens_map fun e (_ : e ∈ u.condition) => hexpr e .predicate
  have hreturning := Level.returningTokens_rebind h ctx u.target.aliases u.returning
  rw [tokens_eq, tokens_eq]
  simp only [rebound, Target.rebound, Expr.rebindPairs_eq_map, Expr.rebindOption_eq_map,
    List.isEmpty_map, hassignments, hcondition, hreturning]
  rfl

theorem Update.markers_rebound (u : Update) (m : Renumbering) (joins : JoinGraph Expr) :
    (u.rebound m joins).markers = u.markers := by
  have hmarkers (e : Expr) : (e.rebind m).markers = e.markers := e.markers_rebind m
  rw [markers_eq, markers_eq]
  simp only [rebound, Expr.rebindPairs_eq_map, Expr.rebindOption_eq_map, List.flatMap_map,
    Option.toList_map, hmarkers]

/-- An update in a WITH clause is not told apart from the one with new numbers. -/
theorem Update.alike_rebound {u : Update} (h : u.target.joins.Renumbers m g') :
    (CteBody.update u).Alike (.update (u.rebound m g')) where
  tokens ctx entity := by
    rw [CteBody.tokens, CteBody.tokens, tokens_rebound h]
  width := rfl
  markers := by
    rw [CteBody.markers, CteBody.markers, markers_rebound]

theorem Delete.tokens_rebound {d : Delete} (h : d.target.joins.Renumbers m g')
    (ctx : RenderContext) : (d.rebound m g').tokens ctx = d.tokens ctx := by
  have hcondition := Expr.optionTokens_map fun e (_ : e ∈ d.condition) =>
    (tokens_rebind h ctx d.target.aliases).expr e .predicate
  have hreturning := Level.returningTokens_rebind h ctx d.target.aliases d.returning
  simp only [tokens, Level.deleteTokens, rebound, Target.rebound, Expr.rebindOption_eq_map,
    hcondition, hreturning]
  rfl

theorem Delete.markers_rebound (d : Delete) (m : Renumbering) (joins : JoinGraph Expr) :
    (d.rebound m joins).markers = d.markers := by
  rw [markers, markers, rebound, Expr.rebindOption_eq_map]
  exact Expr.markersOption_map fun e _ => e.markers_rebind m

end Modification

section WellFormed

theorem Target.copy_eq {t : Target Expr} (h : t.joins.WellFormed) :
    t.copy Expr.rebind =
      .ok (t.rebound (t.joins.numbering 0) (t.joins.renumbered Expr.rebind), t.joins.numbering 0) := by
  rw [copy, h.copyInto_empty]
  rfl

theorem Update.copy_eq {u : Update} (h : u.target.joins.WellFormed) :
    u.copy =
      .ok (u.rebound (u.target.joins.numbering 0) (u.target.joins.renumbered Expr.rebind)) := by
  rw [copy, Target.copy_eq h]
  rfl

theorem Delete.copy_eq {d : Delete} (h : d.target.joins.WellFormed) :
    d.copy =
      .ok (d.rebound (d.target.joins.numbering 0) (d.target.joins.renumbered Expr.rebind)) := by
  rw [copy, Target.copy_eq h]
  rfl

/-- A copied level is the level with the numbers of the copied graph, over copied tables. -/
theorem Select.copy_eq {s : Select} (h : s.joins.WellFormed) :
    s.copy = (Cte.copyList s.ctes).map
      (s.rebound (s.joins.numbering 0) (s.joins.renumbered Expr.rebind)) := by
  obtain ⟨ctes, distinct, items, joins, aliases, condition, groupBy, having, orderBy, limits⟩ := s
  rw [copy, h.copyInto_empty]
  change (Cte.copyList ctes >>= fun ctes => _) = _
  cases Cte.copyList ctes <;> rfl

end WellFormed

theorem Query.copyList_eq_mapM (qs : List Query) : copyList qs = qs.mapM copy := by
  induction qs with
  | nil => rfl
  | cons q rest ih => rw [copyList, List.mapM_cons, ih]

theorem Cte.copyList_eq_mapM (cs : List Cte) : copyList cs = cs.mapM copy := by
  induction cs with
  | nil => rfl
  | cons c rest ih =>
      obtain ⟨entity, columns, body, recursive⟩ := c
      rw [copyList, List.mapM_cons, ih, copy]
      cases body.copy <;> rfl

theorem SetOperation.copy_eq (c : SetOperation) :
    c.copy = do
      let start ← c.start.copy
      let operands ← Query.copyList c.operands
      return { c with start := start, operands := operands } := by
  obtain ⟨operator, start, operands, orderBy, limits⟩ := c
  rw [copy]

/-- A query with well-formed graphs and its copy are alike. -/
def Query.CopiesAlike (q : Query) : Prop := q.GraphsWellFormed → ∀ c, q.copy = .ok c → q.Alike c

/-- The body of a common table with well-formed graphs and its copy are alike. -/
def CteBody.CopiesAlike (b : CteBody) : Prop :=
  b.GraphsWellFormed → ∀ c, b.copy = .ok c → b.Alike c

theorem Query.copyList_alike {qs cs : List Query} (hcopy : copyList qs = .ok cs)
    (wf : AllGraphsWellFormed qs) (h : ∀ q ∈ qs, q.CopiesAlike) :
    List.Forall₂ Query.Alike qs cs := by
  rw [copyList_eq_mapM, mapM_eq_ok] at hcopy
  rw [allGraphsWellFormed_iff] at wf
  have hall : ∀ q ∈ qs, ∀ c, q.copy = .ok c → q.Alike c := fun q hq => h q hq (wf q hq)
  exact ((List.forall₂_and_left qs cs).2 ⟨hall, hcopy⟩).imp fun q c hq => hq.1 c hq.2

theorem Cte.copyList_alike {ts cs : List Cte} (hcopy : copyList ts = .ok cs)
    (wf : AllGraphsWellFormed ts) (h : ∀ t ∈ ts, t.body.CopiesAlike) :
    List.Forall₂ Cte.Alike ts cs := by
  rw [copyList_eq_mapM, mapM_eq_ok] at hcopy
  rw [allGraphsWellFormed_iff] at wf
  have hall : ∀ t ∈ ts, ∀ c, t.copy = .ok c → t.Alike c := by
    intro t ht c hc
    rw [copy, bind_eq_ok] at hc
    obtain ⟨body, hbody, hc⟩ := hc
    rw [pure_eq_ok] at hc
    subst hc
    exact ⟨rfl, rfl, rfl, h t ht (wf t ht) body hbody⟩
  exact ((List.forall₂_and_left ts cs).2 ⟨hall, hcopy⟩).imp fun t c ht => ht.1 c ht.2

theorem hereditary_copiesAlike :
    Hereditary (fun _ => True) Query.CopiesAlike CteBody.CopiesAlike := by
  refine .of_queries ?select ?combined ?query ?update ?collectionDelete
  case select =>
    intro s hbodies wf c hc
    rw [Query.GraphsWellFormed, Select.graphsWellFormed_iff] at wf
    obtain ⟨hjoins, hctes⟩ := wf
    rw [Query.copy, Select.copy_eq hjoins] at hc
    obtain ⟨copied, hcopied, hc⟩ := bind_eq_ok.1 hc
    obtain ⟨ctes, hcopies, hlevel⟩ := map_eq_ok.1 hcopied
    rw [pure_eq_ok] at hc
    subst hlevel hc
    exact Select.alike_rebound hjoins.renumbers (Cte.copyList_alike hcopies hctes hbodies)
  case combined =>
    intro o ihstart ihoperands wf c hc
    rw [Query.GraphsWellFormed, SetOperation.graphsWellFormed_iff] at wf
    obtain ⟨hstart, hoperands⟩ := wf
    rw [Query.copy, SetOperation.copy_eq] at hc
    simp only [bind_eq_ok, pure_eq_ok] at hc
    obtain ⟨_, ⟨start, hfirst, operands, hrest, rfl⟩, rfl⟩ := hc
    exact SetOperation.alike (ihstart hstart start hfirst)
      (Query.copyList_alike hrest hoperands ihoperands)
  case query =>
    intro q hq wf c hc
    rw [CteBody.copy, bind_eq_ok] at hc
    obtain ⟨copied, hcopied, hc⟩ := hc
    rw [pure_eq_ok] at hc
    subst hc
    have halike := hq wf copied hcopied
    refine ⟨fun ctx entity => ?_, halike.width, halike.markers⟩
    rw [CteBody.tokens, CteBody.tokens, halike.limitedAnywhere, halike.rendered]
  case update =>
    intro u wf c hc
    rw [CteBody.copy, Update.copy_eq wf] at hc
    cases hc
    exact Update.alike_rebound (JoinGraph.WellFormed.renumbers wf)
  case collectionDelete =>
    intro d _ c hc
    rw [CteBody.copy] at hc
    cases hc

theorem Query.copy_alike {q c : Query} (wf : q.GraphsWellFormed) (h : q.copy = .ok c) :
    q.Alike c :=
  hereditary_copiesAlike.queries q wf c h

/-- A copy reads as its original, or fails as it does: the new numbers of the join nodes reach
every clause. -/
theorem Statement.render_copy {s c : Statement} (wf : s.GraphsWellFormed) (h : s.copy = .ok c)
    (ctx : RenderContext) : c.render ctx = s.render ctx := by
  cases s with
  | select q =>
      obtain ⟨copied, hcopied, hc⟩ := bind_eq_ok.1 h
      rw [pure_eq_ok] at hc
      subst hc
      have halike := Query.copy_alike wf hcopied
      simp only [render, rendered, halike.rendered, parameters, markers, halike.markers]
      rfl
  | update u =>
      rw [copy, Update.copy_eq wf] at h
      cases h
      simp only [render, rendered, Update.tokens_rebound (JoinGraph.WellFormed.renumbers wf),
        parameters, markers, Update.markers_rebound]
      rfl
  | delete d =>
      rw [copy, Delete.copy_eq wf] at h
      cases h
      simp only [render, rendered, Delete.tokens_rebound (JoinGraph.WellFormed.renumbers wf),
        parameters, markers, Delete.markers_rebound]
      rfl
  | collectionDelete d => cases h

/-- Two roots, with a join of the first one added after both, whose condition mentions the join
that comes after it; the second selected value has an alias. The FROM clause meets the nodes in the
order 0, 2, 3, 1. -/
def Select.interleaved : Select where
  items := [⟨.bound 0 "p" none, none⟩, ⟨.bound 3 "c" (some "name"), some "city"⟩]
  joins := {
    nodes := [
      { aliasName := "p", source := .root "Person" },
      { aliasName := "d", source := .root "Document" },
      { aliasName := "a", source := .ofAttribute "address" .singular, parent := some 0,
        type := some .left, condition := some (.isNull (.bound 3 "c" (some "id")) true) },
      { aliasName := "c", source := .ofAttribute "city" .singular, parent := some 2,
        type := some .inner }]
    roots := [0, 1] }
  aliases := ⟨[("c", .join "c" 3 false), ("city", .select "city" (.bound 3 "c" (some "name")))]⟩
  condition := some (.binary (.bound 1 "d" (some "owner")) .eq (.bound 0 "p" none))
  orderBy := [⟨.ofPath "city", .asc, none⟩]

theorem Statement.render_copy_interleaved :
    (Statement.select (.select .interleaved)).GraphsWellFormed ∧
      ∃ c, (Statement.select (.select .interleaved)).copy = .ok c ∧
        ∀ ctx, c.render ctx = (Statement.select (.select .interleaved)).render ctx := by
  have wf : (Statement.select (.select .interleaved)).GraphsWellFormed :=
    ⟨⟨by decide, by decide, by decide⟩, trivial⟩
  obtain ⟨c, hc⟩ : ∃ c, (Statement.select (.select .interleaved)).copy = .ok c := ⟨_, rfl⟩
  exact ⟨wf, c, hc, fun ctx => Statement.render_copy wf hc ctx⟩

end EntityQuery
