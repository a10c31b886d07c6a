import EntityQuery.Proofs.Copy.Expression

/-!
Queries with their paths rewritten. A path is rewritten by the aliases of its own level, and so is
every path in a subquery, in a combined query and in a common table by those of the level that it
stands on. Modifications stay as they are: what they report back is text and no expression.
-/

namespace EntityQuery

/-- How names are rewritten. -/
structure Rewriting where
  /-- A path of a level with the given aliases. -/
  path : AliasTable Expr → Path → Path
  /-- A path of an enclosing query that a FROM entry starts from. -/
  source : String → String := id

namespace JoinSource

/-- A source with the path of the enclosing query rewritten. -/
def rewrite (f : String → String) : JoinSource → JoinSource
  | correlated path => correlated (f path)
  | source => source

end JoinSource

mutual

/-- An expression with the paths of its own level rewritten by `f`. -/
def Expr.rewrite (r : Rewriting) (f : Path → Path) : Expr → Expr
  | .path p => .path (f p)
  | .literal v => .literal v
  | .parameter p => .parameter p
  | .call g args => .call g (Expr.rewriteList r f args)
  | .aggregate g args d => .aggregate g (Expr.rewriteList r f args) d
  | .subquery q => .subquery (q.rewrite r)
  | .indexed base index => .indexed (f base) (index.rewrite r f)
  | .null => .null
  | .caseWhen operand branches otherwise =>
      .caseWhen (Expr.rewriteOption r f operand) (Expr.rewritePairs r f branches)
        (Expr.rewriteOption r f otherwise)
  | .binary left op right => .binary (left.rewrite r f) op (right.rewrite r f)
  | .not e => .not (e.rewrite r f)
  | .isNull e negated => .isNull (e.rewrite r f) negated
  | .like e pattern escape negated => .like (e.rewrite r f) (pattern.rewrite r f) escape negated
  | .oneOf e values negated => .oneOf (e.rewrite r f) (Expr.rewriteList r f values) negated
  | .between e low high negated =>
      .between (e.rewrite r f) (low.rewrite r f) (high.rewrite r f) negated
  | .parens e => .parens (e.rewrite r f)
  | .verbatim s => .verbatim s

def Expr.rewriteList (r : Rewriting) (f : Path → Path) : List Expr → List Expr
  | [] => []
  | e :: rest => e.rewrite r f :: Expr.rewriteList r f rest

def Expr.rewriteOption (r : Rewriting) (f : Path → Path) : Option Expr → Option Expr
  | none => none
  | some e => some (e.rewrite r f)

def Expr.rewritePairs (r : Rewriting) (f : Path → Path) : List (Expr × Expr) → List (Expr × Expr)
  | [] => []
  | (a, b) :: rest => (a.rewrite r f, b.rewrite r f) :: Expr.rewritePairs r f rest

def Query.rewrite (r : Rewriting) : Query → Query
  | .select s => .select (s.rewrite r)
  | .combined c => .combined (c.rewrite r)

def Query.rewriteList (r : Rewriting) : List Query → List Query
  | [] => []
  | q :: rest => q.rewrite r :: Query.rewriteList r rest

/-- A query level with its paths rewritten by its aliases, also where an alias names an
expression. -/
def Select.rewrite (r : Rewriting) : Select → Select
  | ⟨ctes, distinct, items, ⟨nodes, roots⟩, ⟨entries⟩, condition, groupBy, having, orderBy,
      limits⟩ =>
      let f := r.path ⟨entries⟩
      { ctes := Cte.rewriteList r ctes
        distinct := distinct
        items := SelectItem.rewriteList r f items
        joins := ⟨JoinNode.rewriteList r f nodes, roots⟩
        aliases := ⟨AliasEntry.rewriteList r f entries⟩
        condition := Expr.rewriteOption r f condition
        groupBy := Expr.rewriteList r f groupBy
        having := Expr.rewriteOption r f having
        orderBy := OrderItem.rewriteList r f orderBy
        limits := limits }

def SelectItem.rewriteList (r : Rewriting) (f : Path → Path) :
    List (SelectItem Expr) → List (SelectItem Expr)
  | [] => []
  | ⟨e, aliasName⟩ :: rest => ⟨e.rewrite r f, aliasName⟩ :: SelectItem.rewriteList r f rest

def OrderItem.rewriteList (r : Rewriting) (f : Path → Path) :
    List (OrderItem Expr) → List (OrderItem Expr)
  | [] => []
  | ⟨e, direction, nulls⟩ :: rest =>
      ⟨e.rewrite r f, direction, nulls⟩ :: OrderItem.rewriteList r f rest

def JoinNode.rewriteList (r : Rewriting) (f : Path → Path) :
    List (JoinNode Expr) → List (JoinNode Expr)
  | [] => []
  | ⟨aliasName, source, parent, type, fetch, condition, implicit⟩ :: rest =>
      ⟨aliasName, source.rewrite r.source, parent, type, fetch, Expr.rewriteOption r f condition,
        implicit⟩ :: JoinNode.rewriteList r f rest

def AliasEntry.rewriteList (r : Rewriting) (f : Path → Path) :
    List (String × AliasEntry Expr) → List (String × AliasEntry Expr)
  | [] => []
  | (key, .join aliasName node implicit) :: rest =>
      (key, .join aliasName node implicit) :: AliasEntry.rewriteList r f rest
  | (key, .select aliasName e) :: rest =>
      (key, .select aliasName (e.rewrite r f)) :: AliasEntry.rewriteList r f rest

/-- The order of a combined result has no names of its own. -/
def SetOperation.rewrite (r : Rewriting) : SetOperation → SetOperation
  | ⟨operator, start, operands, orderBy, limits⟩ =>
      ⟨operator, start.rewrite r, Query.rewriteList r operands,
        OrderItem.rewriteList r (r.path {}) orderBy, limits⟩

def Cte.rewriteList (r : Rewriting) : List Cte → List Cte
  | [] => []
  | ⟨entity, columns, body, recursive⟩ :: rest =>
      ⟨entity, columns, body.rewrite r, recursive⟩ :: Cte.rewriteList r rest

def CteBody.rewrite (r : Rewriting) : CteBody → CteBody
  | .query q => .query (q.rewrite r)
  | .update u => .update u
  | .collectionDelete d => .collectionDelete d

end

/-- An entry with the expression that it names rewritten. -/
def AliasEntry.rewrite (r : Rewriting) (f : Path → Path) : AliasEntry Expr → AliasEntry Expr
  | .join aliasName node implicit => .join aliasName node implicit
  | .select aliasName e => .select aliasName (e.rewrite r f)

/-- A table of aliases with the expressions that they name rewritten. -/
def AliasTable.rewrite (r : Rewriting) (f : Path → Path) (t : AliasTable Expr) : AliasTable Expr :=
  ⟨t.entries.map fun entry => (entry.1, entry.2.rewrite r f)⟩

def JoinNode.rewrite (r : Rewriting) (f : Path → Path) (n : JoinNode Expr) : JoinNode Expr :=
  { n with source := n.source.rewrite r.source, condition := n.condition.map (Expr.rewrite r f) }

def JoinGraph.rewrite (r : Rewriting) (f : Path → Path) (g : JoinGraph Expr) : JoinGraph Expr :=
  { g with nodes := g.nodes.map (JoinNode.rewrite r f) }

def SelectItem.rewrite (r : Rewriting) (f : Path → Path) (i : SelectItem Expr) : SelectItem Expr :=
  { i with expr := i.expr.rewrite r f }

def OrderItem.rewrite (r : Rewriting) (f : Path → Path) (i : OrderItem Expr) : OrderItem Expr :=
  { i with expr := i.expr.rewrite r f }

def Cte.rewrite (r : Rewriting) (c : Cte) : Cte := { c with body := c.body.rewrite r }

section Lists

variable (r : Rewriting) (f : Path → Path)

theorem Expr.rewriteList_eq_map (es : List Expr) : rewriteList r f es = es.map (rewrite r f) := by
  induction es with
  | nil => rfl
  | cons e rest ih => rw [rewriteList, ih, List.map_cons]

theorem Expr.rewriteOption_eq_map (e? : Option Expr) :
    rewriteOption r f e? = e?.map (rewrite r f) := by
  cases e? <;> rfl

theorem Expr.rewritePairs_eq_map (bs : List (Expr × Expr)) :
    rewritePairs r f bs = bs.map fun b => (b.1.rewrite r f, b.2.rewrite r f) := by
  induction bs with
  | nil => rfl
  | cons b rest ih => rw [rewritePairs, ih, List.map_cons]

theorem Query.rewriteList_eq_map (qs : List Query) : rewriteList r qs = qs.map (rewrite r) := by
  induction qs with
  | nil => rfl
  | cons q rest ih => rw [rewriteList, ih, List.map_cons]

theorem SelectItem.rewriteList_eq_map (is : List (SelectItem Expr)) :
    rewriteList r f is = is.map (rewrite r f) := by
  induction is with
  | nil => rfl
  | cons i rest ih => rw [rewriteList, ih, List.map_cons, rewrite]

theorem OrderItem.rewriteList_eq_map (is : List (OrderItem Expr)) :
    rewriteList r f is = is.map (rewrite r f) := by
  induction is with
  | nil => rfl
  | cons i rest ih => rw [rewriteList, ih, List.map_cons, rewrite]

theorem JoinNode.rewriteList_eq_map (ns : List (JoinNode Expr)) :
    rewriteList r f ns = ns.map (rewrite r f) := by
  induction ns with
  | nil => rfl
  | cons n rest ih =>
      obtain ⟨aliasName, source, parent, type, fetch, condition, implicit⟩ := n
      rw [rewriteList, ih, List.map_cons, rewrite, Expr.rewriteOption_eq_map]

theorem AliasEntry.rewriteList_eq_map (entries : List (String × AliasEntry Expr)) :
    rewriteList r f entries = entries.map fun entry => (entry.1, entry.2.rewrite r f) := by
  induction entries with
  | nil => rfl
  | cons entry rest ih =>
      obtain ⟨key, entry⟩ := entry
      cases entry <;> rw [rewriteList, ih, List.map_cons, rewrite]

theorem Cte.rewriteList_eq_map (cs : List Cte) : rewriteList r cs = cs.map (rewrite r) := by
  induction cs with
  | nil => rfl
  | cons c rest ih =>
      obtain ⟨entity, columns, body, recursive⟩ := c
      rw [rewriteList, ih, List.map_cons, rewrite]

end Lists

/-- A query level with the paths of its own expressions rewritten by `f`. -/
def Select.rewriteBy (r : Rewriting) (f : Path → Path) (s : Select) : Select where
  ctes := s.ctes.map (Cte.rewrite r)
  distinct := s.distinct
  items := s.items.map (SelectItem.rewrite r f)
  joins := s.joins.rewrite r f
  aliases := s.aliases.rewrite r f
  condition := s.condition.map (Expr.rewrite r f)
  groupBy := s.groupBy.map (Expr.rewrite r f)
  having := s.having.map (Expr.rewrite r f)
  orderBy := s.orderBy.map (OrderItem.rewrite r f)
  limits := s.limits

theorem Select.rewrite_eq (r : Rewriting) (s : Select) :
    s.rewrite r = s.rewriteBy r (r.path s.aliases) := by
  obtain ⟨ctes, distinct, items, ⟨nodes, roots⟩, ⟨entries⟩, condition, groupBy, having, orderBy,
    limits⟩ := s
  rw [Select.rewrite]
  simp only [Cte.rewriteList_eq_map, SelectItem.rewriteList_eq_map, JoinNode.rewriteList_eq_map,
    AliasEntry.rewriteList_eq_map, Expr.rewriteOption_eq_map, Expr.rewriteList_eq_map,
    OrderItem.rewriteList_eq_map]
  rfl

theorem SetOperation.rewrite_eq (r : Rewriting) (c : SetOperation) :
    c.rewrite r = { c with
      start := c.start.rewrite r
      operands := c.operands.map (Query.rewrite r)
      orderBy := c.orderBy.map (OrderItem.rewrite r (r.path {})) } := by
  obtain ⟨operator, start, operands, orderBy, limits⟩ := c
  rw [SetOperation.rewrite, Query.rewriteList_eq_map, OrderItem.rewriteList_eq_map]

section Shape

variable (r : Rewriting) (f : Path → Path)

theorem Expr.genericName?_map_rewrite (function : String) (args : List Expr) :
    genericName? function (args.map (rewrite r f)) = genericName? function args := by
  cases args with
  | nil => rfl
  | cons e rest =>
      cases e with
      | literal v => cases v <;> rfl
      | _ => rfl

theorem Expr.standsAlone_map_rewrite (values : List Expr) :
    standsAlone (values.map (rewrite r f)) = standsAlone values := by
  match values with
  | [] => rfl
  | [e] => cases e <;> rfl
  | first :: second :: rest => cases first <;> rfl

theorem Expr.parenthesizeLooser_rewrite (precedence : Nat) (e : Expr) (tokens : List Token) :
    parenthesizeLooser precedence (e.rewrite r f) tokens =
      parenthesizeLooser precedence e tokens := by
  cases e <;> rfl

/-- What is done to the nodes one by one is done to their conditions. -/
theorem JoinGraph.condition?_map {φ : JoinNode Expr → JoinNode Expr} {ψ : Expr → Expr}
    (h : ∀ n, (φ n).condition = n.condition.map ψ) (g : JoinGraph Expr) (id : NodeId) :
    condition? { g with nodes := g.nodes.map φ } id = (g.condition? id).map ψ := by
  rw [condition?, condition?, node?, node?, List.getElem?_map]
  cases g.nodes[id]? with
  | none => rfl
  | some n => exact h n

/-- The FROM clause keeps its order if every node keeps its parent. -/
theorem JoinGraph.depthFirst_map {φ : JoinNode Expr → JoinNode Expr}
    (h : ∀ n, (φ n).parent = n.parent) (g : JoinGraph Expr) :
    depthFirst { g with nodes := g.nodes.map φ } = g.depthFirst := by
  refine List.flatMap_congr fun id _ => subtree_congr ?_ id
  rw [List.map_map]
  exact List.map_congr_left fun n _ => h n

/-- Rewriting adds no limits and takes none away. -/
theorem Query.limitedAnywhere_rewrite :
    ∀ q : Query, (q.rewrite r).limitedAnywhere = q.limitedAnywhere := by
  refine Query.memberInduction (fun s => ?_) fun c hstart hoperands => ?_
  · rw [rewrite, Select.rewrite_eq]
    rfl
  · rw [rewrite, SetOperation.rewrite_eq, limitedAnywhere, limitedAnywhere,
      SetOperation.limitedAnywhere_eq, SetOperation.limitedAnywhere_eq, anyLimited_map hoperands,
      hstart]

theorem Query.width_rewrite : ∀ q : Query, (q.rewrite r).width = q.width := by
  refine Query.memberInduction (fun s => ?_) fun c hstart _ => ?_
  · rw [rewrite, Select.rewrite_eq]
    exact List.length_map _
  · obtain ⟨operator, start, operands, orderBy, limits⟩ := c
    exact hstart

theorem CteBody.width_rewrite (b : CteBody) : (b.rewrite r).width = b.width := by
  cases b with
  | query q => exact q.width_rewrite r
  | update u => rfl
  | collectionDelete d => rfl

end Shape

/-- Changing the members of a list does not show where it does not show in any of them. -/
theorem flatMap_map_of_eq {α β : Type} {g : α → List β} {φ : α → α} {as : List α}
    (h : ∀ a ∈ as, g (φ a) = g a) : (as.map φ).flatMap g = as.flatMap g := by
  rw [List.flatMap_map]
  exact List.flatMap_congr h

/-- Changing the nodes one by one, and not their parents, leaves the parameters of the FROM clause
where they are if it does so in each condition. -/
theorem JoinGraph.markers_map {φ : JoinNode Expr → JoinNode Expr} {ψ : Expr → Expr}
    {g g' : JoinGraph Expr} (hg : g' = ⟨g.nodes.map φ, g.roots⟩)
    (hparent : ∀ n, (φ n).parent = n.parent) (hcondition : ∀ n, (φ n).condition = n.condition.map ψ)
    (hmarkers : ∀ id, ∀ e ∈ g.condition? id, (ψ e).markers = e.markers) :
    (g'.depthFirst.flatMap fun id => (g'.condition? id).toList.flatMap Expr.markers) =
      g.depthFirst.flatMap fun id => (g.condition? id).toList.flatMap Expr.markers := by
  rw [hg, depthFirst_map hparent]
  refine List.flatMap_congr fun id _ => ?_
  rw [condition?_map hcondition, Option.toList_map]
  exact flatMap_map_of_eq fun e he => hmarkers id e (Option.mem_toList.1 he)

/-- Rewriting paths leaves the parameters where they are. -/
theorem Expr.hereditary_markers_rewrite (r : Rewriting) :
    Hereditary (fun e => ∀ f, (e.rewrite r f).markers = e.markers)
      (fun q => (q.rewrite r).markers = q.markers)
      (fun b => (b.rewrite r).markers = b.markers) where
  path _ _ := rfl
  literal _ _ := rfl
  parameter _ _ := rfl
  call g args ih f := by
    rw [rewrite, rewriteList_eq_map, markers, markers, markersList_map fun e he => ih e he f]
  aggregate g args d ih f := by
    rw [rewrite, rewriteList_eq_map, markers, markers, markersList_map fun e he => ih e he f]
  subquery _ ih _ := ih
  indexed _ _ ih f := ih f
  null _ := rfl
  caseWhen operand branches otherwise hoperand hbranches hotherwise f := by
    rw [rewrite, rewriteOption_eq_map, rewriteOption_eq_map, rewritePairs_eq_map, markers, markers,
      markersOption_map fun e he => hoperand e he f,
      markersPairs_map fun b hb => ⟨(hbranches b hb).1 f, (hbranches b hb).2 f⟩,
      markersOption_map fun e he => hotherwise e he f]
  binary left op right hleft hright f := by
    rw [rewrite, markers, markers, hleft, hright]
  not _ he f := he f
  isNull _ _ he f := he f
  like e pattern escape negated he hpattern f := by
    rw [rewrite, markers, markers, he, hpattern]
  oneOf e values negated he hvalues f := by
    rw [rewrite, rewriteList_eq_map, markers, markers, he,
      markersList_map fun v hv => hvalues v hv f]
  between e low high negated he hlow hhigh f := by
    rw [rewrite, markers, markers, he, hlow, hhigh]
  parens _ he f := he f
  verbatim _ _ := rfl
  select s parts := by
    have hnodes : s.joins.rewrite r (r.path s.aliases) =
        ⟨s.joins.nodes.map (JoinNode.rewrite r (r.path s.aliases)), s.joins.roots⟩ := rfl
    have hjoins := JoinGraph.markers_map hnodes (fun _ => rfl) (fun _ => rfl)
      fun id e he => parts.of_condition he (r.path s.aliases)
    rw [Query.rewrite, Select.rewrite_eq, Query.markers, Query.markers, Select.markers_eq,
      Select.markers_eq]
    simp only [Select.rewriteBy, hjoins, Option.toList_map]
    rw [flatMap_map_of_eq parts.ctes, flatMap_map_of_eq fun i hi => parts.items i hi _,
      flatMap_map_of_eq fun e he => parts.condition e (Option.mem_toList.1 he) _,
      flatMap_map_of_eq fun e he => parts.groupBy e he _,
      flatMap_map_of_eq fun e he => parts.having e (Option.mem_toList.1 he) _,
      flatMap_map_of_eq fun i hi => parts.orderBy i hi _]
  combined c parts := by
    rw [Query.rewrite, SetOperation.rewrite_eq, Query.markers, Query.markers,
      SetOperation.markers_eq, SetOperation.markers_eq, parts.start,
      flatMap_map_of_eq parts.operands, flatMap_map_of_eq fun i hi => parts.orderBy i hi _]
  query _ hq := hq
  update _ _ _ := rfl
  collectionDelete _ _ := rfl

theorem Query.markers_rewrite (r : Rewriting) (q : Query) : (q.rewrite r).markers = q.markers :=
  (Expr.hereditary_markers_rewrite r).queries q

end EntityQuery
