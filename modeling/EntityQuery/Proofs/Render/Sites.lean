import Mathlib.Data.List.Basic
import EntityQuery.Proofs.Markers
import EntityQuery.Query.Build
import EntityQuery.Render.Level

/-!
What is mentioned in the text of a statement, position by position and in the order of the text.
Positions that no dialect writes have no site: what lies in the index of an element, the operand of
an IN predicate without values, the condition of a root, the joins of a modified entity and what no
root leads to.
-/

namespace EntityQuery

/-- The names that the paths of one query level may start with. -/
structure Scope where
  aliases : AliasTable Expr := {}
  joins : JoinGraph Expr := {}

/-- What a text mentions in one place. -/
inductive Site where
  /-- A query level, with the entries and the joins of its FROM clause. -/
  | level (scope : Scope)
  | path (scope : Scope) (path : Path)
  | literal (value : Literal)
  | parameter (parameter : Parameter)
  /-- A function that is called by its name. -/
  | function (name : String)
  | countStar
  /-- An element of a collection, which is not written. -/
  | element
  /-- An IN predicate without values, which is written as a truth value. -/
  | emptyChoice
  /-- The limits of a query level inside another query. -/
  | nested (limits : Limits)
  /-- A set operation with the number of its operands. It stands between its queries where a
  dialect can write that and none of them has limits. -/
  | operation (operator : Option SetOperator) (operands : Nat) (between : Bool)
  | withClause
  | table (columns : List String) (body : CteBody)
  | assignments (count : Nat)
  | returning
  | collectionDelete

/-- The nodes that are written as joins, in the order of the FROM clause. -/
def Scope.joined (sc : Scope) : List NodeId :=
  sc.joins.roots.flatMap fun root => (sc.joins.subtree root).tail

/-- The paths that a modification reports. -/
def Scope.returningSites (sc : Scope) (paths : List String) : List Site :=
  if paths.isEmpty then []
  else .returning :: paths.map fun path => .path sc (Path.ofString path)

mutual

def Expr.sites (sc : Scope) : Expr → List Site
  | .path p => [.path sc p]
  | .literal v => [.literal v]
  | .parameter p => [.parameter p]
  | .call f args =>
      if Expr.isOuterCall f args then Expr.sitesList sc args
      else
        match Expr.genericName? f args with
        | some name => .function name :: Expr.sitesRest sc args
        | none => Expr.sitesList sc args
  | .aggregate f args _ =>
      if Expr.isCountStar f args then [.countStar] else Expr.sitesList sc args
  | .subquery q => q.memberSites false
  | .indexed _ _ => [.element]
  | .null => []
  | .caseWhen operand branches otherwise =>
      Expr.sitesOption sc operand ++ Expr.sitesPairs sc branches
        ++ Expr.sitesOption sc otherwise
  | .binary left _ right => left.sites sc ++ right.sites sc
  | .not e => e.sites sc
  | .isNull e _ => e.sites sc
  | .like e pattern _ _ => e.sites sc ++ pattern.sites sc
  | .oneOf e values _ =>
      if values.isEmpty then [.emptyChoice] else e.sites sc ++ Expr.sitesList sc values
  | .between e low high _ => e.sites sc ++ low.sites sc ++ high.sites sc
  | .parens e => e.sites sc
  | .verbatim _ => []

def Expr.sitesList (sc : Scope) : List Expr → List Site
  | [] => []
  | e :: rest => e.sites sc ++ Expr.sitesList sc rest

/-- The sites of all but the first of a list of expressions. -/
def Expr.sitesRest (sc : Scope) : List Expr → List Site
  | [] => []
  | _ :: rest => Expr.sitesList sc rest

def Expr.sitesOption (sc : Scope) : Option Expr → List Site
  | none => []
  | some e => e.sites sc

def Expr.sitesPairs (sc : Scope) : List (Expr × Expr) → List Site
  | [] => []
  | (a, b) :: rest => a.sites sc ++ b.sites sc ++ Expr.sitesPairs sc rest

/-- The sites of a query as a statement or as the body of a common table. Its limits are checked
there. -/
def Query.sites : Query → List Site
  | .select s => s.sites
  | .combined c => c.sites true

/-- The sites of a query inside another one. -/
def Query.memberSites (between : Bool) : Query → List Site
  | .select s => .nested s.limits :: s.sites
  | .combined c => c.sites between

def Query.memberSitesList (between : Bool) : List Query → List Site
  | [] => []
  | q :: rest => q.memberSites between ++ Query.memberSitesList between rest

def Select.sites : Select → List Site
  | ⟨ctes, _, items, ⟨nodes, roots⟩, aliases, condition, groupBy, having, orderBy, _⟩ =>
      let sc : Scope := ⟨aliases, ⟨nodes, roots⟩⟩
      .level sc :: ((if ctes.isEmpty then [] else [.withClause]) ++ Cte.sitesList ctes
        ++ SelectItem.sitesList sc items ++ selectLists (JoinNode.sitesList sc nodes) sc.joined
        ++ Expr.sitesOption sc condition ++ Expr.sitesList sc groupBy
        ++ Expr.sitesOption sc having ++ OrderItem.sitesList sc orderBy)

def SelectItem.sitesList (sc : Scope) : List (SelectItem Expr) → List Site
  | [] => []
  | ⟨e, _⟩ :: rest => e.sites sc ++ SelectItem.sitesList sc rest

def OrderItem.sitesList (sc : Scope) : List (OrderItem Expr) → List Site
  | [] => []
  | ⟨e, _, _⟩ :: rest => e.sites sc ++ OrderItem.sitesList sc rest

/-- The sites of the condition of each node. -/
def JoinNode.sitesList (sc : Scope) : List (JoinNode Expr) → List (List Site)
  | [] => []
  | ⟨_, _, _, _, _, condition, _⟩ :: rest =>
      Expr.sitesOption sc condition :: JoinNode.sitesList sc rest

/-- The order of a combined result has no names of its own. -/
def SetOperation.sites (between : Bool) : SetOperation → List Site
  | ⟨operator, start, operands, orderBy, _⟩ =>
      let between := between && !start.limitedAnywhere && !Query.anyLimited operands
      .operation operator operands.length between :: (start.memberSites between
        ++ Query.memberSitesList between operands ++ OrderItem.sitesList {} orderBy)

def Cte.sitesList : List Cte → List Site
  | [] => []
  | ⟨_, columns, body, _⟩ :: rest => .table columns body :: (body.sites ++ Cte.sitesList rest)

def CteBody.sites : CteBody → List Site
  | .query q => q.sites
  | .update u => u.sites
  | .collectionDelete d => d.sites

def Update.sites : Update → List Site
  | ⟨target, assignments, condition, returning⟩ =>
      let sc : Scope := ⟨target.aliases, target.joins⟩
      .assignments assignments.length :: (Expr.sitesPairs sc assignments
        ++ Expr.sitesOption sc condition ++ sc.returningSites returning)

def CollectionDelete.sites : CollectionDelete → List Site
  | ⟨target, _, condition, returning⟩ =>
      let sc : Scope := ⟨target.aliases, target.joins⟩
      .collectionDelete :: (Expr.sitesOption sc condition ++ sc.returningSites returning)

end

def Delete.sites (d : Delete) : List Site :=
  let sc : Scope := ⟨d.target.aliases, d.target.joins⟩
  Expr.sitesOption sc d.condition ++ sc.returningSites d.returning

/-- The sites of a statement. -/
def Statement.sites : Statement → List Site
  | .select q => q.sites
  | .update u => u.sites
  | .delete d => d.sites
  | .collectionDelete d => d.sites

namespace Expr

variable (sc : Scope)

theorem sitesList_eq (es : List Expr) : sitesList sc es = es.flatMap (sites sc) := by
  induction es with
  | nil => rfl
  | cons e rest ih => rw [sitesList, ih, List.flatMap_cons]

theorem sitesRest_eq (es : List Expr) : sitesRest sc es = es.tail.flatMap (sites sc) := by
  cases es with
  | nil => rfl
  | cons e rest => exact sitesList_eq sc rest

theorem sitesOption_eq (e? : Option Expr) : sitesOption sc e? = e?.toList.flatMap (sites sc) := by
  cases e? with
  | none => rfl
  | some e => simp [sitesOption]

theorem sitesPairs_eq (bs : List (Expr × Expr)) :
    sitesPairs sc bs = bs.flatMap fun b => b.1.sites sc ++ b.2.sites sc := by
  induction bs with
  | nil => rfl
  | cons b rest ih => rw [sitesPairs, ih, List.flatMap_cons]

end Expr

theorem Query.memberSitesList_eq (between : Bool) (qs : List Query) :
    memberSitesList between qs = qs.flatMap (memberSites between) := by
  induction qs with
  | nil => rfl
  | cons q rest ih => rw [memberSitesList, ih, List.flatMap_cons]

theorem SelectItem.sitesList_eq (sc : Scope) (is : List (SelectItem Expr)) :
    sitesList sc is = is.flatMap fun i => i.expr.sites sc := by
  induction is with
  | nil => rfl
  | cons i rest ih => rw [sitesList, ih, List.flatMap_cons]

theorem OrderItem.sitesList_eq (sc : Scope) (is : List (OrderItem Expr)) :
    sitesList sc is = is.flatMap fun i => i.expr.sites sc := by
  induction is with
  | nil => rfl
  | cons i rest ih => rw [sitesList, ih, List.flatMap_cons]

theorem Cte.sitesList_eq (cs : List Cte) :
    sitesList cs = cs.flatMap fun c => .table c.columns c.body :: c.body.sites := by
  induction cs with
  | nil => rfl
  | cons c rest ih =>
      obtain ⟨entity, columns, body, recursive⟩ := c
      rw [sitesList, ih, List.flatMap_cons, List.cons_append]

theorem JoinNode.getElem?_sitesList (sc : Scope) (nodes : List (JoinNode Expr)) (id : NodeId) :
    (sitesList sc nodes)[id]? = nodes[id]?.map fun n => Expr.sitesOption sc n.condition := by
  induction nodes generalizing id with
  | nil => rfl
  | cons n rest ih =>
      cases id with
      | zero => rfl
      | succ id => exact ih id

theorem selectLists_sitesList (sc : Scope) (ids : List NodeId) :
    selectLists (JoinNode.sitesList sc sc.joins.nodes) ids =
      ids.flatMap fun id => (sc.joins.condition? id).toList.flatMap (Expr.sites sc) := by
  refine List.flatMap_congr fun id _ => ?_
  rw [JoinNode.getElem?_sitesList, JoinGraph.condition?, JoinGraph.node?]
  cases sc.joins.nodes[id]? with
  | none => rfl
  | some n => exact Expr.sitesOption_eq sc n.condition

/-- The names that paths written at a level may start with. -/
def Level.scope (l : Level) : Scope := ⟨l.aliases, l.joins⟩

@[simp] theorem Level.scope_aliases (l : Level) : l.scope.aliases = l.aliases := rfl

@[simp] theorem Level.scope_joins (l : Level) : l.scope.joins = l.joins := rfl

/-- The names that the paths of a query level may start with. -/
def Select.scope (s : Select) : Scope := ⟨s.aliases, s.joins⟩

theorem Select.sites_eq (s : Select) :
    s.sites = .level s.scope :: ((if s.ctes.isEmpty then [] else [.withClause])
      ++ (s.ctes.flatMap fun c => .table c.columns c.body :: c.body.sites)
      ++ (s.items.flatMap fun i => i.expr.sites s.scope)
      ++ (s.scope.joined.flatMap fun id =>
        (s.joins.condition? id).toList.flatMap (Expr.sites s.scope))
      ++ s.condition.toList.flatMap (Expr.sites s.scope)
      ++ s.groupBy.flatMap (Expr.sites s.scope)
      ++ s.having.toList.flatMap (Expr.sites s.scope)
      ++ s.orderBy.flatMap fun i => i.expr.sites s.scope) := by
  have hfrom : selectLists (JoinNode.sitesList s.scope s.joins.nodes) s.scope.joined =
      s.scope.joined.flatMap fun id =>
        (s.joins.condition? id).toList.flatMap (Expr.sites s.scope) :=
    selectLists_sitesList s.scope s.scope.joined
  rw [← Cte.sitesList_eq, ← SelectItem.sitesList_eq, ← hfrom, ← Expr.sitesOption_eq,
    ← Expr.sitesList_eq, ← Expr.sitesOption_eq, ← OrderItem.sitesList_eq]
  obtain ⟨ctes, distinct, items, ⟨nodes, roots⟩, aliases, condition, groupBy, having, orderBy,
    limits⟩ := s
  rw [Select.sites]
  rfl

/-- Whether a set operation may stand between its queries, in a place where that is possible. -/
def SetOperation.staysBetween (c : SetOperation) (between : Bool) : Bool :=
  between && !c.start.limitedAnywhere && !Query.anyLimited c.operands

theorem SetOperation.sites_eq (between : Bool) (c : SetOperation) :
    c.sites between =
      .operation c.operator c.operands.length (c.staysBetween between) ::
        (c.start.memberSites (c.staysBetween between)
          ++ c.operands.flatMap (Query.memberSites (c.staysBetween between))
          ++ c.orderBy.flatMap fun i => i.expr.sites {}) := by
  rw [← Query.memberSitesList_eq, ← OrderItem.sitesList_eq]
  obtain ⟨operator, start, operands, orderBy, limits⟩ := c
  rw [SetOperation.sites]
  rfl

/-- The names that the paths of a modification may start with. -/
def Target.scope (t : Target Expr) : Scope := ⟨t.aliases, t.joins⟩

theorem Update.sites_eq (u : Update) :
    u.sites = .assignments u.assignments.length ::
      ((u.assignments.flatMap fun a => a.1.sites u.target.scope ++ a.2.sites u.target.scope)
        ++ u.condition.toList.flatMap (Expr.sites u.target.scope)
        ++ u.target.scope.returningSites u.returning) := by
  rw [← Expr.sitesPairs_eq, ← Expr.sitesOption_eq]
  obtain ⟨target, assignments, condition, returning⟩ := u
  rw [Update.sites]
  rfl

theorem CollectionDelete.sites_eq (d : CollectionDelete) :
    d.sites = .collectionDelete :: (d.condition.toList.flatMap (Expr.sites d.target.scope)
      ++ d.target.scope.returningSites d.returning) := by
  rw [← Expr.sitesOption_eq]
  obtain ⟨target, collection, condition, returning⟩ := d
  rw [CollectionDelete.sites]
  rfl

theorem Delete.sites_eq (d : Delete) :
    d.sites = d.condition.toList.flatMap (Expr.sites d.target.scope)
      ++ d.target.scope.returningSites d.returning := by
  rw [← Expr.sitesOption_eq]
  rfl

end EntityQuery
