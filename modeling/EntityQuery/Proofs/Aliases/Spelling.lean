import EntityQuery.Proofs.Induction
import EntityQuery.Proofs.Render.Sites
import EntityQuery.Proofs.Rewriting.Basic

/-!
Queries with the prefix of their outermost level spelled out. Which references of a subquery carry
it is a rule over the levels around them; where the rule says so, the prefix becomes part of the
text of the reference. The rule is a parameter: what is said here holds of any.
-/

namespace EntityQuery

/-- Whether a level joins something under an alias. -/
def Scope.declares (sc : Scope) (a : String) : Bool :=
  sc.joins.nodes.any fun n => n.aliasName == a

/-- Where a path leads, with the select aliases followed or not. -/
def AliasTable.endOf (inline : Bool) (t : AliasTable Expr) (p : Path) : ChainEnd :=
  if inline then t.chainEnd p else .path p

/-- A prefix, and the rule by which references of subqueries carry it: by the levels between the
outermost level and their own, innermost first, by their own level, and by their first element. -/
structure Spelling where
  aliasPrefix : String
  inlineAliases : Bool
  /-- The rule for paths that are not bound to a join. -/
  path : List Scope → Scope → String → Bool
  /-- The rule for paths of an enclosing query that a FROM entry starts from. -/
  source : List Scope → Scope → String → Bool

/-- What becomes of the references of one level. -/
structure LevelSpelling where
  /-- The text that stands for a path, if it is spelled out. -/
  text? : Path → Option String
  source : String → String
  /-- The levels that lie between the outermost one and the subqueries of the level. -/
  inner : List Scope

namespace Spelling

variable (w : Spelling) (between : List Scope) (own : Scope)

/-- The text of an unbound path that carries the prefix. -/
def text? (p : Path) : Option String :=
  match own.aliases.endOf w.inlineAliases p with
  | .path target =>
      if target.base.isNone && w.path between own target.head then
        some (w.aliasPrefix ++ target.text)
      else none
  | .cycle _ => none

/-- A path of an enclosing query, with the prefix that it carries. -/
def sourceText (path : String) : String :=
  if w.source between own (Dotted.head path) then w.aliasPrefix ++ path else path

/-- A path that a modification reports, with the prefix that it carries. -/
def reported (path : String) : String := (w.text? between own (Path.ofString path)).getD path

/-- The references of a level inside a subquery. -/
def level : LevelSpelling := ⟨w.text? between own, w.sourceText between own, own :: between⟩

end Spelling

/-- The outermost level has no references to levels around it. -/
def LevelSpelling.outermost : LevelSpelling := ⟨fun _ => none, id, []⟩

/-- A path, or the text that stands for it. -/
def Expr.reference (p : Path) (text? : Option String) : Expr := (text?.map verbatim).getD (.path p)

mutual

/-- An expression of a level with its references spelled out. -/
def Expr.spelled (w : Spelling) (v : LevelSpelling) : Expr → Expr
  | .path p => .reference p (v.text? p)
  | .literal value => .literal value
  | .parameter p => .parameter p
  | .call f args => .call f (Expr.spelledList w v args)
  | .aggregate f args d => .aggregate f (Expr.spelledList w v args) d
  | .subquery q => .subquery (q.spelled w v.inner)
  | .indexed base index => .indexed base index
  | .null => .null
  | .caseWhen operand branches otherwise =>
      .caseWhen (Expr.spelledOption w v operand) (Expr.spelledPairs w v branches)
        (Expr.spelledOption w v otherwise)
  | .binary left op right => .binary (left.spelled w v) op (right.spelled w v)
  | .not e => .not (e.spelled w v)
  | .isNull e negated => .isNull (e.spelled w v) negated
  | .like e pattern escape negated => .like (e.spelled w v) (pattern.spelled w v) escape negated
  | .oneOf e values negated => .oneOf (e.spelled w v) (Expr.spelledList w v values) negated
  | .between e low high negated =>
      .between (e.spelled w v) (low.spelled w v) (high.spelled w v) negated
  | .parens e => .parens (e.spelled w v)
  | .verbatim s => .verbatim s

def Expr.spelledList (w : Spelling) (v : LevelSpelling) : List Expr → List Expr
  | [] => []
  | e :: rest => e.spelled w v :: Expr.spelledList w v rest

def Expr.spelledOption (w : Spelling) (v : LevelSpelling) : Option Expr → Option Expr
  | none => none
  | some e => some (e.spelled w v)

def Expr.spelledPairs (w : Spelling) (v : LevelSpelling) :
    List (Expr × Expr) → List (Expr × Expr)
  | [] => []
  | (a, b) :: rest => (a.spelled w v, b.spelled w v) :: Expr.spelledPairs w v rest

/-- A query of a subquery, by the levels between the outermost one and the query. -/
def Query.spelled (w : Spelling) (between : List Scope) : Query → Query
  | .select s => .select (s.spelled w between)
  | .combined c => .combined (c.spelled w between)

def Query.spelledList (w : Spelling) (between : List Scope) : List Query → List Query
  | [] => []
  | q :: rest => q.spelled w between :: Query.spelledList w between rest

/-- A level of a subquery. Its alias table stays as it is, and its common tables do not see it. -/
def Select.spelled (w : Spelling) (between : List Scope) : Select → Select
  | ⟨ctes, distinct, items, ⟨nodes, roots⟩, aliases, condition, groupBy, having, orderBy,
      limits⟩ =>
      let v := w.level between ⟨aliases, ⟨nodes, roots⟩⟩
      { ctes := Cte.spelledList w between ctes
        distinct := distinct
        items := SelectItem.spelledList w v items
        joins := ⟨JoinNode.spelledList w v nodes, roots⟩
        aliases := aliases
        condition := Expr.spelledOption w v condition
        groupBy := Expr.spelledList w v groupBy
        having := Expr.spelledOption w v having
        orderBy := OrderItem.spelledList w v orderBy
        limits := limits }

def SelectItem.spelledList (w : Spelling) (v : LevelSpelling) :
    List (SelectItem Expr) → List (SelectItem Expr)
  | [] => []
  | ⟨e, aliasName⟩ :: rest => ⟨e.spelled w v, aliasName⟩ :: SelectItem.spelledList w v rest

def OrderItem.spelledList (w : Spelling) (v : LevelSpelling) :
    List (OrderItem Expr) → List (OrderItem Expr)
  | [] => []
  | ⟨e, direction, nulls⟩ :: rest =>
      ⟨e.spelled w v, direction, nulls⟩ :: OrderItem.spelledList w v rest

def JoinNode.spelledList (w : Spelling) (v : LevelSpelling) :
    List (JoinNode Expr) → List (JoinNode Expr)
  | [] => []
  | ⟨aliasName, source, parent, type, fetch, condition, implicit⟩ :: rest =>
      ⟨aliasName, source.rewrite v.source, parent, type, fetch, Expr.spelledOption w v condition,
        implicit⟩ :: JoinNode.spelledList w v rest

/-- The order of a combined result stands on a level without names. -/
def SetOperation.spelled (w : Spelling) (between : List Scope) : SetOperation → SetOperation
  | ⟨operator, start, operands, orderBy, limits⟩ =>
      ⟨operator, start.spelled w between, Query.spelledList w between operands,
        OrderItem.spelledList w (w.level between {}) orderBy, limits⟩

def Cte.spelledList (w : Spelling) (between : List Scope) : List Cte → List Cte
  | [] => []
  | ⟨entity, columns, body, recursive⟩ :: rest =>
      ⟨entity, columns, body.spelled w between, recursive⟩ :: Cte.spelledList w between rest

def CteBody.spelled (w : Spelling) (between : List Scope) : CteBody → CteBody
  | .query q => .query (q.spelled w between)
  | .update u => .update (u.spelled w between)
  | .collectionDelete d => .collectionDelete (d.spelled w between)

def Update.spelled (w : Spelling) (between : List Scope) : Update → Update
  | ⟨target, assignments, condition, returning⟩ =>
      let v := w.level between ⟨target.aliases, target.joins⟩
      ⟨target, Expr.spelledPairs w v assignments, Expr.spelledOption w v condition,
        returning.map (w.reported between ⟨target.aliases, target.joins⟩)⟩

def CollectionDelete.spelled (w : Spelling) (between : List Scope) :
    CollectionDelete → CollectionDelete
  | ⟨target, collection, condition, returning⟩ =>
      let v := w.level between ⟨target.aliases, target.joins⟩
      ⟨target, collection, Expr.spelledOption w v condition,
        returning.map (w.reported between ⟨target.aliases, target.joins⟩)⟩

end

def SelectItem.spelled (w : Spelling) (v : LevelSpelling) (i : SelectItem Expr) : SelectItem Expr :=
  { i with expr := i.expr.spelled w v }

def OrderItem.spelled (w : Spelling) (v : LevelSpelling) (i : OrderItem Expr) : OrderItem Expr :=
  { i with expr := i.expr.spelled w v }

def JoinNode.spelled (w : Spelling) (v : LevelSpelling) (n : JoinNode Expr) : JoinNode Expr :=
  { n with source := n.source.rewrite v.source, condition := n.condition.map (Expr.spelled w v) }

def Cte.spelled (w : Spelling) (between : List Scope) (c : Cte) : Cte :=
  { c with body := c.body.spelled w between }

/-- A level with everything on it spelled out, over the given common tables and nodes. -/
def Select.spelledBy (w : Spelling) (v : LevelSpelling) (s : Select) (ctes : List Cte)
    (nodes : List (JoinNode Expr)) : Select :=
  { s with
    ctes := ctes
    items := s.items.map (SelectItem.spelled w v)
    joins := ⟨nodes, s.joins.roots⟩
    condition := s.condition.map (Expr.spelled w v)
    groupBy := s.groupBy.map (Expr.spelled w v)
    having := s.having.map (Expr.spelled w v)
    orderBy := s.orderBy.map (OrderItem.spelled w v) }

/-- A node of the outermost level, declared with the prefix. -/
def JoinNode.spelledOut (w : Spelling) (n : JoinNode Expr) : JoinNode Expr :=
  { n.spelled w .outermost with aliasName := w.aliasPrefix ++ n.aliasName }

/-- The outermost level with the prefix spelled out: where its joins are declared, and where a
reference in a subquery carries it. Its common tables have no prefix. -/
def Select.spelledOut (w : Spelling) (s : Select) : Select :=
  s.spelledBy w .outermost s.ctes (s.joins.nodes.map (JoinNode.spelledOut w))

section Lists

variable (w : Spelling) (v : LevelSpelling) (between : List Scope)

theorem Expr.spelledList_eq_map (es : List Expr) : spelledList w v es = es.map (spelled w v) := by
  induction es with
  | nil => rfl
  | cons e rest ih => rw [spelledList, ih, List.map_cons]

theorem Expr.spelledOption_eq_map (e? : Option Expr) :
    spelledOption w v e? = e?.map (spelled w v) := by
  cases e? <;> rfl

theorem Expr.spelledPairs_eq_map (bs : List (Expr × Expr)) :
    spelledPairs w v bs = bs.map fun b => (b.1.spelled w v, b.2.spelled w v) := by
  induction bs with
  | nil => rfl
  | cons b rest ih => rw [spelledPairs, ih, List.map_cons]

theorem Query.spelledList_eq_map (qs : List Query) :
    spelledList w between qs = qs.map (spelled w between) := by
  induction qs with
  | nil => rfl
  | cons q rest ih => rw [spelledList, ih, List.map_cons]

theorem SelectItem.spelledList_eq_map (is : List (SelectItem Expr)) :
    spelledList w v is = is.map (spelled w v) := by
  induction is with
  | nil => rfl
  | cons i rest ih => rw [spelledList, ih, List.map_cons, spelled]

theorem OrderItem.spelledList_eq_map (is : List (OrderItem Expr)) :
    spelledList w v is = is.map (spelled w v) := by
  induction is with
  | nil => rfl
  | cons i rest ih => rw [spelledList, ih, List.map_cons, spelled]

theorem JoinNode.spelledList_eq_map (ns : List (JoinNode Expr)) :
    spelledList w v ns = ns.map (spelled w v) := by
  induction ns with
  | nil => rfl
  | cons n rest ih =>
      obtain ⟨aliasName, source, parent, type, fetch, condition, implicit⟩ := n
      rw [spelledList, ih, List.map_cons, spelled, Expr.spelledOption_eq_map]

theorem Cte.spelledList_eq_map (cs : List Cte) :
    spelledList w between cs = cs.map (spelled w between) := by
  induction cs with
  | nil => rfl
  | cons c rest ih =>
      obtain ⟨entity, columns, body, recursive⟩ := c
      rw [spelledList, ih, List.map_cons, spelled]

theorem Select.spelled_eq (s : Select) :
    s.spelled w between = s.spelledBy w (w.level between s.scope)
      (s.ctes.map (Cte.spelled w between))
      (s.joins.nodes.map (JoinNode.spelled w (w.level between s.scope))) := by
  obtain ⟨ctes, distinct, items, ⟨nodes, roots⟩, aliases, condition, groupBy, having, orderBy,
    limits⟩ := s
  rw [spelled]
  simp only [Cte.spelledList_eq_map, SelectItem.spelledList_eq_map, JoinNode.spelledList_eq_map,
    Expr.spelledOption_eq_map, Expr.spelledList_eq_map, OrderItem.spelledList_eq_map]
  rfl

theorem SetOperation.spelled_eq (c : SetOperation) :
    c.spelled w between = { c with
      start := c.start.spelled w between
      operands := c.operands.map (Query.spelled w between)
      orderBy := c.orderBy.map (OrderItem.spelled w (w.level between {})) } := by
  obtain ⟨operator, start, operands, orderBy, limits⟩ := c
  rw [spelled, Query.spelledList_eq_map, OrderItem.spelledList_eq_map]

theorem Update.spelled_eq (u : Update) :
    u.spelled w between = { u with
      assignments := u.assignments.map fun a =>
        (a.1.spelled w (w.level between u.target.scope),
          a.2.spelled w (w.level between u.target.scope))
      condition := u.condition.map (Expr.spelled w (w.level between u.target.scope))
      returning := u.returning.map (w.reported between u.target.scope) } := by
  obtain ⟨target, assignments, condition, returning⟩ := u
  rw [spelled, Expr.spelledPairs_eq_map, Expr.spelledOption_eq_map]
  rfl

theorem CollectionDelete.spelled_eq (d : CollectionDelete) :
    d.spelled w between = { d with
      condition := d.condition.map (Expr.spelled w (w.level between d.target.scope))
      returning := d.returning.map (w.reported between d.target.scope) } := by
  obtain ⟨target, collection, condition, returning⟩ := d
  rw [spelled, Expr.spelledOption_eq_map]
  rfl

end Lists

section Shape

variable (w : Spelling) (v : LevelSpelling) (between : List Scope)

/-- A reference that is spelled out stands like a path. -/
theorem Expr.spelled_path (p : Path) :
    (Expr.path p).spelled w v = .path p ∨ ∃ s, (Expr.path p).spelled w v = .verbatim s := by
  rw [spelled, reference]
  cases v.text? p with
  | none => exact .inl rfl
  | some s => exact .inr ⟨s, rfl⟩

theorem Expr.genericName?_map_spelled (function : String) (args : List Expr) :
    genericName? function (args.map (spelled w v)) = genericName? function args := by
  cases args with
  | nil => rfl
  | cons e rest =>
      cases e with
      | literal value => cases value <;> rfl
      | path p =>
          rcases spelled_path w v p with hp | ⟨s, hp⟩ <;> (rw [List.map_cons, hp]; rfl)
      | _ => rfl

theorem Expr.standsAlone_map_spelled (values : List Expr) :
    standsAlone (values.map (spelled w v)) = standsAlone values := by
  match values with
  | [] => rfl
  | [e] =>
      cases e with
      | path p =>
          rcases spelled_path w v p with hp | ⟨s, hp⟩
          · rw [List.map_singleton, hp]
          · rw [List.map_singleton, hp]
            rfl
      | _ => rfl
  | first :: second :: rest =>
      cases first with
      | path p => rcases spelled_path w v p with hp | ⟨s, hp⟩ <;> (rw [List.map_cons, hp]; rfl)
      | _ => rfl

theorem Expr.parenthesizeLooser_spelled (precedence : Nat) (e : Expr) (tokens : List Token) :
    parenthesizeLooser precedence (e.spelled w v) tokens = parenthesizeLooser precedence e tokens := by
  cases e with
  | path p =>
      rcases spelled_path w v p with hp | ⟨s, hp⟩
      · rw [hp]
      · rw [hp]
        rfl
  | _ => rfl

theorem Query.limitedAnywhere_spelled :
    ∀ q : Query, (q.spelled w between).limitedAnywhere = q.limitedAnywhere := by
  refine Query.memberInduction (fun s => ?_) fun c hstart hoperands => ?_
  · rw [spelled, Select.spelled_eq]
    rfl
  · rw [spelled, SetOperation.spelled_eq, limitedAnywhere, limitedAnywhere,
      SetOperation.limitedAnywhere_eq, SetOperation.limitedAnywhere_eq, anyLimited_map hoperands,
      hstart]

theorem Query.width_spelled : ∀ q : Query, (q.spelled w between).width = q.width := by
  refine Query.memberInduction (fun s => ?_) fun c hstart _ => ?_
  · rw [spelled, Select.spelled_eq]
    exact List.length_map _
  · obtain ⟨operator, start, operands, orderBy, limits⟩ := c
    exact hstart

theorem CteBody.width_spelled (b : CteBody) : (b.spelled w between).width = b.width := by
  cases b with
  | query q => exact q.width_spelled w between
  | update u =>
      rw [spelled, Update.spelled_eq]
      exact List.length_map _
  | collectionDelete d =>
      rw [spelled, CollectionDelete.spelled_eq]
      exact List.length_map _

end Shape

/-- A level keeps its parameters if its clauses do, and its nodes their places. -/
theorem Select.markers_spelledBy {w : Spelling} {v : LevelSpelling} {s : Select} {ctes : List Cte}
    {φ : JoinNode Expr → JoinNode Expr} {B : CteBody → Prop} (hparent : ∀ n, (φ n).parent = n.parent)
    (hcondition : ∀ n, (φ n).condition = n.condition.map (Expr.spelled w v))
    (parts : s.Parts (fun e => ∀ v, (e.spelled w v).markers = e.markers) B)
    (hctes : (ctes.flatMap fun c => c.body.markers) = s.ctes.flatMap fun c => c.body.markers) :
    (s.spelledBy w v ctes (s.joins.nodes.map φ)).markers = s.markers := by
  have hnodes : (⟨s.joins.nodes.map φ, s.joins.roots⟩ : JoinGraph Expr) =
      ⟨s.joins.nodes.map φ, s.joins.roots⟩ := rfl
  have hjoins := JoinGraph.markers_map hnodes hparent hcondition
    fun id e he => parts.of_condition he v
  rw [markers_eq, markers_eq]
  simp only [spelledBy, hctes, hjoins, Option.toList_map]
  rw [flatMap_map_of_eq fun i hi => parts.items i hi v,
    flatMap_map_of_eq fun e he => parts.condition e (Option.mem_toList.1 he) v,
    flatMap_map_of_eq fun e he => parts.groupBy e he v,
    flatMap_map_of_eq fun e he => parts.having e (Option.mem_toList.1 he) v,
    flatMap_map_of_eq fun i hi => parts.orderBy i hi v]

/-- Spelling out references leaves the parameters where they are. -/
theorem Expr.hereditary_markers_spelled (w : Spelling) :
    Hereditary (fun e => ∀ v, (e.spelled w v).markers = e.markers)
      (fun q => ∀ between, (q.spelled w between).markers = q.markers)
      (fun b => ∀ between, (b.spelled w between).markers = b.markers) where
  path p v := by
    rcases spelled_path w v p with hp | ⟨s, hp⟩
    · rw [hp]
    · rw [hp]
      rfl
  literal _ _ := rfl
  parameter _ _ := rfl
  call f args hargs v := by
    rw [spelled, spelledList_eq_map, markers, markers, markersList_map fun e he => hargs e he v]
  aggregate f args d hargs v := by
    rw [spelled, spelledList_eq_map, markers, markers, markersList_map fun e he => hargs e he v]
  subquery q hq v := hq v.inner
  indexed base index hindex v := rfl
  null _ := rfl
  caseWhen operand branches otherwise hoperand hbranches hotherwise v := by
    rw [spelled, spelledOption_eq_map, spelledOption_eq_map, spelledPairs_eq_map, markers, markers,
      markersOption_map fun e he => hoperand e he v,
      markersPairs_map fun b hb => ⟨(hbranches b hb).1 v, (hbranches b hb).2 v⟩,
      markersOption_map fun e he => hotherwise e he v]
  binary left op right hleft hright v := by rw [spelled, markers, markers, hleft, hright]
  not e he v := he v
  isNull e negated he v := he v
  like e pattern escape negated he hpattern v := by rw [spelled, markers, markers, he, hpattern]
  oneOf e values negated he hvalues v := by
    rw [spelled, spelledList_eq_map, markers, markers, he,
      markersList_map fun e he => hvalues e he v]
  between e low high negated he hlow hhigh v := by
    rw [spelled, markers, markers, he, hlow, hhigh]
  parens e he v := he v
  verbatim _ _ := rfl
  select s parts between := by
    rw [Query.spelled, Select.spelled_eq, Query.markers, Query.markers]
    exact Select.markers_spelledBy (fun _ => rfl) (fun _ => rfl) parts
      (flatMap_map_of_eq fun c hc => parts.ctes c hc between)
  combined c parts between := by
    rw [Query.spelled, SetOperation.spelled_eq, Query.markers, Query.markers,
      SetOperation.markers_eq, SetOperation.markers_eq, parts.start,
      flatMap_map_of_eq fun q hq => parts.operands q hq between,
      flatMap_map_of_eq fun i hi => parts.orderBy i hi _]
  query q hq between := hq between
  update u hassignments hcondition between := by
    rw [CteBody.spelled, CteBody.markers, CteBody.markers, Update.spelled_eq, Update.markers_eq,
      Update.markers_eq, Option.toList_map,
      flatMap_map_of_eq fun e he => hcondition e (Option.mem_toList.1 he) _,
      flatMap_map_of_eq fun a ha => by rw [(hassignments a ha).1, (hassignments a ha).2]]
  collectionDelete d hcondition between := by
    rw [CteBody.spelled, CteBody.markers, CteBody.markers, CollectionDelete.spelled_eq,
      CollectionDelete.markers_eq, CollectionDelete.markers_eq, Option.toList_map,
      flatMap_map_of_eq fun e he => hcondition e (Option.mem_toList.1 he) _]

/-- The prefix has no parameters. -/
theorem Select.markers_spelledOut (w : Spelling) (s : Select) :
    (s.spelledOut w).markers = s.markers :=
  markers_spelledBy (fun _ => rfl) (fun _ => rfl) ((Expr.hereditary_markers_spelled w).parts s) rfl

end EntityQuery
