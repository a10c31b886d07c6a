import Mathlib.Data.List.Dedup
import EntityQuery.Proofs.Outcome
import EntityQuery.Query.Build

/-!
What a query yields on given data. The FROM clause makes rows of objects, a GROUP BY or an aggregate
puts them into groups, and the SELECT clause reads a row of cells from each group. Only the queries
that count elements of collections have a meaning here: those that filter, sort or limit, and joins
by a condition, have none.
-/

namespace EntityQuery

/-- What stands in a column of a row. -/
inductive Cell (O V : Type) where
  /-- An object, which is what an alias by itself yields. -/
  | object (o : O)
  | value (v : V)
  | number (n : Nat)
  | null
deriving DecidableEq, Repr

/-- The objects of each entity, the value of each attribute of an object, if it has one, and the
elements of each collection of an object. -/
structure Database (O V : Type) where
  objects : String → List O
  value? : O → String → Option V
  elements : O → String → List O

/-- What the aliases of a FROM clause stand for, those of enclosing queries last. A left join
without a match stands for no object. -/
abbrev FromRow (O : Type) := List (String × Option O)

variable {O V : Type}

namespace Cell

/-- The cell of an object, or of none. -/
def ofObject? : Option O → Cell O V
  | some o => .object o
  | none => .null

/-- The cell of an attribute that may have no value. -/
def ofValue? : Option V → Cell O V
  | some v => .value v
  | none => .null

theorem ofValue?_injective : Function.Injective (ofValue? : Option V → Cell O V) := by
  intro v w h
  cases v <;> cases w <;> cases h <;> rfl

end Cell

namespace Database

/-- What a path stands for in a row: an object, or the value of its attribute. -/
def pathCell? (db : Database O V) (row : FromRow O) : List String → Option (Cell O V)
  | [aliasName] => (row.lookup aliasName).map .ofObject?
  | [aliasName, name] => (row.lookup aliasName).map fun
      | some o => .ofValue? (db.value? o name)
      | none => .null
  | _ => none

/-- The elements of a collection of what an alias stands for. -/
def elements? (db : Database O V) (row : FromRow O) (aliasName collection : String) :
    Option (List O) :=
  (row.lookup aliasName).map fun
    | some o => db.elements o collection
    | none => []

/-- The elements of what a path such as `d.people` stands for. -/
def size? (db : Database O V) (row : FromRow O) : List String → Option (List O)
  | [aliasName, collection] => db.elements? row aliasName collection
  | _ => none

/-- What a left join yields for the elements of a collection: each of them, or one time none. -/
def padded (os : List O) : List (Option O) := if os.isEmpty then [none] else os.map some

theorem padded_ne_nil (os : List O) : padded os ≠ [] := by
  cases os <;> simp [padded]

/-- Counting what a left join yields counts the elements. -/
theorem length_filter_padded [DecidableEq O] [DecidableEq V] (os : List O) :
    (((padded os).map Cell.ofObject?).filter fun c : Cell O V => c ≠ .null).length = os.length := by
  cases os with
  | nil => simp [padded, Cell.ofObject?]
  | cons o rest =>
      have hnull : ∀ c ∈ ((o :: rest).map some).map (Cell.ofObject? (V := V)),
          decide (c ≠ .null) = true := by
        simp [Cell.ofObject?]
      rw [padded, List.isEmpty_cons, if_neg Bool.false_ne_true, List.filter_eq_self.2 hnull]
      simp

/-- What a node of a FROM clause stands for beside a row of the nodes before it. -/
def joined? (db : Database O V) (outer : FromRow O) (g : JoinGraph Expr) (n : JoinNode Expr)
    (row : FromRow O) : Option (List (Option O)) :=
  match n.source, n.parent.bind g.node?, n.type, n.condition with
  | .root entity, none, none, none => some ((db.objects entity).map some)
  | .correlated path, none, none, none => do
      let os ← db.elements? outer (Dotted.head path) (← Dotted.rest? path)
      return os.map some
  | .ofAttribute collection .collection, some parent, some .inner, none => do
      let os ← db.elements? row parent.aliasName collection
      return os.map some
  | .ofAttribute collection .collection, some parent, some .left, none => do
      let os ← db.elements? row parent.aliasName collection
      return padded os
  | _, _, _, _ => none

/-- The rows of the listed nodes beside each of the given rows. -/
def extend? (db : Database O V) (outer : FromRow O) (g : JoinGraph Expr) :
    List NodeId → List (FromRow O) → Option (List (FromRow O))
  | [], rows => some rows
  | id :: rest, rows => do
      let n ← g.node? id
      let extended ← rows.mapM fun row =>
        (db.joined? outer g n row).map fun os => os.map fun o => (n.aliasName, o) :: row
      db.extend? outer g rest extended.flatten

/-- The rows of a FROM clause inside a row of the enclosing queries. -/
def rows? (db : Database O V) (outer : FromRow O) (g : JoinGraph Expr) :
    Option (List (FromRow O)) :=
  db.extend? outer g g.depthFirst [outer]

/-- A node adds what it stands for to every row. -/
theorem extend?_cons {db : Database O V} {outer : FromRow O} {g : JoinGraph Expr} {id : NodeId}
    {rest : List NodeId} {rows : List (FromRow O)} {n : JoinNode Expr} (hn : g.node? id = some n)
    {os : FromRow O → List (Option O)}
    (hjoined : ∀ row ∈ rows, db.joined? outer g n row = some (os row)) :
    db.extend? outer g (id :: rest) rows =
      db.extend? outer g rest
        (rows.flatMap fun row => (os row).map fun o => (n.aliasName, o) :: row) := by
  have hrows : (rows.mapM fun row => (db.joined? outer g n row).map fun os =>
      os.map fun o => (n.aliasName, o) :: row) =
      some (rows.map fun row => (os row).map fun o => (n.aliasName, o) :: row) :=
    (mapM_congr fun row hrow => by rw [hjoined row hrow]; rfl).trans List.mapM_pure
  simp only [extend?, hn, hrows, Option.bind_eq_bind, Option.bind_some, List.flatMap_def]

end Database

section Groups

variable {α κ : Type} [DecidableEq κ]

/-- The rows that agree on a key, for each key that occurs. -/
def groupsBy (key : α → κ) (rows : List α) : List (List α) :=
  (rows.map key).dedup.map fun k => rows.filter fun row => key row = k

/-- The groups that a SELECT clause reads. Without a grouping each row stands alone, unless an
aggregate takes all rows for one group, be there any or not. -/
def groups? (grouped aggregated : Bool) (key? : α → Option κ) (rows : List α) :
    Option (List (List α)) :=
  if grouped then
    if rows.all fun row => (key? row).isSome then some (groupsBy key? rows) else none
  else if aggregated then some [rows]
  else some (rows.map fun row => [row])

variable {ι : Type} {owners : List ι} {joined : ι → List α} {key : α → κ} {ownerKey : ι → κ}

theorem mem_groupsBy {rows group : List α} (h : group ∈ groupsBy key rows) :
    group ⊆ rows := by
  obtain ⟨k, -, rfl⟩ := List.mem_map.1 h
  exact List.filter_sublist.subset

/-- The keys of rows that come from owners are the keys of the owners. -/
theorem dedup_map_flatMap_perm (hkey : ∀ o ∈ owners, ∀ row ∈ joined o, key row = ownerKey o)
    (hjoined : ∀ o ∈ owners, joined o ≠ []) :
    ((owners.flatMap joined).map key).dedup.Perm (owners.map ownerKey).dedup := by
  refine (List.perm_ext_iff_of_nodup (List.nodup_dedup _) (List.nodup_dedup _)).2 fun k => ?_
  simp only [List.mem_dedup, List.mem_map, List.mem_flatMap]
  constructor
  · rintro ⟨row, ⟨o, ho, hrow⟩, rfl⟩
    exact ⟨o, ho, (hkey o ho row hrow).symm⟩
  · rintro ⟨o, ho, rfl⟩
    obtain ⟨row, hrow⟩ := List.exists_mem_of_ne_nil _ (hjoined o ho)
    exact ⟨row, ⟨o, ho, hrow⟩, hkey o ho row hrow⟩

/-- There are as many groups as owners exactly if the keys tell the owners apart. -/
theorem length_groupsBy_flatMap_eq_iff
    (hkey : ∀ o ∈ owners, ∀ row ∈ joined o, key row = ownerKey o)
    (hjoined : ∀ o ∈ owners, joined o ≠ []) :
    (groupsBy key (owners.flatMap joined)).length = owners.length ↔
      (owners.map ownerKey).Nodup := by
  rw [groupsBy, List.length_map, (dedup_map_flatMap_perm hkey hjoined).length_eq,
    ← List.length_map ownerKey, ← List.dedup_eq_self]
  exact ⟨(List.dedup_sublist _).eq_of_length, fun h => by rw [h]⟩

/-- The rows under the key of an owner are its own, if no other owner has the key. -/
theorem filter_flatMap_eq (hkey : ∀ o ∈ owners, ∀ row ∈ joined o, key row = ownerKey o)
    (hnodup : (owners.map ownerKey).Nodup) {o : ι} (ho : o ∈ owners) :
    (owners.flatMap joined).filter (fun row => key row = ownerKey o) = joined o := by
  induction owners with
  | nil => cases ho
  | cons first rest ih =>
      obtain ⟨hfirst, hrest⟩ := List.forall_mem_cons.1 hkey
      rw [List.map_cons, List.nodup_cons] at hnodup
      have hmem : ∀ other ∈ rest, ownerKey other ∈ rest.map ownerKey :=
        fun other hother => List.mem_map_of_mem hother
      rw [List.flatMap_cons, List.filter_append]
      rcases List.mem_cons.1 ho with rfl | ho
      · have hown : (joined o).filter (fun row => key row = ownerKey o) = joined o :=
          List.filter_eq_self.2 fun row hrow => by simp [hfirst row hrow]
        have hothers : (rest.flatMap joined).filter (fun row => key row = ownerKey o) = [] := by
          refine List.filter_eq_nil_iff.2 fun row hrow heq => hnodup.1 ?_
          obtain ⟨other, hother, hrow⟩ := List.mem_flatMap.1 hrow
          rw [← of_decide_eq_true heq, hrest other hother row hrow]
          exact hmem other hother
        rw [hown, hothers, List.append_nil]
      · have hnone : (joined first).filter (fun row => key row = ownerKey o) = [] := by
          refine List.filter_eq_nil_iff.2 fun row hrow heq => hnodup.1 ?_
          rw [← hfirst row hrow, of_decide_eq_true heq]
          exact hmem o ho
        rw [hnone, List.nil_append, ih hrest hnodup.2 ho]

/-- If the keys tell the owners apart, the rows of each owner are a group. -/
theorem groupsBy_flatMap_perm (hkey : ∀ o ∈ owners, ∀ row ∈ joined o, key row = ownerKey o)
    (hjoined : ∀ o ∈ owners, joined o ≠ []) (hnodup : (owners.map ownerKey).Nodup) :
    (groupsBy key (owners.flatMap joined)).Perm (owners.map joined) := by
  have hkeys := dedup_map_flatMap_perm hkey hjoined
  rw [List.dedup_eq_self.2 hnodup] at hkeys
  refine (hkeys.map _).trans (List.Perm.of_eq ?_)
  rw [List.map_map]
  exact List.map_congr_left fun o ho => filter_flatMap_eq hkey hnodup ho

end Groups

/-- Whether an expression is an aggregate of the rows of a group. -/
def Expr.isAggregate : Expr → Bool
  | .aggregate .. => true
  | _ => false

variable [DecidableEq O] [DecidableEq V]

mutual

/-- What an expression yields for a group. What is not aggregated is read off the first row: the
rows of a group agree on what they are grouped by, and for anything else the choice of the row is
free. For a group without rows it yields nothing. -/
def Expr.cell? (db : Database O V) (group : List (FromRow O)) : Expr → Option (Cell O V)
  | .path p =>
      match group.head? with
      | some row => db.pathCell? row p.elements
      | none => some .null
  | .call f args =>
      match Expr.isSizeCall f, args, group.head? with
      | true, [.path p], some row => (db.size? row p.elements).map fun os => .number os.length
      | true, [.path _], none => some .null
      | _, _, _ => none
  | .aggregate f args distinct =>
      match Text.agreesIgnoringCase f "COUNT", args, distinct with
      | true, [], false => some (.number group.length)
      | true, [.path p], false => do
          let cells ← group.mapM fun row => db.pathCell? row p.elements
          return .number (cells.filter (· ≠ .null)).length
      | _, _, _ => none
  | .subquery q =>
      match group.head? with
      | some row => do
          match ← q.table? db row with
          | [] => some .null
          | [[cell]] => some cell
          | _ => none
      | none => some .null
  | _ => none
termination_by structural e => e

def Expr.cells? (db : Database O V) (group : List (FromRow O)) :
    List Expr → Option (List (Cell O V))
  | [] => some []
  | e :: rest => do return (← e.cell? db group) :: (← Expr.cells? db group rest)
termination_by structural es => es

/-- The row of a SELECT clause for a group. -/
def SelectItem.cells? (db : Database O V) (group : List (FromRow O)) :
    List (SelectItem Expr) → Option (List (Cell O V))
  | [] => some []
  | ⟨e, _⟩ :: rest => do return (← e.cell? db group) :: (← SelectItem.cells? db group rest)
termination_by structural items => items

/-- The rows that a query yields inside a row of the enclosing queries. -/
def Query.table? (db : Database O V) (outer : FromRow O) : Query → Option (List (List (Cell O V)))
  | .select s => s.table? db outer
  | .combined _ => none
termination_by structural q => q

/-- What filters, sorts, limits or selects the roots unnamed is not given a meaning. -/
def Select.table? (db : Database O V) (outer : FromRow O) :
    Select → Option (List (List (Cell O V)))
  | ⟨[], false, item :: items, joins, _, none, groupBy, none, [], ⟨none, none⟩⟩ => do
      let rows ← db.rows? outer joins
      let aggregated := (item :: items).any fun i => i.expr.isAggregate
      let key? := fun row => Expr.cells? db [row] groupBy
      let groups ← groups? (!groupBy.isEmpty) aggregated key? rows
      groups.mapM fun group => SelectItem.cells? db group (item :: items)
  | _ => none
termination_by structural s => s

end

namespace Expr

@[simp] theorem cell?_countStar (db : Database O V) (group : List (FromRow O)) :
    countStar.cell? db group = some (.number group.length) := rfl

/-- A count of a path is the number of rows where the path stands for something. -/
theorem cell?_count {db : Database O V} {group : List (FromRow O)} {p : Path}
    {cells : List (Cell O V)}
    (hcells : (group.mapM fun row => db.pathCell? row p.elements) = some cells) :
    (count (.path p)).cell? db group = some (.number (cells.filter (· ≠ .null)).length) := by
  have hname : Text.agreesIgnoringCase "COUNT" "COUNT" = true := rfl
  simp only [count, cell?, hname, hcells, Option.bind_eq_bind, Option.bind_some, Option.pure_def]

end Expr

/-- The rows of a query that has items and groups alone. -/
theorem Select.table?_of_groups {db : Database O V} {outer : FromRow O}
    {items : List (SelectItem Expr)} {joins : JoinGraph Expr} {aliases : AliasTable Expr}
    {groupBy : List Expr} {rows : List (FromRow O)} {groups : List (List (FromRow O))}
    (hitems : items ≠ []) (hrows : db.rows? outer joins = some rows)
    (hgroups : groups? (!groupBy.isEmpty) (items.any fun i => i.expr.isAggregate)
      (fun row => Expr.cells? db [row] groupBy) rows = some groups) :
    Select.table? db outer
        { items := items, joins := joins, aliases := aliases, groupBy := groupBy } =
      groups.mapM (SelectItem.cells? db · items) := by
  obtain ⟨item, rest, rfl⟩ := List.exists_cons_of_ne_nil hitems
  simp only [table?, hrows, hgroups, Option.bind_eq_bind, Option.bind_some]

theorem Expr.cells?_eq_mapM (db : Database O V) (group : List (FromRow O)) (es : List Expr) :
    Expr.cells? db group es = es.mapM (Expr.cell? db group) := by
  induction es with
  | nil => rfl
  | cons e rest ih => rw [Expr.cells?, List.mapM_cons, ih]

theorem SelectItem.cells?_eq_mapM (db : Database O V) (group : List (FromRow O))
    (items : List (SelectItem Expr)) :
    SelectItem.cells? db group items = (items.map SelectItem.expr).mapM (Expr.cell? db group) := by
  induction items with
  | nil => rfl
  | cons i rest ih => rw [SelectItem.cells?, List.map_cons, List.mapM_cons, ih]

end EntityQuery
