import Mathlib.Data.List.Perm.Basic
import EntityQuery.Analysis.Sizes
import EntityQuery.Proofs.Rows.Basic

/-!
Listings: for each object of an entity, some of its attributes and the sizes of some of its
collections. A listing yields a row for each object. Where one size is the count of a joined
collection, and the rows are grouped by the listed attributes, there is a row for each combination
of these attributes; so the rows are the same exactly if no two objects agree on them.
-/

namespace EntityQuery

/-- A column of a listing. -/
inductive Column where
  | field (name : String)
  | size (collection : String)
deriving DecidableEq, Repr

namespace Column

/-- The name of a column that is an attribute. -/
def fieldName? : Column → Option String
  | field name => some name
  | size _ => none

/-- The attributes among some columns. -/
def fieldNames (columns : List Column) : List String := columns.filterMap fieldName?

theorem mem_fieldNames {columns : List Column} {name : String} :
    name ∈ fieldNames columns ↔ .field name ∈ columns := by
  rw [fieldNames, List.mem_filterMap]
  constructor
  · rintro ⟨column, hcolumn, hname⟩
    cases column with
    | field other => exact Option.some.inj hname ▸ hcolumn
    | size => cases hname
  · exact fun h => ⟨.field name, h, rfl⟩

/-- What a column shows of an object. -/
def cell {O V : Type} (db : Database O V) (o : O) : Column → Cell O V
  | field name => .ofValue? (db.value? o name)
  | size collection => .number (db.elements o collection).length

/-- How a column is written: as `alias.name`, or as `SIZE(alias.collection)`. -/
inductive WrittenAs (aliasName : String) : Column → Expr → Prop
  | field {name : String} {p : Path} (h : p.elements = [aliasName, name]) :
      WrittenAs aliasName (.field name) (.path p)
  | size {collection function : String} {p : Path} (hsize : Expr.isSizeCall function = true)
      (h : p.elements = [aliasName, collection]) :
      WrittenAs aliasName (.size collection) (.call function [.path p])

theorem WrittenAs.name_eq {aliasName name other : String} {e : Expr}
    (h : WrittenAs aliasName (.field name) e) (hother : WrittenAs aliasName (.field other) e) :
    name = other := by
  cases h with
  | field h =>
      cases hother with
      | field hother => simpa using h.symm.trans hother

/-- How a column is written where one collection is joined under an alias of its own: its size
as a count, that of any other as a subquery. -/
inductive CountedAs (aliasName collection counted : String) : Column → Expr → Prop
  | field {name : String} {p : Path} (h : p.elements = [aliasName, name]) :
      CountedAs aliasName collection counted (.field name) (.path p)
  | count : CountedAs aliasName collection counted (.size collection)
      (Expr.count (Expr.bound 1 counted none))
  | subquery {other inner : String} : CountedAs aliasName collection counted (.size other)
      (sizeSubquery (aliasName ++ "." ++ other) inner)

end Column

/-- `FROM entity alias LEFT JOIN alias.collection counted` -/
def JoinGraph.counting (entity aliasName collection counted : String) : JoinGraph Expr where
  nodes :=
    [{ aliasName := aliasName, source := .root entity },
      { aliasName := counted, source := .ofAttribute collection .collection, parent := some 0
        type := some .left, implicit := true }]
  roots := [0]

/-- A query `SELECT columns FROM entity alias` with nothing else in it. The alias is a name, so
there is no dot in it. -/
structure Select.Lists (s : Select) (entity aliasName : String) (columns : List Column) :
    Prop where
  plain : s = { items := s.items, joins := (JoinGraph.addRoot {} entity aliasName).2
                aliases := s.aliases }
  items : List.Forall₂ (Column.WrittenAs aliasName) columns (s.items.map SelectItem.expr)
  named : s.aliases.joinNode? aliasName = some 0
  dotless : '.' ∉ aliasName.toList

/-- A listing that counts the elements of one collection by joining it, and is grouped by the
attributes that it lists. -/
structure Select.Counts (s : Select) (entity aliasName collection counted : String)
    (columns : List Column) : Prop where
  plain : s = { items := s.items
                joins := JoinGraph.counting entity aliasName collection counted
                aliases := s.aliases, groupBy := s.groupBy }
  items : List.Forall₂ (Column.CountedAs aliasName collection counted) columns
    (s.items.map SelectItem.expr)
  aggregates : ∃ i ∈ s.items, i.expr.isAggregate = true
  listed : ∀ e ∈ s.groupBy, ∃ name, .field name ∈ columns ∧
    Column.WrittenAs aliasName (.field name) e
  grouped : ∀ name, .field name ∈ columns → ∃ e ∈ s.groupBy,
    Column.WrittenAs aliasName (.field name) e
  fresh : counted ≠ aliasName
  dotless : '.' ∉ aliasName.toList

variable {O V : Type} {db : Database O V} {entity aliasName collection counted : String}
variable {columns : List Column}

namespace Database

theorem rows?_addRoot (outer : FromRow O) :
    db.rows? outer (JoinGraph.addRoot {} entity aliasName).2 =
      some ((db.objects entity).map fun o => (aliasName, some o) :: outer) := by
  let g : JoinGraph Expr := (JoinGraph.addRoot {} entity aliasName).2
  have hwalk : db.rows? outer g = db.extend? outer g [0] [outer] := rfl
  have hjoined : ∀ row ∈ [outer], db.joined? outer g { aliasName, source := .root entity } row =
      some ((db.objects entity).map some) := fun _ _ => rfl
  rw [hwalk, extend?_cons rfl hjoined]
  simp [extend?]

/-- The rows of an object that is joined to the elements of one of its collections. -/
def countedRows (db : Database O V) (aliasName collection counted : String) (o : O) :
    List (FromRow O) :=
  (padded (db.elements o collection)).map fun e => [(counted, e), (aliasName, some o)]

theorem countedRows_ne_nil (db : Database O V) (aliasName collection counted : String) (o : O) :
    db.countedRows aliasName collection counted o ≠ [] :=
  mt List.map_eq_nil_iff.1 (padded_ne_nil (db.elements o collection))

theorem lookup_counted_of_mem {o : O} {row : FromRow O}
    (hrow : row ∈ db.countedRows aliasName collection counted o) :
    ∃ e, row.lookup counted = some e := by
  obtain ⟨e, -, rfl⟩ := List.mem_map.1 hrow
  exact ⟨e, List.lookup_cons_self⟩

/-- An object that is joined to the elements of a collection stands in each of its rows. -/
theorem lookup_of_mem_countedRows {o : O} {row : FromRow O} (hfresh : counted ≠ aliasName)
    (hrow : row ∈ db.countedRows aliasName collection counted o) :
    row.lookup aliasName = some (some o) := by
  obtain ⟨e, -, rfl⟩ := List.mem_map.1 hrow
  rw [List.lookup_cons, beq_eq_false_iff_ne.2 hfresh.symm]
  exact List.lookup_cons_self

theorem rows?_counting :
    db.rows? [] (.counting entity aliasName collection counted) =
      some ((db.objects entity).flatMap (db.countedRows aliasName collection counted)) := by
  let g := JoinGraph.counting entity aliasName collection counted
  let owners : List (FromRow O) := (db.objects entity).map fun o => [(aliasName, some o)]
  have hwalk : db.rows? [] g = db.extend? [] g [0, 1] [[]] := rfl
  have hroot : ∀ row ∈ [[]], db.joined? [] g { aliasName, source := .root entity } row =
      some ((db.objects entity).map some) := fun _ _ => rfl
  have howners : [[]].flatMap (fun row => ((db.objects entity).map some).map fun o =>
      (aliasName, o) :: row) = owners := by
    simp [owners]
  have hjoined : ∀ row ∈ owners, db.joined? [] g
      { aliasName := counted, source := .ofAttribute collection .collection, parent := some 0
        type := some .left, implicit := true } row =
      some (padded ((db.elements? row aliasName collection).getD [])) := by
    intro row hrow
    obtain ⟨o, -, rfl⟩ := List.mem_map.1 hrow
    simp [g, joined?, JoinGraph.counting, JoinGraph.node?, elements?]
  rw [hwalk, extend?_cons rfl hroot, howners, extend?_cons rfl hjoined]
  unfold countedRows
  simp [extend?, owners, List.flatMap_map, elements?]

theorem rows?_correlate {row : FromRow O} {os : List O} (inner : String)
    (hos : db.elements? row aliasName collection = some os) (hdot : '.' ∉ aliasName.toList) :
    db.rows? row (Select.correlate {} (aliasName ++ "." ++ collection) inner).joins =
      some (os.map fun o => (inner, some o) :: row) := by
  let g := (Select.correlate {} (aliasName ++ "." ++ collection) inner).joins
  have hwalk : db.rows? row g = db.extend? row g [0] [row] := rfl
  have hjoined : ∀ other ∈ [row], db.joined? row g
      { aliasName := inner, source := .correlated (aliasName ++ "." ++ collection) } other =
      some (os.map some) := by
    intro other _
    simp [joined?, Dotted.head_append hdot, Dotted.rest?_append hdot, hos]
  rw [hwalk, extend?_cons rfl hjoined]
  simp [extend?]

end Database

/-- The rows of a listing: one for each object. -/
def Database.listing (db : Database O V) (entity : String) (columns : List Column) :
    List (List (Cell O V)) :=
  (db.objects entity).map fun o => columns.map (Column.cell db o)

/-- Whether the attributes among some columns tell the objects of an entity apart. Where there are
none, whether there is an object and no other. -/
structure Database.TellsApart (db : Database O V) (entity : String) (columns : List Column) :
    Prop where
  distinct : ((db.objects entity).map fun o =>
    (Column.fieldNames columns).map (db.value? o)).Nodup
  inhabited : Column.fieldNames columns = [] → db.objects entity ≠ []

/-- Without attributes only a single object is told apart. -/
theorem Database.tellsApart_iff_of_sizes (hnone : Column.fieldNames columns = []) :
    db.TellsApart entity columns ↔ ∃ o, db.objects entity = [o] := by
  constructor
  · rintro ⟨hdistinct, hinhabited⟩
    rw [hnone] at hdistinct
    cases hobjects : db.objects entity with
    | nil => exact absurd hobjects (hinhabited hnone)
    | cons o rest =>
        cases rest with
        | nil => exact ⟨o, rfl⟩
        | cons => simp [hobjects] at hdistinct
  · rintro ⟨o, hobjects⟩
    exact ⟨by simp [hobjects], fun _ => by simp [hobjects]⟩

/-- What the rows of an object are grouped by. -/
def Database.ownerKey (db : Database O V) (names : List String) (o : O) :
    Option (List (Cell O V)) :=
  some (names.map fun name => .ofValue? (db.value? o name))

/-- Keys tell objects apart as far as the listed attributes do. -/
theorem Database.nodup_ownerKey_iff {names : List String}
    (hnames : ∀ name, name ∈ names ↔ name ∈ Column.fieldNames columns) (os : List O) :
    (os.map (db.ownerKey names)).Nodup ↔
      (os.map fun o => (Column.fieldNames columns).map (db.value? o)).Nodup := by
  have hkey : ∀ o o' : O, db.ownerKey names o = db.ownerKey names o' ↔
      (Column.fieldNames columns).map (db.value? o) =
        (Column.fieldNames columns).map (db.value? o') := by
    intro o o'
    simp only [Database.ownerKey, Option.some.injEq, List.map_inj_left, hnames,
      Cell.ofValue?_injective.eq_iff]
  simp only [List.Nodup, List.pairwise_map, ne_eq, hkey]

variable [DecidableEq O] [DecidableEq V]

/-- A subquery counts the elements of a collection of what an alias stands for around it. -/
theorem Expr.cell?_sizeSubquery {row : FromRow O} {rest : List (FromRow O)} {os : List O}
    {inner : String} (hos : db.elements? row aliasName collection = some os)
    (hdot : '.' ∉ aliasName.toList) :
    (sizeSubquery (aliasName ++ "." ++ collection) inner).cell? db (row :: rest) =
      some (.number os.length) := by
  have hrows := Database.rows?_correlate inner hos hdot
  have htable : Select.table? db row ((Select.correlate {} (aliasName ++ "." ++ collection)
      inner).select Expr.countStar none) = some [[.number os.length]] := by
    refine (Select.table?_of_groups (List.cons_ne_nil _ _) hrows rfl).trans ?_
    simp [SelectItem.cells?]
  rw [sizeSubquery, cell?]
  simp [Query.table?, htable]

namespace Column

variable {column : Column} {e : Expr} {o : O} {row : FromRow O} {rest : List (FromRow O)}

/-- A written column shows an object where its alias stands for the object. -/
theorem WrittenAs.cell?_eq (h : WrittenAs aliasName column e)
    (ho : row.lookup aliasName = some (some o)) :
    e.cell? db (row :: rest) = some (column.cell db o) := by
  cases h with
  | field h => simp [Expr.cell?, h, Database.pathCell?, ho, cell]
  | size hsize h => simp [Expr.cell?, hsize, h, Database.size?, Database.elements?, ho, cell]

/-- A counted column shows an object in its joined rows. -/
theorem CountedAs.cell?_countedRows (h : CountedAs aliasName collection counted column e)
    (hfresh : counted ≠ aliasName) (hdot : '.' ∉ aliasName.toList) (o : O) :
    e.cell? db (db.countedRows aliasName collection counted o) = some (column.cell db o) := by
  obtain ⟨row, rest, hrows⟩ := List.exists_cons_of_ne_nil
    (db.countedRows_ne_nil aliasName collection counted o)
  have ho : row.lookup aliasName = some (some o) :=
    Database.lookup_of_mem_countedRows hfresh (hrows ▸ List.mem_cons_self)
  cases h with
  | field h => rw [hrows, (WrittenAs.field h).cell?_eq ho]
  | count =>
      have hcells : (db.countedRows aliasName collection counted o).mapM
          (fun row => db.pathCell? row [counted]) =
          some ((Database.padded (db.elements o collection)).map Cell.ofObject?) := by
        rw [Database.countedRows, List.mapM_map]
        refine Eq.trans (mapM_congr fun element _ => ?_) List.mapM_pure
        simp [Database.pathCell?]
      refine (Expr.cell?_count hcells).trans ?_
      rw [Database.length_filter_padded, cell]
  | subquery =>
      rw [hrows]
      exact Expr.cell?_sizeSubquery (by simp [Database.elements?, ho]) hdot

/-- A counted column shows something in any group of joined rows. -/
theorem CountedAs.exists_cell? (h : CountedAs aliasName collection counted column e)
    (hfresh : counted ≠ aliasName) (hdot : '.' ∉ aliasName.toList) {group : List (FromRow O)}
    (hgroup : ∀ row ∈ group, ∃ o, row ∈ db.countedRows aliasName collection counted o) :
    ∃ c, e.cell? db group = some c := by
  cases h with
  | field h =>
      cases group with
      | nil => exact ⟨.null, rfl⟩
      | cons row rest =>
          obtain ⟨o, hrow⟩ := hgroup row List.mem_cons_self
          exact ⟨_, (WrittenAs.field h).cell?_eq (Database.lookup_of_mem_countedRows hfresh hrow)⟩
  | count =>
      have hcells : ∀ row ∈ group, ∃ c, db.pathCell? row [counted] = some c := by
        intro row hrow
        obtain ⟨o, hrow⟩ := hgroup row hrow
        obtain ⟨element, helement⟩ := Database.lookup_counted_of_mem hrow
        exact ⟨.ofObject? element, by rw [Database.pathCell?, helement, Option.map_some]⟩
      obtain ⟨cells, hcells⟩ := exists_forall₂ hcells
      exact ⟨_, Expr.cell?_count (mapM_eq_some.2 hcells)⟩
  | subquery =>
      cases group with
      | nil => exact ⟨.null, rfl⟩
      | cons row rest =>
          obtain ⟨o, hrow⟩ := hgroup row List.mem_cons_self
          have ho := Database.lookup_of_mem_countedRows hfresh hrow
          exact ⟨_, Expr.cell?_sizeSubquery (by rw [Database.elements?, ho, Option.map_some]) hdot⟩

end Column

/-- A row that shows an object column by column. -/
theorem SelectItem.cells?_of_columns {columns : List Column} {items : List (SelectItem Expr)}
    {group : List (FromRow O)} {o : O}
    (h : List.Forall₂ (fun column e => e.cell? db group = some (column.cell db o)) columns
      (items.map SelectItem.expr)) :
    cells? db group items = some (columns.map (Column.cell db o)) := by
  rw [cells?_eq_mapM, mapM_eq_some, List.forall₂_map_right_iff]
  exact h.flip

namespace Select

/-- A listing has a row for each object. -/
theorem Lists.table?_eq {s : Select} (hs : s.Lists entity aliasName columns)
    (hcolumns : columns ≠ []) : s.table? db [] = some (db.listing entity columns) := by
  have hitems : s.items ≠ [] := by
    intro hnil
    have hlength := hs.items.length_eq
    rw [hnil] at hlength
    exact hcolumns (List.length_eq_zero_iff.1 hlength)
  have hplain : ∀ i ∈ s.items, i.expr.isAggregate = false := by
    intro i hi
    obtain ⟨column, -, hwritten⟩ := exists_of_mem_forall₂ hs.items (List.mem_map_of_mem hi)
    generalize i.expr = e at hwritten
    cases hwritten <;> rfl
  let rows : List (FromRow O) := (db.objects entity).map fun o => [(aliasName, some o)]
  have hgroups : groups? (!([] : List Expr).isEmpty) (s.items.any fun i => i.expr.isAggregate)
      (fun row => Expr.cells? db [row] []) rows =
      some ((db.objects entity).map fun o => [[(aliasName, some o)]]) := by
    have hany : (s.items.any fun i => i.expr.isAggregate) = false :=
      List.any_eq_false.2 fun i hi => Bool.not_eq_true _ ▸ hplain i hi
    rw [groups?, hany]
    simp [rows, Function.comp_def]
  rw [hs.plain]
  refine (table?_of_groups hitems (Database.rows?_addRoot []) hgroups).trans ?_
  rw [List.mapM_map]
  refine (mapM_congr fun o _ => ?_).trans List.mapM_pure
  refine SelectItem.cells?_of_columns (hs.items.imp fun column e hwritten => ?_)
  exact hwritten.cell?_eq List.lookup_cons_self

namespace Counts

variable {t : Select}

theorem cells?_groupBy {names : List String} {groupBy : List Expr}
    (h : List.Forall₂ (fun name e => Column.WrittenAs aliasName (.field name) e) names groupBy)
    {o : O} {row : FromRow O} (ho : row.lookup aliasName = some (some o)) :
    Expr.cells? db [row] groupBy = db.ownerKey names o := by
  rw [Expr.cells?_eq_mapM, Database.ownerKey, mapM_eq_some, List.forall₂_map_right_iff]
  exact (h.imp fun name e hwritten => hwritten.cell?_eq ho).flip

/-- The names of the groups, one by one. -/
theorem exists_names (ht : t.Counts entity aliasName collection counted columns) :
    ∃ names, List.Forall₂ (fun name e => Column.WrittenAs aliasName (.field name) e) names
      t.groupBy ∧ ∀ name, name ∈ names ↔ name ∈ Column.fieldNames columns := by
  obtain ⟨names, hnames⟩ := exists_forall₂ ht.listed
  refine ⟨names, (hnames.imp fun e name h => h.2).flip, fun name => ?_⟩
  rw [Column.mem_fieldNames]
  constructor
  · intro hname
    obtain ⟨e, -, hfield, -⟩ := exists_of_mem_forall₂ hnames hname
    exact hfield
  · intro hfield
    obtain ⟨e, he, hwritten⟩ := ht.grouped name hfield
    obtain ⟨other, hother, -, hsame⟩ := exists_of_mem_forall₂ hnames.flip he
    exact hwritten.name_eq hsame ▸ hother

theorem groupBy_eq_nil_iff (ht : t.Counts entity aliasName collection counted columns) :
    t.groupBy = [] ↔ Column.fieldNames columns = [] := by
  obtain ⟨names, hwritten, hnames⟩ := ht.exists_names
  have hnil : t.groupBy = [] ↔ names = [] := by
    rw [← List.length_eq_zero_iff, ← List.length_eq_zero_iff, hwritten.length_eq]
  simp only [hnil, List.eq_nil_iff_forall_not_mem, hnames]

/-- The groups of the joined rows. There are as many as objects only if the listed attributes tell
the objects apart, and then they are the rows of each object. -/
theorem exists_groups (ht : t.Counts entity aliasName collection counted columns)
    (db : Database O V) :
    ∃ groups, groups? (!t.groupBy.isEmpty) true (fun row => Expr.cells? db [row] t.groupBy)
        ((db.objects entity).flatMap (db.countedRows aliasName collection counted)) = some groups ∧
      (∀ group ∈ groups, group ⊆
        (db.objects entity).flatMap (db.countedRows aliasName collection counted)) ∧
      (groups.length = (db.objects entity).length → db.TellsApart entity columns) ∧
      (db.TellsApart entity columns →
        groups.Perm ((db.objects entity).map (db.countedRows aliasName collection counted))) := by
  by_cases hempty : t.groupBy = []
  · -- One group holds all joined rows: those of the only object, or of several, or none at all.
    rw [hempty, Database.tellsApart_iff_of_sizes (ht.groupBy_eq_nil_iff.1 hempty)]
    refine ⟨_, rfl, ?_, ?_, ?_⟩
    · exact fun group hgroup => List.mem_singleton.1 hgroup ▸ List.Subset.refl _
    · exact fun hlength => List.length_eq_one_iff.1 hlength.symm
    · rintro ⟨o, hobjects⟩
      simp [hobjects]
  · obtain ⟨names, hwritten, hnames⟩ := ht.exists_names
    have hkey : ∀ o ∈ db.objects entity, ∀ row ∈ db.countedRows aliasName collection counted o,
        Expr.cells? db [row] t.groupBy = db.ownerKey names o :=
      fun o _ row hrow => cells?_groupBy hwritten (Database.lookup_of_mem_countedRows ht.fresh hrow)
    have hjoined : ∀ o ∈ db.objects entity, db.countedRows aliasName collection counted o ≠ [] :=
      fun o _ => db.countedRows_ne_nil aliasName collection counted o
    have hsome : ((db.objects entity).flatMap (db.countedRows aliasName collection counted)).all
        (fun row => (Expr.cells? db [row] t.groupBy).isSome) = true := by
      refine List.all_eq_true.2 fun row hrow => ?_
      obtain ⟨o, ho, hrow⟩ := List.mem_flatMap.1 hrow
      rw [hkey o ho row hrow]
      rfl
    rw [groups?, List.isEmpty_eq_false_iff.2 hempty, Bool.not_false, if_pos rfl, if_pos hsome]
    refine ⟨_, rfl, fun group => mem_groupsBy, fun hlength => ⟨?_, fun hnone => ?_⟩,
      fun happart => groupsBy_flatMap_perm hkey hjoined ?_⟩
    · exact (Database.nodup_ownerKey_iff hnames _).1
        ((length_groupsBy_flatMap_eq_iff hkey hjoined).1 hlength)
    · exact absurd (ht.groupBy_eq_nil_iff.2 hnone) hempty
    · exact (Database.nodup_ownerKey_iff hnames _).2 happart.distinct

/-- Any group of joined rows is shown as a row. -/
theorem exists_cells? (ht : t.Counts entity aliasName collection counted columns)
    {group : List (FromRow O)}
    (hgroup : group ⊆ (db.objects entity).flatMap (db.countedRows aliasName collection counted)) :
    ∃ cells, SelectItem.cells? db group t.items = some cells := by
  have hcells : ∀ e ∈ t.items.map SelectItem.expr, ∃ c, e.cell? db group = some c := by
    intro e he
    obtain ⟨column, -, hcounted⟩ := exists_of_mem_forall₂ ht.items he
    refine hcounted.exists_cell? ht.fresh ht.dotless fun row hrow => ?_
    obtain ⟨o, -, hrow⟩ := List.mem_flatMap.1 (hgroup hrow)
    exact ⟨o, hrow⟩
  obtain ⟨cells, hcells⟩ := exists_forall₂ hcells
  exact ⟨cells, by rw [SelectItem.cells?_eq_mapM, mapM_eq_some.2 hcells]⟩

/-- Counted over a join, a listing has a row for each object exactly if the listed attributes tell
the objects apart. -/
theorem exists_table? (ht : t.Counts entity aliasName collection counted columns)
    (db : Database O V) :
    ∃ rows, t.table? db [] = some rows ∧
      (rows.Perm (db.listing entity columns) ↔ db.TellsApart entity columns) := by
  obtain ⟨groups, hgroups, hsubset, hlength, hperm⟩ := ht.exists_groups db
  obtain ⟨rows, hrows⟩ := exists_forall₂ fun group hgroup => ht.exists_cells? (hsubset group hgroup)
  have htable : t.table? db [] = some rows := by
    obtain ⟨i, hi, haggregate⟩ := ht.aggregates
    have hany : (t.items.any fun i => i.expr.isAggregate) = true :=
      List.any_eq_true.2 ⟨i, hi, haggregate⟩
    rw [← hany] at hgroups
    rw [ht.plain]
    exact (table?_of_groups (List.ne_nil_of_mem hi) Database.rows?_counting hgroups).trans
      (mapM_eq_some.2 hrows)
  refine ⟨rows, htable, fun h => hlength ?_, fun happart => ?_⟩
  · -- Equal rows are equally many, and each group is shown as one row.
    rw [hrows.length_eq, h.length_eq, Database.listing, List.length_map]
  · obtain ⟨shown, hshown, hsame⟩ := List.perm_comp_forall₂ (hperm happart).symm hrows
    have hown : ((db.objects entity).map (db.countedRows aliasName collection counted)).mapM
        (SelectItem.cells? db · t.items) = some (db.listing entity columns) := by
      rw [List.mapM_map]
      refine (mapM_congr fun o _ => SelectItem.cells?_of_columns ?_).trans List.mapM_pure
      exact ht.items.imp fun column e hcounted =>
        hcounted.cell?_countedRows ht.fresh ht.dotless o
    have heq := (mapM_eq_some.2 hshown).symm.trans hown
    exact Option.some.inj heq ▸ hsame.symm

end Counts

end Select

end EntityQuery
