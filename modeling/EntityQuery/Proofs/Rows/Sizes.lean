import EntityQuery.Proofs.Analysis.Groups
import EntityQuery.Proofs.Analysis.Sizes
import EntityQuery.Proofs.Rows.Listings

/-!
What counting over a join does to a listing. The first size becomes the count of a joined
collection, every other one a subquery, and the listed attributes become the groups.
-/

namespace EntityQuery

variable {entity aliasName collection counted : String} {columns : List Column}
variable {scope : SizeScope} {state : SizeState}

/-- An alias that is tried for a path is longer than the alias that the path starts with. -/
theorem JoinGraph.freshAlias_ne {ε : Type} (g : JoinGraph ε) (aliasName collection : String) :
    g.freshAlias ("_".intercalate [aliasName] ++ "_" ++ collection) ≠ aliasName := by
  have hcandidate : ∀ k,
      aliasCandidate ("_".intercalate [aliasName] ++ "_" ++ collection) k ≠ aliasName := by
    intro k h
    have hlength := congrArg (fun s => s.toList.length) h
    cases k <;> simp [aliasCandidate] at hlength
  rw [freshAlias]
  cases hfind : ((List.range (g.size + 1)).map
      (aliasCandidate ("_".intercalate [aliasName] ++ "_" ++ collection))).find? fun aliasName =>
        (g.findAlias? aliasName).isNone with
  | none => exact hcandidate 0
  | some found =>
      obtain ⟨k, -, rfl⟩ := List.mem_map.1 (List.mem_of_find?_eq_some hfind)
      exact hcandidate k

/-- After a collection has been joined, a size becomes a subquery. -/
theorem replaceSize?_of_counted (scope : SizeScope) {p : Path}
    (h : p.elements = [aliasName, collection])
    (hcounted : state.counted = true) :
    ∃ inner, replaceSize? scope .select p state =
      .ok (some (sizeSubquery (aliasName ++ "." ++ collection) inner), state) := by
  have hstrategy : scope.strategy state .select = .subquery := by
    simp [SizeScope.strategy, hcounted]
  refine ⟨state.joins.freshAlias ("_".intercalate [aliasName] ++ "_" ++ collection), ?_⟩
  rw [replaceSize?, h]
  simp [splitLast?, hstrategy, Dotted.join]

/-- The first size of a listing becomes the count of a joined collection. -/
theorem replaceSize?_of_root (entity : String) {aliases : AliasTable Expr} {p : Path}
    (h : p.elements = [aliasName, collection]) (hnamed : aliases.joinNode? aliasName = some 0) :
    ∃ counted aliases', counted ≠ aliasName ∧
      replaceSize? ⟨false, []⟩ .select p
        { joins := (JoinGraph.addRoot {} entity aliasName).2, aliases := aliases } =
      .ok (some (Expr.count (Expr.bound 1 counted none)),
        { joins := .counting entity aliasName collection counted, aliases := aliases'
          counted := true }) := by
  let g : JoinGraph Expr := (JoinGraph.addRoot {} entity aliasName).2
  let counted := g.freshAlias ("_".intercalate [aliasName] ++ "_" ++ collection)
  refine ⟨counted, aliases.insertJoin counted 1 true, g.freshAlias_ne aliasName collection, ?_⟩
  rw [replaceSize?, h]
  simp only [splitLast?, Option.map_some, hnamed]
  rfl

theorem Expr.replaceSizes_size {function : String} {p : Path} {e : Expr} {clause : ClauseKind}
    {after : SizeState} (hfunction : isSizeCall function = true)
    (h : replaceSize? scope clause p state = .ok (some e, after)) :
    (call function [path p]).replaceSizes scope clause state = .ok (e, after) := by
  rw [replaceSizes.eq_4 scope clause state function p hfunction, h]
  rfl

namespace Column

variable {column : Column} {e : Expr}

theorem WrittenAs.replaceSizes_of_counted (h : column.WrittenAs aliasName e)
    (hcounted : state.counted = true) (joined counted : String) :
    ∃ e', e.replaceSizes scope .select state = .ok (e', state) ∧
      column.CountedAs aliasName joined counted e' := by
  cases h with
  | field h => exact ⟨_, Expr.replaceSizes.eq_1 .., .field h⟩
  | @size collection function p hsize h =>
      obtain ⟨inner, hreplaced⟩ := replaceSize?_of_counted scope h hcounted
      exact ⟨_, Expr.replaceSizes_size hsize hreplaced, .subquery⟩

end Column

namespace SelectItem

theorem replaceSizesList_cons {i : SelectItem Expr} {rest items : List (SelectItem Expr)} {e : Expr}
    {middle after : SizeState} (he : i.expr.replaceSizes scope .select state = .ok (e, middle))
    (hrest : replaceSizesList scope rest middle = .ok (items, after)) :
    replaceSizesList scope (i :: rest) state = .ok ({ i with expr := e } :: items, after) := by
  simp only [replaceSizesList, he, ok_bind, hrest]
  rfl

theorem replaceSizesList_of_counted (scope : SizeScope) {items : List (SelectItem Expr)}
    (h : List.Forall₂ (Column.WrittenAs aliasName) columns (items.map SelectItem.expr))
    (hcounted : state.counted = true) (joined counted : String) :
    ∃ items', replaceSizesList scope items state = .ok (items', state) ∧
      List.Forall₂ (Column.CountedAs aliasName joined counted) columns
        (items'.map SelectItem.expr) := by
  induction items generalizing columns with
  | nil => exact ⟨[], rfl, List.forall₂_nil_right_iff.1 h ▸ .nil⟩
  | cons i rest ih =>
      obtain ⟨column, columns, hcolumn, hcolumns, rfl⟩ := List.forall₂_cons_right_iff.1 h
      obtain ⟨e, he, hshown⟩ := hcolumn.replaceSizes_of_counted hcounted joined counted
      obtain ⟨items, hitems, hrest⟩ := ih hcolumns
      exact ⟨_, replaceSizesList_cons he hitems, .cons hshown hrest⟩

/-- The sizes of a listing: the first is counted, the others become subqueries. -/
theorem replaceSizesList_of_root (entity : String) {items : List (SelectItem Expr)}
    {aliases : AliasTable Expr}
    (h : List.Forall₂ (Column.WrittenAs aliasName) columns (items.map SelectItem.expr))
    (hnamed : aliases.joinNode? aliasName = some 0) (hsize : ∃ c, .size c ∈ columns) :
    ∃ collection counted aliases' items', counted ≠ aliasName ∧
      replaceSizesList ⟨false, []⟩ items
        { joins := (JoinGraph.addRoot {} entity aliasName).2, aliases := aliases } =
      .ok (items', { joins := .counting entity aliasName collection counted, aliases := aliases'
                     counted := true }) ∧
      List.Forall₂ (Column.CountedAs aliasName collection counted) columns
        (items'.map SelectItem.expr) ∧
      ∃ i ∈ items', i.expr.isAggregate = true := by
  induction items generalizing columns with
  | nil =>
      obtain ⟨c, hc⟩ := hsize
      exact absurd (List.forall₂_nil_right_iff.1 h ▸ hc) List.not_mem_nil
  | cons i rest ih =>
      obtain ⟨e, aliasOf⟩ := i
      obtain ⟨column, columns, hcolumn, hcolumns, rfl⟩ := List.forall₂_cons_right_iff.1 h
      -- Attributes leave the state as it is, so the first size meets the state of the start.
      cases hcolumn with
      | field hp =>
          have hlater : ∃ c, .size c ∈ columns :=
            hsize.imp fun c hc => (List.mem_cons.1 hc).resolve_left Column.noConfusion
          obtain ⟨collection, counted, aliases', items, hfresh, hitems, hshown, i, hi,
            haggregate⟩ := ih hcolumns hlater
          exact ⟨collection, counted, aliases', ⟨_, aliasOf⟩ :: items, hfresh,
            replaceSizesList_cons (Expr.replaceSizes.eq_1 ..) hitems, .cons (.field hp) hshown, i,
            List.mem_cons_of_mem _ hi, haggregate⟩
      | @size collection function p hfunction hp =>
          obtain ⟨counted, aliases', hfresh, hcount⟩ := replaceSize?_of_root entity hp hnamed
          let after : SizeState :=
            ⟨.counting entity aliasName collection counted, aliases', true⟩
          obtain ⟨items, hitems, hshown⟩ :=
            replaceSizesList_of_counted ⟨false, []⟩ hcolumns (rfl : after.counted = true)
              collection counted
          exact ⟨collection, counted, aliases', ⟨_, aliasOf⟩ :: items, hfresh,
            replaceSizesList_cons (Expr.replaceSizes_size hfunction hcount) hitems,
            .cons .count hshown, _, List.mem_cons_self, rfl⟩

end SelectItem

namespace Column

/-- An attribute stays as it is, and everything else that is counted aggregates. -/
theorem CountedAs.aggregates_eq_false_iff {column : Column} {e : Expr}
    (h : column.CountedAs aliasName collection counted e) :
    e.aggregates true = false ↔
      ∃ name, column = .field name ∧ WrittenAs aliasName (.field name) e := by
  cases h with
  | field h => exact ⟨fun _ => ⟨_, rfl, .field h⟩, fun _ => rfl⟩
  | count => exact ⟨nofun, fun ⟨_, h, _⟩ => nomatch h⟩
  | subquery => exact ⟨nofun, fun ⟨_, h, _⟩ => nomatch h⟩

end Column

namespace Select

/-- The implicit groups of a listing are what it shows and does not aggregate. -/
theorem mem_implicitGroups {s : Select}
    (hshown : List.Forall₂ (Column.CountedAs aliasName collection counted) columns
      (s.items.map SelectItem.expr))
    (haggregate : ∃ i ∈ s.items, i.expr.isAggregate = true) (hgroup : s.groupBy = [])
    (horder : s.orderBy = []) {e : Expr} :
    e ∈ s.implicitGroups ↔ e ∈ s.items.map SelectItem.expr ∧ e.aggregates true = false := by
  obtain ⟨i, hi, haggregate⟩ := haggregate
  have haggregates : s.aggregates = true := by
    refine s.aggregates_iff.2 (.inl ⟨i, hi, ?_⟩)
    generalize i.expr = e at haggregate
    cases e <;> first | exact .aggregate _ _ _ | cases haggregate
  constructor
  · intro he
    have hrequires := (requires_of_mem_implicitGroups he).2.1
    refine ⟨?_, e.aggregates_eq_false_iff.2 hrequires.not_aggregating⟩
    cases hrequires with
    | item hi => exact List.mem_map_of_mem hi
    | order hi =>
        rw [horder] at hi
        cases hi
    | root hitems =>
        rw [hitems] at hi
        cases hi
  · rintro ⟨he, hplain⟩
    obtain ⟨column, -, hcounted⟩ := exists_of_mem_forall₂ hshown he
    obtain ⟨name, -, hwritten⟩ := hcounted.aggregates_eq_false_iff.1 hplain
    obtain ⟨item, hitem, rfl⟩ := List.mem_map.1 he
    generalize hexpr : item.expr = e at hwritten
    cases hwritten with
    | field =>
        have hrequires : s.Requires item.expr := .item hitem (by rw [hexpr]; rfl)
          (item.expr.aggregates_eq_false_iff.1 hplain)
        have hgroups := isIn_of_requires haggregates hrequires (by rw [hgroup]; rfl)
        rw [hexpr] at hgroups
        exact hgroups.elim id Expr.isIn_path_iff.1

/-- Replacing the sizes of a listing counts the elements of one collection by joining it. -/
theorem Lists.exists_replaceSizes {s : Select} (hs : s.Lists entity aliasName columns)
    (hsize : ∃ c, .size c ∈ columns) :
    ∃ collection counted t, s.replaceSizes = .ok t ∧
      t.Counts entity aliasName collection counted columns := by
  obtain ⟨collection, counted, aliases, items, hfresh, hitems, hshown, haggregate⟩ :=
    SelectItem.replaceSizesList_of_root entity hs.items hs.named hsize
  let replaced : Select :=
    { items := items, joins := .counting entity aliasName collection counted, aliases := aliases }
  have hgroups {e : Expr} : e ∈ replaced.implicitGroups ↔
      e ∈ items.map SelectItem.expr ∧ e.aggregates true = false :=
    mem_implicitGroups hshown haggregate rfl rfl
  refine ⟨collection, counted, replaced.applyImplicitGroups, ?_, rfl, hshown, haggregate,
    fun e he => ?_, fun name hname => ?_, hfresh, hs.dotless⟩
  · rw [hs.plain, replaceSizes]
    simp only [replaceSizesAfter, hitems, SizeFailure.attempt_ok, ok_bind, withState]
    rfl
  · obtain ⟨hmem, hplain⟩ := hgroups.1 he
    obtain ⟨column, hcolumn, hcounted⟩ := exists_of_mem_forall₂ hshown hmem
    obtain ⟨name, rfl, hwritten⟩ := hcounted.aggregates_eq_false_iff.1 hplain
    exact ⟨name, hcolumn, hwritten⟩
  · obtain ⟨e, hmem, hcounted⟩ := exists_of_mem_forall₂ hshown.flip hname
    cases hcounted with
    | field h => exact ⟨_, hgroups.2 ⟨hmem, rfl⟩, .field h⟩

/-- Replacing the sizes of a listing keeps its rows exactly if the attributes that it lists tell
the objects of the entity apart: objects that agree on them are merged, and without any of them all
objects are, even if there is none. -/
theorem rows_kept_iff_tellsApart {O V : Type} [DecidableEq O] [DecidableEq V] {s : Select}
    (hs : s.Lists entity aliasName columns) (hsize : ∃ c, .size c ∈ columns) (db : Database O V) :
    ∃ collection counted t rows, s.replaceSizes = .ok t ∧
      t.Counts entity aliasName collection counted columns ∧
      s.table? db [] = some (db.listing entity columns) ∧ t.table? db [] = some rows ∧
      (rows.Perm (db.listing entity columns) ↔ db.TellsApart entity columns) := by
  obtain ⟨collection, counted, t, ht, hcounts⟩ := hs.exists_replaceSizes hsize
  obtain ⟨rows, hrows, hkept⟩ := hcounts.exists_table? db
  have hcolumns : columns ≠ [] := hsize.elim fun c hc => List.ne_nil_of_mem hc
  exact ⟨collection, counted, t, rows, ht, hcounts, hs.table?_eq hcolumns, hrows, hkept⟩

/-- Two documents, one with one person and the other with two. -/
def twoDocuments : Database Nat String where
  objects entity := if entity = "Document" then [1, 2] else []
  value? o name := if name = "name" then some (if o = 1 then "plan" else "report") else none
  elements o collection := if collection = "people" then List.range o else []

/-- `SELECT d.name, SIZE(d.people) FROM Document d` -/
def namedSizes : Select :=
  ((addRoot {} "Document" "d").select (.ofPath "d.name") none).select
    (.size (.ofPath "d.people")) none

theorem rows_kept_namedSizes :
    namedSizes.Lists "Document" "d" [.field "name", .size "people"] ∧
      twoDocuments.TellsApart "Document" [.field "name", .size "people"] ∧
      ∃ t rows, namedSizes.replaceSizes = .ok t ∧ t.table? twoDocuments [] = some rows ∧
        rows.Perm [[.value "plan", .number 1], [.value "report", .number 2]] := by
  have hlists : namedSizes.Lists "Document" "d" [.field "name", .size "people"] :=
    ⟨rfl, .cons (.field rfl) (.cons (.size (by decide) rfl) .nil), rfl, by decide⟩
  have happart : twoDocuments.TellsApart "Document" [.field "name", .size "people"] :=
    ⟨by decide, by decide⟩
  obtain ⟨collection, counted, t, rows, ht, -, -, hrows, hkept⟩ :=
    rows_kept_iff_tellsApart hlists ⟨"people", by decide⟩ twoDocuments
  exact ⟨hlists, happart, t, rows, ht, hrows, hkept.2 happart⟩

/-- `SELECT SIZE(d.people) FROM Document d` -/
def bareSizes : Select :=
  (addRoot {} "Document" "d").select (.size (.ofPath "d.people")) none

/-- A count without any other item is not grouped, so it counts the people of all documents
together. -/
theorem not_rows_kept_bareSizes :
    ¬∀ (s t : Select) (entity aliasName : String) (columns : List Column)
      (db : Database Nat String) (rows counted : List (List (Cell Nat String))),
      s.Lists entity aliasName columns → (∃ c, .size c ∈ columns) → s.replaceSizes = .ok t →
        s.table? db [] = some rows → t.table? db [] = some counted → counted.Perm rows := by
  intro h
  have hlists : bareSizes.Lists "Document" "d" [.size "people"] :=
    ⟨rfl, .cons (.size (by decide) rfl) .nil, rfl, by decide⟩
  obtain ⟨collection, counted, t, ht, hcounts⟩ := hlists.exists_replaceSizes ⟨"people", by decide⟩
  obtain ⟨shown, hshown, hkept⟩ := hcounts.exists_table? twoDocuments
  have hperm := h bareSizes t "Document" "d" [.size "people"] twoDocuments _ _ hlists
    ⟨"people", by decide⟩ ht (hlists.table?_eq (List.cons_ne_nil _ _)) hshown
  obtain ⟨o, ho⟩ := (Database.tellsApart_iff_of_sizes rfl).1 (hkept.1 hperm)
  simp [twoDocuments] at ho

end Select

end EntityQuery
