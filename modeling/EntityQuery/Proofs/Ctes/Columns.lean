import EntityQuery.Proofs.Render.Success

/-!
The columns of a common table and the values of its body. A table is checked against the first level
of its body, whose select list gives the columns their values; the other queries of a set operation
are not checked against it. A select list is written value by value.
-/

namespace EntityQuery

open Token (spaced listSeparator joined)

/-- The levels that a query takes its rows from. A set operation without an operator takes them from
its first query alone. -/
inductive Query.Supplies : Query → Select → Prop where
  | select (s : Select) : Supplies (.select s) s
  | start {c : SetOperation} {s : Select} : Supplies c.start s → Supplies (.combined c) s
  | operand {c : SetOperation} {q : Query} {s : Select} (hoperator : c.operator.isSome)
      (hq : q ∈ c.operands) : Supplies q s → Supplies (.combined c) s

/-- The level that a query starts with. -/
inductive Query.StartsWith : Query → Select → Prop where
  | select (s : Select) : StartsWith (.select s) s
  | start {c : SetOperation} {s : Select} : StartsWith c.start s → StartsWith (.combined c) s

/-- The number of values in a row of a level. Where nothing is listed, a row has its roots. -/
def Select.rowWidth (s : Select) : Nat :=
  if s.items.isEmpty then s.joins.roots.length else s.items.length

/-- The numbers of values in the rows of the body of a common table, as far as they come from the
given levels. A modification has the values that it reports. -/
inductive CteBody.RowFrom (levels : Query → Select → Prop) : CteBody → Nat → Prop where
  | query {q : Query} {s : Select} : levels q s → RowFrom levels (.query q) s.rowWidth
  | update (u : Update) : RowFrom levels (.update u) u.returning.length
  | collectionDelete (d : CollectionDelete) :
      RowFrom levels (.collectionDelete d) d.returning.length

namespace Query

theorem exists_startsWith : ∀ q : Query, ∃ s, q.StartsWith s :=
  Query.memberInduction (fun s => ⟨s, .select s⟩) fun _ hstart _ =>
    let ⟨s, hs⟩ := hstart
    ⟨s, .start hs⟩

theorem StartsWith.supplies {q : Query} {s : Select} (h : q.StartsWith s) : q.Supplies s := by
  induction h with
  | select s => exact .select s
  | start _ ih => exact .start ih

theorem StartsWith.width {q : Query} {s : Select} (h : q.StartsWith s) :
    q.width = s.items.length := by
  induction h with
  | select s => rw [Query.width]
  | start _ ih => rw [Query.width, SetOperation.width_eq, ih]

end Query

namespace CteBody

variable {b : CteBody}

/-- Whether the level that a body starts with lists what it selects. -/
def Lists (b : CteBody) : Prop := ∀ q s, b = .query q → q.StartsWith s → s.items ≠ []

theorem exists_rowFrom_startsWith (b : CteBody) : ∃ n, b.RowFrom Query.StartsWith n := by
  cases b with
  | query q =>
      obtain ⟨s, hs⟩ := q.exists_startsWith
      exact ⟨_, .query hs⟩
  | update u => exact ⟨_, .update u⟩
  | collectionDelete d => exact ⟨_, .collectionDelete d⟩

theorem RowFrom.of_startsWith {n : Nat} (h : b.RowFrom Query.StartsWith n) :
    b.RowFrom Query.Supplies n := by
  cases h with
  | query hs => exact .query hs.supplies
  | update u => exact .update u
  | collectionDelete d => exact .collectionDelete d

/-- The rows that a body starts with are as wide as its select list says. -/
theorem RowFrom.eq_width {n : Nat} (h : b.RowFrom Query.StartsWith n) (hlists : b.Lists) :
    n = b.width := by
  cases h with
  | @query q s hs =>
      have hitems : s.items.isEmpty = false := by
        rw [List.isEmpty_eq_false_iff]
        exact hlists q s rfl hs
      rw [Select.rowWidth, hitems, CteBody.width, hs.width]
      rfl
  | update u => rfl
  | collectionDelete d => rfl

end CteBody

/-- A level is written with as many values before the FROM clause as a row of it has. -/
theorem Select.exists_values {ctx : RenderContext} {s : Select} {tokens : List Token}
    (h : s.tokens ctx = .ok tokens) :
    ∃ values, s.values ctx = .ok values ∧ values.length = s.rowWidth ∧
      ∃ opening clauses, tokens = opening ++ ([.keyword .SELECT, .space]
        ++ (if s.distinct then [.keyword .DISTINCT, .space] else [])
        ++ joined listSeparator values ++ spaced .FROM) ++ clauses := by
  rw [tokens_eq, SelectItem.listTokens_eq_mapM] at h
  split at h
  · cases h
  · split at h
    · cases h
    · simp only [bind_eq_ok, pure_eq_ok] at h
      obtain ⟨tables, -, selected, hselected, entries, -, condition, -, groups, -, having, -, orders,
        -, rfl⟩ := h
      unfold values rowWidth
      cases hitems : s.items.isEmpty with
      | true =>
          refine ⟨_, rfl, List.length_map _, ?_⟩
          simp only [assembled, hitems, if_true, Level.rootListTokens, List.append_assoc]
          exact ⟨_, _, rfl⟩
      | false =>
          refine ⟨selected, hselected, ?_, ?_⟩
          · exact (mapM_eq_ok.1 hselected).length_eq.symm
          · simp only [assembled, hitems, Bool.false_eq_true, if_false, List.append_assoc]
            exact ⟨_, _, rfl⟩

/-- When a common table is valid, if the level that its body starts with lists what it selects: it
has columns, and every row of that level has as many values. If the other rows of the body are as
wide, this is to say that every row fits the columns. -/
theorem Cte.validate_iff (c : Cte) (hlists : c.body.Lists) :
    (Succeeds c.validate ↔
      c.columns ≠ [] ∧ ∀ n, c.body.RowFrom Query.StartsWith n → n = c.columns.length) ∧
    ((∀ n, c.body.RowFrom Query.Supplies n → c.body.RowFrom Query.StartsWith n) →
      (Succeeds c.validate ↔
        c.columns ≠ [] ∧ ∀ n, c.body.RowFrom Query.Supplies n → n = c.columns.length)) ∧
    ∀ q s, c.body = .query q → q.Supplies s → ∀ ctx tokens, s.tokens ctx = .ok tokens →
      ∃ values, s.values ctx = .ok values ∧ values.length = s.rowWidth ∧
        ∃ opening clauses, tokens = opening ++ ([.keyword .SELECT, .space]
          ++ (if s.distinct then [.keyword .DISTINCT, .space] else [])
          ++ joined listSeparator values ++ spaced .FROM) ++ clauses := by
  obtain ⟨first, hfirst⟩ := c.body.exists_rowFrom_startsWith
  have hstarts : Succeeds c.validate ↔
      c.columns ≠ [] ∧ ∀ n, c.body.RowFrom Query.StartsWith n → n = c.columns.length := by
    rw [validate, succeeds_check]
    refine and_congr_right fun _ => ⟨fun hwidth n hn => ?_, fun hrows => ?_⟩
    · rw [hn.eq_width hlists, hwidth]
    · rw [← hfirst.eq_width hlists, hrows first hfirst]
  refine ⟨hstarts, fun hagree => ?_, fun _ s _ _ ctx tokens htokens => s.exists_values htokens⟩
  rw [hstarts]
  refine and_congr_right fun _ => ⟨fun hrows n hn => ?_, fun hrows n hn => ?_⟩
  · exact hrows n (hagree n hn)
  · exact hrows n hn.of_startsWith

/-- A level over persons. -/
def Select.overPeople (items : List String) : Select where
  items := items.map fun path => ⟨.ofPath path, none⟩
  joins := { nodes := [{ aliasName := "p", source := .root "Person" }], roots := [0] }

/-- The identifiers of persons, and the given values of persons. -/
def SetOperation.people (items : List String) : SetOperation where
  operator := some .unionAll
  start := .select (.overPeople ["p.id"])
  operands := [.select (.overPeople items)]

/-- A table with one column for them. -/
def Cte.people (items : List String) : Cte where
  entity := "Tree"
  columns := ["id"]
  body := .query (.combined (.people items))
  recursive := true

theorem SetOperation.startsWith_people (items : List String) :
    (Query.combined (.people items)).StartsWith (.overPeople ["p.id"]) :=
  .start (.select _)

theorem Cte.lists_people (items : List String) : (people items).body.Lists := by
  rintro _ s ⟨⟩ (_ | hstart)
  cases hstart
  exact List.cons_ne_nil _ _

theorem SetOperation.supplies_people {items : List String} {s : Select}
    (h : (Query.combined (.people items)).Supplies s) :
    s = .overPeople ["p.id"] ∨ s = .overPeople items := by
  cases h with
  | start hs =>
      cases hs
      exact .inl rfl
  | operand _ hother hs =>
      rw [List.mem_singleton.1 hother] at hs
      cases hs
      exact .inr rfl

/-- Both queries of the union have one value for the one column. -/
theorem Cte.validate_iff_people :
    (people ["p.parent"]).body.Lists ∧ Succeeds (people ["p.parent"]).validate ∧
      ∀ n, (people ["p.parent"]).body.RowFrom Query.Supplies n → n = 1 := by
  have hlists := lists_people ["p.parent"]
  have hone : (people ["p.parent"]).body.RowFrom Query.StartsWith
      (Select.overPeople ["p.id"]).rowWidth :=
    .query (SetOperation.startsWith_people ["p.parent"])
  have hagree : ∀ n, (people ["p.parent"]).body.RowFrom Query.Supplies n →
      (people ["p.parent"]).body.RowFrom Query.StartsWith n := by
    rintro _ (hs | _ | _)
    rcases SetOperation.supplies_people hs with rfl | rfl
    · exact hone
    · exact hone
  have hvalid : Succeeds (people ["p.parent"]).validate := ⟨(), rfl⟩
  exact ⟨hlists, hvalid, (((validate_iff (people ["p.parent"]) hlists).2.1 hagree).1 hvalid).2⟩

/-- The second query of the union has two values for the one column, and the table is valid. -/
theorem Cte.not_validate_iff_people :
    ¬(Succeeds (people ["p.id", "p.name"]).validate ↔ (people ["p.id", "p.name"]).columns ≠ [] ∧
      ∀ n, (people ["p.id", "p.name"]).body.RowFrom Query.Supplies n →
        n = (people ["p.id", "p.name"]).columns.length) := by
  intro hclaim
  have hrows := (hclaim.1 ⟨(), rfl⟩).2
  have hsupplies : (Query.combined (.people ["p.id", "p.name"])).Supplies
      (.overPeople ["p.id", "p.name"]) :=
    .operand rfl (List.mem_singleton.2 rfl) (.select _)
  have hwide : (Select.overPeople ["p.id", "p.name"]).rowWidth = 1 := hrows _ (.query hsupplies)
  exact absurd hwide (by decide)

end EntityQuery
