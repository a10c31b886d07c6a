import EntityQuery.Proofs.Markers
import EntityQuery.Proofs.Render.Equations

/-!
Queries that no context tells apart: they are written alike in every form, and mention the same
parameters. Set operations and WITH clauses do not tell their parts apart either.
-/

namespace EntityQuery

/-- What two queries share that no context tells apart. -/
structure Query.Alike (q q' : Query) : Prop where
  rendered : ∀ ctx, q'.rendered ctx = q.rendered ctx
  memberTokens : ∀ ctx, q'.memberTokens ctx = q.memberTokens ctx
  functionForm : ∀ ctx, q'.functionForm ctx = q.functionForm ctx
  limitedAnywhere : q'.limitedAnywhere = q.limitedAnywhere
  width : q'.width = q.width
  markers : q'.markers = q.markers

/-- What the bodies of two common tables share that no context tells apart. -/
structure CteBody.Alike (b b' : CteBody) : Prop where
  tokens : ∀ ctx entity, b'.tokens ctx entity = b.tokens ctx entity
  width : b'.width = b.width
  markers : b'.markers = b.markers

theorem Query.functionForms_alike (ctx : RenderContext) {qs qs' : List Query}
    (h : List.Forall₂ Query.Alike qs qs') :
    Query.functionForms ctx qs' = Query.functionForms ctx qs := by
  induction h with
  | nil => rfl
  | cons hq _ ih => rw [functionForms, functionForms, hq.functionForm, ih]

theorem Query.memberListTokens_alike (ctx : RenderContext) {qs qs' : List Query}
    (h : List.Forall₂ Query.Alike qs qs') :
    Query.memberListTokens ctx qs' = Query.memberListTokens ctx qs := by
  induction h with
  | nil => rfl
  | cons hq _ ih => rw [memberListTokens, memberListTokens, hq.memberTokens, ih]

theorem Query.anyLimited_alike {qs qs' : List Query} (h : List.Forall₂ Query.Alike qs qs') :
    Query.anyLimited qs' = Query.anyLimited qs := by
  induction h with
  | nil => rfl
  | cons hq _ ih => rw [anyLimited, anyLimited, hq.limitedAnywhere, ih]

theorem Query.markersList_alike {qs qs' : List Query} (h : List.Forall₂ Query.Alike qs qs') :
    Query.markersList qs' = Query.markersList qs := by
  induction h with
  | nil => rfl
  | cons hq _ ih => rw [markersList, markersList, hq.markers, ih]

theorem SetOperation.activeOperator_alike (operator : Option SetOperator) {qs qs' : List Query}
    (h : List.Forall₂ Query.Alike qs qs') :
    activeOperator operator qs' = activeOperator operator qs := by
  cases h <;> rfl

/-- Set operations over alike queries are alike. -/
theorem SetOperation.alike {c : SetOperation} {start : Query} {operands : List Query}
    (hstart : c.start.Alike start) (hoperands : List.Forall₂ Query.Alike c.operands operands) :
    (Query.combined c).Alike (.combined { c with start := start, operands := operands }) := by
  obtain ⟨operator, first, others, orderBy, limits⟩ := c
  have hactive := activeOperator_alike operator hoperands
  constructor
  case rendered =>
    intro ctx
    rw [Query.rendered, Query.rendered, SetOperation.rendered, SetOperation.rendered, hactive,
      hstart.rendered, hstart.limitedAnywhere, Query.anyLimited_alike hoperands,
      hstart.memberTokens, hstart.functionForm, Query.memberListTokens_alike ctx hoperands,
      Query.functionForms_alike ctx hoperands]
  case memberTokens =>
    intro ctx
    rw [Query.memberTokens, Query.memberTokens, memberTokens_eq, memberTokens_eq, hactive]
    simp only [hstart.memberTokens, Query.memberListTokens_alike ctx hoperands]
  case functionForm =>
    intro ctx
    rw [Query.functionForm, Query.functionForm, SetOperation.functionForm,
      SetOperation.functionForm, hactive, hstart.functionForm,
      Query.functionForms_alike ctx hoperands]
  case limitedAnywhere =>
    rw [Query.limitedAnywhere, Query.limitedAnywhere, SetOperation.limitedAnywhere,
      SetOperation.limitedAnywhere, hstart.limitedAnywhere, Query.anyLimited_alike hoperands]
  case width => exact hstart.width
  case markers =>
    rw [Query.markers, Query.markers, SetOperation.markers, SetOperation.markers, hstart.markers,
      Query.markersList_alike hoperands]

/-- What two common tables share that no context tells apart. -/
structure Cte.Alike (c c' : Cte) : Prop where
  entity : c'.entity = c.entity
  columns : c'.columns = c.columns
  recursive : c'.recursive = c.recursive
  body : c.body.Alike c'.body

theorem Cte.listTokens_alike (ctx : RenderContext) {cs cs' : List Cte}
    (h : List.Forall₂ Cte.Alike cs cs') : Cte.listTokens ctx cs' = Cte.listTokens ctx cs := by
  induction h with
  | nil => rfl
  | @cons c c' rest rest' hc _ ih =>
      obtain ⟨entity, columns, body, recursive⟩ := c
      obtain ⟨entity', columns', body', recursive'⟩ := c'
      obtain ⟨rfl, rfl, rfl, hbody⟩ := hc
      rw [listTokens, listTokens, hbody.width, hbody.tokens, ih]

theorem Cte.any_recursive_alike {cs cs' : List Cte} (h : List.Forall₂ Cte.Alike cs cs') :
    cs'.any Cte.recursive = cs.any Cte.recursive := by
  induction h with
  | nil => rfl
  | cons hc _ ih => rw [List.any_cons, List.any_cons, hc.recursive, ih]

theorem Cte.isEmpty_alike {cs cs' : List Cte} (h : List.Forall₂ Cte.Alike cs cs') :
    cs'.isEmpty = cs.isEmpty := by
  cases h <;> rfl

theorem Cte.markersList_alike {cs cs' : List Cte} (h : List.Forall₂ Cte.Alike cs cs') :
    Cte.markersList cs' = Cte.markersList cs := by
  rw [markersList_eq, markersList_eq]
  induction h with
  | nil => rfl
  | cons hc _ ih => rw [List.flatMap_cons, List.flatMap_cons, hc.body.markers, ih]

end EntityQuery
