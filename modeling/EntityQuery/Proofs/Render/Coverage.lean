import EntityQuery.Proofs.Render.Parts

/-!
The parameters that a text mentions against those that are known of what it is written from, clause
by clause. Every mention is known; and unless parts are known but not written, nothing else is, and
the order is that of the text.
-/

namespace EntityQuery

open Token (mentions)

/-- Whether all that is known of a site is written: there are no elements of collections, no IN
predicates without values, no conditions on roots, and no set operations without an operator or
operands. -/
def Site.Plain : Site → Prop
  | element | emptyChoice => False
  | level sc => ∀ root ∈ sc.joins.roots, sc.joins.condition? root = none
  | operation operator operands _ => operator.isSome ∧ operands ≠ 0
  | path _ _ | literal _ | parameter _ | function _ | countStar | nested _ | withClause
  | table _ _ | assignments _ | returning | collectionDelete => True

instance : DecidablePred Site.Plain
  | .element | .emptyChoice => inferInstanceAs (Decidable False)
  | .level sc => inferInstanceAs
      (Decidable (∀ root ∈ sc.joins.roots, sc.joins.condition? root = none))
  | .operation operator operands _ => inferInstanceAs
      (Decidable (operator.isSome ∧ operands ≠ 0))
  | .path _ _ | .literal _ | .parameter _ | .function _ | .countStar | .nested _ | .withClause
  | .table _ _ | .assignments _ | .returning | .collectionDelete =>
      inferInstanceAs (Decidable True)

/-- What is mentioned is known; and where all sites are plain, it is all that is known, in order. -/
structure Covers (sites : List Site) (mentioned known : List String) : Prop where
  subset : mentioned ⊆ known
  eq_of_plain : (∀ site ∈ sites, site.Plain) → mentioned = known

namespace Covers

variable {s t : List Site} {a b m n : List String}

theorem nil : Covers s [] [] := ⟨List.Subset.refl [], fun _ => rfl⟩

theorem refl : Covers s a a := ⟨List.Subset.refl a, fun _ => rfl⟩

theorem of_not_plain {site : Site} (hmem : site ∈ s) (h : ¬site.Plain) (hsub : a ⊆ m) :
    Covers s a m :=
  ⟨hsub, fun hplain => absurd (hplain site hmem) h⟩

theorem mono (hsub : s ⊆ t) (h : Covers s a m) : Covers t a m :=
  ⟨h.subset, fun hplain => h.eq_of_plain fun site hsite => hplain site (hsub hsite)⟩

theorem extend (h : Covers s a m) (hsub : m ⊆ n) (heq : (∀ site ∈ s, site.Plain) → m = n) :
    Covers s a n :=
  ⟨List.Subset.trans h.subset hsub, fun hplain => (h.eq_of_plain hplain).trans (heq hplain)⟩

theorem cons (site : Site) (h : Covers s a m) : Covers (site :: s) a m :=
  h.mono (List.subset_cons_self site s)

theorem append (h : Covers s a m) (h' : Covers t b n) : Covers (s ++ t) (a ++ b) (m ++ n) where
  subset := List.append_subset.2
    ⟨List.subset_append_of_subset_left n h.subset, List.subset_append_of_subset_right m h'.subset⟩
  eq_of_plain hplain := by
    rw [List.forall_mem_append] at hplain
    rw [h.eq_of_plain hplain.1, h'.eq_of_plain hplain.2]

theorem flatMap {α β : Type} {r : α → β → Prop} {as : List α} {bs : List β} {f : α → List Site}
    {g : β → List String} {k : α → List String} (h : List.Forall₂ r as bs)
    (hcovers : ∀ x ∈ as, ∀ y, r x y → Covers (f x) (g y) (k x)) :
    Covers (as.flatMap f) (bs.flatMap g) (as.flatMap k) := by
  induction h with
  | nil => exact nil
  | cons hxy _ ih =>
      rw [List.flatMap_cons, List.flatMap_cons, List.flatMap_cons]
      exact (hcovers _ List.mem_cons_self _ hxy).append
        (ih fun x hx => hcovers x (List.mem_cons_of_mem _ hx))

end Covers

/-- What an expression mentions, wherever it stands. -/
def Expr.Accounted (e : Expr) : Prop :=
  ∀ (l : Level) (position : Position) (ts : List Token), e.tokens l position = .ok ts →
    Covers (e.sites l.scope) (mentions ts) e.markers

/-- What a query mentions in each of its forms. -/
structure Query.Accounted (q : Query) : Prop where
  rendered : ∀ ctx r, q.rendered ctx = .ok r → Covers q.sites (mentions r.tokens) q.markers
  memberTokens : ∀ ctx between ts, q.memberTokens ctx = .ok ts →
    Covers (q.memberSites between) (mentions ts) q.markers
  functionForm : ∀ ctx between form, q.functionForm ctx = .ok form →
    Covers (q.memberSites between) form.mentions q.markers
  subqueryTokens : ∀ ctx around ts, q.subqueryTokens ctx around = .ok ts →
    Covers (q.memberSites false) (mentions ts) q.markers

/-- What the body of a common table mentions. -/
def CteBody.Accounted (b : CteBody) : Prop :=
  ∀ ctx entity ts, b.tokens ctx entity = .ok ts → Covers b.sites (mentions ts) b.markers

/-- What expressions mention, one after another. -/
theorem Level.Mentions.covers {l : Level} {es : List Expr} {names : List String}
    (h : l.Mentions es names) (hes : ∀ e ∈ es, e.Accounted) :
    Covers (es.flatMap (Expr.sites l.scope)) names (es.flatMap Expr.markers) := by
  obtain ⟨tss, htss, rfl⟩ := h
  refine Covers.flatMap htss fun e he ts hwritten => ?_
  obtain ⟨position, hwritten⟩ := hwritten
  exact hes e he l position ts hwritten

namespace Scope

variable (sc : Scope) {g : NodeId → List String}

theorem flatMap_depthFirst (g : NodeId → List String) :
    sc.joins.depthFirst.flatMap g =
      sc.joins.roots.flatMap fun root => g root ++ (sc.joins.subtree root).tail.flatMap g := by
  rw [JoinGraph.depthFirst, List.flatMap_assoc]
  refine List.flatMap_congr fun root _ => ?_
  rw [JoinGraph.subtree_ne_nil, List.flatMap_cons, List.tail_cons]

/-- What stands at the joins stands at the nodes. -/
theorem flatMap_joined_subset : sc.joined.flatMap g ⊆ sc.joins.depthFirst.flatMap g := by
  intro name hname
  rw [joined, List.flatMap_assoc, List.mem_flatMap] at hname
  obtain ⟨root, hroot, hbelow⟩ := hname
  rw [flatMap_depthFirst, List.mem_flatMap]
  exact ⟨root, hroot, List.mem_append_right _ hbelow⟩

theorem flatMap_joined_of_roots (h : ∀ root ∈ sc.joins.roots, g root = []) :
    sc.joined.flatMap g = sc.joins.depthFirst.flatMap g := by
  rw [joined, List.flatMap_assoc, flatMap_depthFirst]
  refine List.flatMap_congr fun root hroot => ?_
  rw [h root hroot, List.nil_append]

end Scope

/-- A query level mentions what its clauses mention, in the order in which they are written. The
conditions of its roots are known too, but are not written. -/
theorem Select.covers_tokens {s : Select} (parts : s.Parts Expr.Accounted CteBody.Accounted)
    {ctx : RenderContext} {ts : List Token} (hts : s.tokens ctx = .ok ts) :
    Covers s.sites (mentions ts) s.markers := by
  obtain ⟨bodies, names, hbodies, hparts, hmentions⟩ := mentions_tokens hts
  have htables : Covers (s.ctes.flatMap fun c => .table c.columns c.body :: c.body.sites)
      (bodies.flatMap mentions) (s.ctes.flatMap fun c => c.body.markers) :=
    Covers.flatMap hbodies fun c hc ts hbody =>
      (parts.ctes c hc ctx.nested c.entity ts hbody).cons (.table c.columns c.body)
  have hclauses := hparts.covers parts.of_writtenParts
  have hsites : (s.ctes.flatMap fun c => .table c.columns c.body :: c.body.sites)
      ++ s.writtenParts.flatMap (Expr.sites (s.level ctx).scope) ⊆ s.sites := by
    have hscope : (s.level ctx).scope = s.scope := rfl
    rw [sites_eq, hscope]
    intro site hsite
    simp only [writtenParts, List.flatMap_append, List.flatMap_map, List.flatMap_assoc,
      List.mem_append, List.mem_cons] at hsite ⊢
    tauto
  rw [hmentions, markers_eq]
  refine ((htables.append hclauses).mono hsites).extend ?_ fun hplain => ?_
  · have hjoined : s.scope.joined.flatMap (fun id => (s.joins.condition? id).toList.flatMap
        Expr.markers) ⊆ _ := s.scope.flatMap_joined_subset
    intro name hname
    simp only [writtenParts, List.flatMap_append, List.flatMap_map, List.flatMap_assoc,
      List.mem_append] at hname ⊢
    have hname' := @hjoined name
    tauto
  · have hroots : ∀ root ∈ s.scope.joins.roots,
        (s.joins.condition? root).toList.flatMap Expr.markers = [] := by
      intro root hroot
      have hlevel : (Site.level s.scope).Plain := hplain _ (by rw [sites_eq]; exact List.mem_cons_self)
      have hnone : s.joins.condition? root = none := hlevel root hroot
      rw [hnone]
      rfl
    have hjoined := s.scope.flatMap_joined_of_roots hroots
    simp only [writtenParts, List.flatMap_append, List.flatMap_map, List.flatMap_assoc, hjoined,
      List.append_assoc]
    rfl

theorem Update.covers_tokens {u : Update}
    (hassignments : ∀ a ∈ u.assignments, a.1.Accounted ∧ a.2.Accounted)
    (hcondition : ∀ e ∈ u.condition, e.Accounted) {ctx : RenderContext} {ts : List Token}
    (hts : u.tokens ctx = .ok ts) : Covers u.sites (mentions ts) u.markers := by
  have hparts : ∀ e ∈ (u.assignments.flatMap fun a => [a.1, a.2]) ++ u.condition.toList,
      e.Accounted := by
    simp only [List.forall_mem_append, Option.mem_toList]
    exact ⟨forall_mem_pairs hassignments, hcondition⟩
  have hcovers := (((mentions_tokens hts).covers hparts).append
    (t := u.target.scope.returningSites u.returning) Covers.nil).cons
      (.assignments u.assignments.length)
  have hscope : Level.scope ⟨ctx, u.target.aliases, u.target.joins⟩ = u.target.scope := rfl
  rw [sites_eq, markers_eq]
  simpa [hscope, List.flatMap_assoc] using hcovers

theorem CollectionDelete.covers_tokens {d : CollectionDelete}
    (hcondition : ∀ e ∈ d.condition, e.Accounted) {ctx : RenderContext} {ts : List Token}
    (hts : d.tokens ctx = .ok ts) : Covers d.sites (mentions ts) d.markers := by
  have hparts : ∀ e ∈ d.condition.toList, e.Accounted := by simpa using hcondition
  have hcovers := (((mentions_tokens hts).covers hparts).append
    (t := d.target.scope.returningSites d.returning) Covers.nil).cons .collectionDelete
  rw [List.append_nil, List.append_nil] at hcovers
  rw [sites_eq, markers_eq]
  exact hcovers

theorem Delete.covers_tokens {d : Delete} (hcondition : ∀ e ∈ d.condition, e.Accounted)
    {ctx : RenderContext} {ts : List Token} (hts : d.tokens ctx = .ok ts) :
    Covers d.sites (mentions ts) d.markers := by
  have hparts : ∀ e ∈ d.condition.toList, e.Accounted := by simpa using hcondition
  have hcovers := ((mentions_tokens hts).covers hparts).append
    (t := d.target.scope.returningSites d.returning) Covers.nil
  rw [List.append_nil, List.append_nil] at hcovers
  rw [sites_eq, markers, Expr.markersOption_eq]
  exact hcovers

theorem covers_resultTokens {ctx : RenderContext} {is : List (OrderItem Expr)}
    (h : ∀ i ∈ is, i.expr.Accounted) {tss : List (List Token)}
    (hts : OrderItem.resultTokens ctx is = .ok tss) :
    Covers (is.flatMap fun i => i.expr.sites {}) (tss.flatMap mentions)
      (is.flatMap fun i => i.expr.markers) := by
  have hitems : ∀ e ∈ is.map fun i => i.expr, e.Accounted := List.forall_mem_map.2 h
  have hcovers := (OrderItem.mentions_resultTokens hts).covers hitems
  rw [List.flatMap_map, List.flatMap_map] at hcovers
  exact hcovers

end EntityQuery
