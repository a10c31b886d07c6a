import EntityQuery.Proofs.Copy.Refusal
import EntityQuery.Query.Agreement

/-!
A copy is a normal form. Its nodes are numbered as the FROM clause meets them, so another copy of it
is no different, and a statement equals its copy if its own nodes are numbered like that.
-/

namespace EntityQuery

section Fixed

variable {m : Renumbering} (h : ∀ id, m.apply id = id)
include h

theorem JoinNode.rebind_of_fixes (n : JoinNode Expr) : n.rebind Expr.rebind m = n := by
  obtain ⟨aliasName, source, parent, type, fetch, condition, implicit⟩ := n
  have hparent : parent.map m.apply = parent := by cases parent <;> simp [h]
  have hcondition : condition.map (Expr.rebind m) = condition := by
    cases condition <;> simp [Expr.rebind_of_fixes h]
  simp only [rebind, rehang, hparent, hcondition]

theorem AliasTable.rebind_of_fixes (t : AliasTable Expr) : t.rebind Expr.rebind m = t := by
  have hentry (entry : String × AliasEntry Expr) :
      (entry.1, entry.2.rebind Expr.rebind m) = entry := by
    obtain ⟨key, _ | _⟩ := entry <;> simp [AliasEntry.rebind, h, Expr.rebind_of_fixes h]
  rw [rebind]
  simp only [hentry, List.map_id']

end Fixed

namespace JoinGraph

/-- Whether the nodes are numbered in the order in which the FROM clause meets them. -/
def InOrder {ε : Type} (g : JoinGraph ε) : Prop := g.depthFirst = List.range g.size

instance {ε : Type} (g : JoinGraph ε) : Decidable g.InOrder := inferInstanceAs (Decidable (_ = _))

variable {g g' : JoinGraph Expr}

/-- The order depends on the parents and the roots alone. -/
theorem InOrder.congr (hg' : g'.InOrder)
    (hparents : g'.nodes.map JoinNode.parent = g.nodes.map JoinNode.parent)
    (hroots : g'.roots = g.roots) : g.InOrder := by
  have hsize : g'.size = g.size := by simpa [size] using congrArg List.length hparents
  have hwalk : g'.depthFirst = g.depthFirst := by
    rw [depthFirst, depthFirst, hroots]
    exact List.flatMap_congr fun root _ => subtree_congr hparents root
  rw [InOrder, ← hwalk, ← hsize]
  exact hg'

theorem listed_range (g : JoinGraph Expr) : g.listed (List.range g.size) = g.nodes := by
  apply List.ext_getElem?
  intro i
  have hall : ∀ id ∈ List.range g.size, id < g.size := fun id => List.mem_range.1
  rw [getElem?_listed hall]
  rcases Nat.lt_or_ge i g.size with hi | hi
  · rw [List.getElem?_range hi, Option.bind_some]
    rfl
  · have hrange : (List.range g.size).length ≤ i := by rwa [List.length_range]
    rw [List.getElem?_eq_none hrange, Option.bind_none]
    exact (List.getElem?_eq_none hi).symm

namespace WellFormed

variable (h : g.WellFormed)
include h

theorem inOrder_renumbered : (g.renumbered Expr.rebind).InOrder := by
  rw [InOrder, h.depthFirst_renumbered, h.map_apply_depthFirst, h.size_renumbered,
    List.range_eq_range']

theorem apply_of_inOrder (hg : g.InOrder) (id : NodeId) : (g.numbering 0).apply id = id := by
  rcases Nat.lt_or_ge id g.size with hid | hid
  · rw [h.apply_of_lt 0 hid, hg, Nat.zero_add]
    have hmem : id < (List.range g.size).length := by rwa [List.length_range]
    have hindex := List.nodup_range.idxOf_getElem id hmem
    rwa [List.getElem_range] at hindex
  · exact h.apply_of_le 0 hid

/-- A graph whose nodes are in order is its own copy. -/
theorem renumbered_of_inOrder (hg : g.InOrder) : g.renumbered Expr.rebind = g := by
  have hfixes := h.apply_of_inOrder hg
  rw [JoinGraph.renumbered, List.map_id'' (JoinNode.rebind_of_fixes hfixes), List.map_id'' hfixes,
    hg, listed_range]

theorem inOrder_of_eq (heq : g.renumbered Expr.rebind = g) : g.InOrder := by
  have hin := h.inOrder_renumbered
  rwa [heq] at hin

/-- A graph that has the parents and roots of its copy is in order. -/
theorem inOrder_of_same
    (hsame : (g.renumbered Expr.rebind).nodes.map JoinNode.parent = g.nodes.map JoinNode.parent ∧
      (g.renumbered Expr.rebind).roots = g.roots) : g.InOrder :=
  h.inOrder_renumbered.congr hsame.1 hsame.2

end WellFormed

end JoinGraph

/-- Whether the nodes of every graph that a copy numbers anew are in order. -/
def Fragment.InOrder (f : Fragment) : Prop :=
  ∀ part, f.Reaches part → ∀ g ∈ part.joins?, g.InOrder

theorem Fragment.inOrder_iff {f : Fragment} :
    f.InOrder ↔ (∀ g ∈ f.joins?, g.InOrder) ∧ ∀ part ∈ f.queries, part.InOrder := by
  constructor
  · exact fun h => ⟨h f .refl, fun first hfirst part hpart => h part (hpart.head hfirst)⟩
  · rintro ⟨hown, hparts⟩ part hreaches
    rcases hreaches.cases_head with rfl | ⟨first, hfirst, hrest⟩
    · exact hown
    · exact hparts first hfirst part hrest

/-- A fragment that holds no queries is in order if its joins are. -/
theorem Fragment.inOrder_iff_joins {f : Fragment} {g : JoinGraph Expr} (hjoins : f.joins? = some g)
    (hqueries : f.queries = []) : f.InOrder ↔ g.InOrder := by
  rw [inOrder_iff, hjoins, hqueries]
  simp

section Agreement

theorem JoinNode.parents_of_agreesList {ns ns' : List (JoinNode Expr)}
    (h : agreesList ns ns' = true) : ns.map JoinNode.parent = ns'.map JoinNode.parent := by
  have hparents : List.Forall₂ (fun n n' => n.parent = n'.parent) ns ns' := by
    refine forall₂_of_check (fun _ _ => rfl) (fun _ _ => rfl) (fun n ns n' ns' h => ?_) h
    simp only [agreesList, Bool.and_eq_true, beq_iff_eq] at h
    exact ⟨h.1.1.1.1.1.2, h.2⟩
  rw [← List.forall₂_eq_eq_eq, List.forall₂_map_left_iff, List.forall₂_map_right_iff]
  exact hparents

theorem Query.forall₂_of_agreesList {qs qs' : List Query} (h : agreesList qs qs' = true) :
    List.Forall₂ (fun q q' => q.agrees q' = true) qs qs' := by
  refine forall₂_of_check (fun _ _ => rfl) (fun _ _ => rfl) (fun q qs q' qs' h => ?_) h
  rwa [agreesList, Bool.and_eq_true] at h

theorem Cte.forall₂_of_agreesList {cs cs' : List Cte} (h : agreesList cs cs' = true) :
    List.Forall₂ (fun c c' => c.body.agrees c'.body = true) cs cs' := by
  refine forall₂_of_check (fun _ _ => rfl) (fun ⟨_, _, _, _⟩ _ => rfl) (fun c cs c' cs' h => ?_) h
  obtain ⟨entity, columns, body, recursive⟩ := c
  obtain ⟨entity', columns', body', recursive'⟩ := c'
  simp only [agreesList, Bool.and_eq_true] at h
  exact ⟨h.1.1.2, h.2⟩

end Agreement

/-- What is copied to `c` is settled: `c` is its own copy, and it is `a`, or agrees with `a`, only
if `a` was in order. -/
structure Settles {α : Type} (copy : α → Except CopyFailure α) (agrees : α → α → Prop)
    (inOrder : Prop) (a c : α) : Prop where
  again : copy c = .ok c
  same : inOrder → c = a
  of_eq : c = a → inOrder
  of_agrees : agrees c a → inOrder

namespace Settles

variable {α β : Type} {copy : α → Except CopyFailure α} {agrees : α → α → Prop} {inOrder : Prop}
  {a c : α}

theorem congr {inOrder' : Prop} (h : Settles copy agrees inOrder a c) (hiff : inOrder ↔ inOrder') :
    Settles copy agrees inOrder' a c where
  again := h.again
  same := h.same ∘ hiff.2
  of_eq := hiff.1 ∘ h.of_eq
  of_agrees := hiff.1 ∘ h.of_agrees

/-- A copy inside something that is copied by copying it. -/
theorem map {copy' : β → Except CopyFailure β} {agrees' : β → β → Prop} {f : α → β}
    (h : Settles copy agrees inOrder a c) (hf : Function.Injective f)
    (hcopy : ∀ a c, copy a = .ok c → copy' (f a) = .ok (f c))
    (hagrees : agrees' (f c) (f a) → agrees c a) : Settles copy' agrees' inOrder (f a) (f c) where
  again := hcopy c c h.again
  same ha := congrArg f (h.same ha)
  of_eq hca := h.of_eq (hf hca)
  of_agrees hca := h.of_agrees (hagrees hca)

theorem mapM {inOrder : α → Prop} {as cs : List α}
    (h : List.Forall₂ (fun a c => Settles copy agrees (inOrder a) a c) as cs) :
    Settles (List.mapM copy) (List.Forall₂ agrees) (∀ a ∈ as, inOrder a) as cs := by
  induction h with
  | nil => exact ⟨rfl, fun _ => rfl, fun _ => by simp, fun _ => by simp⟩
  | cons hfirst hrest ih =>
      refine ⟨?_, fun hall => ?_, fun heq => ?_, fun hagrees => ?_⟩
      · rw [List.mapM_cons, hfirst.again, ok_bind, ih.again]
        rfl
      · rw [List.forall_mem_cons] at hall
        rw [hfirst.same hall.1, ih.same hall.2]
      · rw [List.cons.injEq] at heq
        exact List.forall_mem_cons.2 ⟨hfirst.of_eq heq.1, ih.of_eq heq.2⟩
      · cases hagrees with
        | cons hone hothers =>
            exact List.forall_mem_cons.2 ⟨hfirst.of_agrees hone, ih.of_agrees hothers⟩

end Settles

section Levels

/-- A level whose nodes are in order is taken over as it is. -/
theorem Select.rebound_self {s : Select} (h : s.joins.WellFormed) (hin : s.joins.InOrder) :
    s.rebound (s.joins.numbering 0) (s.joins.renumbered Expr.rebind) s.ctes = s := by
  have hfixes := h.apply_of_inOrder hin
  have hexpr := Expr.rebind_of_fixes hfixes
  have hitem (i : SelectItem Expr) : i.rebind (s.joins.numbering 0) = i := by
    rw [SelectItem.rebind, hexpr]
  have horder (i : OrderItem Expr) : i.rebind (s.joins.numbering 0) = i := by
    rw [OrderItem.rebind, hexpr]
  rw [rebound, h.renumbered_of_inOrder hin, List.map_id'' hitem, List.map_id'' horder,
    AliasTable.rebind_of_fixes hfixes, Expr.rebindList_eq_map, List.map_id'' hexpr,
    Expr.rebindOption_eq_self fun e _ => hexpr e, Expr.rebindOption_eq_self fun e _ => hexpr e]
  cases s
  rfl

theorem Target.rebound_self {t : Target Expr} (h : t.joins.WellFormed) (hin : t.joins.InOrder) :
    t.rebound (t.joins.numbering 0) (t.joins.renumbered Expr.rebind) = t := by
  rw [rebound, h.renumbered_of_inOrder hin,
    AliasTable.rebind_of_fixes (h.apply_of_inOrder hin)]

theorem Update.rebound_self {u : Update} (h : u.target.joins.WellFormed)
    (hin : u.target.joins.InOrder) :
    u.rebound (u.target.joins.numbering 0) (u.target.joins.renumbered Expr.rebind) = u := by
  have hexpr := Expr.rebind_of_fixes (h.apply_of_inOrder hin)
  rw [rebound, Target.rebound_self h hin,
    Expr.rebindPairs_eq_self fun b _ => ⟨hexpr b.1, hexpr b.2⟩,
    Expr.rebindOption_eq_self fun e _ => hexpr e]
  cases u
  rfl

theorem Delete.rebound_self {d : Delete} (h : d.target.joins.WellFormed)
    (hin : d.target.joins.InOrder) :
    d.rebound (d.target.joins.numbering 0) (d.target.joins.renumbered Expr.rebind) = d := by
  have hexpr := Expr.rebind_of_fixes (h.apply_of_inOrder hin)
  rw [rebound, Target.rebound_self h hin, Expr.rebindOption_eq_self fun e _ => hexpr e]

/-- Levels that agree have the parents and roots of their nodes in common, and tables that agree. -/
theorem Select.shape_of_agrees {s s' : Select} (h : s.agrees s' = true) :
    (s.joins.nodes.map JoinNode.parent = s'.joins.nodes.map JoinNode.parent ∧
        s.joins.roots = s'.joins.roots) ∧
      List.Forall₂ (fun c c' => c.body.agrees c'.body = true) s.ctes s'.ctes := by
  obtain ⟨ctes, distinct, items, ⟨nodes, roots⟩, ⟨entries⟩, condition, groupBy, having, orderBy,
    limits⟩ := s
  obtain ⟨ctes', distinct', items', ⟨nodes', roots'⟩, ⟨entries'⟩, condition', groupBy', having',
    orderBy', limits'⟩ := s'
  simp only [agrees, Bool.and_eq_true, beq_iff_eq] at h
  obtain ⟨⟨⟨⟨⟨⟨⟨⟨⟨⟨hctes, -⟩, -⟩, hnodes⟩, hroots⟩, -⟩, -⟩, -⟩, -⟩, -⟩, -⟩ := h
  exact ⟨⟨JoinNode.parents_of_agreesList hnodes, hroots⟩, Cte.forall₂_of_agreesList hctes⟩

theorem Update.shape_of_agrees {u u' : Update} (h : u.agrees u' = true) :
    u.target.joins.nodes.map JoinNode.parent = u'.target.joins.nodes.map JoinNode.parent ∧
      u.target.joins.roots = u'.target.joins.roots := by
  obtain ⟨⟨entity, aliasName, ⟨nodes, roots⟩, ⟨entries⟩⟩, assignments, condition, returning⟩ := u
  obtain ⟨⟨entity', aliasName', ⟨nodes', roots'⟩, ⟨entries'⟩⟩, assignments', condition',
    returning'⟩ := u'
  simp only [agrees, Bool.and_eq_true, beq_iff_eq] at h
  obtain ⟨⟨⟨⟨⟨⟨-, hnodes⟩, hroots⟩, -⟩, -⟩, -⟩, -⟩ := h
  exact ⟨JoinNode.parents_of_agreesList hnodes, hroots⟩

theorem Delete.shape_of_agrees {d d' : Delete} (h : d.agrees d' = true) :
    d.target.joins.nodes.map JoinNode.parent = d'.target.joins.nodes.map JoinNode.parent ∧
      d.target.joins.roots = d'.target.joins.roots := by
  simp only [agrees, Bool.and_eq_true, beq_iff_eq] at h
  obtain ⟨⟨⟨⟨⟨-, hnodes⟩, hroots⟩, -⟩, -⟩, -⟩ := h
  exact ⟨JoinNode.parents_of_agreesList hnodes, hroots⟩

/-- A level over tables that are settled. -/
theorem Select.settles_rebound {s : Select} {ctes : List Cte} (h : s.joins.WellFormed)
    (hctes : Settles Cte.copyList (List.Forall₂ fun c t => c.body.agrees t.body = true)
      (∀ t ∈ s.ctes, (Fragment.body t.body).InOrder) s.ctes ctes) :
    Settles copy (fun c s => c.agrees s = true) (Fragment.query (.select s)).InOrder s
      (s.rebound (s.joins.numbering 0) (s.joins.renumbered Expr.rebind) ctes) := by
  have horder : (Fragment.query (.select s)).InOrder ↔
      s.joins.InOrder ∧ ∀ t ∈ s.ctes, (Fragment.body t.body).InOrder := by
    rw [Fragment.inOrder_iff]
    simp [Fragment.joins?, Fragment.queries]
  refine ⟨?_, fun hin => ?_, fun heq => ?_, fun hagrees => ?_⟩
  · rw [copy_eq (h.renumbered Expr.rebind), rebound, hctes.again]
    exact congrArg Except.ok (rebound_self (h.renumbered Expr.rebind) h.inOrder_renumbered)
  · obtain ⟨hin, hbodies⟩ := horder.1 hin
    rw [hctes.same hbodies, rebound_self h hin]
  · exact horder.2 ⟨h.inOrder_of_eq (congrArg joins heq), hctes.of_eq (congrArg Select.ctes heq)⟩
  · obtain ⟨hsame, hbodies⟩ := shape_of_agrees hagrees
    exact horder.2 ⟨h.inOrder_of_same hsame, hctes.of_agrees hbodies⟩

theorem Update.settles_rebound {u : Update} (h : u.target.joins.WellFormed) :
    Settles copy (fun c u => c.agrees u = true) u.target.joins.InOrder u
      (u.rebound (u.target.joins.numbering 0) (u.target.joins.renumbered Expr.rebind)) where
  again := by
    rw [copy_eq (h.renumbered Expr.rebind)]
    exact congrArg Except.ok (rebound_self (h.renumbered Expr.rebind) h.inOrder_renumbered)
  same := rebound_self h
  of_eq heq := h.inOrder_of_eq (congrArg (fun u => u.target.joins) heq)
  of_agrees hagrees := h.inOrder_of_same (shape_of_agrees hagrees)

theorem Delete.settles_rebound {d : Delete} (h : d.target.joins.WellFormed) :
    Settles copy (fun c d => c.agrees d = true) d.target.joins.InOrder d
      (d.rebound (d.target.joins.numbering 0) (d.target.joins.renumbered Expr.rebind)) where
  again := by
    rw [copy_eq (h.renumbered Expr.rebind)]
    exact congrArg Except.ok (rebound_self (h.renumbered Expr.rebind) h.inOrder_renumbered)
  same := rebound_self h
  of_eq heq := h.inOrder_of_eq (congrArg (fun d => d.target.joins) heq)
  of_agrees hagrees := h.inOrder_of_same (shape_of_agrees hagrees)

end Levels

/-- A query with well-formed graphs is settled by copying it. -/
def Query.CopySettles (q : Query) : Prop :=
  q.GraphsWellFormed → ∀ c, q.copy = .ok c →
    Settles copy (fun c q => c.agrees q = true) (Fragment.query q).InOrder q c

/-- The body of a common table with well-formed graphs is settled by copying it. -/
def CteBody.CopySettles (b : CteBody) : Prop :=
  b.GraphsWellFormed → ∀ c, b.copy = .ok c →
    Settles copy (fun c b => c.agrees b = true) (Fragment.body b).InOrder b c

theorem Query.copyList_settles {qs cs : List Query} (hcopy : copyList qs = .ok cs)
    (wf : AllGraphsWellFormed qs) (h : ∀ q ∈ qs, q.CopySettles) :
    Settles copyList (List.Forall₂ fun c q => c.agrees q = true)
      (∀ q ∈ qs, (Fragment.query q).InOrder) qs cs := by
  rw [copyList_eq_mapM, mapM_eq_ok] at hcopy
  rw [allGraphsWellFormed_iff] at wf
  have hall : ∀ q ∈ qs, ∀ c, q.copy = .ok c →
      Settles copy (fun c q => c.agrees q = true) (Fragment.query q).InOrder q c :=
    fun q hq => h q hq (wf q hq)
  have hsettles := Settles.mapM
    (((List.forall₂_and_left qs cs).2 ⟨hall, hcopy⟩).imp fun q c hq => hq.1 c hq.2)
  rwa [← funext copyList_eq_mapM] at hsettles

theorem Cte.copyList_settles {ts cs : List Cte} (hcopy : copyList ts = .ok cs)
    (wf : AllGraphsWellFormed ts) (h : ∀ t ∈ ts, t.body.CopySettles) :
    Settles copyList (List.Forall₂ fun c t => c.body.agrees t.body = true)
      (∀ t ∈ ts, (Fragment.body t.body).InOrder) ts cs := by
  rw [copyList_eq_mapM, mapM_eq_ok] at hcopy
  rw [allGraphsWellFormed_iff] at wf
  have hall : ∀ t ∈ ts, ∀ c, t.copy = .ok c → Settles copy
      (fun c t => c.body.agrees t.body = true) (Fragment.body t.body).InOrder t c := by
    intro t ht c hc
    rw [copy, bind_eq_ok] at hc
    obtain ⟨body, hbody, hc⟩ := hc
    rw [pure_eq_ok] at hc
    subst hc
    have hbody := h t ht (wf t ht) body hbody
    obtain ⟨entity, columns, old, recursive⟩ := t
    refine hbody.map (f := fun b => ⟨entity, columns, b, recursive⟩)
      (fun _ _ heq => congrArg Cte.body heq) (fun b c hc => ?_) ?_
    · rw [copy, hc]
      rfl
    · exact id
  have hsettles := Settles.mapM
    (((List.forall₂_and_left ts cs).2 ⟨hall, hcopy⟩).imp fun t c ht => ht.1 c ht.2)
  rwa [← funext copyList_eq_mapM] at hsettles

/-- A set operation over queries that are settled. -/
theorem SetOperation.settles {o : SetOperation} {start : Query} {operands : List Query}
    (hstart : Settles Query.copy (fun c q => c.agrees q = true) (Fragment.query o.start).InOrder
      o.start start)
    (hoperands : Settles Query.copyList (List.Forall₂ fun c q => c.agrees q = true)
      (∀ q ∈ o.operands, (Fragment.query q).InOrder) o.operands operands) :
    Settles Query.copy (fun c q => c.agrees q = true) (Fragment.query (.combined o)).InOrder
      (.combined o) (.combined { o with start := start, operands := operands }) := by
  have horder : (Fragment.query (.combined o)).InOrder ↔
      (Fragment.query o.start).InOrder ∧ ∀ q ∈ o.operands, (Fragment.query q).InOrder := by
    rw [Fragment.inOrder_iff]
    simp [Fragment.joins?, Fragment.queries, members]
  obtain ⟨operator, first, rest, orderBy, limits⟩ := o
  refine ⟨?_, fun hin => ?_, fun heq => ?_, fun hagrees => ?_⟩
  · rw [Query.copy, copy_eq]
    simp only [hstart.again, hoperands.again]
    rfl
  · obtain ⟨hfirst, hrest⟩ := horder.1 hin
    rw [hstart.same hfirst, hoperands.same hrest]
  · have hparts := SetOperation.mk.inj (Query.combined.inj heq)
    exact horder.2 ⟨hstart.of_eq hparts.2.1, hoperands.of_eq hparts.2.2.1⟩
  · simp only [Query.agrees, agrees, Bool.and_eq_true] at hagrees
    obtain ⟨⟨⟨⟨-, hfirst⟩, hrest⟩, -⟩, -⟩ := hagrees
    exact horder.2 ⟨hstart.of_agrees hfirst,
      hoperands.of_agrees (Query.forall₂_of_agreesList hrest)⟩

theorem hereditary_copySettles :
    Hereditary (fun _ => True) Query.CopySettles CteBody.CopySettles := by
  refine .of_queries ?select ?combined ?query ?update ?collectionDelete
  case select =>
    intro s hbodies wf c hc
    rw [Query.GraphsWellFormed, Select.graphsWellFormed_iff] at wf
    obtain ⟨hjoins, hctes⟩ := wf
    rw [Query.copy, Select.copy_eq hjoins] at hc
    obtain ⟨copied, hcopied, hc⟩ := bind_eq_ok.1 hc
    obtain ⟨ctes, hcopies, hlevel⟩ := map_eq_ok.1 hcopied
    rw [pure_eq_ok] at hc
    subst hlevel hc
    refine (Select.settles_rebound hjoins (Cte.copyList_settles hcopies hctes hbodies)).map
      (f := Query.select) (fun _ _ heq => Query.select.inj heq) (fun s c hs => ?_) ?_
    · rw [Query.copy, hs]
      rfl
    · exact id
  case combined =>
    intro o ihstart ihoperands wf c hc
    rw [Query.GraphsWellFormed, SetOperation.graphsWellFormed_iff] at wf
    obtain ⟨hstart, hoperands⟩ := wf
    rw [Query.copy, SetOperation.copy_eq] at hc
    simp only [bind_eq_ok, pure_eq_ok] at hc
    obtain ⟨_, ⟨start, hfirst, operands, hrest, rfl⟩, rfl⟩ := hc
    exact SetOperation.settles (ihstart hstart start hfirst)
      (Query.copyList_settles hrest hoperands ihoperands)
  case query =>
    intro q hq wf c hc
    rw [CteBody.copy, bind_eq_ok] at hc
    obtain ⟨copied, hcopied, hc⟩ := hc
    rw [pure_eq_ok] at hc
    subst hc
    have horder : (Fragment.body (.query q)).InOrder ↔ (Fragment.query q).InOrder := by
      rw [Fragment.inOrder_iff]
      simp [Fragment.joins?, Fragment.queries]
    refine ((hq wf copied hcopied).map (f := CteBody.query)
      (fun _ _ heq => CteBody.query.inj heq) (fun q c hq => ?_) ?_).congr horder.symm
    · rw [CteBody.copy, hq]
      rfl
    · exact id
  case update =>
    intro u wf c hc
    rw [CteBody.copy, Update.copy_eq wf] at hc
    cases hc
    have horder := Fragment.inOrder_iff_joins (f := .body (.update u)) rfl rfl
    refine ((Update.settles_rebound wf).map (f := CteBody.update)
      (fun _ _ heq => CteBody.update.inj heq) (fun u c hu => ?_) ?_).congr horder.symm
    · rw [CteBody.copy, hu]
      rfl
    · exact id
  case collectionDelete =>
    intro d _ c hc
    rw [CteBody.copy] at hc
    cases hc

theorem Statement.settles_copy {s c : Statement} (wf : s.GraphsWellFormed) (h : s.copy = .ok c) :
    Settles copy (fun c s => c.agrees s = true) s.fragment.InOrder s c := by
  cases s with
  | select q =>
      obtain ⟨copied, hcopied, hc⟩ := bind_eq_ok.1 h
      rw [pure_eq_ok] at hc
      subst hc
      refine (hereditary_copySettles.queries q wf copied hcopied).map (f := Statement.select)
        (fun _ _ heq => Statement.select.inj heq) (fun q c hq => ?_) ?_
      · rw [copy, hq]
        rfl
      · exact id
  | update u =>
      rw [copy, Update.copy_eq wf] at h
      cases h
      have horder := Fragment.inOrder_iff_joins (f := .body (.update u)) rfl rfl
      refine ((Update.settles_rebound wf).map (f := Statement.update)
        (fun _ _ heq => Statement.update.inj heq) (fun u c hu => ?_) ?_).congr horder.symm
      · rw [copy, hu]
        rfl
      · exact id
  | delete d =>
      rw [copy, Delete.copy_eq wf] at h
      cases h
      have horder := Fragment.inOrder_iff_joins (f := .delete d) rfl rfl
      refine ((Delete.settles_rebound wf).map (f := Statement.delete)
        (fun _ _ heq => Statement.delete.inj heq) (fun d c hd => ?_) ?_).congr horder.symm
      · rw [copy, hd]
        rfl
      · exact id
  | collectionDelete d => cases h

/-- Copying is a normalisation. A copy is its own copy, and it is its original if the FROM clauses
meet the nodes in order, and not otherwise. It equals the original as a value under the same
condition, apart from what is not equal to itself. -/
theorem Statement.copy_normalizes {s c : Statement} (wf : s.GraphsWellFormed)
    (h : s.copy = .ok c) :
    c.copy = .ok c ∧ (c = s ↔ s.fragment.InOrder) ∧
      (c.agrees s = true ↔ s.fragment.InOrder ∧ s.agrees s = true) := by
  have hsettles := settles_copy wf h
  refine ⟨hsettles.again, ⟨hsettles.of_eq, hsettles.same⟩, fun hagrees => ?_, ?_⟩
  · have hin := hsettles.of_agrees hagrees
    exact ⟨hin, hsettles.same hin ▸ hagrees⟩
  · rintro ⟨hin, hself⟩
    rwa [hsettles.same hin]

/-- Nodes that the FROM clause meets in the order 0, 2, 3, 1 get other numbers, once. -/
theorem Statement.copy_normalizes_interleaved :
    (Statement.select (.select .interleaved)).GraphsWellFormed ∧
      ∃ c, (Statement.select (.select .interleaved)).copy = .ok c ∧ c.copy = .ok c ∧
        c ≠ .select (.select .interleaved) := by
  have wf : (Statement.select (.select .interleaved)).GraphsWellFormed :=
    ⟨⟨by decide, by decide, by decide⟩, trivial⟩
  obtain ⟨c, hc⟩ : ∃ c, (Statement.select (.select .interleaved)).copy = .ok c := ⟨_, rfl⟩
  have hnormal := Statement.copy_normalizes wf hc
  refine ⟨wf, c, hc, hnormal.1, fun heq => ?_⟩
  have hin := hnormal.2.1.1 heq _ .refl _ rfl
  exact absurd hin (by decide)

end EntityQuery
