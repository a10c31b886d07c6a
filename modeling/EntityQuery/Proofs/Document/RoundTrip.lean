import EntityQuery.Proofs.Document.Numbers
import EntityQuery.Proofs.Document.Storing
import EntityQuery.Proofs.Document.Variation

/-!
Documents and statements agree. Whatever is decoded can be stored again, since the floats of a
document are finite and its integers no longer than sixty-four bits; so a statement, its document,
and every document that says the same in other words all stand for the statement.
-/

namespace EntityQuery

/-- The numbers of a document are such as can be written: integers of sixty-four bits, with a sign
or without one, and finite doubles. -/
inductive Json.InRange : Json → Prop
  | null : InRange .null
  | bool (b : Bool) : InRange (.bool b)
  | int {n : Int} (lower : Int64.minValue.toInt ≤ n) (upper : n < UInt64.size) : InRange (.int n)
  | float {x : Double} (finite : x.isFinite = true) : InRange (.float x)
  | string (s : String) : InRange (.string s)
  | array {js : List Json} (items : ∀ j ∈ js, InRange j) : InRange (.array js)
  | object {found : List (String × Json)} (fields : ∀ f ∈ found, InRange f.2) :
      InRange (.object found)
  | unreadable : InRange .unreadable

namespace Json.InRange

@[simp] theorem float_iff {x : Double} : InRange (.float x) ↔ x.isFinite = true :=
  ⟨fun h => by cases h; assumption, .float⟩

@[simp] theorem array_iff {js : List Json} : InRange (.array js) ↔ ∀ j ∈ js, InRange j :=
  ⟨fun h => by cases h; assumption, .array⟩

@[simp] theorem object_iff {found : List (String × Json)} :
    InRange (.object found) ↔ ∀ f ∈ found, InRange f.2 :=
  ⟨fun h => by cases h; assumption, .object⟩

attribute [simp] null bool string unreadable

end Json.InRange

/-- A double is finite, and the one nearest to an integer of sixty-four bits is so, too. -/
theorem Json.isFinite_of_double? {j : Json} (hj : j.InRange) {x : Double}
    (hx : j.double? = some x) : x.isFinite = true := by
  cases hj with
  | int lower upper =>
    have hmin : Int64.minValue.toInt = -2 ^ 63 := rfl
    have hsize : (UInt64.size : Int) = 2 ^ 64 := rfl
    rw [← Option.some.inj hx]
    exact Double.isFinite_ofInt (by omega)
  | float finite => rwa [← Option.some.inj hx]
  | _ => cases hx

/-! ### What the parts of a document have to be -/

namespace DocumentType

/-- What of a type can be stored. -/
def Storable : (t : DocumentType) → t.Value → Prop
  | double, x => x.isFinite = true
  | list item, vs => ∀ v ∈ vs, item.Storable v
  | pair part, v => part.Storable v.1 ∧ part.Storable v.2
  | literal, v => v.Storable
  | parameterValue, v => v.Storable
  | parameter, p => p.Storable
  | expr, e => e.Storable
  | query, q => q.Storable
  | select, s => s.Storable
  | selectItem, i => SelectItem.Storable i
  | orderItem, i => OrderItem.Storable i
  | node, n => JoinNode.Storable n
  | graph, g => JoinGraph.Storable g
  | aliasEntry, entry => AliasEntry.Storable entry
  | aliasEntries, t => AliasTable.Storable t
  | aliasTable, t => AliasTable.Storable t
  | setOperation, c => c.Storable
  | cte, c => c.Storable
  | cteBody, b => b.Storable
  | update, u => u.Storable
  | delete, d => d.Storable
  | collectionDelete, d => d.Storable
  | target, t => Target.Storable t
  | statement, s => s.Storable
  | string, _ | bool, _ | int64, _ | uint64, _ | nodeId, _ | char, _ | path, _
  | binaryOperator, _ | relation, _ | joinType, _ | sortDirection, _ | nullsOrder, _
  | setOperator, _ | joinSource, _ => True

end DocumentType

namespace DocumentField

def Storable : (f : DocumentField) → f.Value → Prop
  | required _ type, v | defaulted _ type _, v => type.Storable v
  | optional _ type, v => ∀ a ∈ v, type.Storable a

/-- What absence of the field means can be stored. -/
@[simp] def DefaultStorable : DocumentField → Prop
  | required .. | optional .. => True
  | defaulted _ type default => type.Storable default

def AllStorable : (fs : List DocumentField) → Values fs → Prop
  | [], _ => True
  | f :: rest, (v, vs) => f.Storable v ∧ AllStorable rest vs

end DocumentField

section Keeping

variable {α : Type} (p : α → Prop)

/-- A record of what can be stored has the property. -/
def DocumentRecord.Keeps (r : DocumentRecord α) : Prop :=
  (∀ f ∈ r.fields, f.DefaultStorable) ∧
    ∀ vs, DocumentField.AllStorable r.fields vs → p (r.assemble vs)

def DocumentContent.Keeps : DocumentContent α → Prop
  | nothing value => p value
  | single type wrap => ∀ v, type.Storable v → p (wrap v)
  | fields r => r.Keeps p

/-- What has the form, with parts that can be stored, has the property. -/
def DocumentForm.Keeps : DocumentForm α → Prop
  | atom read => ∀ j v, j.InRange → read j = some v → p v
  | items type wrap => ∀ vs, (∀ v ∈ vs, type.Storable v) → p (wrap vs)
  | couple type wrap => ∀ v v', type.Storable v → type.Storable v' → p (wrap (v, v'))
  | entries type wrap => ∀ vs, (∀ v ∈ vs, type.Storable v.2) → p (wrap vs)
  | record r => r.Keeps p
  | alternatives contents => ∀ c ∈ contents, c.2.Keeps p

variable {p}

theorem DocumentForm.keeps_nil : (alternatives []).Keeps p ↔ True :=
  iff_true_intro (List.forall_mem_nil _)

theorem DocumentForm.keeps_cons {name : String} {content : DocumentContent α}
    {rest : List (String × DocumentContent α)} :
    (alternatives ((name, content) :: rest)).Keeps p ↔
      content.Keeps p ∧ (alternatives rest).Keeps p :=
  List.forall_mem_cons

end Keeping

theorem AliasTable.Storable.foldl_insert {es : List (String × AliasEntry Expr)}
    (h : ∀ e ∈ es, AliasEntry.Storable e.2) {t : AliasTable Expr} (ht : AliasTable.Storable t) :
    AliasTable.Storable (es.foldl (fun t e => t.insert e.1 e.2) t) := by
  induction es generalizing t with
  | nil => exact ht
  | cons e rest ih =>
    refine ih (fun e he => h e (List.mem_cons_of_mem _ he)) ?_
    obtain ⟨hsorted, hentries⟩ := ht
    refine .mk (hsorted.insert e.1 e.2) fun other hother => ?_
    rcases AliasTable.mem_insertEntry hother with rfl | hother
    · exact h _ List.mem_cons_self
    · exact hentries other hother

theorem AliasTable.storable_empty : AliasTable.Storable {} :=
  .mk .nil (List.forall_mem_nil _)

theorem JoinGraph.storable_empty : JoinGraph.Storable {} :=
  .mk (List.forall_mem_nil _)

namespace DocumentType

theorem expr_keeps : expr.form.Keeps Expr.Storable := by
  simp only [form, DocumentForm.keeps_cons, DocumentForm.keeps_nil, and_true]
  refine ⟨.null, fun p _ => .path p, fun v h => .literal h, fun p h => .parameter h, ?call,
    ?aggregate, fun q h => .subquery h, ?indexed, ?caseWhen, ?binary, fun e h => .not h, ?isNull,
    ?like, ?oneOf, ?between, fun e h => .parens h, fun s _ => .verbatim s⟩
  case call =>
    refine ⟨by simp, ?_⟩
    rintro _ ⟨_, hargs, _⟩
    exact .call hargs
  case aggregate =>
    refine ⟨by simp, ?_⟩
    rintro _ ⟨_, hargs, _⟩
    exact .aggregate hargs
  case indexed =>
    refine ⟨by simp, ?_⟩
    rintro _ ⟨_, hindex, _⟩
    exact .indexed hindex
  case caseWhen =>
    refine ⟨by simp, ?_⟩
    rintro _ ⟨hoperand, hbranches, hotherwise, _⟩
    exact .caseWhen hoperand (fun b hb => (hbranches b hb).1) (fun b hb => (hbranches b hb).2)
      hotherwise
  case binary =>
    refine ⟨by simp, ?_⟩
    rintro _ ⟨hleft, _, hright, _⟩
    exact .binary hleft hright
  case isNull =>
    refine ⟨by simp, ?_⟩
    rintro _ ⟨he, _⟩
    exact .isNull he
  case like =>
    refine ⟨by simp, ?_⟩
    rintro _ ⟨he, hpattern, _⟩
    exact .like he hpattern
  case oneOf =>
    refine ⟨by simp, ?_⟩
    rintro _ ⟨he, hvalues, _⟩
    exact .oneOf he hvalues
  case between =>
    refine ⟨by simp, ?_⟩
    rintro _ ⟨he, hlow, hhigh, _⟩
    exact .between he hlow hhigh

/-- Where all parts can be stored, so can the whole; one case for each type. -/
theorem form_keeps (t : DocumentType) : t.form.Keeps t.Storable := by
  cases t
  case string | bool | int64 | uint64 | nodeId | char => exact fun _ _ _ _ => trivial
  case double => exact fun j x hj hx => Json.isFinite_of_double? hj hx
  case binaryOperator | relation | joinType | sortDirection | nullsOrder | setOperator =>
    intro c hc
    obtain ⟨a, -, rfl⟩ := List.mem_map.1 hc
    trivial
  case list item => exact fun vs hvs => hvs
  case pair part => exact fun v v' hv hv' => ⟨hv, hv'⟩
  case path => exact ⟨by simp, fun _ _ => trivial⟩
  case joinSource =>
    simp only [form, DocumentForm.keeps_cons, DocumentForm.keeps_nil, and_true]
    exact ⟨⟨by simp, fun _ _ => trivial⟩, ⟨by simp, fun _ _ => trivial⟩,
      ⟨by simp, fun _ _ => trivial⟩, ⟨by simp, fun _ _ => trivial⟩⟩
  case literal =>
    simp only [form, DocumentForm.keeps_cons, DocumentForm.keeps_nil, and_true]
    exact ⟨fun _ _ _ => Literal.noConfusion, fun x hx _ heq => Literal.float.inj heq ▸ hx,
      fun _ _ _ => Literal.noConfusion, fun _ _ _ => Literal.noConfusion⟩
  case parameterValue =>
    simp only [form, DocumentForm.keeps_cons, DocumentForm.keeps_nil, and_true]
    exact ⟨fun _ h => h, fun _ h => h⟩
  case parameter =>
    refine ⟨by simp, ?_⟩
    rintro _ ⟨_, hvalue, _⟩
    exact hvalue
  case expr => exact expr_keeps
  case query =>
    simp only [form, DocumentForm.keeps_cons, DocumentForm.keeps_nil, and_true]
    exact ⟨fun _ h => .select h, fun _ h => .combined h⟩
  case select =>
    refine ⟨by simp [Storable, AliasTable.storable_empty, JoinGraph.storable_empty], ?_⟩
    rintro _ ⟨hctes, _, hitems, hjoins, haliases, hcondition, hgroupBy, hhaving, horderBy, _⟩
    exact .mk hctes hitems hjoins haliases hcondition hgroupBy hhaving horderBy
  case selectItem =>
    refine ⟨by simp, ?_⟩
    rintro _ ⟨he, _⟩
    exact .mk he
  case orderItem =>
    refine ⟨by simp [Storable], ?_⟩
    rintro _ ⟨he, _⟩
    exact .mk he
  case node =>
    refine ⟨by simp [Storable], ?_⟩
    rintro _ ⟨_, _, _, _, _, hcondition, _⟩
    exact .mk hcondition
  case graph =>
    refine ⟨by simp, ?_⟩
    rintro _ ⟨hnodes, _⟩
    exact .mk hnodes
  case aliasEntry =>
    simp only [form, DocumentForm.keeps_cons, DocumentForm.keeps_nil, and_true]
    refine ⟨⟨by simp [Storable], fun _ _ => .join _ _ _⟩, ⟨by simp, ?_⟩⟩
    rintro _ ⟨_, he, _⟩
    exact .select he
  case aliasEntries =>
    exact fun es hes => AliasTable.storable_empty.foldl_insert hes
  case aliasTable =>
    refine ⟨by simp, ?_⟩
    rintro _ ⟨ht, _⟩
    exact ht
  case setOperation =>
    refine ⟨by simp [Storable], ?_⟩
    rintro _ ⟨_, hstart, hoperands, horderBy, _⟩
    exact .mk hstart hoperands horderBy
  case cte =>
    refine ⟨by simp [Storable], ?_⟩
    rintro _ ⟨_, _, hbody, _⟩
    exact .mk hbody
  case cteBody =>
    simp only [form, DocumentForm.keeps_cons, DocumentForm.keeps_nil, and_true]
    exact ⟨fun _ h => .query h, fun _ h => .update h, fun _ h => .collectionDelete h⟩
  case update =>
    refine ⟨by simp [Storable], ?_⟩
    rintro _ ⟨htarget, hassignments, hcondition, _⟩
    exact .mk htarget (fun a ha => (hassignments a ha).1) (fun a ha => (hassignments a ha).2)
      hcondition
  case delete =>
    refine ⟨by simp [Storable], ?_⟩
    rintro _ ⟨htarget, hcondition, _⟩
    exact ⟨htarget, hcondition⟩
  case collectionDelete =>
    refine ⟨by simp [Storable], ?_⟩
    rintro _ ⟨htarget, _, hcondition, _⟩
    exact .mk htarget hcondition
  case target =>
    refine ⟨by simp [Storable, AliasTable.storable_empty, JoinGraph.storable_empty], ?_⟩
    rintro _ ⟨_, _, hjoins, haliases, _⟩
    exact .mk hjoins haliases
  case statement =>
    simp only [form, DocumentForm.keeps_cons, DocumentForm.keeps_nil, and_true]
    exact ⟨fun _ h => h, fun _ h => h, fun _ h => h, fun _ h => h⟩

end DocumentType

/-! ### What is decoded can be stored -/

section Reading

variable {α : Type} {R : DocumentType.Reader}

/-- The readers answer what can be stored, for what stands within a document. -/
def DocumentType.StorableWithin (R : DocumentType.Reader) (whole : Json) : Prop :=
  ∀ t j v, j.depth < whole.depth → j.InRange → R t j = some v → DocumentType.Storable t v

theorem DocumentField.storable_of_read {f : DocumentField} (hdefault : f.DefaultStorable)
    {found : Option Json} (hfound : ∀ j ∈ found, ∀ v, R f.type j = some v → f.type.Storable v)
    {v : f.Value} (h : f.read R found = some v) : f.Storable v := by
  cases f with
  | required name type =>
    obtain ⟨j, hj, hv⟩ := Option.bind_eq_some_iff.1 h
    exact hfound j hj v hv
  | optional name type =>
    rcases found with _ | j
    · cases h
      simp [Storable]
    by_cases hnull : j = .null
    · subst hnull
      cases h
      simp [Storable]
    · rw [DocumentField.read] at h
      · obtain ⟨a, ha, rfl⟩ := Option.map_eq_some_iff.1 h
        rintro _ ⟨⟩
        exact hfound j rfl a ha
      · exact hnull
  | defaulted name type default =>
    rcases found with _ | j
    · cases h
      exact hdefault
    · exact hfound j rfl v h

theorem DocumentRecord.storable_of_read {p : α → Prop} {r : DocumentRecord α} (hr : r.Keeps p)
    {j : Json} (hj : j.InRange) (hparts : DocumentType.StorableWithin R j) {a : α}
    (h : r.read R j = some a) : p a := by
  obtain ⟨found, hfound, hread⟩ := Option.bind_eq_some_iff.1 h
  obtain ⟨vs, hvs, ha⟩ := Option.bind_eq_some_iff.1 hread
  cases Json.record?_eq_some hfound
  cases hj with
  | object hfields =>
  have hall (fs : List DocumentField) (hfs : ∀ f ∈ fs, f.DefaultStorable)
      (vs : DocumentField.Values fs) (hvs : DocumentField.readAll R found fs = some vs) :
      DocumentField.AllStorable fs vs := by
    induction fs with
    | nil => trivial
    | cons f rest ih =>
      obtain ⟨v, hv, hrest⟩ := Option.bind_eq_some_iff.1 hvs
      obtain ⟨others, hothers, heq⟩ := Option.bind_eq_some_iff.1 hrest
      cases heq
      obtain ⟨hdefault, hdefaults⟩ := List.forall_mem_cons.1 hfs
      refine ⟨DocumentField.storable_of_read hdefault (fun j hj v hv => ?_) hv,
        ih hdefaults others hothers⟩
      have hmem := Json.mem_of_lookup hj
      exact hparts _ j v (Json.depth_lt_of_mem_object hmem) (hfields _ hmem) hv
  cases ha
  exact hr.2 vs (hall r.fields hr.1 vs hvs)

theorem DocumentContent.storable_of_read {p : α → Prop} {content : DocumentContent α}
    (hcontent : content.Keeps p) {found : Option Json} (hfound : ∀ j ∈ found, j.InRange)
    {whole : Json} (hdepth : ∀ j ∈ found, j.depth < whole.depth)
    (hparts : DocumentType.StorableWithin R whole) {a : α} (h : content.read R found = some a) :
    p a := by
  rcases found with _ | j
  · cases content with
    | nothing value => cases h; exact hcontent
    | _ => cases h
  have hj := hfound j rfl
  have hlt := hdepth j rfl
  cases content with
  | nothing value => cases j <;> cases h; exact hcontent
  | single type wrap =>
    obtain ⟨v, hv, rfl⟩ := Option.map_eq_some_iff.1 h
    exact hcontent v (hparts type j v hlt hj hv)
  | fields r =>
    exact r.storable_of_read hcontent hj
      (fun t j' v hlt' => hparts t j' v (Nat.lt_trans hlt' hlt)) h

theorem DocumentForm.storable_of_read {p : α → Prop} {form : DocumentForm α} (hform : form.Keeps p)
    {j : Json} (hj : j.InRange) (hparts : DocumentType.StorableWithin R j) {a : α}
    (h : form.read R j = some a) : p a := by
  cases form with
  | atom read => exact hform j a hj h
  | items type wrap =>
    obtain ⟨vs, hvs, rfl⟩ := Option.map_eq_some_iff.1 h
    cases hj <;> try cases hvs
    case array js hitems =>
    refine hform vs fun v hv => ?_
    obtain ⟨item, hitem, hread⟩ := exists_of_mem_forall₂ (mapM_eq_some.1 hvs) hv
    exact hparts type item v (Json.depth_lt_of_mem_array hitem) (hitems item hitem) hread
  | couple type wrap =>
    obtain ⟨v, hv, rfl⟩ := Option.map_eq_some_iff.1 h
    unfold Json.pair? at hv
    split at hv
    next first second =>
      cases hj with
      | array hitems =>
      obtain ⟨a, ha, hrest⟩ := Option.bind_eq_some_iff.1 hv
      obtain ⟨b, hb, heq⟩ := Option.bind_eq_some_iff.1 hrest
      cases heq
      exact hform a b
        (hparts type first a (Json.depth_lt_of_mem_array (by simp)) (hitems _ (by simp)) ha)
        (hparts type second b (Json.depth_lt_of_mem_array (by simp)) (hitems _ (by simp)) hb)
    next => cases hv
  | entries type wrap =>
    cases hj <;> try cases h
    case object found hfields =>
    obtain ⟨vs, hvs, rfl⟩ := Option.map_eq_some_iff.1 h
    refine hform vs fun v hv => ?_
    obtain ⟨f, hf, hread⟩ := exists_of_mem_forall₂ (mapM_eq_some.1 hvs) hv
    obtain ⟨w, hw, rfl⟩ := Option.map_eq_some_iff.1 hread
    exact hparts type f.2 w (Json.depth_lt_of_mem_object hf) (hfields f hf) hw
  | record r => exact r.storable_of_read hform hj hparts h
  | alternatives contents =>
    obtain ⟨⟨name, content⟩, hvariant, hrest⟩ := Option.bind_eq_some_iff.1 h
    obtain ⟨found, hfound, hread⟩ := Option.bind_eq_some_iff.1 hrest
    obtain ⟨before, after, rfl, -⟩ := List.lookup_eq_some_iff.1 hfound
    have hkeeps : found.Keeps p := hform (name, found) (by simp)
    have hwithin : ∀ c ∈ content, j = .variant name c := by
      rintro c rfl
      exact Json.variant?_eq_some hvariant
    refine found.storable_of_read hkeeps (fun c hc => ?_) (fun c hc => ?_) hparts hread
    · cases hwithin c hc
      cases hj with
      | object hfields => exact hfields (name, c) (List.mem_singleton_self _)
    · cases hwithin c hc
      exact Json.depth_lt_of_mem_object (List.mem_singleton_self (name, c))

end Reading

/-- What is decoded can be stored. -/
theorem DocumentType.storable_of_decode (t : DocumentType) (j : Json) (hj : j.InRange)
    {v : t.Value} (h : t.decode j = some v) : t.Storable v := by
  -- What stands within the document has fewer levels, so the recursion is on their number.
  rw [decode_eq] at h
  exact DocumentForm.storable_of_read t.form_keeps hj
    (fun t' j' v' hdepth hj' hv' => storable_of_decode t' j' hj' hv') h
termination_by j.depth

/-! ### Documents and statements -/

namespace Statement

/-- A statement that can be stored is what its document is read as. A document that is read as the
statement is so after any changes that say the same in other words, and if its numbers are such as
can be written, then the statement can be stored. -/
theorem document_roundTrip (s : Statement) :
    (s.Storable → ofJson? s.toJson = some s) ∧
      ∀ j, ofJson? j = some s →
        (∀ j', Relation.ReflTransGen DocumentType.statement.Varies j j' → ofJson? j' = some s) ∧
          (j.InRange → ofJson? s.toJson = some s) := by
  have hstored (hs : s.Storable) : ofJson? s.toJson = some s := (ofJson?_eq _).trans hs.means.2
  refine ⟨hstored, fun j hj => ⟨fun j' hvaries => ?_, fun hrange => ?_⟩⟩
  · rw [ofJson?_eq] at hj ⊢
    exact DocumentType.decode_of_varies hvaries hj
  · exact hstored (DocumentType.storable_of_decode .statement j hrange hj)

/-- Persons are deleted whose weight is two and a half. -/
def weighed : Statement :=
  .delete {
    target := { entity := "Person", aliasName := "p" }
    condition := some
      (.oneOf (.verbatim "p.weight") [.literal (.float ⟨0x4004000000000000⟩), .null] false) }

/-- Its documents, which differ in the fields of the target, in the document of a null and in what
comes after the condition. -/
def weighedDocument (target : List (String × Json)) (value : Json)
    (rest : List (String × Json)) : Json :=
  .variant "delete" (.object ([
    ("target", .object target),
    ("where_clause", .variant "In" (.object [
      ("expr", .variant "Verbatim" (.string "p.weight")),
      ("values", .array [
        .variant "Literal" (.variant "Float" (.float ⟨0x4004000000000000⟩)), value]),
      ("negated", .bool false)]))] ++ rest))

theorem document_roundTrip_weighed :
    let names := [("entity", Json.string "Person"), ("alias", Json.string "p")]
    let short := weighedDocument names (.variant "Null" .null) [("comment", .array [.unreadable])]
    weighed.Storable ∧ short.InRange ∧
      Relation.ReflTransGen DocumentType.statement.Varies weighed.toJson short ∧
      ofJson? weighed.toJson = some weighed ∧ ofJson? short = some weighed := by
  intro names short
  have hweight : Double.isFinite ⟨0x4004000000000000⟩ = true := by decide
  have hstorable : weighed.Storable := by
    refine ⟨.mk JoinGraph.storable_empty AliasTable.storable_empty, ?_⟩
    rintro _ ⟨⟩
    refine .oneOf (.verbatim _) fun v hv => ?_
    rcases List.mem_pair.1 hv with rfl | rfl
    · refine .literal ?_
      rintro _ ⟨⟩
      exact hweight
    · exact .null
  let joins : String × Json := ("joins", .object [("nodes", .array []), ("roots", .array [])])
  let aliases : String × Json := ("aliases", .object [("aliases", .object [])])
  let returning : String × Json := ("returning", .array [])
  have hwhole : weighed.toJson =
      weighedDocument (names ++ [joins, aliases]) (.string "Null") [returning] := rfl
  have hreturning : DocumentType.statement.Varies weighed.toJson
      (weighedDocument (names ++ [joins, aliases]) (.string "Null") []) := by
    refine .content rfl ?_
    refine .omitted (.record rfl) (f := .defaulted "returning" (.list .string) []) ?_ ?_ [_, _] []
    · simp
    · rfl
  have haliases : DocumentType.statement.Varies
      (weighedDocument (names ++ [joins, aliases]) (.string "Null") [])
      (weighedDocument (names ++ [joins]) (.string "Null") []) := by
    refine .content rfl (.field (.record rfl) (f := .required "target" .target) ?_ ?_ [] [_])
    · simp
    refine .omitted (.record rfl) (f := .defaulted "aliases" .aliasTable {}) ?_ ?_ [_, _, _] []
    · simp
    · rfl
  have hjoins : DocumentType.statement.Varies
      (weighedDocument (names ++ [joins]) (.string "Null") [])
      (weighedDocument names (.string "Null") []) := by
    refine .content rfl (.field (.record rfl) (f := .required "target" .target) ?_ ?_ [] [_])
    · simp
    refine .omitted (.record rfl) (f := .defaulted "joins" .graph {}) ?_ ?_ [_, _] []
    · simp
    · rfl
  have hnull : DocumentType.statement.Varies (weighedDocument names (.string "Null") [])
      (weighedDocument names (.variant "Null" .null) []) := by
    refine .content rfl (.field (.record rfl) (f := .optional "where_clause" .expr) ?_ ?_ [_] [])
    · simp
    refine .field (.alternative rfl) (f := .required "values" (.list .expr)) ?_ ?_ [_] [_]
    · simp
    exact .item (.named rfl) [_] []
  have hcomment : DocumentType.statement.Varies (weighedDocument names (.variant "Null" .null) [])
      short :=
    .content rfl (.unknown (.record rfl) (by decide) [_, _] [] _)
  have hwritten := (document_roundTrip weighed).1 hstorable
  have hvaries : Relation.ReflTransGen DocumentType.statement.Varies weighed.toJson short :=
    .head hreturning (.head haliases (.head hjoins (.head hnull (.single hcomment))))
  have hrange : short.InRange := by
    simp [short, names, weighedDocument, Json.variant, hweight]
  exact ⟨hstorable, hrange, hvaries, hwritten,
    ((document_roundTrip weighed).2 _ hwritten).1 short hvaries⟩

end Statement

end EntityQuery
