import EntityQuery.Proofs.Document.Schema
import EntityQuery.Proofs.Outcome

/-!
Reading goes by the form of documents. The readers of one level do what the form of each type
says, with the readers of the level below for what is nested; and the level does not matter once
it covers the document. So the readers that suffice for a document are one decoder, which reads a
document by reading its parts.
-/

namespace EntityQuery

variable {α : Type} {R R' : DocumentType.Reader}

namespace DocumentField

variable (found : List (String × Json)) (name : String) (type : DocumentType)

theorem read_required : (required name type).read R (found.lookup name) =
    Json.required found name (R type) := rfl

theorem read_optional : (optional name type).read R (found.lookup name) =
    Json.optional found name (R type) := by
  unfold Json.optional
  rcases found.lookup name with _ | j
  · rfl
  · cases j <;> rfl

theorem read_defaulted (default : type.Value) :
    (defaulted name type default).read R (found.lookup name) =
      Json.defaulted found name default (R type) := by
  unfold Json.defaulted
  cases found.lookup name <;> rfl

end DocumentField

namespace DocumentContent

@[simp] theorem read_single_none (t : DocumentType) (wrap : t.Value → α) :
    (single t wrap).read R none = none := rfl

@[simp] theorem read_fields_none (r : DocumentRecord α) : (fields r).read R none = none := rfl

/-- Only null may stand where no content belongs. -/
@[simp] theorem read_nothing_eq_none (value : α) (content : Option Json) :
    (nothing value).read R content = none ↔ ∃ j, content = some j ∧ j ≠ .null := by
  rcases content with _ | j
  · simp [DocumentContent.read]
  · cases j <;> simp [DocumentContent.read]

end DocumentContent

namespace DocumentForm

/-- Alternatives that are nothing but their names are a choice of a name. -/
theorem read_names (all : List α) (name : α → String) (j : Json) :
    (names all name).read R j = Json.choice? all name j := by
  simp only [Json.choice?, names, DocumentForm.read]
  rcases j.variant? with _ | ⟨chosen, content⟩
  · rfl
  simp only [Option.bind_eq_bind, Option.bind_some]
  induction all with
  | nil =>
    rcases content with _ | c
    · rfl
    · cases c <;> rfl
  | cons a rest ih =>
    rw [List.map_cons, List.lookup_cons, List.find?_cons]
    by_cases h : name a = chosen
    · rw [h]
      rcases content with _ | c
      · simp [DocumentContent.read]
      · cases c <;> simp [DocumentContent.read]
    · rw [beq_false_of_ne h, beq_false_of_ne (Ne.symm h)]
      exact ih

variable {form : DocumentForm α} {contents : List (String × DocumentContent α)} {chosen : String}
  {content : Option Json} {j : Json}

theorem read_content? {found : DocumentContent α} (hfound : form.content? chosen = some found)
    (hj : j.variant? = some (chosen, content)) : form.read R j = found.read R content := by
  cases form with
  | alternatives contents =>
    have hlookup : contents.lookup chosen = some found := hfound
    simp [DocumentForm.read, hj, hlookup]
  | _ => cases hfound

theorem read_alternatives_none (hj : j.variant? = some (chosen, content))
    (h : ∀ a ∈ contents, a.2.read R content ≠ none → a.1 ≠ chosen) :
    (alternatives contents).read R j = none := by
  cases hfound : contents.lookup chosen with
  | none => simp [DocumentForm.read, hj, hfound]
  | some found =>
    rw [read_content? (show (alternatives contents).content? chosen = _ from hfound) hj]
    obtain ⟨before, after, rfl, -⟩ := List.lookup_eq_some_iff.1 hfound
    exact Classical.byContradiction fun hread => h (chosen, found) (by simp) hread rfl

end DocumentForm

/-- Entries that are inserted one by one as they are read. -/
theorem AliasTable.foldlM_insert (read : Json → Option (AliasEntry Expr))
    (fields : List (String × Json)) (t : AliasTable Expr) :
    fields.foldlM (fun t f => (read f.2).map fun entry => t.insert f.1 entry) t =
      (fields.mapM fun f => (read f.2).map fun entry => (f.1, entry)).map fun es =>
        es.foldl (fun t e => t.insert e.1 e.2) t := by
  induction fields generalizing t with
  | nil => rfl
  | cons f rest ih =>
    rw [List.foldlM_cons, List.mapM_cons]
    cases read f.2 with
    | none => rfl
    | some entry =>
      simp only [Option.map_some, Option.bind_eq_bind, Option.bind_some, ih]
      rw [Option.map_bind, Option.map_eq_bind]
      rfl

namespace DocumentType

variable (r : DocumentReaders)

/-- Readers for all types, given the readers of the level below. -/
def next : Reader
  | expr => r.nextExpr
  | query => r.nextQuery
  | t => t.read r

/-- A level reads by the form, and what is nested by the level below. -/
theorem next_eq (t : DocumentType) (j : Json) : next r t j = t.form.read (read r) j := by
  cases t
  case string | bool | int64 | uint64 | nodeId | double | char => rfl
  case list | pair => simp [next, read, form, DocumentForm.read]
  case binaryOperator | relation | joinType | sortDirection | nullsOrder | setOperator =>
    exact (DocumentForm.read_names _ _ j).symm
  case parameter | path | selectItem | orderItem | node | graph | aliasTable | setOperation | cte
      | select | update | delete | collectionDelete | target =>
    simp only [next, read, Parameter.ofJson?, Path.ofJson?, DocumentReaders.selectItem,
      DocumentReaders.orderItem, DocumentReaders.node, DocumentReaders.graph,
      DocumentReaders.aliasTable, DocumentReaders.setOperation, DocumentReaders.cte,
      DocumentReaders.select, DocumentReaders.update, DocumentReaders.delete,
      DocumentReaders.collectionDelete, DocumentReaders.target, DocumentReaders.limits,
      form, DocumentForm.read, DocumentRecord.read, DocumentField.readAll, DocumentField.name,
      DocumentField.read_required, DocumentField.read_optional, DocumentField.read_defaulted,
      List.map, bind_assoc, pure_bind, bind_pure]
  case literal | parameterValue | joinSource | expr | query | aliasEntry | cteBody | statement =>
    simp only [next, read, Literal.ofJson?, ParameterValue.ofJson?, JoinSource.ofJson?,
      DocumentReaders.nextExpr, DocumentReaders.nextQuery, DocumentReaders.aliasEntry,
      DocumentReaders.cteBody, DocumentReaders.statement, form]
    cases hj : j.variant? with
    | none => simp [DocumentForm.read, hj]
    | some p =>
      rw [Option.bind_eq_bind, Option.bind_some]
      split
      -- One goal for each alternative, and one for what is none of them.
      any_goals
        rw [DocumentForm.read_content? rfl hj]
        simp only [DocumentContent.read, DocumentRecord.read, DocumentField.readAll,
          DocumentField.name, DocumentField.read_required, DocumentField.read_optional,
          DocumentField.read_defaulted, read, Literal.ofJson?, List.map, Option.map_eq_bind,
          Function.comp_def, Option.bind_eq_bind, Option.pure_def, Option.bind_assoc,
          Option.bind_some]
      refine (DocumentForm.read_alternatives_none hj ?_).symm
      rcases p with ⟨name, _ | c⟩
      all_goals
        simp only [Prod.mk.injEq, Option.some.injEq, reduceCtorEq, and_false, and_true,
          not_false_eq_true, implies_true, imp_false, not_and', forall_eq'] at *
        simp [*, eq_comm (b := name)]
      all_goals assumption
  case aliasEntries =>
    cases j <;> try rfl
    exact AliasTable.foldlM_insert r.aliasEntry _ {}

end DocumentType

/-! ### Levels -/

namespace Json

theorem depth_lt_of_mem_array {items : List Json} {j : Json} (h : j ∈ items) :
    j.depth < (array items).depth := by
  rw [depth, Nat.lt_add_one_iff]
  induction h with
  | head => exact Nat.le_max_left _ _
  | tail _ _ ih => exact Nat.le_trans ih (Nat.le_max_right _ _)

theorem depth_lt_of_mem_object {fields : List (String × Json)} {f : String × Json}
    (h : f ∈ fields) : f.2.depth < (object fields).depth := by
  rw [depth, Nat.lt_add_one_iff]
  induction h with
  | head => exact Nat.le_max_left _ _
  | tail _ _ ih => exact Nat.le_trans ih (Nat.le_max_right _ _)

theorem mem_of_lookup {fields : List (String × Json)} {name : String} {j : Json}
    (h : fields.lookup name = some j) : (name, j) ∈ fields := by
  obtain ⟨before, after, rfl, -⟩ := List.lookup_eq_some_iff.1 h
  simp

theorem record?_eq_some {known : List String} {j : Json} {found : List (String × Json)}
    (h : j.record? known = some found) : j = .object found := by
  unfold record? at h
  split at h
  · split at h
    · rw [Option.some.inj h]
    · cases h
  · cases h

theorem variant?_eq_some {j content : Json} {name : String}
    (h : j.variant? = some (name, some content)) : j = .variant name content := by
  unfold variant? at h
  split at h <;> cases h
  rfl

end Json

theorem DocumentField.read_congr {f : DocumentField} {found : Option Json}
    (h : ∀ j ∈ found, R f.type j = R' f.type j) : f.read R found = f.read R' found := by
  rcases found with _ | j
  · cases f <;> rfl
  · have hj := h j rfl
    cases f with
    | required | defaulted => exact hj
    | optional name type => cases j <;> first | rfl | exact congrArg (Option.map some) hj

theorem DocumentField.readAll_congr {found : List (String × Json)} {fields : List DocumentField}
    (h : ∀ t, ∀ f ∈ found, R t f.2 = R' t f.2) :
    readAll R found fields = readAll R' found fields := by
  induction fields with
  | nil => rfl
  | cons f rest ih =>
    rw [readAll, readAll, read_congr fun j hj => h _ _ (Json.mem_of_lookup hj), ih]

theorem DocumentRecord.read_congr {r : DocumentRecord α} {j : Json}
    (h : ∀ t j', j'.depth < j.depth → R t j' = R' t j') : r.read R j = r.read R' j := by
  rw [DocumentRecord.read, DocumentRecord.read]
  cases hj : j.record? (r.fields.map DocumentField.name) with
  | none => rfl
  | some found =>
    cases Json.record?_eq_some hj
    simp only [Option.bind_eq_bind, Option.bind_some]
    rw [DocumentField.readAll_congr fun t f hf => h t f.2 (Json.depth_lt_of_mem_object hf)]

theorem DocumentContent.read_congr {content : DocumentContent α} {j : Json}
    (h : ∀ t j', j'.depth ≤ j.depth → R t j' = R' t j') :
    content.read R (some j) = content.read R' (some j) := by
  cases content with
  | nothing value => cases j <;> rfl
  | single type wrap => rw [DocumentContent.read, DocumentContent.read, h type j (Nat.le_refl _)]
  | fields r => exact DocumentRecord.read_congr fun t j' hj' => h t j' (Nat.le_of_lt hj')

/-- Reading by a form asks only for what stands within the document. -/
theorem DocumentForm.read_congr {form : DocumentForm α} {j : Json}
    (h : ∀ t j', j'.depth < j.depth → R t j' = R' t j') : form.read R j = form.read R' j := by
  cases form with
  | atom => rfl
  | items type wrap =>
    cases j <;> try rfl
    rw [DocumentForm.read, DocumentForm.read, Json.list?, Json.list?,
      mapM_congr fun j' hj' => h type j' (Json.depth_lt_of_mem_array hj')]
  | couple type wrap =>
    rcases j with _ | _ | _ | _ | _ | (_ | ⟨a, _ | ⟨b, _ | ⟨c, rest⟩⟩⟩) | _ | _ <;> try rfl
    rw [DocumentForm.read, DocumentForm.read, Json.pair?, Json.pair?,
      h type a (Json.depth_lt_of_mem_array (by simp)),
      h type b (Json.depth_lt_of_mem_array (by simp))]
  | entries type wrap =>
    cases j <;> try rfl
    rw [DocumentForm.read, DocumentForm.read,
      mapM_congr fun f hf => by rw [h type f.2 (Json.depth_lt_of_mem_object hf)]]
  | record r => exact DocumentRecord.read_congr h
  | alternatives contents =>
    rw [DocumentForm.read, DocumentForm.read]
    rcases hj : j.variant? with _ | ⟨name, content⟩
    · rfl
    simp only [Option.bind_eq_bind, Option.bind_some]
    congr 1
    funext found
    rcases content with _ | content
    · cases found <;> rfl
    · cases Json.variant?_eq_some hj
      exact DocumentContent.read_congr fun t j' hj' => h t j' (Nat.lt_of_le_of_lt hj'
        (Json.depth_lt_of_mem_object (List.mem_singleton_self (name, content))))

namespace DocumentType

/-- Each level but the lowest goes by the form, with a level that is at most one lower. -/
theorem read_ofDepth_succ (n : Nat) (t : DocumentType) (j : Json) :
    ∃ k, n ≤ k ∧ t.read (DocumentReaders.ofDepth (n + 1)) j =
      t.form.read (read (DocumentReaders.ofDepth k)) j := by
  have hbelow := next_eq (DocumentReaders.ofDepth n) t j
  have hsame := next_eq (DocumentReaders.ofDepth (n + 1)) t j
  cases t
  case expr | query => exact ⟨n, Nat.le_refl n, hbelow⟩
  all_goals exact ⟨n + 1, Nat.le_succ n, hsame⟩

/-- Two levels that both cover a document read it alike. -/
theorem read_ofDepth (t : DocumentType) (j : Json) {m n : Nat} (hm : j.depth < m)
    (hn : j.depth < n) :
    t.read (DocumentReaders.ofDepth m) j = t.read (DocumentReaders.ofDepth n) j := by
  obtain ⟨m, rfl⟩ := Nat.exists_eq_add_one.2 (Nat.zero_lt_of_lt hm)
  obtain ⟨n, rfl⟩ := Nat.exists_eq_add_one.2 (Nat.zero_lt_of_lt hn)
  obtain ⟨k, hk, hread⟩ := read_ofDepth_succ m t j
  obtain ⟨l, hl, hread'⟩ := read_ofDepth_succ n t j
  rw [hread, hread']
  exact DocumentForm.read_congr fun t' j' hj' => read_ofDepth t' j' (by omega) (by omega)
termination_by j.depth

/-- The value of a document, if it is one of the type. -/
def decode : Reader := fun t j => t.read (DocumentReaders.covering j) j

/-- A document is decoded by its form, from what is decoded of its parts. -/
theorem decode_eq (t : DocumentType) (j : Json) : t.decode j = t.form.read decode j := by
  obtain ⟨k, hk, hread⟩ := read_ofDepth_succ j.depth t j
  rw [decode, DocumentReaders.covering, hread]
  exact DocumentForm.read_congr fun t' j' hj' => read_ofDepth t' j' (by omega) (Nat.lt_succ_self _)

end DocumentType

theorem Statement.ofJson?_eq (j : Json) :
    Statement.ofJson? j = DocumentType.statement.decode j := rfl

end EntityQuery
