import Mathlib.Data.List.Nodup
import EntityQuery.Proofs.Aliases.Table
import EntityQuery.Proofs.Document.Decoding

/-!
What a document stands for: it is decoded as that value, and it is not null, so it counts also
where a value may be missing. There is one rule for each form of documents.
-/

namespace EntityQuery

namespace DocumentType

/-- The document stands for the value. -/
def Means (t : DocumentType) (j : Json) (v : t.Value) : Prop := j ≠ .null ∧ t.decode j = some v

end DocumentType

namespace DocumentField

/-- The document stands for what is known of the field. -/
def Means : (f : DocumentField) → Json → f.Value → Prop
  | required _ type, j, v | defaulted _ type _, j, v => type.Means j v
  | optional _ _, j, none => j = .null
  | optional _ type, j, some v => type.Means j v

/-- The documents of an object stand for what is known of the fields, in their order. -/
def AllMean : (fs : List DocumentField) → List (String × Json) → Values fs → Prop
  | [], found, _ => found = []
  | _ :: _, [], _ => False
  | f :: rest, (name, j) :: found, (v, vs) => name = f.name ∧ f.Means j v ∧ AllMean rest found vs

theorem Means.read {f : DocumentField} {j : Json} {v : f.Value} (h : f.Means j v) :
    f.read DocumentType.decode (some j) = some v := by
  cases f with
  | required name type => exact h.2
  | defaulted name type default => exact h.2
  | optional name type =>
    cases v with
    | none => cases h; rfl
    | some v =>
      obtain ⟨hnull, hj⟩ : type.Means j v := h
      rw [DocumentField.read, hj]
      · rfl
      · exact hnull

theorem AllMean.names {fs : List DocumentField} {found : List (String × Json)} {vs : Values fs}
    (h : AllMean fs found vs) : found.map Prod.fst = fs.map name := by
  induction fs generalizing found with
  | nil => rw [show found = [] from h]; rfl
  | cons f rest ih =>
    rcases found with _ | ⟨⟨name, j⟩, found⟩
    · exact h.elim
    · obtain ⟨rfl, -, hrest⟩ := h
      rw [List.map_cons, List.map_cons, ih hrest]

/-- Fields are found by their names, so it does not matter what else the object has. -/
theorem AllMean.readAll {fs : List DocumentField} {found : List (String × Json)} {vs : Values fs}
    {all : List (String × Json)} (h : AllMean fs found vs)
    (hall : ∀ f ∈ found, all.lookup f.1 = some f.2) :
    readAll DocumentType.decode all fs = some vs := by
  induction fs generalizing found with
  | nil => rfl
  | cons f rest ih =>
    rcases found with _ | ⟨⟨name, j⟩, found⟩
    · exact h.elim
    · obtain ⟨rfl, hj, hrest⟩ := h
      rw [DocumentField.readAll, hall _ List.mem_cons_self, hj.read,
        ih hrest fun f hf => hall f (List.mem_cons_of_mem _ hf)]
      rfl

end DocumentField

open DocumentField (AllMean)

/-- The fields of an object count if no known name is repeated. -/
theorem Json.record?_object {known : List String} {found fields : List (String × Json)} :
    (object found).record? known = some fields ↔
      fields = found ∧ ∀ name ∈ known, (found.map Prod.fst).count name ≤ 1 := by
  have hcount (name : String) : (found.map Prod.fst).count name =
      (found.filter fun f => f.1 == name).length := by
    rw [List.count, List.countP_map, List.countP_eq_length_filter]
    rfl
  have hall : (known.all fun name => (found.filter fun f => f.1 == name).length ≤ 1) = true ↔
      ∀ name ∈ known, (found.map Prod.fst).count name ≤ 1 := by
    simp only [hcount, List.all_eq_true, decide_eq_true_eq]
  rw [record?, ← hall]
  split
  next h => exact ⟨fun heq => ⟨(Option.some.inj heq).symm, h⟩, fun heq => by rw [heq.1]⟩
  next h => exact ⟨nofun, fun heq => absurd heq.2 h⟩

theorem Json.lookup_of_nodup {found : List (String × Json)} (h : (found.map Prod.fst).Nodup)
    {f : String × Json} (hf : f ∈ found) : found.lookup f.1 = some f.2 := by
  obtain ⟨before, after, rfl⟩ := List.append_of_mem hf
  rw [List.map_append, List.map_cons] at h
  refine List.lookup_eq_some_iff.2 ⟨before, after, rfl, fun p hp => bne_iff_ne.2 fun heq => ?_⟩
  exact (List.nodup_append.1 h).2.2 p.1 (List.mem_map_of_mem hp) f.1 List.mem_cons_self heq.symm

theorem DocumentRecord.read_of_allMean {α : Type} {r : DocumentRecord α}
    {found : List (String × Json)} {vs : DocumentField.Values r.fields}
    (h : AllMean r.fields found vs) :
    r.read DocumentType.decode (.object found) = some (r.assemble vs) := by
  have hnodup : (found.map Prod.fst).Nodup := h.names ▸ r.distinct
  have hfound := Json.record?_object.2 ⟨rfl, fun name (_ : name ∈ r.fields.map DocumentField.name) =>
    List.nodup_iff_count_le_one.1 hnodup name⟩
  rw [DocumentRecord.read, hfound, Option.bind_eq_bind, Option.bind_some,
    h.readAll fun _ hf => Json.lookup_of_nodup hnodup hf]
  rfl

namespace DocumentType.Means

variable (t : DocumentType)

theorem record {r : DocumentRecord t.Value} (hform : t.form = .record r)
    {found : List (String × Json)} (vs : DocumentField.Values r.fields)
    (h : AllMean r.fields found vs) : t.Means (.object found) (r.assemble vs) := by
  refine ⟨Json.noConfusion, ?_⟩
  rw [decode_eq, hform, DocumentForm.read, DocumentRecord.read_of_allMean h]

theorem fields (name : String) {r : DocumentRecord t.Value}
    (hcontent : t.form.content? name = some (.fields r)) {found : List (String × Json)}
    (vs : DocumentField.Values r.fields) (h : AllMean r.fields found vs) :
    t.Means (.variant name (.object found)) (r.assemble vs) := by
  refine ⟨Json.noConfusion, ?_⟩
  rw [decode_eq, DocumentForm.read_content? hcontent rfl, DocumentContent.read,
    DocumentRecord.read_of_allMean h]

theorem single (name : String) {type : DocumentType} {wrap : type.Value → t.Value}
    (hcontent : t.form.content? name = some (.single type wrap)) {j : Json} {v : type.Value}
    (h : type.Means j v) : t.Means (.variant name j) (wrap v) := by
  refine ⟨Json.noConfusion, ?_⟩
  rw [decode_eq, DocumentForm.read_content? hcontent rfl, DocumentContent.read, h.2]
  rfl

theorem nothing (name : String) {v : t.Value}
    (hcontent : t.form.content? name = some (.nothing v)) : t.Means (.string name) v := by
  refine ⟨Json.noConfusion, ?_⟩
  rw [decode_eq, DocumentForm.read_content? hcontent rfl]
  rfl

theorem list {item : DocumentType} {vs : List item.Value} {write : item.Value → Json}
    (h : ∀ v ∈ vs, item.Means (write v) v) : (list item).Means (.array (vs.map write)) vs := by
  refine ⟨Json.noConfusion, ?_⟩
  have hitems : (vs.map write).mapM item.decode = some vs :=
    mapM_eq_some.2 (List.forall₂_map_left_iff.2 (List.forall₂_same.2 fun v hv => (h v hv).2))
  rw [decode_eq, form, DocumentForm.read, Json.list?, hitems]
  rfl

theorem pair {part : DocumentType} {j j' : Json} {v v' : part.Value} (h : part.Means j v)
    (h' : part.Means j' v') : (pair part).Means (.array [j, j']) (v, v') := by
  refine ⟨Json.noConfusion, ?_⟩
  rw [decode_eq, form, DocumentForm.read, Json.pair?, h.2, h'.2]
  rfl

theorem named (all : List t.Value) (name : t.Value → String) (hform : t.form = .names all name)
    {v : t.Value} (hv : all.find? (fun a => name a == name v) = some v) :
    t.Means (.string (name v)) v := by
  refine ⟨Json.noConfusion, ?_⟩
  rw [decode_eq, hform, DocumentForm.read_names]
  exact hv

theorem entries {vs : List (String × AliasEntry Expr)} {write : AliasEntry Expr → Json}
    (h : ∀ v ∈ vs, aliasEntry.Means (write v.2) v.2) (hsorted : AliasTable.Sorted ⟨vs⟩) :
    aliasEntries.Means (.object (vs.map fun v => (v.1, write v.2))) ⟨vs⟩ := by
  refine ⟨Json.noConfusion, ?_⟩
  have hentries : (vs.map fun v => (v.1, write v.2)).mapM (fun f =>
      (aliasEntry.decode f.2).map fun entry => (f.1, entry)) = some vs := by
    refine mapM_eq_some.2 (List.forall₂_map_left_iff.2 (List.forall₂_same.2 fun v hv => ?_))
    rw [(h v hv).2]
    rfl
  rw [decode_eq, form, DocumentForm.read, hentries, Option.map_some,
    AliasTable.foldl_insert_sorted hsorted]

/-! ### Values without parts -/

theorem string (s : String) : DocumentType.string.Means (.string s) s :=
  ⟨Json.noConfusion, rfl⟩

theorem bool (b : Bool) : DocumentType.bool.Means (.bool b) b := ⟨Json.noConfusion, rfl⟩

theorem char (c : Char) : DocumentType.char.Means (.string (String.singleton c)) c := by
  refine ⟨Json.noConfusion, ?_⟩
  rw [decode_eq, form, DocumentForm.read, Json.char?, String.toList_singleton]

theorem double {x : Double} : DocumentType.double.Means (.float x) x := ⟨Json.noConfusion, rfl⟩

theorem int64 (n : Int64) : DocumentType.int64.Means (.int n.toInt) n := by
  refine ⟨Json.noConfusion, ?_⟩
  rw [decode_eq, form, DocumentForm.read, Json.int64?, if_pos, Int64.ofInt_toInt]
  exact ⟨n.minValue_le_toInt, n.toInt_le⟩

theorem uint64 (n : UInt64) : DocumentType.uint64.Means (.ofUInt64 n) n := by
  refine ⟨Json.noConfusion, ?_⟩
  rw [decode_eq, form, DocumentForm.read, Json.ofUInt64, Json.uint64?, if_pos]
  · rw [Int.toNat_natCast, UInt64.ofNat_toNat]
  · exact ⟨Int.natCast_nonneg _, Int.ofNat_lt.2 n.toNat_lt_size⟩

theorem nodeId (n : NodeId) : DocumentType.nodeId.Means (.ofNodeId n) n := by
  refine ⟨Json.noConfusion, ?_⟩
  rw [decode_eq, form, DocumentForm.read, Json.ofNodeId, Json.nodeId?, if_pos (Int.natCast_nonneg _),
    Int.toNat_natCast]

end DocumentType.Means

namespace DocumentField

theorem Means.ofOption {name : String} {type : DocumentType} {v : Option type.Value}
    {write : type.Value → Json} (h : ∀ a ∈ v, type.Means (write a) a) :
    (optional name type).Means (.ofOption write v) v := by
  cases v with
  | none => rfl
  | some a => exact h a rfl

end DocumentField

end EntityQuery
