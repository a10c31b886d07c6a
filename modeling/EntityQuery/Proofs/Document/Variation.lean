import Mathlib.Logic.Relation
import EntityQuery.Proofs.Document.Meaning

/-!
Documents that say the same in other words: with fields that nobody knows, without fields whose
absence means what they say, and with an alternative without content written as an object. One
change may be made anywhere in a document; it never changes the value that the document has.
-/

namespace EntityQuery

/-- Absence of the field means what the document says. -/
def DocumentField.MayOmit : DocumentField → Json → Prop
  | required _ _, _ => False
  | optional _ _, j => j = .null
  | defaulted _ type default, j => type.decode j = some default

theorem DocumentField.MayOmit.read {f : DocumentField} {j : Json} (h : f.MayOmit j) {v : f.Value}
    (hv : f.read DocumentType.decode (some j) = some v) :
    f.read DocumentType.decode none = some v := by
  cases f with
  | required name type => exact h.elim
  | optional name type => cases h; exact hv
  | defaulted name type default => exact h.symm.trans hv

/-- What is not null is read by the type of the field. -/
theorem DocumentField.read_of_ne_null {f : DocumentField} {j j' : Json} (hj : j ≠ .null)
    (hj' : j' ≠ .null) (h : ∀ v, f.type.decode j = some v → f.type.decode j' = some v) {v : f.Value}
    (hv : f.read DocumentType.decode (some j) = some v) :
    f.read DocumentType.decode (some j') = some v := by
  cases f with
  | required name type => exact h v hv
  | defaulted name type default => exact h v hv
  | optional name type =>
    rw [DocumentField.read] at hv ⊢
    · obtain ⟨w, hw, rfl⟩ := Option.map_eq_some_iff.1 hv
      exact Option.map_eq_some_iff.2 ⟨w, h w hw, rfl⟩
    · exact hj'
    · exact hj

namespace DocumentType

/-- Where the object of a record stands in a document of the type: it is the document, or it is the
content of an alternative. -/
inductive Frames (t : DocumentType) : DocumentRecord t.Value → (Json → Json) → Prop
  | record {r : DocumentRecord t.Value} (h : t.form = .record r) : Frames t r id
  | alternative {name : String} {r : DocumentRecord t.Value}
      (h : t.form.content? name = some (.fields r)) : Frames t r (.variant name)

/-- The second document of the type is the first with one change. -/
inductive Varies : DocumentType → Json → Json → Prop
  /-- A field that is not known is added. -/
  | unknown {t : DocumentType} {r : DocumentRecord t.Value} {frame : Json → Json}
      (hframe : t.Frames r frame) {name : String}
      (hname : name ∉ r.fields.map DocumentField.name) (before after : List (String × Json))
      (j : Json) :
      Varies t (frame (.object (before ++ after)))
        (frame (.object (before ++ (name, j) :: after)))
  /-- A field is left out. -/
  | omitted {t : DocumentType} {r : DocumentRecord t.Value} {frame : Json → Json}
      (hframe : t.Frames r frame) {f : DocumentField} (hf : f ∈ r.fields) {j : Json}
      (hj : f.MayOmit j) (before after : List (String × Json)) :
      Varies t (frame (.object (before ++ (f.name, j) :: after)))
        (frame (.object (before ++ after)))
  /-- An alternative without content is written as an object. -/
  | named {t : DocumentType} {name : String} {v : t.Value}
      (h : t.form.content? name = some (.nothing v)) :
      Varies t (.string name) (.variant name .null)
  | field {t : DocumentType} {r : DocumentRecord t.Value} {frame : Json → Json}
      (hframe : t.Frames r frame) {f : DocumentField} (hf : f ∈ r.fields) {j j' : Json}
      (hj : Varies f.type j j') (before after : List (String × Json)) :
      Varies t (frame (.object (before ++ (f.name, j) :: after)))
        (frame (.object (before ++ (f.name, j') :: after)))
  | content {t type : DocumentType} {name : String} {wrap : type.Value → t.Value}
      (h : t.form.content? name = some (.single type wrap)) {j j' : Json}
      (hj : Varies type j j') : Varies t (.variant name j) (.variant name j')
  | item {type : DocumentType} {j j' : Json} (hj : Varies type j j') (before after : List Json) :
      Varies (list type) (.array (before ++ j :: after)) (.array (before ++ j' :: after))
  | first {type : DocumentType} {j j' : Json} (hj : Varies type j j') (second : Json) :
      Varies (pair type) (.array [j, second]) (.array [j', second])
  | second {type : DocumentType} {j j' : Json} (first : Json) (hj : Varies type j j') :
      Varies (pair type) (.array [first, j]) (.array [first, j'])
  | entry {j j' : Json} (name : String) (hj : Varies aliasEntry j j')
      (before after : List (String × Json)) :
      Varies aliasEntries (.object (before ++ (name, j) :: after))
        (.object (before ++ (name, j') :: after))

theorem Frames.decode_eq {t : DocumentType} {r : DocumentRecord t.Value} {frame : Json → Json}
    (h : t.Frames r frame) (j : Json) : t.decode (frame j) = r.read decode j := by
  cases h with
  | record h => rw [DocumentType.decode_eq, h]; rfl
  | alternative h => rw [DocumentType.decode_eq, DocumentForm.read_content? h rfl]; rfl

theorem Frames.ne_null {t : DocumentType} {r : DocumentRecord t.Value} {frame : Json → Json}
    (h : t.Frames r frame) (fields : List (String × Json)) : frame (.object fields) ≠ .null := by
  cases h <;> exact Json.noConfusion

theorem Varies.ne_null {t : DocumentType} {j j' : Json} (h : t.Varies j j') :
    j ≠ .null ∧ j' ≠ .null := by
  cases h with
  | unknown hframe | omitted hframe | field hframe => exact ⟨hframe.ne_null _, hframe.ne_null _⟩
  | _ => exact ⟨Json.noConfusion, Json.noConfusion⟩

end DocumentType

/-! ### Objects with one field more, less or changed -/

namespace Json

variable {before after : List (String × Json)} {name : String} {j : Json}

theorem lookup_middle_of_ne {other : String} (h : other ≠ name) :
    (before ++ (name, j) :: after).lookup other = (before ++ after).lookup other := by
  rw [List.lookup_append, List.lookup_cons, beq_false_of_ne h, List.lookup_append]

theorem lookup_middle (h : ((before ++ (name, j) :: after).map Prod.fst).count name ≤ 1) :
    (before ++ (name, j) :: after).lookup name = some j ∧ (before ++ after).lookup name = none := by
  have hnone : ((before ++ after).map Prod.fst).count name = 0 := by
    simp only [List.map_append, List.map_cons, List.count_append, List.count_cons_self] at h ⊢
    omega
  have hlookup (found : List (String × Json)) (hfound : (found.map Prod.fst).count name = 0) :
      found.lookup name = none := by
    refine List.lookup_eq_none_iff.2 fun f hf => bne_iff_ne.2 fun heq => ?_
    exact List.count_eq_zero.1 hfound (heq ▸ List.mem_map_of_mem hf)
  have hbefore : (before.map Prod.fst).count name = 0 := by
    rw [List.map_append, List.count_append] at hnone
    omega
  refine ⟨?_, hlookup _ hnone⟩
  rw [List.lookup_append, hlookup before hbefore, List.lookup_cons, beq_self_eq_true]
  rfl

end Json

namespace DocumentRecord

variable {α : Type} {r : DocumentRecord α} {found found' : List (String × Json)}

/-- Whether no known field is repeated in an object. -/
def NoneRepeated (r : DocumentRecord α) (found : List (String × Json)) : Prop :=
  ∀ name ∈ r.fields.map DocumentField.name, (found.map Prod.fst).count name ≤ 1

/-- An object that has for each known field what means the same is read as the same. -/
theorem read_of_fields (hrepeated : r.NoneRepeated found → r.NoneRepeated found')
    (hfields : r.NoneRepeated found → ∀ f ∈ r.fields, ∀ v,
      f.read DocumentType.decode (found.lookup f.name) = some v →
        f.read DocumentType.decode (found'.lookup f.name) = some v)
    {a : α} (h : r.read DocumentType.decode (.object found) = some a) :
    r.read DocumentType.decode (.object found') = some a := by
  obtain ⟨fields, hfound, hread⟩ := Option.bind_eq_some_iff.1 h
  obtain ⟨rfl, hnone⟩ := Json.record?_object.1 hfound
  obtain ⟨vs, hvs, ha⟩ := Option.bind_eq_some_iff.1 hread
  have hall (fs : List DocumentField) (hfs : ∀ f ∈ fs, f ∈ r.fields)
      (vs : DocumentField.Values fs)
      (hvs : DocumentField.readAll DocumentType.decode fields fs = some vs) :
      DocumentField.readAll DocumentType.decode found' fs = some vs := by
    induction fs with
    | nil => exact hvs
    | cons f rest ih =>
      obtain ⟨v, hv, hrest⟩ := Option.bind_eq_some_iff.1 hvs
      obtain ⟨others, hothers, heq⟩ := Option.bind_eq_some_iff.1 hrest
      rw [DocumentField.readAll, hfields hnone f (hfs f List.mem_cons_self) v hv,
        ih (fun f hf => hfs f (List.mem_cons_of_mem _ hf)) others hothers]
      exact heq
  rw [DocumentRecord.read, Json.record?_object.2 ⟨rfl, hrepeated hnone⟩, Option.bind_eq_bind,
    Option.bind_some, hall r.fields (fun _ hf => hf) vs hvs]
  exact ha

variable {before after : List (String × Json)}

theorem NoneRepeated.middle {name : String} {j : Json}
    (h : r.NoneRepeated (before ++ (name, j) :: after)) : r.NoneRepeated (before ++ after) := by
  intro other hother
  have hcount := h other hother
  rw [List.map_append, List.map_cons, List.count_append, List.count_cons] at hcount
  rw [List.map_append, List.count_append]
  omega

theorem eq_of_name_eq {f f' : DocumentField} (hf : f ∈ r.fields) (hf' : f' ∈ r.fields)
    (h : f'.name = f.name) : f' = f :=
  List.inj_on_of_nodup_map r.distinct hf' hf h

theorem read_unknown {name : String} (hname : name ∉ r.fields.map DocumentField.name) (j : Json)
    {a : α} (h : r.read DocumentType.decode (.object (before ++ after)) = some a) :
    r.read DocumentType.decode (.object (before ++ (name, j) :: after)) = some a := by
  have hne {other : String} (hother : other ∈ r.fields.map DocumentField.name) : other ≠ name :=
    fun heq => hname (heq ▸ hother)
  refine read_of_fields (fun hnone other hother => ?_) (fun _ f hf v hv => ?_) h
  · have hcount := hnone other hother
    rw [List.map_append, List.count_append] at hcount
    rw [List.map_append, List.map_cons, List.count_append, List.count_cons_of_ne (hne hother).symm]
    exact hcount
  · rwa [Json.lookup_middle_of_ne (hne (List.mem_map_of_mem hf))]

theorem read_omitted {f : DocumentField} (hf : f ∈ r.fields) {j : Json} (hj : f.MayOmit j) {a : α}
    (h : r.read DocumentType.decode (.object (before ++ (f.name, j) :: after)) = some a) :
    r.read DocumentType.decode (.object (before ++ after)) = some a := by
  refine read_of_fields NoneRepeated.middle (fun hnone f' hf' v hv => ?_) h
  by_cases hname : f'.name = f.name
  · cases eq_of_name_eq hf hf' hname
    obtain ⟨hthere, hgone⟩ := Json.lookup_middle (hnone f.name (List.mem_map_of_mem hf))
    rw [hthere] at hv
    rw [hgone]
    exact hj.read hv
  · rwa [Json.lookup_middle_of_ne hname] at hv

theorem read_changed {f : DocumentField} (hf : f ∈ r.fields) {j j' : Json}
    (hj : ∀ v, f.read DocumentType.decode (some j) = some v →
      f.read DocumentType.decode (some j') = some v) {a : α}
    (h : r.read DocumentType.decode (.object (before ++ (f.name, j) :: after)) = some a) :
    r.read DocumentType.decode (.object (before ++ (f.name, j') :: after)) = some a := by
  have hnames : ((before ++ (f.name, j') :: after).map Prod.fst) =
      (before ++ (f.name, j) :: after).map Prod.fst := by
    rw [List.map_append, List.map_append, List.map_cons, List.map_cons]
  refine read_of_fields (fun hnone name hname => hnames ▸ hnone name hname)
    (fun hnone f' hf' v hv => ?_) h
  by_cases hname : f'.name = f.name
  · cases eq_of_name_eq hf hf' hname
    have hcount := hnone f.name (List.mem_map_of_mem hf)
    rw [(Json.lookup_middle hcount).1] at hv
    rw [(Json.lookup_middle (hnames ▸ hcount)).1]
    exact hj v hv
  · rwa [Json.lookup_middle_of_ne hname, ← Json.lookup_middle_of_ne hname]

end DocumentRecord

namespace DocumentType

/-- One change keeps the value of a document. -/
theorem Varies.decode {t : DocumentType} {j j' : Json} (h : t.Varies j j') :
    ∀ v, t.decode j = some v → t.decode j' = some v := by
  induction h with
  | unknown hframe hname before after j =>
    intro v hv
    rw [hframe.decode_eq] at hv ⊢
    exact DocumentRecord.read_unknown hname j hv
  | omitted hframe hf hj before after =>
    intro v hv
    rw [hframe.decode_eq] at hv ⊢
    exact DocumentRecord.read_omitted hf hj hv
  | named h =>
    intro v hv
    rw [decode_eq, DocumentForm.read_content? h rfl] at hv ⊢
    exact hv
  | field hframe hf hj before after ih =>
    intro v hv
    rw [hframe.decode_eq] at hv ⊢
    exact DocumentRecord.read_changed hf
      (fun _ => DocumentField.read_of_ne_null hj.ne_null.1 hj.ne_null.2 ih) hv
  | content h hj ih =>
    intro v hv
    rw [decode_eq, DocumentForm.read_content? h rfl] at hv ⊢
    obtain ⟨w, hw, rfl⟩ := Option.map_eq_some_iff.1 hv
    rw [DocumentContent.read, ih w hw]
    rfl
  | item hj before after ih =>
    intro v hv
    rw [decode_eq] at hv ⊢
    obtain ⟨vs, hvs, rfl⟩ := Option.map_eq_some_iff.1 hv
    exact Option.map_eq_some_iff.2 ⟨vs, mapM_replace ih hvs, rfl⟩
  | first hj second ih =>
    intro v hv
    rw [decode_eq] at hv ⊢
    obtain ⟨v, hpair, rfl⟩ := Option.map_eq_some_iff.1 hv
    obtain ⟨a, ha, hrest⟩ := Option.bind_eq_some_iff.1 hpair
    exact Option.map_eq_some_iff.2 ⟨v, Option.bind_eq_some_iff.2 ⟨a, ih a ha, hrest⟩, rfl⟩
  | second first hj ih =>
    intro v hv
    rw [decode_eq] at hv ⊢
    obtain ⟨v, hpair, rfl⟩ := Option.map_eq_some_iff.1 hv
    obtain ⟨a, ha, hrest⟩ := Option.bind_eq_some_iff.1 hpair
    obtain ⟨b, hb, heq⟩ := Option.bind_eq_some_iff.1 hrest
    exact Option.map_eq_some_iff.2 ⟨v, Option.bind_eq_some_iff.2 ⟨a, ha,
      Option.bind_eq_some_iff.2 ⟨b, ih b hb, heq⟩⟩, rfl⟩
  | entry name hj before after ih =>
    intro v hv
    rw [decode_eq] at hv ⊢
    obtain ⟨vs, hvs, rfl⟩ := Option.map_eq_some_iff.1 hv
    refine Option.map_eq_some_iff.2 ⟨vs, mapM_replace (fun e he => ?_) hvs, rfl⟩
    obtain ⟨w, hw, rfl⟩ := Option.map_eq_some_iff.1 he
    exact Option.map_eq_some_iff.2 ⟨w, ih w hw, rfl⟩

/-- So do any number of changes. -/
theorem decode_of_varies {t : DocumentType} {j j' : Json} (h : Relation.ReflTransGen t.Varies j j')
    {v : t.Value} (hv : t.decode j = some v) : t.decode j' = some v := by
  induction h with
  | refl => exact hv
  | tail _ hstep ih => exact hstep.decode v ih

end DocumentType

end EntityQuery
