import EntityQuery.Proofs.Copy.Level
import EntityQuery.Proofs.Copy.Paths
import EntityQuery.Proofs.Markers
import EntityQuery.Render.Tokens

/-!
What is written of an expression does not depend on the numbers of the join nodes that it mentions.
Subqueries are taken over as they are: they see the aliases of the level around them and not its
nodes.
-/

namespace EntityQuery

variable {m : Renumbering} {l l' : Level}

namespace Expr

theorem listTokens_map {f : Expr → Expr} {es : List Expr}
    (h : ∀ e ∈ es, (f e).tokens l' .value = e.tokens l .value) :
    listTokens l' (es.map f) = listTokens l es := by
  induction es with
  | nil => rfl
  | cons e rest ih =>
      have hrest := ih fun other hother => h other (List.mem_cons_of_mem _ hother)
      rw [List.map_cons, listTokens, listTokens, h e List.mem_cons_self, hrest]

theorem restTokens_map {f : Expr → Expr} {es : List Expr}
    (h : ∀ e ∈ es, (f e).tokens l' .value = e.tokens l .value) :
    restTokens l' (es.map f) = restTokens l es := by
  cases es with
  | nil => rfl
  | cons e rest => exact listTokens_map fun other hother => h other (List.mem_cons_of_mem _ hother)

theorem firstTokens_map {f : Expr → Expr} {es : List Expr} {position : Position}
    (h : ∀ e ∈ es, (f e).tokens l' position = e.tokens l position) :
    firstTokens l' position (es.map f) = firstTokens l position es := by
  cases es with
  | nil => rfl
  | cons e rest => exact h e List.mem_cons_self

theorem optionTokens_map {f : Expr → Expr} {e? : Option Expr} {position : Position}
    (h : ∀ e ∈ e?, (f e).tokens l' position = e.tokens l position) :
    optionTokens l' position (e?.map f) = optionTokens l position e? := by
  cases e? with
  | none => rfl
  | some e => rw [Option.map_some, optionTokens, optionTokens, h e rfl]

theorem branchTokens_map {f : Expr → Expr} {bs : List (Expr × Expr)} {position : Position}
    (h : ∀ b ∈ bs, (f b.1).tokens l' position = b.1.tokens l position ∧
      (f b.2).tokens l' .value = b.2.tokens l .value) :
    branchTokens l' position (bs.map fun b => (f b.1, f b.2)) = branchTokens l position bs := by
  induction bs with
  | nil => rfl
  | cons b rest ih =>
      have hrest := ih fun other hother => h other (List.mem_cons_of_mem _ hother)
      obtain ⟨htest, hresult⟩ := h b List.mem_cons_self
      rw [List.map_cons, branchTokens, branchTokens, htest, hresult, hrest]

theorem markersList_map {f : Expr → Expr} {es : List Expr}
    (h : ∀ e ∈ es, (f e).markers = e.markers) : markersList (es.map f) = markersList es := by
  rw [markersList_eq, markersList_eq, List.flatMap_map]
  exact List.flatMap_congr h

theorem markersOption_map {f : Expr → Expr} {e? : Option Expr}
    (h : ∀ e ∈ e?, (f e).markers = e.markers) : markersOption (e?.map f) = markersOption e? := by
  cases e? with
  | none => rfl
  | some e => exact h e rfl

theorem markersPairs_map {f : Expr → Expr} {bs : List (Expr × Expr)}
    (h : ∀ b ∈ bs, (f b.1).markers = b.1.markers ∧ (f b.2).markers = b.2.markers) :
    markersPairs (bs.map fun b => (f b.1, f b.2)) = markersPairs bs := by
  rw [markersPairs_eq, markersPairs_eq, List.flatMap_map]
  refine List.flatMap_congr fun b hb => ?_
  rw [(h b hb).1, (h b hb).2]

theorem genericName?_map_rebind (function : String) (args : List Expr) :
    genericName? function (args.map (rebind m)) = genericName? function args := by
  cases args with
  | nil => rfl
  | cons e rest =>
      cases e with
      | literal v => cases v <;> rfl
      | _ => rfl

theorem isOuterCall_map (f : Expr → Expr) (function : String) (args : List Expr) :
    isOuterCall function (args.map f) = isOuterCall function args := by
  rw [isOuterCall, isOuterCall, List.length_map]

theorem standsAlone_map_rebind (values : List Expr) :
    standsAlone (values.map (rebind m)) = standsAlone values := by
  match values with
  | [] => rfl
  | [e] => cases e <;> rfl
  | first :: second :: rest => cases first <;> rfl

theorem parenthesizeLooser_rebind (precedence : Nat) (e : Expr) (tokens : List Token) :
    parenthesizeLooser precedence (e.rebind m) tokens = parenthesizeLooser precedence e tokens := by
  cases e <;> rfl

end Expr

/-- Levels in which paths are written alike, and whose subqueries see the same join aliases, write
all expressions alike. -/
theorem Level.tokens_rebind {ctx : RenderContext} {t t' : AliasTable Expr} {g g' : JoinGraph Expr}
    (hpath : ∀ p, pathTokens ⟨ctx, t', g'⟩ (p.rebind m) = pathTokens ⟨ctx, t, g⟩ p)
    (haliases : t'.joinAliases = t.joinAliases) :
    Hereditary (fun e => ∀ position, (e.rebind m).tokens ⟨ctx, t', g'⟩ position =
      e.tokens ⟨ctx, t, g⟩ position) (fun _ => True) (fun _ => True) where
  path p position := by
    rw [Expr.rebind, Expr.tokens, Expr.tokens]
    exact hpath p
  literal v position := rfl
  parameter p position := by
    rw [Expr.rebind, Expr.tokens, Expr.tokens]
    rfl
  call f args ih position := by
    have hfirst := Expr.firstTokens_map fun e he => ih e he position
    have hrest := Expr.restTokens_map fun e he => ih e he .value
    have hlist := Expr.listTokens_map fun e he => ih e he .value
    rw [Expr.rebind, Expr.rebindList_eq_map, Expr.tokens, Expr.tokens, Expr.isOuterCall_map,
      Expr.genericName?_map_rebind, hfirst, hrest, hlist, List.length_map]
  aggregate f args d ih position := by
    have hlist := Expr.listTokens_map fun e he => ih e he .value
    rw [Expr.rebind, Expr.rebindList_eq_map, Expr.tokens, Expr.tokens, Expr.isCountStar,
      Expr.isCountStar, List.isEmpty_map, hlist]
  subquery q _ position := by
    rw [Expr.rebind, Expr.tokens, Expr.tokens, RenderContext.correlated,
      RenderContext.correlated, haliases]
  indexed base index _ position := rfl
  null position := rfl
  caseWhen operand branches otherwise hoperand hbranches hotherwise position := by
    have hfirst := Expr.optionTokens_map fun e he => hoperand e he .value
    have hlast := Expr.optionTokens_map fun e he => hotherwise e he .value
    have hmiddle (position : Position) := Expr.branchTokens_map fun b hb =>
      ⟨(hbranches b hb).1 position, (hbranches b hb).2 .value⟩
    rw [Expr.rebind, Expr.rebindOption_eq_map, Expr.rebindOption_eq_map, Expr.rebindPairs_eq_map,
      Expr.tokens, Expr.tokens, hfirst, hlast, Option.isSome_map]
    simp only [hmiddle]
  binary left op right hleft hright position := by
    rw [Expr.rebind, Expr.tokens, Expr.tokens]
    simp only [hleft, hright, Expr.parenthesizeLooser_rebind]
  not e he position := by
    rw [Expr.rebind, Expr.tokens, Expr.tokens]
    simp only [he, Expr.parenthesizeLooser_rebind]
  isNull e negated he position := by
    rw [Expr.rebind, Expr.tokens, Expr.tokens, he]
  like e pattern escape negated he hpattern position := by
    cases escape with
    | none => rw [Expr.rebind, Expr.tokens, Expr.tokens, he, hpattern]
    | some c => rw [Expr.rebind, Expr.tokens, Expr.tokens, he, hpattern]
  oneOf e values negated he hvalues position := by
    have hlist := Expr.listTokens_map fun v hv => hvalues v hv .value
    rw [Expr.rebind, Expr.rebindList_eq_map, Expr.tokens, Expr.tokens, List.isEmpty_map, he, hlist,
      Expr.standsAlone_map_rebind]
  between e low high negated he hlow hhigh position := by
    rw [Expr.rebind, Expr.tokens, Expr.tokens, he, hlow, hhigh]
  parens e he position := by
    rw [Expr.rebind, Expr.tokens, Expr.tokens, he]
  verbatim s position := rfl
  select _ _ := trivial
  combined _ _ := trivial
  query _ _ := trivial
  update _ _ _ := trivial
  collectionDelete _ _ := trivial

theorem tokens_rebind {g g' : JoinGraph Expr} (h : g.Renumbers m g') (ctx : RenderContext)
    (t : AliasTable Expr) :
    Hereditary (fun e => ∀ position, (e.rebind m).tokens ⟨ctx, t.rebind Expr.rebind m, g'⟩ position =
      e.tokens ⟨ctx, t, g⟩ position) (fun _ => True) (fun _ => True) :=
  Level.tokens_rebind (Level.pathTokens_rebind h ctx t) t.joinAliases_rebind

/-- Parameters stay where they are. -/
theorem Expr.hereditary_markers_rebind (m : Renumbering) :
    Hereditary (fun e => (e.rebind m).markers = e.markers) (fun _ => True) (fun _ => True) where
  path _ := rfl
  literal _ := rfl
  parameter _ := rfl
  call f args ih := by
    rw [rebind, rebindList_eq_map, markers, markers, markersList_map ih]
  aggregate f args d ih := by
    rw [rebind, rebindList_eq_map, markers, markers, markersList_map ih]
  subquery _ _ := rfl
  indexed _ _ ih := ih
  null := rfl
  caseWhen operand branches otherwise hoperand hbranches hotherwise := by
    rw [rebind, rebindOption_eq_map, rebindOption_eq_map, rebindPairs_eq_map, markers, markers,
      markersOption_map hoperand, markersPairs_map hbranches, markersOption_map hotherwise]
  binary left op right hleft hright := by
    rw [rebind, markers, markers, hleft, hright]
  not _ he := he
  isNull _ _ he := he
  like e pattern escape negated he hpattern := by
    rw [rebind, markers, markers, he, hpattern]
  oneOf e values negated he hvalues := by
    rw [rebind, rebindList_eq_map, markers, markers, he, markersList_map hvalues]
  between e low high negated he hlow hhigh := by
    rw [rebind, markers, markers, he, hlow, hhigh]
  parens _ he := he
  verbatim _ := rfl
  select _ _ := trivial
  combined _ _ := trivial
  query _ _ := trivial
  update _ _ _ := trivial
  collectionDelete _ _ := trivial

theorem Expr.markers_rebind (m : Renumbering) (e : Expr) : (e.rebind m).markers = e.markers :=
  (hereditary_markers_rebind m).expr e

end EntityQuery
