import EntityQuery.Proofs.Outcome
import EntityQuery.Proofs.Predicates.Grammar
import EntityQuery.Render.Tokens

/-!
Parentheses in predicates. An operand stands in parentheses if it is a binary operation that binds
looser than the operator beside it; this is enough for the grammar to derive the expression that
was written, and, the grammar being unambiguous, no other. Negations need no parentheses, as long
as they stand where predicates do.
-/

namespace EntityQuery

/-- What the operands of an operator are. -/
def BinaryOperator.operandPosition (op : BinaryOperator) : Position :=
  if op.isLogical then .predicate else .value

namespace Expr

/-- Expressions of names that a level does not know, parameters without values and numbers, in
which negations stand in the place of predicates: on the outside, or as operands of AND, OR and
NOT. -/
inductive WellSorted (t : AliasTable Expr) : Position → Expr → Prop where
  | path {s : String} (position : Position) (hunknown : t.find? (Path.ofString s).head = none) :
      WellSorted t position (.ofPath s)
  | parameter (position : Position) (name : String) : WellSorted t position (.named name none)
  | int (position : Position) (n : Int64) : WellSorted t position (.int n)
  | binary (position : Position) {left right : Expr} {op : BinaryOperator} :
      WellSorted t op.operandPosition left → WellSorted t op.operandPosition right →
      WellSorted t position (.binary left op right)
  | not {e : Expr} : WellSorted t .predicate e → WellSorted t .predicate (.not e)

/-- The tier of the grammar that an expression stands on by itself. -/
def tier : Expr → Nat
  | .binary _ op _ => op.tier
  | .not _ => 3
  | _ => 7

end Expr

/-- Parenthesized where it binds too loosely, an operand stands on the tier that is asked for. -/
theorem Derives.parenthesizeLooser {e : Expr} {tokens : List Token}
    (h : Derives e.tier (Token.words tokens) e) (precedence tier : Nat) (htier : tier ≤ 7)
    (hbinary : ∀ op : BinaryOperator, precedence ≤ op.precedence → tier ≤ op.tier)
    (hnot : ∀ inner, e = .not inner → tier ≤ 3) :
    Derives tier (Token.words (parenthesizeLooser precedence e tokens)) e := by
  unfold EntityQuery.parenthesizeLooser
  split
  next left op right =>
    split
    next =>
      rw [Token.words_parenthesized]
      exact (h.loosenTo op.one_le_tier).group.loosenTo htier
    next hlooser => exact h.loosenTo (hbinary op (Nat.le_of_not_lt hlooser))
  next hother =>
    cases e with
    | binary left op right => exact absurd rfl (hother left op right)
    | not inner => exact h.loosenTo (hnot inner rfl)
    | _ => exact h.loosenTo htier

/-- What stands as an operand is a negation only if a predicate is expected. -/
theorem Expr.WellSorted.isLogical_of_not {t : AliasTable Expr} {op : BinaryOperator} {e inner : Expr}
    (h : e.WellSorted t op.operandPosition) (he : e = .not inner) : op.isLogical = true := by
  subst he
  cases hlogical : op.isLogical with
  | true => rfl
  | false =>
      rw [BinaryOperator.operandPosition, hlogical] at h
      cases h

/-- A name that no table knows is written as it is, whether aliases are replaced or not; before it
stands the prefix of an enclosing level, if the name starts with an alias of that. -/
theorem Level.pathTokens_of_unknown {l : Level} {s : String}
    (hunknown : l.aliases.find? (Path.ofString s).head = none) :
    l.pathTokens (Path.ofString s) =
      .ok (l.context.outerPrefixTokens (Path.ofString s).head ++ [.name s]) := by
  have hreplacement : l.aliases.replacement? (Path.ofString s) = none := by
    simp only [AliasTable.replacement?, hunknown, ite_self]
  have hend : l.aliases.chainEnd (Path.ofString s) = .path (Path.ofString s) := by
    simp only [AliasTable.chainEnd, AliasTable.followChain, hreplacement]
  have htext : (Path.ofString s).text = s := Dotted.join_split s
  have hresolved : l.resolvedTokens (Path.ofString s) =
      .ok (l.context.outerPrefixTokens (Path.ofString s).head ++ [.name s]) := by
    have hbase : (Path.ofString s).base = none := rfl
    simp only [Level.resolvedTokens, hbase, hunknown, htext]
  rw [Level.pathTokens, hend]
  split <;> exact hresolved

theorem Level.pathTokens_unknown {l : Level} {s : String} (houter : l.context.outer = none)
    (hunknown : l.aliases.find? (Path.ofString s).head = none) :
    l.pathTokens (Path.ofString s) = .ok [.name s] := by
  rw [Level.pathTokens_of_unknown hunknown, RenderContext.outerPrefixTokens, houter]
  rfl

/-- What is written of an expression is derived to it, on the tier that it stands on. -/
theorem Expr.WellSorted.derives {l : Level} (houter : l.context.outer = none) {position : Position}
    {e : Expr} (h : e.WellSorted l.aliases position) :
    ∃ tokens, e.tokens l position = .ok tokens ∧ Derives e.tier (Token.words tokens) e := by
  induction h with
  | @path s _ hunknown => exact ⟨[.name s], Level.pathTokens_unknown houter hunknown, .path s⟩
  | parameter _ name =>
      refine ⟨[.parameter name], ?_, .parameter name⟩
      simp [Expr.named, Expr.tokens, Level.parameterTokens, Parameter.isMultiple]
  | int _ n => exact ⟨[.integer n], rfl, .int n⟩
  | not _ ih =>
      obtain ⟨tokens, htokens, hderives⟩ := ih
      refine ⟨_, by rw [Expr.tokens, htokens]; rfl, ?_⟩
      have hoperand := hderives.parenthesizeLooser (BinaryOperator.precedence .and + 1) 3
        (by decide) (fun op hop => BinaryOperator.tier_lt_tier hop) (fun _ _ => Nat.le_refl 3)
      rw [Token.words_append]
      exact hoperand.not
  | @binary _ left right op hleft hright ihleft ihright =>
      obtain ⟨tokens, htokens, hderives⟩ := ihleft
      obtain ⟨tokens', htokens', hderives'⟩ := ihright
      have hsix := op.tier_le_six
      have hbefore := hderives.parenthesizeLooser op.precedence op.tier (by omega)
        (fun _ hop => BinaryOperator.tier_le_tier hop) (fun inner hinner =>
          Nat.le_of_lt (BinaryOperator.tier_lt_three.1 (hleft.isLogical_of_not hinner)))
      have hafter := hderives'.parenthesizeLooser (op.precedence + 1) (op.tier + 1) (by omega)
        (fun _ hop => BinaryOperator.tier_lt_tier hop)
        (fun inner hinner => BinaryOperator.tier_lt_three.1 (hright.isLogical_of_not hinner))
      have hmiddle : Token.words [.space, op.token, .space] = [op.token] := by
        cases op <;> rfl
      refine ⟨_, by
        rw [Expr.tokens]
        simp only [BinaryOperator.operandPosition] at htokens htokens'
        rw [htokens, htokens']
        rfl, ?_⟩
      rw [Token.words_append, Token.words_append, hmiddle, List.append_assoc]
      exact .binary op hbefore hafter

/-- Every operation is at least as tight as a disjunction. -/
theorem Expr.one_le_tier (e : Expr) : 1 ≤ e.tier := by
  unfold Expr.tier
  split
  next op _ => exact op.one_le_tier
  next => decide
  next => decide

/-- Predicates are written with all the parentheses they need: in every dialect, a reader of the
grammar finds the expression that was written, and no other. -/
theorem predicate_reads_back {l : Level} (houter : l.context.outer = none) {e : Expr}
    (h : e.WellSorted l.aliases .predicate) :
    ∃ tokens, e.tokens l .predicate = .ok tokens ∧
      ∀ read, Derives 1 (Token.words tokens) read ↔ read = e := by
  obtain ⟨tokens, htokens, hderives⟩ := h.derives houter
  have hread : Derives 1 (Token.words tokens) e := hderives.loosenTo e.one_le_tier
  refine ⟨tokens, htokens, fun read => ⟨fun hother => hread.unique hother, ?_⟩⟩
  rintro rfl
  exact hread

/-- Adults who are not both known and two years short of retirement. -/
def Expr.unretired : Expr :=
  .binary (.binary (.ofPath "p.age") .gt (.named "adult" none)) .and
    (.not (.binary (.ofPath "p.known") .and
      (.binary (.binary (.named "limit" none) .minus (.binary (.ofPath "p.age") .minus (.int 2)))
        .eq (.int 0))))

/-- The difference on the right keeps its parentheses, and so does the conjunction under NOT. -/
theorem predicate_reads_back_unretired :
    Expr.WellSorted {} .predicate .unretired ∧
      ∃ tokens, Expr.unretired.tokens ⟨{ dialect := .openJpa }, {}, {}⟩ .predicate = .ok tokens ∧
        tokensText .openJpa tokens =
          "p.age > :adult AND NOT (p.known AND :limit - (p.age - 2) = 0)" ∧
        ∀ read, Derives 1 (Token.words tokens) read ↔ read = .unretired := by
  have hsorted : Expr.WellSorted {} .predicate .unretired :=
    .binary _ (.binary _ (.path _ rfl) (.parameter _ "adult"))
      (.not (.binary _ (.path _ rfl)
        (.binary _ (.binary _ (.parameter _ "limit") (.binary _ (.path _ rfl) (.int _ 2)))
          (.int _ 0))))
  have hwritten : (Expr.unretired.tokens ⟨{ dialect := .openJpa }, {}, {}⟩ .predicate).map
      (tokensText .openJpa) =
        .ok "p.age > :adult AND NOT (p.known AND :limit - (p.age - 2) = 0)" := by rfl
  obtain ⟨tokens, htokens, htext⟩ := map_eq_ok.1 hwritten
  obtain ⟨tokens', htokens', hread⟩ :=
    predicate_reads_back (l := ⟨{ dialect := .openJpa }, {}, {}⟩) rfl hsorted
  obtain rfl : tokens' = tokens := Except.ok.inj (htokens'.symm.trans htokens)
  exact ⟨hsorted, tokens', htokens, htext, hread⟩

end EntityQuery
