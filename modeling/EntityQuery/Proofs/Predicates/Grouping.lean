import EntityQuery.Proofs.Predicates.Parentheses
import EntityQuery.Proofs.Render.Parts

/-!
Which expressions a text may stand for. IS NULL, LIKE, IN and BETWEEN follow their operand without
parentheses, and NOT stands bare under comparisons. So `a = b IS NULL` is written both of a
comparison that is tested and of a test that is compared. An expression is grouped if every operand
that stands bare is tight enough for what stands beside it, as far as one sees from there: a
disjunction hidden behind the right end of an operand counts, one in parentheses does not. A text is
that of one grouped expression at most, since a reader that keeps what is pending on a stack finds
the expression.
-/

namespace EntityQuery

open Token (parenthesized joined listSeparator)

namespace Expr

/-- Expressions of names that a level does not know, parameters without values and numbers, under
operators, NOT, and the predicates IS NULL, LIKE, IN and BETWEEN. -/
inductive Plain (t : AliasTable Expr) : Expr → Prop where
  | path {s : String} (hunknown : t.find? (Path.ofString s).head = none) : Plain t (.ofPath s)
  | parameter (name : String) : Plain t (.named name none)
  | int (n : Int64) : Plain t (.int n)
  | binary {left right : Expr} (op : BinaryOperator) :
      Plain t left → Plain t right → Plain t (.binary left op right)
  | not {e : Expr} : Plain t e → Plain t (.not e)
  | isNull {e : Expr} (negated : Bool) : Plain t e → Plain t (.isNull e negated)
  | like {e pattern : Expr} (negated : Bool) :
      Plain t e → Plain t pattern → Plain t (.like e pattern none negated)
  | oneOf {e : Expr} {values : List Expr} (negated : Bool) :
      Plain t e → (∀ v ∈ values, Plain t v) → values ≠ [] → Plain t (.oneOf e values negated)
  | between {e low high : Expr} (negated : Bool) :
      Plain t e → Plain t low → Plain t high → Plain t (.between e low high negated)

/-- Whether an expression is a binary operation that binds looser than a precedence. Only these are
put into parentheses. -/
def looser (precedence : Nat) : Expr → Bool
  | .binary _ op _ => decide (op.precedence < precedence)
  | _ => false

/-- How tight an expression is seen from the left: the loosest tier of what takes its first operand
bare. The tiers are those of the grammar, with the predicates among the comparisons. -/
def leftEdge : Expr → Nat
  | .binary left op _ =>
      Min.min op.tier (if left.looser op.precedence then 7 else left.leftEdge)
  | .isNull e _ => Min.min 4 e.leftEdge
  | .like e _ _ _ => Min.min 4 e.leftEdge
  | .oneOf e _ _ => Min.min 4 e.leftEdge
  | .between e _ _ _ => Min.min 4 e.leftEdge
  | _ => 7

/-- How tight an expression is seen from the right: the loosest tier of what takes its last operand
bare. -/
def rightEdge : Expr → Nat
  | .binary _ op right =>
      Min.min op.tier (if right.looser (op.precedence + 1) then 7 else right.rightEdge)
  | .not e =>
      Min.min 3 (if e.looser (BinaryOperator.precedence .and + 1) then 7 else e.rightEdge)
  | .like _ pattern _ _ => Min.min 4 pattern.rightEdge
  | .between _ _ high _ => Min.min 4 high.rightEdge
  | _ => 7

/-- The edges of an operand. Parentheses hide what is in them. -/
def leftEdgeAt (precedence : Nat) (e : Expr) : Nat :=
  if e.looser precedence then 7 else e.leftEdge

def rightEdgeAt (precedence : Nat) (e : Expr) : Nat :=
  if e.looser precedence then 7 else e.rightEdge

/-- Whether the operands of an expression are tight enough for it on the sides where it stands. -/
def Fits : Expr → Prop
  | .binary left op right =>
      op.tier ≤ left.rightEdgeAt op.precedence ∧ op.tier < right.leftEdgeAt (op.precedence + 1)
  | .not e => 3 < e.leftEdgeAt (BinaryOperator.precedence .and + 1)
  | .isNull e _ => 4 ≤ e.rightEdge
  | .like e pattern _ _ => 4 ≤ e.rightEdge ∧ 4 < pattern.leftEdge
  | .oneOf e _ _ => 4 ≤ e.rightEdge
  | .between e low high _ => 4 ≤ e.rightEdge ∧ 2 < low.leftEdge ∧ 4 < high.leftEdge
  | _ => True

/-- Whether all operands in an expression are tight enough for what they stand beside. -/
def Grouped (e : Expr) : Prop := ∀ sub ∈ e.subexpressions, sub.Fits

instance (e : Expr) : Decidable e.Fits := by
  unfold Fits
  split <;> infer_instance

instance (e : Expr) : Decidable e.Grouped := by
  unfold Grouped
  infer_instance

end Expr

/-- What a reader of an expression has still pending to its left. -/
inductive Pending where
  | group
  | operator (left : Expr) (op : BinaryOperator)
  | negation
  | pattern (e : Expr) (negated : Bool)
  /-- In a list of values, with those that have been read. -/
  | member (e : Expr) (negated : Bool) (values : List Expr)
  | low (e : Expr) (negated : Bool)
  | high (e low : Expr) (negated : Bool)

namespace Pending

/-- How loose what follows may not be: a looser word closes what is pending, or is taken by it. -/
def floor : Pending → Nat
  | .operator _ op => op.tier
  | .negation => 3
  | .pattern _ _ | .high _ _ _ => 4
  | .low _ _ => 2
  | .group | .member _ _ _ => 0

/-- The expression around an operand, unless a word of its own has to follow. -/
def close? : Pending → Expr → Option Expr
  | .operator left op, e => some (.binary left op e)
  | .negation, e => some (.not e)
  | .pattern operand negated, e => some (.like operand e none negated)
  | .high operand bound negated, e => some (.between operand bound e negated)
  | .group, _ | .member _ _ _, _ | .low _ _, _ => none

/-- Closes what is pending on a tier and on all tighter ones, around the operand that has been
read. -/
def settle (tier : Nat) : List Pending → Expr → List Pending × Expr
  | [], e => ([], e)
  | p :: rest, e =>
      match p.close? e with
      | some closed => if tier ≤ p.floor then settle tier rest closed else (p :: rest, e)
      | none => (p :: rest, e)

/-- Whether something on a tier may follow what is pending. -/
def Admits (tier : Nat) (pending : List Pending) : Prop := ∀ p ∈ pending.head?, p.floor < tier

theorem Admits.mono {tier tier' : Nat} {pending : List Pending} (h : Admits tier pending)
    (hle : tier ≤ tier') : Admits tier' pending :=
  fun p hp => Nat.lt_of_lt_of_le (h p hp) hle

theorem admits_cons {tier : Nat} {p : Pending} {rest : List Pending} :
    Admits tier (p :: rest) ↔ p.floor < tier := by
  simp [Admits]

theorem settle_of_admits {tier : Nat} {pending : List Pending} (h : Admits tier pending)
    (e : Expr) : settle tier pending e = (pending, e) := by
  cases pending with
  | nil => rfl
  | cons p rest =>
      have hfloor : ¬tier ≤ p.floor := Nat.not_le.2 (admits_cons.1 h)
      unfold settle
      split
      · exact if_neg hfloor
      · rfl

/-- What waits for a word of its own is not closed. -/
theorem settle_of_close?_eq_none {p : Pending} (h : ∀ e, p.close? e = none) (tier : Nat)
    (rest : List Pending) (e : Expr) : settle tier (p :: rest) e = (p :: rest, e) := by
  rw [settle, h]

theorem settle_of_close?_eq_some {p : Pending} {tier : Nat} {e closed : Expr}
    (h : p.close? e = some closed) (hle : tier ≤ p.floor) (rest : List Pending) :
    settle tier (p :: rest) e = settle tier rest closed := by
  rw [settle, h]
  exact if_pos hle

end Pending

open Pending (settle Admits)

/-- A reader of an expression between two tokens. -/
inductive Reader where
  /-- An operand has to follow. -/
  | before (pending : List Pending)
  /-- An operand has been read. -/
  | after (pending : List Pending) (e : Expr)
  /-- NOT has been read after an operand, so a predicate has to follow. -/
  | afterNot (pending : List Pending) (e : Expr)
  /-- IN has been read, so values have to follow. -/
  | listing (pending : List Pending) (e : Expr) (negated : Bool)

namespace Reader

/-- Reads a word of a predicate after its operand. -/
def predicate (pending : List Pending) (e : Expr) (negated : Bool) : Keyword → Option Reader
  | .LIKE => some (.before (.pattern e negated :: pending))
  | .IN => some (.listing pending e negated)
  | .BETWEEN => some (.before (.low e negated :: pending))
  | _ => none

/-- Reads an operator after its first operand. The AND after a lower bound is not one. -/
def takeOperator (op : BinaryOperator) : List Pending → Expr → Reader
  | .low e negated :: rest, bound =>
      if op = .and then .before (.high e bound negated :: rest)
      else .before (.operator bound op :: .low e negated :: rest)
  | pending, left => .before (.operator left op :: pending)

/-- Reads a token where an operand is expected. -/
def operandStep (pending : List Pending) : Token → Option Reader
  | .raw _ => some (.before pending)
  | .name s => some (.after pending (.ofPath s))
  | .parameter name => some (.after pending (.named name none))
  | .integer n => some (.after pending (.int n))
  | .mark .openParen => some (.before (.group :: pending))
  | .keyword .NOT => some (.before (.negation :: pending))
  | _ => none

/-- Closes a pair of parentheses. -/
def closeParen : List Pending → Expr → Option Reader
  | .group :: rest, e => some (.after rest e)
  | .member operand negated values :: rest, e =>
      some (.after rest (.oneOf operand (values ++ [e]) negated))
  | _, _ => none

/-- Goes on to the next value of a list. -/
def nextValue : List Pending → Expr → Option Reader
  | .member operand negated values :: rest, e =>
      some (.before (.member operand negated (values ++ [e]) :: rest))
  | _, _ => none

/-- Reads a token after an operand. -/
def restStep (pending : List Pending) (e : Expr) (t : Token) : Option Reader :=
  match BinaryOperator.ofToken? t with
  | some op => some (takeOperator op (settle op.tier pending e).1 (settle op.tier pending e).2)
  | none =>
      match t with
      | .mark .closeParen => closeParen (settle 1 pending e).1 (settle 1 pending e).2
      | .mark .comma => nextValue (settle 1 pending e).1 (settle 1 pending e).2
      | .nullComparison negated =>
          some (.after (settle 4 pending e).1 (.isNull (settle 4 pending e).2 negated))
      | .keyword .NOT => some (.afterNot (settle 4 pending e).1 (settle 4 pending e).2)
      | .keyword word => predicate (settle 4 pending e).1 (settle 4 pending e).2 false word
      | _ => none

/-- Reads one token. Spaces say nothing, and neither does the prefix of an alias. -/
def step : Reader → Token → Option Reader
  | r, .space => some r
  | .before pending, t => operandStep pending t
  | .after pending e, t => restStep pending e t
  | .afterNot pending e, .keyword word => predicate pending e true word
  | .afterNot _ _, _ => none
  | .listing pending e negated, .mark .openParen => some (.before (.member e negated [] :: pending))
  | .listing pending e negated, .parameter name =>
      some (.after pending (.oneOf e [.named name none] negated))
  | .listing _ _ _, _ => none

/-- Reads tokens one after another. -/
def run (r : Reader) (tokens : List Token) : Option Reader := tokens.foldlM step r

theorem run_append (r : Reader) (ts us : List Token) :
    r.run (ts ++ us) = (r.run ts).bind fun r => r.run us :=
  List.foldlM_append ..

theorem run_cons (r : Reader) (t : Token) (ts : List Token) :
    r.run (t :: ts) = (r.step t).bind fun r => r.run ts := rfl

theorem run_spaced (r : Reader) (t : Token) :
    r.run [.space, t, .space] = r.step t := by
  have hspace (r : Reader) : r.step .space = some r := by cases r <;> rfl
  rw [run_cons, hspace, Option.bind_some, run_cons]
  cases r.step t with
  | none => rfl
  | some r => exact hspace r

theorem step_token (pending : List Pending) (e : Expr) (op : BinaryOperator) :
    (after pending e).step op.token =
      some (takeOperator op (settle op.tier pending e).1 (settle op.tier pending e).2) := by
  cases op <;> rfl

/-- Where a lower bound is pending, nothing as loose as AND is admitted. -/
theorem takeOperator_of_admits {op : BinaryOperator} {pending : List Pending}
    (h : Admits op.tier pending) (left : Expr) :
    takeOperator op pending left = .before (.operator left op :: pending) := by
  unfold takeOperator
  split
  next e negated rest =>
    have hand : op ≠ .and := by
      rintro rfl
      exact Nat.lt_irrefl 2 (Pending.admits_cons.1 h)
    rw [if_neg hand]
  next => rfl

/-- The expression that tokens are read as. -/
def read (tokens : List Token) : Option Expr :=
  match (before []).run tokens with
  | some (.after pending e) =>
      match settle 1 pending e with
      | ([], e) => some e
      | _ => none
  | _ => none

end Reader

open Reader

/-- Whether tokens are read as an expression, behind all that admits its left edge. What is on a
tier up to its right edge sees the expression then. -/
def Reads (leftEdge rightEdge : Nat) (tokens : List Token) (e : Expr) : Prop :=
  ∀ pending, Admits leftEdge pending →
    ∃ pending' e', (before pending).run tokens = some (.after pending' e') ∧
      ∀ tier ≤ rightEdge, settle tier pending' e' = settle tier pending e

namespace Reads

variable {a b : Nat} {tokens : List Token} {e : Expr}

/-- One token that is an operand is read the same everywhere. -/
theorem operand {t : Token} (h : ∀ pending, operandStep pending t = some (.after pending e))
    (hspace : t ≠ .space) : Reads a b [t] e := by
  intro pending _
  refine ⟨pending, e, ?_, fun _ _ => rfl⟩
  have hstep : (before pending).step t = some (.after pending e) := by
    cases t with
    | space => exact absurd rfl hspace
    | _ => exact h pending
  rw [run_cons, hstep]
  rfl

/-- In parentheses an expression is read the same everywhere. -/
theorem parenthesized (h : Reads a b tokens e) (ha : 0 < a) (hb : 0 < b) (a' b' : Nat) :
    Reads a' b' (parenthesized tokens) e := by
  intro pending _
  obtain ⟨pending', e', hrun, hsettle⟩ := h (.group :: pending) (Pending.admits_cons.2 ha)
  refine ⟨pending, e, ?_, fun _ _ => rfl⟩
  have hgroup : settle 1 (.group :: pending) e = (.group :: pending, e) :=
    Pending.settle_of_close?_eq_none (fun _ => rfl) 1 pending e
  have hclose : (after pending' e').step (.mark .closeParen) = some (.after pending e) := by
    have hclosed := hsettle 1 hb
    rw [hgroup] at hclosed
    simp only [step, restStep, BinaryOperator.ofToken?, hclosed, closeParen]
  have hopen : (before pending).step (.mark .openParen) = some (.before (.group :: pending)) := rfl
  rw [Token.parenthesized, run_cons, hopen, Option.bind_some, run_append, hrun, Option.bind_some,
    run_cons, hclose]
  rfl

variable {a' b' : Nat} {us : List Token} {left right : Expr}

/-- Between its operands, an operator takes what has been read before it. -/
theorem binary (op : BinaryOperator) (hleft : Reads a b tokens left) (hright : Reads a' b' us right)
    (hb : op.tier ≤ b) (ha' : op.tier < a') :
    Reads (min op.tier a) (min op.tier b') (tokens ++ [.space, op.token, .space] ++ us)
      (.binary left op right) := by
  intro pending hadmits
  have hop : Admits op.tier pending := hadmits.mono (Nat.min_le_left ..)
  obtain ⟨between, left', hrun, hsettle⟩ := hleft pending (hadmits.mono (Nat.min_le_right ..))
  obtain ⟨pending', right', hrun', hsettle'⟩ :=
    hright (.operator left op :: pending) (Pending.admits_cons.2 ha')
  have htoken : (after between left').step op.token =
      some (.before (.operator left op :: pending)) := by
    rw [step_token, hsettle op.tier hb, Pending.settle_of_admits hop, takeOperator_of_admits hop]
  refine ⟨pending', right', ?_, fun tier htier => ?_⟩
  · rw [run_append, run_append, hrun, Option.bind_some, run_spaced, htoken, Option.bind_some, hrun']
  · rw [hsettle' tier (Nat.le_trans htier (Nat.min_le_right ..))]
    exact Pending.settle_of_close?_eq_some rfl (Nat.le_trans htier (Nat.min_le_left ..)) pending

theorem not (h : Reads a b tokens e) (ha : 3 < a) (left : Nat) :
    Reads left (min 3 b) (negation true ++ tokens) (.not e) := by
  intro pending _
  obtain ⟨pending', e', hrun, hsettle⟩ := h (.negation :: pending) (Pending.admits_cons.2 ha)
  refine ⟨pending', e', hrun, fun tier htier => ?_⟩
  rw [hsettle tier (Nat.le_trans htier (Nat.min_le_right ..))]
  exact Pending.settle_of_close?_eq_some rfl (Nat.le_trans htier (Nat.min_le_left ..)) pending

/-- A comparison with null takes what has been read before it. -/
theorem isNull (h : Reads a b tokens e) (hb : 4 ≤ b) (negated : Bool) (right : Nat) :
    Reads (min 4 a) right (tokens ++ [.space, .nullComparison negated]) (.isNull e negated) := by
  intro pending hadmits
  obtain ⟨pending', e', hrun, hsettle⟩ := h pending (hadmits.mono (Nat.min_le_right ..))
  have hclosed : settle 4 pending' e' = (pending, e) := by
    rw [hsettle 4 hb, Pending.settle_of_admits (hadmits.mono (Nat.min_le_left ..))]
  refine ⟨pending, .isNull e negated, ?_, fun _ _ => rfl⟩
  have hstep : (after pending' e').step (.nullComparison negated) =
      some (.after pending (.isNull e negated)) := by
    simp only [step, restStep, BinaryOperator.ofToken?, hclosed]
  rw [run_append, hrun, Option.bind_some, run_cons]
  exact hstep

/-- The word of a predicate takes what has been read before it, with NOT or without. -/
theorem run_predicate (h : Reads a b tokens e) (hb : 4 ≤ b) {pending : List Pending}
    (hadmits : Admits (min 4 a) pending) (negated : Bool) {word : Keyword}
    (hword : word = .LIKE ∨ word = .IN ∨ word = .BETWEEN) :
    (before pending).run
        (tokens ++ [Token.space] ++ negation negated ++ [Token.keyword word, .space]) =
      predicate pending e negated word := by
  obtain ⟨pending', e', hrun, hsettle⟩ := h pending (hadmits.mono (Nat.min_le_right ..))
  have hclosed : settle 4 pending' e' = (pending, e) := by
    rw [hsettle 4 hb, Pending.settle_of_admits (hadmits.mono (Nat.min_le_left ..))]
  have hrest : (after pending' e').run
      ([Token.space] ++ (negation negated ++ [Token.keyword word, .space])) =
        predicate pending e negated word := by
    cases negated <;> rcases hword with rfl | rfl | rfl <;>
      simp [negation, run, List.foldlM, step, restStep, BinaryOperator.ofToken?, hclosed, predicate]
  rw [List.append_assoc, List.append_assoc, run_append, hrun]
  exact hrest

/-- LIKE waits for its pattern. -/
theorem like (h : Reads a b tokens e) (hb : 4 ≤ b) (hpattern : Reads a' b' us right) (ha' : 4 < a')
    (negated : Bool) :
    Reads (min 4 a) (min 4 b')
      (tokens ++ [Token.space] ++ negation negated ++ [Token.keyword .LIKE, .space] ++ us)
      (.like e right none negated) := by
  intro pending hadmits
  obtain ⟨pending', right', hrun, hsettle⟩ :=
    hpattern (.pattern e negated :: pending) (Pending.admits_cons.2 ha')
  refine ⟨pending', right', ?_, fun tier htier => ?_⟩
  · rw [run_append, h.run_predicate hb hadmits negated (.inl rfl)]
    exact hrun
  · rw [hsettle tier (Nat.le_trans htier (Nat.min_le_right ..))]
    exact Pending.settle_of_close?_eq_some rfl (Nat.le_trans htier (Nat.min_le_left ..)) pending

/-- The lower bound ends at its AND, so nothing as loose stands bare in it. -/
theorem between {c d : Nat} {vs : List Token} {low high : Expr} (h : Reads a b tokens e)
    (hb : 4 ≤ b) (hlow : Reads a' b' us low) (ha' : 2 < a') (hb' : 2 ≤ b')
    (hhigh : Reads c d vs high) (hc : 4 < c) (negated : Bool) :
    Reads (min 4 a) (min 4 d)
      (tokens ++ [Token.space] ++ negation negated ++ [Token.keyword .BETWEEN, .space] ++ us
        ++ Token.spaced .AND ++ vs)
      (.between e low high negated) := by
  intro pending hadmits
  obtain ⟨bounded, low', hrun, hsettle⟩ :=
    hlow (.low e negated :: pending) (Pending.admits_cons.2 ha')
  obtain ⟨pending', high', hrun', hsettle'⟩ :=
    hhigh (.high e low negated :: pending) (Pending.admits_cons.2 hc)
  have hclosed : settle 2 bounded low' = (.low e negated :: pending, low) := by
    rw [hsettle 2 hb', Pending.settle_of_close?_eq_none fun _ => rfl]
  have hand : (after bounded low').step (.keyword .AND) =
      some (.before (.high e low negated :: pending)) := by
    have htoken := step_token bounded low' .and
    rw [show BinaryOperator.and.tier = 2 from rfl, hclosed] at htoken
    exact htoken
  refine ⟨pending', high', ?_, fun tier htier => ?_⟩
  · have hpredicate : (before pending).run
        (tokens ++ [Token.space] ++ negation negated ++ [Token.keyword .BETWEEN, .space] ++ us) =
          some (.after bounded low') := by
      rw [run_append, h.run_predicate hb hadmits negated (.inr (.inr rfl))]
      exact hrun
    rw [run_append, run_append, hpredicate, Option.bind_some, Token.spaced, run_spaced, hand,
      Option.bind_some, hrun']
  · rw [hsettle' tier (Nat.le_trans htier (Nat.min_le_right ..))]
    exact Pending.settle_of_close?_eq_some rfl (Nat.le_trans htier (Nat.min_le_left ..)) pending

/-- A list of values is read up to its parenthesis, one value after another. -/
theorem run_values {values : List Expr} {tss : List (List Token)} {first : Expr}
    (hfirst : ∃ a b, 0 < a ∧ 0 < b ∧ Reads a b tokens first)
    (hvalues : List.Forall₂ (fun v ts => ∃ a b, 0 < a ∧ 0 < b ∧ Reads a b ts v) values tss)
    (done : List Expr) (negated : Bool) (pending : List Pending) :
    (before (.member e negated done :: pending)).run
        (joined listSeparator (tokens :: tss) ++ [.mark .closeParen]) =
      some (.after pending (.oneOf e (done ++ first :: values) negated)) := by
  induction hvalues generalizing tokens first done with
  | nil =>
      obtain ⟨a, b, ha, hb, hreads⟩ := hfirst
      obtain ⟨pending', first', hrun, hsettle⟩ :=
        hreads (.member e negated done :: pending) (Pending.admits_cons.2 ha)
      have hclosed : settle 1 pending' first' = (.member e negated done :: pending, first) := by
        rw [hsettle 1 hb, Pending.settle_of_close?_eq_none fun _ => rfl]
      have hclose : (after pending' first').step (.mark .closeParen) =
          some (.after pending (.oneOf e (done ++ [first]) negated)) := by
        simp only [step, restStep, BinaryOperator.ofToken?, hclosed, closeParen]
      rw [Token.joined_cons, List.flatMap_nil, List.append_nil, run_append, hrun, Option.bind_some,
        run_cons, hclose]
      rfl
  | @cons next ts rest tss hnext _ ih =>
      obtain ⟨a, b, ha, hb, hreads⟩ := hfirst
      obtain ⟨pending', first', hrun, hsettle⟩ :=
        hreads (.member e negated done :: pending) (Pending.admits_cons.2 ha)
      have hclosed : settle 1 pending' first' = (.member e negated done :: pending, first) := by
        rw [hsettle 1 hb, Pending.settle_of_close?_eq_none fun _ => rfl]
      have hcomma : (after pending' first').run listSeparator =
          some (.before (.member e negated (done ++ [first]) :: pending)) := by
        have hstep : (after pending' first').step Token.comma =
            some (.before (.member e negated (done ++ [first]) :: pending)) := by
          simp only [Token.comma, step, restStep, BinaryOperator.ofToken?, hclosed, nextValue]
        rw [listSeparator, run_cons, hstep]
        rfl
      have hrest := ih hnext (done ++ [first])
      rw [List.append_assoc, List.singleton_append] at hrest
      rw [Token.joined_cons_cons, List.append_assoc, List.append_assoc, run_append, hrun,
        Option.bind_some, run_append, hcomma, Option.bind_some, hrest]

end Reads

theorem parenthesizeLooser_eq (precedence : Nat) (e : Expr) (tokens : List Token) :
    parenthesizeLooser precedence e tokens =
      if e.looser precedence then parenthesized tokens else tokens := by
  cases e with
  | binary left op right => simp only [parenthesizeLooser, Expr.looser, decide_eq_true_eq]
  | _ => rfl

namespace Expr

/-- No edge is looser than a disjunction. -/
theorem one_le_leftEdge (e : Expr) : 1 ≤ e.leftEdge := by
  fun_induction leftEdge e with
  | case1 left op right ih =>
      have hop := op.one_le_tier
      split <;> omega
  | case6 => decide
  | _ => omega

theorem one_le_rightEdge (e : Expr) : 1 ≤ e.rightEdge := by
  fun_induction rightEdge e with
  | case1 left op right ih =>
      have hop := op.one_le_tier
      split <;> omega
  | case2 e ih => split <;> omega
  | case5 => decide
  | _ => omega

/-- An operand that stands in parentheses where it is too loose is read with the edges that are left
of it. -/
theorem reads_parenthesizeLooser {e : Expr} {tokens : List Token}
    (h : Reads e.leftEdge e.rightEdge tokens e) (precedence : Nat) :
    Reads (e.leftEdgeAt precedence) (e.rightEdgeAt precedence)
      (parenthesizeLooser precedence e tokens) e := by
  rw [parenthesizeLooser_eq, leftEdgeAt, rightEdgeAt]
  split
  · exact h.parenthesized e.one_le_leftEdge e.one_le_rightEdge 7 7
  · exact h

section Grouped

variable {e left right pattern low high : Expr} {values : List Expr}

theorem grouped_binary_iff (op : BinaryOperator) :
    (binary left op right).Grouped ↔
      (binary left op right).Fits ∧ left.Grouped ∧ right.Grouped := by
  simp only [Grouped, subexpressions, List.forall_mem_cons, List.forall_mem_append]

theorem grouped_not_iff : (not e).Grouped ↔ (not e).Fits ∧ e.Grouped := by
  simp only [Grouped, subexpressions, List.forall_mem_cons]

theorem grouped_isNull_iff (negated : Bool) :
    (isNull e negated).Grouped ↔ (isNull e negated).Fits ∧ e.Grouped := by
  simp only [Grouped, subexpressions, List.forall_mem_cons]

theorem grouped_like_iff (escape : Option Char) (negated : Bool) :
    (like e pattern escape negated).Grouped ↔
      (like e pattern escape negated).Fits ∧ e.Grouped ∧ pattern.Grouped := by
  simp only [Grouped, subexpressions, List.forall_mem_cons, List.forall_mem_append]

theorem grouped_oneOf_iff (negated : Bool) :
    (oneOf e values negated).Grouped ↔
      (oneOf e values negated).Fits ∧ e.Grouped ∧ ∀ v ∈ values, v.Grouped := by
  simp only [Grouped, subexpressions, subexpressionsList_eq, List.forall_mem_cons,
    List.forall_mem_append, List.forall_mem_flatMap]

theorem grouped_between_iff (negated : Bool) :
    (between e low high negated).Grouped ↔
      (between e low high negated).Fits ∧ (e.Grouped ∧ low.Grouped) ∧ high.Grouped := by
  simp only [Grouped, subexpressions, List.forall_mem_cons, List.forall_mem_append]

end Grouped

/-- What stands bare in a grouped expression is tighter than what it stands in. So no disjunction
hides behind the right end of an expression that shows none on its left. -/
theorem two_le_rightEdge {e : Expr} (hgrouped : e.Grouped) (h : 2 < e.leftEdge) :
    2 ≤ e.rightEdge := by
  fun_induction rightEdge e with
  | case1 left op right ih =>
      obtain ⟨⟨-, hright⟩, -, hgrouped⟩ := (grouped_binary_iff op).1 hgrouped
      have hop : 2 < op.tier := Nat.lt_of_lt_of_le h (Nat.min_le_left ..)
      rw [leftEdgeAt] at hright
      split
      · omega
      next hbare =>
        rw [if_neg hbare] at hright
        have hrest := ih hgrouped (Nat.lt_trans hop hright)
        omega
  | case2 e ih =>
      obtain ⟨hfits, hgrouped⟩ := grouped_not_iff.1 hgrouped
      rw [Fits, leftEdgeAt] at hfits
      split
      · decide
      next hbare =>
        rw [if_neg hbare] at hfits
        have hrest := ih hgrouped (by omega)
        omega
  | case3 e pattern escape negated ih =>
      obtain ⟨⟨-, hpattern⟩, -, hgrouped⟩ := (grouped_like_iff escape negated).1 hgrouped
      have hrest := ih hgrouped (by omega)
      omega
  | case4 e low high negated ih =>
      obtain ⟨⟨-, -, hhigh⟩, -, hgrouped⟩ := (grouped_between_iff negated).1 hgrouped
      have hrest := ih hgrouped (by omega)
      omega
  | case5 => decide

variable {l : Level} {e : Expr}

/-- A name is read with the prefix of its alias. -/
theorem Reads.name {a b : Nat} (ctx : RenderContext) (path s : String) :
    Reads a b (ctx.outerPrefixTokens path ++ [.name s]) (.ofPath s) := by
  intro pending _
  refine ⟨pending, .ofPath s, ?_, fun _ _ => rfl⟩
  rw [RenderContext.outerPrefixTokens]
  cases ctx.outer with
  | none => rfl
  | some scope =>
      dsimp only
      split <;> rfl

theorem tokens_named (l : Level) (position : Position) (name : String) :
    (named name none).tokens l position = .ok [.parameter name] := by
  simp [named, tokens, Level.parameterTokens, Parameter.isMultiple]

/-- The values of a list are read in parentheses, or without them if there is one parameter. -/
theorem run_listing {values : List Expr} {tss : List (List Token)}
    (hplain : ∀ v ∈ values, v.Plain l.aliases) (hne : values ≠ [])
    (htss : List.Forall₂ (fun v ts => v.tokens l .value = .ok ts ∧
      Reads v.leftEdge v.rightEdge ts v) values tss)
    (pending : List Pending) (e : Expr) (negated : Bool) :
    (listing pending e negated).run
        (if standsAlone values then joined listSeparator tss
          else parenthesized (joined listSeparator tss)) =
      some (.after pending (.oneOf e values negated)) := by
  cases htss with
  | nil => exact absurd rfl hne
  | @cons v ts rest tss hv hrest =>
      obtain ⟨hts, hreads⟩ := hv
      split
      next hstands =>
        unfold standsAlone at hstands
        split at hstands
        next p heq =>
          obtain ⟨rfl, rfl⟩ := List.cons.inj heq
          cases hrest
          cases hplain _ List.mem_cons_self with
          | parameter name =>
              have htokens := tokens_named l .value name
              rw [named, hts, Except.ok.injEq] at htokens
              rw [htokens]
              rfl
        next q heq =>
          obtain ⟨rfl, rfl⟩ := List.cons.inj heq
          cases hplain _ List.mem_cons_self
        next => cases hstands
      next =>
        have hopen : (listing pending e negated).step (.mark .openParen) =
            some (.before (.member e negated [] :: pending)) := rfl
        rw [parenthesized, run_cons, hopen, Option.bind_some]
        exact Reads.run_values ⟨_, _, v.one_le_leftEdge, v.one_le_rightEdge, hreads⟩
          (hrest.imp fun v ts h => ⟨_, _, v.one_le_leftEdge, v.one_le_rightEdge, h.2⟩)
          [] negated pending

/-- What is written of a grouped expression is read as the expression. -/
theorem Plain.reads (h : e.Plain l.aliases) (hgrouped : e.Grouped) (position : Position) :
    ∃ tokens, e.tokens l position = .ok tokens ∧ Reads e.leftEdge e.rightEdge tokens e := by
  induction h generalizing position with
  | @path s hunknown =>
      exact ⟨_, Level.pathTokens_of_unknown hunknown, Reads.name l.context _ s⟩
  | parameter name =>
      exact ⟨[.parameter name], tokens_named l position name,
        Reads.operand (fun _ => rfl) (by simp)⟩
  | int n => exact ⟨[.integer n], rfl, Reads.operand (fun _ => rfl) (by simp)⟩
  | @binary left right op _ _ ihleft ihright =>
      obtain ⟨⟨hbefore, hafter⟩, hleft, hright⟩ := (grouped_binary_iff op).1 hgrouped
      obtain ⟨ts, hts, hreads⟩ := ihleft hleft op.operandPosition
      obtain ⟨us, hus, hreads'⟩ := ihright hright op.operandPosition
      rw [BinaryOperator.operandPosition] at hts hus
      refine ⟨_, by rw [tokens, hts, hus]; rfl, ?_⟩
      exact Reads.binary op (reads_parenthesizeLooser hreads op.precedence)
        (reads_parenthesizeLooser hreads' (op.precedence + 1)) hbefore hafter
  | @not e _ ih =>
      obtain ⟨hfits, hinner⟩ := grouped_not_iff.1 hgrouped
      obtain ⟨ts, hts, hreads⟩ := ih hinner .predicate
      refine ⟨_, by rw [tokens, hts]; rfl, ?_⟩
      exact (reads_parenthesizeLooser hreads _).not hfits 7
  | @isNull e negated _ ih =>
      obtain ⟨hfits, hinner⟩ := (grouped_isNull_iff negated).1 hgrouped
      obtain ⟨ts, hts, hreads⟩ := ih hinner .value
      refine ⟨_, by rw [tokens, hts]; rfl, ?_⟩
      exact hreads.isNull hfits negated 7
  | @like e pattern negated _ _ ihe ihpattern =>
      obtain ⟨⟨hoperand, hpattern⟩, he, hp⟩ := (grouped_like_iff none negated).1 hgrouped
      obtain ⟨ts, hts, hreads⟩ := ihe he .value
      obtain ⟨us, hus, hreads'⟩ := ihpattern hp .value
      refine ⟨_, by rw [tokens, hts, hus]; rfl, ?_⟩
      rw [List.append_nil]
      exact hreads.like hoperand hreads' hpattern negated
  | @oneOf e values negated _ hplain hvalues ihe ihvalues =>
      obtain ⟨hfits, he, hall⟩ := (grouped_oneOf_iff negated).1 hgrouped
      obtain ⟨ts, hts, hreads⟩ := ihe he .value
      obtain ⟨tss, htss⟩ := exists_forall₂ fun v hv => ihvalues v hv (hall v hv) .value
      have hlist : Expr.listTokens l values = .ok tss := by
        rw [listTokens_eq_mapM, mapM_eq_ok]
        exact htss.imp fun _ _ h => h.1
      have hvalues' : ¬values.isEmpty = true := by simpa using hvalues
      refine ⟨_, by rw [tokens, if_neg hvalues', hts, hlist]; rfl, ?_⟩
      intro pending hadmits
      refine ⟨pending, .oneOf e values negated, ?_, fun _ _ => rfl⟩
      rw [run_append, hreads.run_predicate hfits hadmits negated (.inr (.inl rfl))]
      exact run_listing hplain hvalues htss pending e negated
  | @between e low high negated _ _ _ ihe ihlow ihhigh =>
      obtain ⟨⟨hoperand, hlower, hupper⟩, ⟨he, hlow⟩, hhigh⟩ :=
        (grouped_between_iff negated).1 hgrouped
      obtain ⟨ts, hts, hreads⟩ := ihe he .value
      obtain ⟨us, hus, hreads'⟩ := ihlow hlow .value
      obtain ⟨vs, hvs, hreads''⟩ := ihhigh hhigh .value
      refine ⟨_, by rw [tokens, hts, hus, hvs]; rfl, ?_⟩
      exact hreads.between hoperand hreads' hlower (two_le_rightEdge hlow hlower) hreads'' hupper
        negated

theorem Plain.read (h : e.Plain l.aliases) (hgrouped : e.Grouped) (position : Position) :
    ∃ tokens, e.tokens l position = .ok tokens ∧ Reader.read tokens = some e := by
  obtain ⟨tokens, htokens, hreads⟩ := h.reads hgrouped position
  obtain ⟨pending, e', hrun, hsettle⟩ := hreads [] (by simp [Admits])
  have hclosed : settle 1 pending e' = ([], e) := hsettle 1 e.one_le_rightEdge
  refine ⟨tokens, htokens, ?_⟩
  rw [Reader.read, hrun]
  simp only [hclosed]

/-- A text is that of one grouped expression at most: what is written of an expression of names,
parameters and numbers, under operators and predicates, tells it from every other one, as long as
in both of them all that stands bare is tight enough for its place. -/
theorem grouped_unambiguous (h : e.Plain l.aliases) (hgrouped : e.Grouped) :
    ∃ tokens, e.tokens l .predicate = .ok tokens ∧
      ∀ e' : Expr, e'.Plain l.aliases → e'.Grouped →
        (e'.tokens l .predicate = .ok tokens ↔ e' = e) := by
  obtain ⟨tokens, htokens, hread⟩ := h.read hgrouped .predicate
  refine ⟨tokens, htokens, fun e' h' hgrouped' => ⟨fun hsame => ?_, ?_⟩⟩
  · obtain ⟨tokens', htokens', hread'⟩ := h'.read hgrouped' .predicate
    obtain rfl : tokens' = tokens := Except.ok.inj (htokens'.symm.trans hsame)
    exact Option.some.inj (hread'.symm.trans hread)
  · rintro rfl
    exact htokens

/-- People outside a range of ages who have no name, or one of two, or one of a pattern. -/
def staying : Expr :=
  .binary
    (.not (.between (.binary (.ofPath "p.age") .plus (.int 1)) (.named "low" none) (.int 65) false))
    .and
    (.binary (.binary (.isNull (.ofPath "p.name") false) .or
        (.oneOf (.ofPath "p.name") [.named "a" none, .named "b" none] false)) .or
      (.like (.ofPath "p.name") (.named "c" none) none true))

set_option maxRecDepth 2000 in
theorem grouped_unambiguous_staying :
    staying.Plain {} ∧ staying.Grouped ∧
      ∃ tokens, staying.tokens ⟨{ dialect := .hibernate }, {}, {}⟩ .predicate = .ok tokens ∧
        tokensText .hibernate tokens =
          "NOT p.age + 1 BETWEEN :low AND 65 AND " ++
            "(p.name IS NULL OR p.name IN (:a, :b) OR p.name NOT LIKE :c)" ∧
        ∀ e' : Expr, e'.Plain {} → e'.Grouped →
          (e'.tokens ⟨{ dialect := .hibernate }, {}, {}⟩ .predicate = .ok tokens ↔ e' = staying) := by
  have hplain : staying.Plain {} :=
    .binary .and
      (.not (.between false (.binary .plus (.path rfl) (.int 1)) (.parameter "low") (.int 65)))
      (.binary .or
        (.binary .or (.isNull false (.path rfl))
          (.oneOf false (.path rfl)
            (List.forall_mem_cons.2 ⟨.parameter "a", List.forall_mem_singleton.2 (.parameter "b")⟩)
            (by simp)))
        (.like true (.path rfl) (.parameter "c")))
  have hgrouped : staying.Grouped := by decide
  have hwritten : (staying.tokens ⟨{ dialect := .hibernate }, {}, {}⟩ .predicate).map
      (tokensText .hibernate) =
        .ok ("NOT p.age + 1 BETWEEN :low AND 65 AND " ++
          "(p.name IS NULL OR p.name IN (:a, :b) OR p.name NOT LIKE :c)") := by rfl
  obtain ⟨tokens, htokens, htext⟩ := map_eq_ok.1 hwritten
  obtain ⟨tokens', htokens', hunique⟩ :=
    grouped_unambiguous (l := ⟨{ dialect := .hibernate }, {}, {}⟩) hplain hgrouped
  obtain rfl : tokens' = tokens := Except.ok.inj (htokens'.symm.trans htokens)
  exact ⟨hplain, hgrouped, tokens', htokens, htext, hunique⟩

/-- In a plain expression, no truth value is spelled by its position. -/
theorem Plain.tokens_eq (h : e.Plain l.aliases) (position position' : Position) :
    e.tokens l position = e.tokens l position' := by
  cases h <;> rfl

/-- A test for null of a binary operation is written like an operation with such a test on its
right, unless parentheses keep the right operand together. -/
theorem tokens_isNull_binary {left right : Expr} {op : BinaryOperator}
    (h : right.Plain l.aliases) (hbare : right.looser (op.precedence + 1) = false) (negated : Bool)
    (position : Position) :
    (isNull (.binary left op right) negated).tokens l position =
      (binary left op (.isNull right negated)).tokens l position := by
  have hsame : right.tokens l op.operandPosition = right.tokens l .value :=
    h.tokens_eq op.operandPosition .value
  rw [BinaryOperator.operandPosition] at hsame
  have hright (ts : List Token) : parenthesizeLooser (op.precedence + 1) right ts = ts := by
    rw [parenthesizeLooser_eq, hbare, if_neg Bool.false_ne_true]
  have htest (ts : List Token) :
      parenthesizeLooser (op.precedence + 1) (.isNull right negated) ts = ts := rfl
  rw [tokens, tokens, tokens, tokens]
  simp only [hsame, hright, htest, bind_assoc, pure_bind, List.append_assoc]

/-- What is compared may be tested, and what is tested compared. -/
theorem not_unambiguous_isNull :
    ¬∀ (l : Level) (e e' : Expr) (tokens : List Token), e.Plain l.aliases → e'.Plain l.aliases →
      e.tokens l .predicate = .ok tokens → e'.tokens l .predicate = .ok tokens → e = e' := by
  intro h
  have hname (s : String) : (ofPath s).Plain {} := .path rfl
  have hsame : (isNull (.binary (ofPath "p.known") .eq (ofPath "p.age")) false).tokens
        ⟨{ dialect := .hibernate }, {}, {}⟩ .predicate =
      (binary (ofPath "p.known") .eq (.isNull (ofPath "p.age") false)).tokens
        ⟨{ dialect := .hibernate }, {}, {}⟩ .predicate :=
    tokens_isNull_binary (hname "p.age") rfl false .predicate
  obtain ⟨tokens, htokens⟩ : ∃ tokens, (binary (ofPath "p.known") .eq
      (.isNull (ofPath "p.age") false)).tokens ⟨{ dialect := .hibernate }, {}, {}⟩ .predicate =
        .ok tokens := ⟨_, rfl⟩
  have heq := h _ _ _ tokens (.isNull false (.binary .eq (hname "p.known") (hname "p.age")))
    (.binary .eq (hname "p.known") (.isNull false (hname "p.age"))) (hsame.trans htokens) htokens
  cases heq

end Expr

end EntityQuery
