import EntityQuery.Expr.Build

/-!
The grammar of predicates, as a reader of the query language knows it: OR binds loosest, then AND,
NOT, comparisons, sums and products, and binary operators group to the left. The grammar is
unambiguous. A reader that keeps what is still open on a stack finds the expression of every
derivation, so no other expression has the same tokens.
-/

namespace EntityQuery

/-- The tokens of a text without its spaces. -/
def Token.words (tokens : List Token) : List Token :=
  tokens.filter fun
    | .space => false
    | _ => true

namespace Token

@[simp] theorem words_append (xs ys : List Token) : words (xs ++ ys) = words xs ++ words ys :=
  List.filter_append ..

@[simp] theorem words_parenthesized (tokens : List Token) :
    words (parenthesized tokens) = parenthesized (words tokens) := by
  unfold parenthesized
  rw [← List.singleton_append, words_append, words_append]
  rfl

end Token

namespace BinaryOperator

/-- The tier of the grammar that an operator stands on. NOT has the third for itself. -/
def tier : BinaryOperator → Nat
  | .or => 1
  | .and => 2
  | .eq | .ne | .lt | .gt | .le | .ge => 4
  | .plus | .minus => 5
  | .times | .divide => 6

/-- The operator that a token stands for. -/
def ofToken? : Token → Option BinaryOperator
  | .mark .equal => some .eq
  | .mark .notEqual => some .ne
  | .mark .less => some .lt
  | .mark .greater => some .gt
  | .mark .lessOrEqual => some .le
  | .mark .greaterOrEqual => some .ge
  | .keyword .AND => some .and
  | .keyword .OR => some .or
  | .mark .plus => some .plus
  | .mark .minus => some .minus
  | .mark .times => some .times
  | .mark .divide => some .divide
  | _ => none

theorem one_le_tier (op : BinaryOperator) : 1 ≤ op.tier := by
  cases op <;> decide

theorem tier_le_six (op : BinaryOperator) : op.tier ≤ 6 := by
  cases op <;> decide

theorem tier_ne_three (op : BinaryOperator) : op.tier ≠ 3 := by
  cases op <;> decide

/-- What is at least as tight as an operator among the operators is so on the tiers. -/
theorem tier_le_tier {op other : BinaryOperator} (h : op.precedence ≤ other.precedence) :
    op.tier ≤ other.tier := by
  cases op <;> cases other <;> revert h <;> decide

theorem tier_lt_tier {op other : BinaryOperator} (h : op.precedence < other.precedence) :
    op.tier < other.tier := by
  cases op <;> cases other <;> revert h <;> decide

/-- The operands of AND and OR may be negations. -/
theorem tier_lt_three {op : BinaryOperator} : op.isLogical = true ↔ op.tier < 3 := by
  cases op <;> decide

end BinaryOperator

/-- Which words are which expression on which tier: 1 OR, 2 AND, 3 NOT, 4 comparisons, 5 sums,
6 products, 7 operands. Parentheses leave no trace in the expression. -/
inductive Derives : Nat → List Token → Expr → Prop where
  | path (s : String) : Derives 7 [.name s] (.ofPath s)
  | parameter (name : String) : Derives 7 [.parameter name] (.named name none)
  | int (n : Int64) : Derives 7 [.integer n] (.int n)
  | group {words : List Token} {e : Expr} :
      Derives 1 words e → Derives 7 (Token.parenthesized words) e
  | not {words : List Token} {e : Expr} :
      Derives 3 words e → Derives 3 (.keyword .NOT :: words) (.not e)
  | binary {words words' : List Token} {left right : Expr} (op : BinaryOperator) :
      Derives op.tier words left → Derives (op.tier + 1) words' right →
      Derives op.tier (words ++ op.token :: words') (.binary left op right)
  | loosen {tier : Nat} {words : List Token} {e : Expr} :
      Derives (tier + 1) words e → Derives tier words e

/-- What stands on a tier may stand wherever a looser one is expected. -/
theorem Derives.loosenTo {tier tier' : Nat} {words : List Token} {e : Expr}
    (h : Derives tier words e) (hle : tier' ≤ tier) : Derives tier' words e := by
  obtain ⟨gap, rfl⟩ := Nat.exists_eq_add_of_le hle
  induction gap with
  | zero => exact h
  | succ gap ih => exact ih h.loosen (Nat.le_add_right tier' gap)

/-- What a reader has still open to its left. -/
inductive Waiting where
  | group
  | negation
  | operand (left : Expr) (op : BinaryOperator)

/-- A reader between two words. -/
inductive Reading where
  /-- An operand has to follow. -/
  | before (waiting : List Waiting)
  /-- An operand has been read. -/
  | after (waiting : List Waiting) (e : Expr)

/-- Closes what is open on a tier and on all tighter ones, around the operand that has been read. -/
def Waiting.settle (tier : Nat) : List Waiting → Expr → List Waiting × Expr
  | .operand left op :: rest, e =>
      if tier ≤ op.tier then settle tier rest (.binary left op e)
      else (.operand left op :: rest, e)
  | .negation :: rest, e =>
      if tier ≤ 3 then settle tier rest (.not e) else (.negation :: rest, e)
  | .group :: rest, e => (.group :: rest, e)
  | [], e => ([], e)

/-- Whether something on a tier may follow what is open without any of it being closed before. -/
def Waiting.Admits (tier : Nat) : List Waiting → Prop
  | .operand _ op :: _ => op.tier < tier
  | .negation :: _ => 3 ≤ tier
  | .group :: _ | [] => True

namespace Waiting

theorem Admits.succ {tier : Nat} {waiting : List Waiting} (h : Admits tier waiting) :
    Admits (tier + 1) waiting := by
  cases waiting with
  | nil => trivial
  | cons first rest =>
      cases first with
      | group => trivial
      | negation => exact Nat.le_succ_of_le h
      | operand left op => exact Nat.lt_succ_of_lt h

/-- An operator closes nothing of what admits it. -/
theorem settle_tier {op : BinaryOperator} {waiting : List Waiting} (h : Admits op.tier waiting)
    (e : Expr) : settle op.tier waiting e = (waiting, e) := by
  cases waiting with
  | nil => rfl
  | cons first rest =>
      cases first with
      | group => rfl
      | negation =>
          have htier : 3 ≤ op.tier := h
          have hne := op.tier_ne_three
          exact if_neg (by omega)
      | operand left other =>
          have htier : other.tier < op.tier := h
          exact if_neg (by omega)

end Waiting

open Waiting (settle)

namespace Reading

/-- Reads one word. -/
def step : Reading → Token → Option Reading
  | .before waiting, .name s => some (.after waiting (.ofPath s))
  | .before waiting, .parameter name => some (.after waiting (.named name none))
  | .before waiting, .integer n => some (.after waiting (.int n))
  | .before waiting, .mark .openParen => some (.before (.group :: waiting))
  | .before waiting, .keyword .NOT => some (.before (.negation :: waiting))
  | .before _, _ => none
  | .after waiting e, .mark .closeParen =>
      match settle 1 waiting e with
      | (.group :: rest, e) => some (.after rest e)
      | _ => none
  | .after waiting e, word => do
      let op ← BinaryOperator.ofToken? word
      let (waiting, e) := settle op.tier waiting e
      return .before (.operand e op :: waiting)

/-- Reads words one after another. -/
def run (r : Reading) (words : List Token) : Option Reading := words.foldlM step r

theorem run_append (r : Reading) (words words' : List Token) :
    r.run (words ++ words') = (r.run words).bind fun r => r.run words' :=
  List.foldlM_append ..

theorem step_token (waiting : List Waiting) (e : Expr) (op : BinaryOperator) :
    (after waiting e).step op.token =
      some (.before (.operand (settle op.tier waiting e).2 op :: (settle op.tier waiting e).1)) := by
  cases op <;> rfl

end Reading

open Reading

/-- A derivation on a tier is read, whatever is open, to a state in which everything on that tier
or a looser one sees its expression. What is open must not be tighter, since the operators of the
derivation would close it. -/
theorem Derives.run {tier : Nat} {words : List Token} {e : Expr} (h : Derives tier words e)
    (waiting : List Waiting) (hadmits : Waiting.Admits tier waiting) :
    ∃ waiting' e', (before waiting).run words = some (.after waiting' e') ∧
      ∀ tier' ≤ tier, settle tier' waiting' e' = settle tier' waiting e := by
  induction h generalizing waiting with
  | path s => exact ⟨waiting, .ofPath s, rfl, fun _ _ => rfl⟩
  | parameter name => exact ⟨waiting, .named name none, rfl, fun _ _ => rfl⟩
  | int n => exact ⟨waiting, .int n, rfl, fun _ _ => rfl⟩
  | @group words e _ ih =>
      obtain ⟨waiting', e', hrun, hsettle⟩ := ih (.group :: waiting) trivial
      refine ⟨waiting, e, ?_, fun _ _ => rfl⟩
      have hclose : (after waiting' e').step (.mark .closeParen) = some (.after waiting e) := by
        rw [step, hsettle 1 (Nat.le_refl _)]
        rfl
      have hread : (before (.group :: waiting)).run (words ++ [.mark .closeParen]) =
          some (.after waiting e) := by
        rw [run_append, hrun]
        exact congrArg (Option.bind · pure) hclose
      exact hread
  | not _ ih =>
      obtain ⟨waiting', e', hrun, hsettle⟩ := ih (.negation :: waiting) (Nat.le_refl _)
      refine ⟨waiting', e', hrun, fun tier' htier => ?_⟩
      rw [hsettle tier' htier]
      exact if_pos htier
  | loosen _ ih =>
      obtain ⟨waiting', e', hrun, hsettle⟩ := ih waiting hadmits.succ
      exact ⟨waiting', e', hrun, fun tier' htier => hsettle tier' (Nat.le_succ_of_le htier)⟩
  | @binary words words' left right op _ _ ihleft ihright =>
      obtain ⟨between, left', hleft, hbetween⟩ := ihleft waiting hadmits
      obtain ⟨waiting', right', hright, hsettle⟩ :=
        ihright (.operand left op :: waiting) (Nat.lt_succ_self op.tier)
      have hop : (after between left').step op.token = some (.before (.operand left op :: waiting)) := by
        rw [step_token, hbetween op.tier (Nat.le_refl _), Waiting.settle_tier hadmits]
      refine ⟨waiting', right', ?_, fun tier' htier => ?_⟩
      · rw [run_append, hleft]
        have hrest : (after between left').run (op.token :: words') =
            ((after between left').step op.token).bind fun r => r.run words' := rfl
        rw [Option.bind_some, hrest, hop]
        exact hright
      · rw [hsettle tier' (Nat.le_succ_of_le htier)]
        exact if_pos htier

/-- The expression that words are read as. -/
def Reading.read (words : List Token) : Option Expr :=
  match (before []).run words with
  | some (.after waiting e) =>
      match settle 1 waiting e with
      | ([], e) => some e
      | _ => none
  | _ => none

theorem Derives.read {words : List Token} {e : Expr} (h : Derives 1 words e) :
    Reading.read words = some e := by
  obtain ⟨waiting, e', hrun, hsettle⟩ := h.run [] trivial
  unfold Reading.read
  rw [hrun]
  have hclosed : settle 1 waiting e' = ([], e) := hsettle 1 (Nat.le_refl _)
  simp only [hclosed]

/-- The grammar is unambiguous. -/
theorem Derives.unique {words : List Token} {e e' : Expr} (h : Derives 1 words e)
    (h' : Derives 1 words e') : e' = e :=
  Option.some.inj (h'.read.symm.trans h.read)

end EntityQuery
