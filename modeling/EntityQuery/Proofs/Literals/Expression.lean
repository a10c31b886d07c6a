import EntityQuery.Proofs.Copy.Expression
import EntityQuery.Proofs.Literals.Blank
import EntityQuery.Proofs.Literals.Place

/-!
Expressions with a blank, one shape after another. Nothing that is written looks at the content: an
expression has the same shape whatever fills its blank, and the parts around the blank are written
as they are.
-/

namespace EntityQuery

/-- Whatever fills the blank, an expression is written with one place for the content, or does not
depend on it. -/
def Expr.Carries (e : String → Expr) : Prop :=
  ∀ l position, Settled Holds fun content => (e content).tokens l position

namespace Expr.Blank

variable {once : Prop} {e : String → Expr}

theorem parenthesizeLooser (h : Blank once e) (precedence : Nat) (content : String)
    (tokens : List Token) : EntityQuery.parenthesizeLooser precedence (e content) tokens =
      EntityQuery.parenthesizeLooser precedence (e "") tokens := by
  cases h <;> rfl

theorem standsAlone (h : Blank once e) (before after : List Expr) (content : String) :
    EntityQuery.standsAlone (before ++ e content :: after) =
      EntityQuery.standsAlone (before ++ e "" :: after) := by
  cases before with
  | nil =>
      cases after with
      | nil => cases h <;> rfl
      | cons next rest => cases h <;> rfl
  | cons first rest => cases rest <;> cases first <;> rfl

/-- What is no literal is no name, and a literal that is none stays none. -/
theorem genericName? (h : Blank once e) {function : String}
    (hname : Expr.genericName? function [e ""] = none) (after : List Expr) (content : String) :
    Expr.genericName? function (e content :: after) = none := by
  rw [Expr.genericName?.eq_def] at hname ⊢
  split
  next hfunction =>
    rw [if_pos hfunction] at hname
    cases h with
    | literal => cases hname
    | _ => rfl
  next => rfl

end Expr.Blank

theorem Holds.parenthesizeLooser {ts : String → List Token} (h : Holds ts) (precedence : Nat)
    (e : Expr) : Holds fun content => parenthesizeLooser precedence e (ts content) := by
  rw [show (fun content => EntityQuery.parenthesizeLooser precedence e (ts content)) = _ from
    funext fun content => EntityQuery.parenthesizeLooser.eq_def precedence e (ts content)]
  split
  · split
    · exact h.parenthesized
    · exact h
  · exact h

theorem RenderContext.settled_invocation (ctx : RenderContext) (name : String) (count : Nat)
    {args : String → Except QueryError (List (List Token))} (h : Settled (OneOf Holds) args) :
    Settled Holds fun content => ctx.invocation name count (args content) := by
  simp only [invocation]
  refine .ite _ (h.bind fun _ hargs => .pure (((hargs.joined _).append _).cons _)) ?_
  refine .ite _ (h.bind fun _ hargs => .pure ?_) (.const _)
  exact (((hargs.cons _).joined _).parenthesized).cons _

namespace Expr

variable {once : Prop} {e : String → Expr}

/-- A list of expressions, one of them with a blank. -/
theorem Carries.listTokens (he : Carries e) (l : Level) (before after : List Expr) :
    Settled (OneOf Holds) fun content => listTokens l (before ++ e content :: after) := by
  simp only [listTokens_eq_mapM]
  exact .mapM (.intro before after (he l .value))

theorem Carries.optionTokens (he : Carries e) (l : Level) (position : Position) :
    Settled (fun written => ∃ ts, Holds ts ∧ written = fun content => some (ts content))
      fun content => optionTokens l position (some (e content)) := by
  simp only [Expr.optionTokens]
  exact (he l position).bind fun ts hts => .pure ⟨ts, hts, rfl⟩

/-- A call of a function by its name in the query language. -/
theorem Carries.callTokens (he : Carries e) (l : Level) (before after : List Expr)
    (function : String) (distinct : Bool) :
    Settled Holds fun content => do
      let args ← Expr.listTokens l (before ++ e content :: after)
      return EntityQuery.callTokens function distinct args :=
  (he.listTokens l before after).bind fun _ hargs =>
    .pure (((hargs.joined _).prepend _).parenthesized.cons _)

/-- A parameter is written as its name. -/
theorem carries_parameter {p : String → Parameter}
    (hname : ∀ content, (p content).name = (p "").name)
    (hmultiple : ∀ content, (p content).isMultiple = (p "").isMultiple) :
    Carries fun content => .parameter (p content) := by
  intro l position
  simp only [tokens, Level.parameterTokens, hname, hmultiple]
  exact .const _

theorem carries_argument (h : Blank once e) (he : Carries e) (function : String)
    (before after : List Expr) (hname : before = [] → genericName? function [e ""] = none) :
    Carries fun content => .call function (before ++ e content :: after) := by
  intro l position
  have hcall := he.callTokens l before after function false
  cases before with
  | nil =>
      simp only [List.nil_append] at hcall ⊢
      simp only [tokens, isOuterCall, List.length_cons, h.genericName? (hname rfl), firstTokens]
      exact .ite _ (he l position) hcall
  | cons first rest =>
      have hrest := Settled.mapM (f := tokens l .value) (.intro rest after (he l .value))
      have hsame (content : String) :
          genericName? function (first :: (rest ++ e content :: after)) =
            genericName? function [first] := by
        cases first with
        | literal v => cases v <;> rfl
        | _ => rfl
      simp only [List.cons_append] at hcall ⊢
      simp only [tokens, isOuterCall, List.length_cons, List.length_append, firstTokens,
        restTokens_eq_mapM, List.tail_cons, hsame]
      refine .ite _ (.const _) ?_
      cases genericName? function [first] with
      | some name => exact l.context.settled_invocation name _ hrest
      | none => exact hcall

theorem carries_aggregated (he : Carries e) (function : String) (before after : List Expr)
    (distinct : Bool) :
    Carries fun content => .aggregate function (before ++ e content :: after) distinct := by
  intro l position
  simp only [tokens, isCountStar, isEmpty_append_cons, Bool.false_and, Bool.false_eq_true, if_false]
  exact he.callTokens l before after (Text.upper function) distinct

theorem carries_caseOperand (he : Carries e) (branches : List (Expr × Expr))
    (otherwise : Option Expr) :
    Carries fun content => .caseWhen (some (e content)) branches otherwise := by
  intro l position
  simp only [tokens, Option.isSome_some, if_true]
  refine (he.optionTokens l .value).bind fun _ hwritten => ?_
  obtain ⟨ts, hts, rfl⟩ := hwritten
  exact .after _ fun _ => .after _ fun _ => .pure
    ((((hts.cons _).append _).append _).append _ |>.cons _)

theorem branchTokens_append (l : Level) (position : Position) (before after : List (Expr × Expr)) :
    branchTokens l position (before ++ after) = (do
      let front ← branchTokens l position before
      let back ← branchTokens l position after
      return front ++ back) := by
  induction before with
  | nil =>
      rw [List.nil_append, branchTokens]
      cases branchTokens l position after <;> rfl
  | cons b rest ih =>
      simp only [List.cons_append, branchTokens, ih, bind_assoc, pure_bind, List.append_assoc]

theorem carries_branch {before after : List (Expr × Expr)} (test result : String → Expr)
    (h : ∀ l position, Settled Holds fun content =>
      branchTokens l position ((test content, result content) :: after))
    (operand otherwise : Option Expr) :
    Carries fun content =>
      .caseWhen operand (before ++ (test content, result content) :: after) otherwise := by
  intro l position
  simp only [tokens, branchTokens_append]
  refine .after _ fun _ => ?_
  have hbranches (position : Position) : Settled Holds fun content => do
      let front ← branchTokens l position before
      let back ← branchTokens l position ((test content, result content) :: after)
      return front ++ back :=
    .after _ fun front => (h l position).bind fun _ hback => .pure (hback.prepend front)
  refine (hbranches _).bind fun _ hts => .after _ fun _ => .pure ?_
  exact ((hts.prepend _).append _).append _ |>.cons _

theorem carries_caseTest (he : Carries e) (operand : Option Expr)
    (before after : List (Expr × Expr)) (result : Expr) (otherwise : Option Expr) :
    Carries fun content =>
      .caseWhen operand (before ++ (e content, result) :: after) otherwise := by
  refine carries_branch _ (fun _ => result) (fun l position => ?_) operand otherwise
  simp only [branchTokens]
  refine (he l position).bind fun _ htest => .after _ fun _ => .after _ fun _ => .pure ?_
  exact (((htest.prepend _).append _).append _).append _

theorem carries_caseResult (he : Carries e) (operand : Option Expr)
    (before after : List (Expr × Expr)) (test : Expr) (otherwise : Option Expr) :
    Carries fun content => .caseWhen operand (before ++ (test, e content) :: after) otherwise := by
  refine carries_branch (fun _ => test) _ (fun l position => ?_) operand otherwise
  simp only [branchTokens]
  refine .after _ fun _ => (he l .value).bind fun _ hresult => .after _ fun _ => .pure ?_
  exact (hresult.prepend _).append _

theorem carries_caseOtherwise (he : Carries e) (operand : Option Expr)
    (branches : List (Expr × Expr)) :
    Carries fun content => .caseWhen operand branches (some (e content)) := by
  intro l position
  simp only [tokens]
  refine .after _ fun _ => .after _ fun _ => (he.optionTokens l .value).bind fun _ hwritten => ?_
  obtain ⟨ts, hts, rfl⟩ := hwritten
  exact .pure ((((hts.clauseTokens _).prepend _).append _).cons _)

theorem carries_left (h : Blank once e) (he : Carries e) (op : BinaryOperator) (right : Expr) :
    Carries fun content => .binary (e content) op right := by
  intro l position
  simp only [tokens, h.parenthesizeLooser]
  refine (he l _).bind fun _ hts => .after _ fun _ => .pure ?_
  exact ((hts.parenthesizeLooser _ _).append _).append _

theorem carries_right (h : Blank once e) (he : Carries e) (left : Expr) (op : BinaryOperator) :
    Carries fun content => .binary left op (e content) := by
  intro l position
  simp only [tokens, h.parenthesizeLooser]
  exact .after _ fun _ => (he l _).bind fun _ hts =>
    .pure ((hts.parenthesizeLooser _ _).prepend _)

theorem carries_not (h : Blank once e) (he : Carries e) :
    Carries fun content => .not (e content) := by
  intro l position
  simp only [tokens, h.parenthesizeLooser]
  exact (he l _).bind fun _ hts => .pure ((hts.parenthesizeLooser _ _).prepend _)

theorem carries_isNull (he : Carries e) (negated : Bool) :
    Carries fun content => .isNull (e content) negated := by
  intro l position
  simp only [tokens]
  exact (he l .value).bind fun _ hts => .pure (hts.append _)

theorem carries_likeOperand (he : Carries e) (pattern : Expr) (escape : Option Char)
    (negated : Bool) : Carries fun content => .like (e content) pattern escape negated := by
  intro l position
  simp only [tokens]
  refine (he l .value).bind fun _ hts => .after _ fun _ => .pure ?_
  exact ((((hts.append _).append _).append _).append _).append _

theorem carries_likePattern (he : Carries e) (operand : Expr) (escape : Option Char)
    (negated : Bool) : Carries fun content => .like operand (e content) escape negated := by
  intro l position
  simp only [tokens]
  exact .after _ fun _ => (he l .value).bind fun _ hts => .pure ((hts.prepend _).append _)

theorem carries_choiceOperand (he : Carries e) (values : List Expr) (negated : Bool) :
    Carries fun content => .oneOf (e content) values negated := by
  intro l position
  simp only [tokens]
  refine .ite _ (.const _) ((he l .value).bind fun _ hts => .after _ fun _ => .pure ?_)
  exact (((hts.append _).append _).append _).append _

theorem carries_choiceValue (h : Blank once e) (he : Carries e) (operand : Expr)
    (before after : List Expr) (negated : Bool) :
    Carries fun content => .oneOf operand (before ++ e content :: after) negated := by
  intro l position
  simp only [tokens, isEmpty_append_cons, Bool.false_eq_true, if_false, h.standsAlone]
  refine .after _ fun _ => (he.listTokens l before after).bind fun _ hvalues => .pure ?_
  refine .prepend _ ?_
  split
  · exact hvalues.joined _
  · exact (hvalues.joined _).parenthesized

theorem carries_betweenOperand (he : Carries e) (low high : Expr) (negated : Bool) :
    Carries fun content => .between (e content) low high negated := by
  intro l position
  simp only [tokens]
  refine (he l .value).bind fun _ hts => .after _ fun _ => .after _ fun _ => .pure ?_
  exact (((((hts.append _).append _).append _).append _).append _).append _

theorem carries_betweenLow (he : Carries e) (operand high : Expr) (negated : Bool) :
    Carries fun content => .between operand (e content) high negated := by
  intro l position
  simp only [tokens]
  exact .after _ fun _ => (he l .value).bind fun _ hts => .after _ fun _ =>
    .pure (((hts.prepend _).append _).append _)

theorem carries_betweenHigh (he : Carries e) (operand low : Expr) (negated : Bool) :
    Carries fun content => .between operand low (e content) negated := by
  intro l position
  simp only [tokens]
  exact .after _ fun _ => .after _ fun _ => (he l .value).bind fun _ hts => .pure (hts.prepend _)

theorem carries_parens (he : Carries e) : Carries fun content => .parens (e content) := by
  intro l position
  simp only [tokens]
  exact (he l position).bind fun _ hts => .pure hts.parenthesized

end Expr

end EntityQuery
