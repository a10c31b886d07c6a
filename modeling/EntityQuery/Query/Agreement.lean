import EntityQuery.Expr.Build

/-!
Equality of expressions, queries and statements as values. It is equality of everything they
consist of, except that floats are compared as numbers: a literal that is not a number differs
from itself, and the two zeros agree.
-/

namespace EntityQuery

mutual

def Expr.agrees : Expr → Expr → Bool
  | .path p, .path p' => p == p'
  | .literal v, .literal v' => v.agrees v'
  | .parameter p, .parameter p' => p.agrees p'
  | .call f args, .call f' args' => f == f' && Expr.agreesList args args'
  | .aggregate f args d, .aggregate f' args' d' =>
      f == f' && Expr.agreesList args args' && d == d'
  | .subquery q, .subquery q' => q.agrees q'
  | .indexed b i, .indexed b' i' => b == b' && i.agrees i'
  | .null, .null => true
  | .caseWhen o b e, .caseWhen o' b' e' =>
      Expr.agreesOption o o' && Expr.agreesPairs b b' && Expr.agreesOption e e'
  | .binary a op b, .binary a' op' b' => a.agrees a' && op == op' && b.agrees b'
  | .not a, .not a' => a.agrees a'
  | .isNull a n, .isNull a' n' => a.agrees a' && n == n'
  | .like a b c n, .like a' b' c' n' => a.agrees a' && b.agrees b' && c == c' && n == n'
  | .oneOf a vs n, .oneOf a' vs' n' => a.agrees a' && Expr.agreesList vs vs' && n == n'
  | .between a b c n, .between a' b' c' n' =>
      a.agrees a' && b.agrees b' && c.agrees c' && n == n'
  | .parens a, .parens a' => a.agrees a'
  | .verbatim s, .verbatim s' => s == s'
  | _, _ => false
termination_by structural x => x

def Expr.agreesList : List Expr → List Expr → Bool
  | [], [] => true
  | e :: es, e' :: es' => e.agrees e' && Expr.agreesList es es'
  | _, _ => false
termination_by structural x => x

def Expr.agreesOption : Option Expr → Option Expr → Bool
  | none, none => true
  | some e, some e' => e.agrees e'
  | _, _ => false
termination_by structural x => x

def Expr.agreesPairs : List (Expr × Expr) → List (Expr × Expr) → Bool
  | [], [] => true
  | (a, b) :: es, (a', b') :: es' => a.agrees a' && b.agrees b' && Expr.agreesPairs es es'
  | _, _ => false
termination_by structural x => x

def Query.agrees : Query → Query → Bool
  | .select s, .select s' => s.agrees s'
  | .combined c, .combined c' => c.agrees c'
  | _, _ => false
termination_by structural x => x

def Query.agreesList : List Query → List Query → Bool
  | [], [] => true
  | q :: qs, q' :: qs' => q.agrees q' && Query.agreesList qs qs'
  | _, _ => false
termination_by structural x => x

def Select.agrees : Select → Select → Bool
  | ⟨ctes, distinct, items, ⟨nodes, roots⟩, ⟨entries⟩, condition, groupBy, having, orderBy, limits⟩,
    ⟨ctes', distinct', items', ⟨nodes', roots'⟩, ⟨entries'⟩, condition', groupBy', having',
      orderBy', limits'⟩ =>
      Cte.agreesList ctes ctes' && distinct == distinct' && SelectItem.agreesList items items'
        && JoinNode.agreesList nodes nodes' && roots == roots'
        && AliasEntry.agreesList entries entries' && Expr.agreesOption condition condition'
        && Expr.agreesList groupBy groupBy' && Expr.agreesOption having having'
        && OrderItem.agreesList orderBy orderBy' && limits == limits'
termination_by structural x => x

def SelectItem.agreesList : List (SelectItem Expr) → List (SelectItem Expr) → Bool
  | [], [] => true
  | ⟨e, a⟩ :: is, ⟨e', a'⟩ :: is' => e.agrees e' && a == a' && SelectItem.agreesList is is'
  | _, _ => false
termination_by structural x => x

def OrderItem.agreesList : List (OrderItem Expr) → List (OrderItem Expr) → Bool
  | [], [] => true
  | ⟨e, d, n⟩ :: is, ⟨e', d', n'⟩ :: is' =>
      e.agrees e' && d == d' && n == n' && OrderItem.agreesList is is'
  | _, _ => false
termination_by structural x => x

def JoinNode.agreesList : List (JoinNode Expr) → List (JoinNode Expr) → Bool
  | [], [] => true
  | ⟨aliasName, source, parent, type, fetch, condition, implicit⟩ :: ns,
    ⟨aliasName', source', parent', type', fetch', condition', implicit'⟩ :: ns' =>
      aliasName == aliasName' && source == source' && parent == parent' && type == type'
        && fetch == fetch' && Expr.agreesOption condition condition' && implicit == implicit'
        && JoinNode.agreesList ns ns'
  | _, _ => false
termination_by structural x => x

def AliasEntry.agreesList :
    List (String × AliasEntry Expr) → List (String × AliasEntry Expr) → Bool
  | [], [] => true
  | (k, .join aliasName node implicit) :: es, (k', .join aliasName' node' implicit') :: es' =>
      k == k' && aliasName == aliasName' && node == node' && implicit == implicit'
        && AliasEntry.agreesList es es'
  | (k, .select aliasName e) :: es, (k', .select aliasName' e') :: es' =>
      k == k' && aliasName == aliasName' && e.agrees e' && AliasEntry.agreesList es es'
  | _, _ => false
termination_by structural x => x

def SetOperation.agrees : SetOperation → SetOperation → Bool
  | ⟨op, start, operands, orderBy, limits⟩, ⟨op', start', operands', orderBy', limits'⟩ =>
      op == op' && start.agrees start' && Query.agreesList operands operands'
        && OrderItem.agreesList orderBy orderBy' && limits == limits'
termination_by structural x => x

def Cte.agreesList : List Cte → List Cte → Bool
  | [], [] => true
  | ⟨entity, columns, body, recursive⟩ :: cs, ⟨entity', columns', body', recursive'⟩ :: cs' =>
      entity == entity' && columns == columns' && body.agrees body' && recursive == recursive'
        && Cte.agreesList cs cs'
  | _, _ => false
termination_by structural x => x

def CteBody.agrees : CteBody → CteBody → Bool
  | .query q, .query q' => q.agrees q'
  | .update u, .update u' => u.agrees u'
  | .collectionDelete d, .collectionDelete d' => d.agrees d'
  | _, _ => false
termination_by structural x => x

def Update.agrees : Update → Update → Bool
  | ⟨⟨entity, aliasName, ⟨nodes, roots⟩, ⟨entries⟩⟩, assignments, condition, returning⟩,
    ⟨⟨entity', aliasName', ⟨nodes', roots'⟩, ⟨entries'⟩⟩, assignments', condition', returning'⟩ =>
      entity == entity' && aliasName == aliasName' && JoinNode.agreesList nodes nodes'
        && roots == roots' && AliasEntry.agreesList entries entries'
        && Expr.agreesPairs assignments assignments' && Expr.agreesOption condition condition'
        && returning == returning'
termination_by structural x => x

def CollectionDelete.agrees : CollectionDelete → CollectionDelete → Bool
  | ⟨⟨entity, aliasName, ⟨nodes, roots⟩, ⟨entries⟩⟩, collection, condition, returning⟩,
    ⟨⟨entity', aliasName', ⟨nodes', roots'⟩, ⟨entries'⟩⟩, collection', condition', returning'⟩ =>
      entity == entity' && aliasName == aliasName' && JoinNode.agreesList nodes nodes'
        && roots == roots' && AliasEntry.agreesList entries entries' && collection == collection'
        && Expr.agreesOption condition condition' && returning == returning'
termination_by structural x => x

end

/-- A delete agrees with another if their targets, conditions and reported paths do. -/
def Delete.agrees (d d' : Delete) : Bool :=
  d.target.entity == d'.target.entity && d.target.aliasName == d'.target.aliasName
    && JoinNode.agreesList d.target.joins.nodes d'.target.joins.nodes
    && d.target.joins.roots == d'.target.joins.roots
    && AliasEntry.agreesList d.target.aliases.entries d'.target.aliases.entries
    && Expr.agreesOption d.condition d'.condition && d.returning == d'.returning

def Statement.agrees : Statement → Statement → Bool
  | .select q, .select q' => q.agrees q'
  | .update u, .update u' => u.agrees u'
  | .delete d, .delete d' => d.agrees d'
  | .collectionDelete d, .collectionDelete d' => d.agrees d'
  | _, _ => false

end EntityQuery
