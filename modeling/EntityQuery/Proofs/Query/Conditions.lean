import Mathlib.Logic.Function.Basic
import EntityQuery.Proofs.Query.Calls
import EntityQuery.Proofs.Render.Declarations

/-!
The conditions of join nodes and the calls they come from. A log of what has been attached to each
node is kept beside the run of the calls; the condition of a node is always the conjunction of what
the log has for it, in the order of the calls.
-/

namespace EntityQuery

open Token (listSeparator)

namespace Expr

/-- The conjunction of conditions, if there are any. -/
def conjunction? (es : List Expr) : Option Expr :=
  es.foldl (fun e? e => some (conjoin e? e)) none

@[simp] theorem conjunction?_concat (es : List Expr) (e : Expr) :
    conjunction? (es ++ [e]) = some (conjoin (conjunction? es) e) := by
  rw [conjunction?, List.foldl_append]
  rfl

theorem conjunction?_toList (e? : Option Expr) : conjunction? e?.toList = e? := by
  cases e? <;> rfl

theorem conjunction?_map_rebind (m : Renumbering) (es : List Expr) :
    conjunction? (es.map (rebind m)) = (conjunction? es).map (rebind m) := by
  induction es using List.reverseRecOn with
  | nil => rfl
  | append_singleton es e ih =>
      rw [List.map_append, List.map_singleton, conjunction?_concat, conjunction?_concat, ih]
      cases conjunction? es <;> rfl

end Expr

namespace JoinGraph

variable {g : JoinGraph Expr}

theorem condition?_eq_none {id : NodeId} (hid : g.size ≤ id) : g.condition? id = none := by
  rw [condition?, node?, List.getElem?_eq_none hid, Option.bind_none]

theorem condition?_push (n : JoinNode Expr) (id : NodeId) :
    (g.push n).condition? id = if id = g.size then n.condition else g.condition? id := by
  rcases Nat.lt_trichotomy id g.size with hid | rfl | hid
  · rw [if_neg (Nat.ne_of_lt hid), condition?, node?, push, List.getElem?_append_left hid]
    rfl
  · simp [condition?, node?, push, size]
  · have hpushed : (g.push n).size ≤ id := by
      simp only [size, push, List.length_append, List.length_singleton] at hid ⊢
      exact hid
    rw [if_neg (Nat.ne_of_gt hid), condition?_eq_none hpushed, condition?_eq_none (Nat.le_of_lt hid)]

theorem condition?_modify (node : NodeId) (f : JoinNode Expr → JoinNode Expr) (id : NodeId) :
    (g.modify node f).condition? id =
      if id = node then ((g.node? node).map f).bind JoinNode.condition else g.condition? id := by
  rw [condition?, node?, modify, List.getElem?_modify]
  by_cases hid : id = node
  · simp [hid, node?]
  · simp [hid, Ne.symm hid, condition?, node?]

/-- A change that has no part in the condition. -/
theorem condition?_modify_of_same (node : NodeId) {f : JoinNode Expr → JoinNode Expr}
    (hf : ∀ n, (f n).condition = n.condition) (id : NodeId) :
    (g.modify node f).condition? id = g.condition? id := by
  rw [condition?_modify]
  split
  next hid =>
    rw [hid, condition?]
    cases g.node? node with
    | none => rfl
    | some n => exact hf n
  next => rfl

theorem eq_of_pushUnder {parent : NodeId} {n : JoinNode Expr} {added : NodeId × JoinGraph Expr}
    (h : g.pushUnder parent n = .ok added) :
    added = (g.size, g.push { n with parent := some parent }) := by
  rw [pushUnder] at h
  simp only [bind_eq_ok, pure_eq_ok] at h
  obtain ⟨_, -, rfl⟩ := h
  rfl

end JoinGraph

/-- What has been attached to each node, in the order in which it was. -/
abbrev ConditionLog := NodeId → List Expr

/-- What was attached to the nodes of a graph is attached to their copies, and bound to them. -/
def ConditionLog.copied (log : ConditionLog) (g : JoinGraph Expr) : ConditionLog := fun id =>
  g.depthFirst[id]?.elim [] fun original => (log original).map (Expr.rebind (g.numbering 0))

namespace BuilderCall

/-- The log after a call. A call that fails attaches nothing. What a replacement of sizes leaves of
a condition counts as one from then on. -/
def record (s : Select) (log : ConditionLog) : BuilderCall → ConditionLog
  | .on node condition =>
      match s.on node condition with
      | .ok _ => Function.update log node (log node ++ [condition])
      | .error _ => log
  | .joinEntity parent entity aliasName type condition =>
      match s.joinEntity parent entity aliasName type condition with
      | .ok joined => Function.update log joined.1 [condition]
      | .error _ => log
  | .copy =>
      match s.copy with
      | .ok _ => log.copied s.joins
      | .error _ => log
  | .replaceSizes counted => fun id =>
      (((BuilderCall.replaceSizes counted).run s).joins.condition? id).toList
  | _ => log

/-- A call on a level with a log. -/
def runRecorded (state : Select × ConditionLog) (call : BuilderCall) : Select × ConditionLog :=
  (call.run state.1, call.record state.1 state.2)

theorem foldl_runRecorded_fst (calls : List BuilderCall) (state : Select × ConditionLog) :
    (calls.foldl runRecorded state).1 = calls.foldl run state.1 := by
  induction calls generalizing state with
  | nil => rfl
  | cons call rest ih => exact ih (runRecorded state call)

end BuilderCall

namespace Select

/-- What a sequence of calls has attached to each node of the level that it leads to. -/
def attached (calls : List BuilderCall) : ConditionLog :=
  (calls.foldl BuilderCall.runRecorded ({}, fun _ => [])).2

/-- Whether the condition of each node is the conjunction of what a log has for it. -/
def Records (s : Select) (log : ConditionLog) : Prop :=
  ∀ id, s.joins.condition? id = Expr.conjunction? (log id)

variable {s : Select} {log : ConditionLog}

/-- A new node without a condition has nothing attached to it. -/
theorem Records.push (h : s.Records log) {n : JoinNode Expr} (hn : n.condition = none)
    (id : NodeId) : (s.joins.push n).condition? id = Expr.conjunction? (log id) := by
  rw [JoinGraph.condition?_push, hn]
  split
  next hid => rw [← h id, JoinGraph.condition?_eq_none (Nat.le_of_eq hid.symm)]
  next => exact h id

/-- A new node with a condition has that attached to it. -/
theorem Records.push_condition (h : s.Records log) {n : JoinNode Expr} {e : Expr}
    (hn : n.condition = some e) (id : NodeId) :
    (s.joins.push n).condition? id =
      Expr.conjunction? (Function.update log s.joins.size [e] id) := by
  rw [JoinGraph.condition?_push, hn]
  split
  next hid =>
    rw [hid, Function.update_self]
    rfl
  next hid =>
    rw [Function.update_of_ne hid]
    exact h id

/-- A condition that is added stands behind those that are there. -/
theorem Records.on (h : s.Records log) {node : NodeId} {condition : Expr} {s' : Select}
    (hok : s.on node condition = .ok s') :
    s'.Records (Function.update log node (log node ++ [condition])) := by
  intro id
  rw [Select.on] at hok
  simp only [bind_eq_ok, pure_eq_ok] at hok
  obtain ⟨n, hn, rfl⟩ := hok
  have hnode := JoinGraph.require_eq_ok.1 hn
  have hcondition : n.condition = Expr.conjunction? (log node) := by
    rw [← h node, JoinGraph.condition?, hnode, Option.bind_some]
  rw [JoinGraph.condition?_modify]
  split
  next hid =>
    rw [hid, Function.update_self, Expr.conjunction?_concat, hnode, ← hcondition]
    rfl
  next hid =>
    rw [Function.update_of_ne hid]
    exact h id

theorem Records.join (h : s.Records log) {path aliasName : String} {relation : Relation}
    {type : JoinType} {r : NodeId × Select} (hok : s.join path aliasName relation type = .ok r) :
    r.2.Records log := by
  rw [Select.join] at hok
  cases hattr : Dotted.rest? path with
  | none =>
      rw [hattr] at hok
      cases hok
  | some attr =>
      rw [hattr] at hok
      simp only [bind_eq_ok, pure_eq_ok] at hok
      obtain ⟨_, -, parent, -, added, hadded, rfl⟩ := hok
      obtain rfl := JoinGraph.eq_of_pushUnder hadded
      exact h.push rfl

/-- A copy keeps what is attached to each node, at its new number. -/
theorem Records.copy (h : s.Records log) (hjoins : s.joins.WellFormed) {s' : Select}
    (hok : s.copy = .ok s') :
    s'.Records (log.copied s.joins) := by
  rw [Select.copy_eq hjoins] at hok
  obtain ⟨ctes, -, rfl⟩ := map_eq_ok.1 hok
  intro id
  change (s.joins.renumbered Expr.rebind).condition? id = _
  rw [ConditionLog.copied]
  rcases Nat.lt_or_ge id s.joins.depthFirst.length with hid | hid
  · have hmem := List.getElem_mem hid
    have hnumber : (s.joins.numbering 0).apply s.joins.depthFirst[id] = id := by
      rw [hjoins.apply_of_lt 0 (hjoins.mem_depthFirst.1 hmem), hjoins.nodup.idxOf_getElem id hid,
        Nat.zero_add]
    rw [List.getElem?_eq_getElem hid, Option.elim_some, Expr.conjunction?_map_rebind, ← h,
      ← hjoins.renumbers.condition?, hnumber]
  · have hsize : (s.joins.renumbered Expr.rebind).size ≤ id := by
      rwa [hjoins.size_renumbered, ← hjoins.length_depthFirst]
    rw [List.getElem?_eq_none hid, JoinGraph.condition?_eq_none hsize]
    rfl

/-- A call changes the conditions as the log says. -/
theorem records_run (hs : s.Named) (h : s.Records log) (call : BuilderCall) :
    (call.run s).Records (call.record s log) := by
  cases call with
  | addRoot entity aliasName => exact h.push rfl
  | correlate path aliasName => exact h.push rfl
  | join path aliasName relation type =>
      refine BuilderCall.of_succeedOr (P := fun s => s.Records log) h fun s' hok => ?_
      obtain ⟨r, hr, rfl⟩ := map_eq_ok.1 hok
      exact h.join hr
  | joinFetch path aliasName relation =>
      refine BuilderCall.of_succeedOr (P := fun s => s.Records log) h fun s' hok => ?_
      obtain ⟨r, hr, rfl⟩ := map_eq_ok.1 hok
      rw [Select.joinFetch] at hr
      simp only [bind_eq_ok, pure_eq_ok] at hr
      obtain ⟨joined, hjoined, rfl⟩ := hr
      intro id
      rw [← h.join hjoined id]
      exact JoinGraph.condition?_modify_of_same joined.1
        (f := fun n => { n with fetch := true }) (fun _ => rfl) id
  | joinEntity parent entity aliasName type condition =>
      cases hok : s.joinEntity parent entity aliasName type condition with
      | error error =>
          simp only [BuilderCall.run, BuilderCall.record, hok]
          exact h
      | ok joined =>
          simp only [BuilderCall.run, BuilderCall.record, hok]
          rw [Select.joinEntity] at hok
          simp only [bind_eq_ok, pure_eq_ok] at hok
          obtain ⟨_, -, added, hadded, rfl⟩ := hok
          obtain rfl := JoinGraph.eq_of_pushUnder hadded
          exact h.push_condition rfl
  | crossJoin parent entity aliasName =>
      refine BuilderCall.of_succeedOr (P := fun s => s.Records log) h fun s' hok => ?_
      obtain ⟨r, hr, rfl⟩ := map_eq_ok.1 hok
      rw [Select.crossJoin] at hr
      simp only [bind_eq_ok, pure_eq_ok] at hr
      obtain ⟨_, -, added, hadded, rfl⟩ := hr
      obtain rfl := JoinGraph.eq_of_pushUnder hadded
      exact h.push rfl
  | on node condition =>
      cases hok : s.on node condition with
      | error error =>
          simp only [BuilderCall.run, BuilderCall.record, hok]
          exact h
      | ok s' =>
          simp only [BuilderCall.run, BuilderCall.record, hok]
          exact h.on hok
  | select expr aliasName =>
      cases aliasName <;> exact h
  | copy =>
      cases hok : s.copy with
      | error error =>
          simp only [BuilderCall.run, BuilderCall.record, hok]
          exact h
      | ok s' =>
          simp only [BuilderCall.run, BuilderCall.record, hok]
          exact h.copy hs.grown.wellFormed hok
  | replaceSizes counted => exact fun id => (Expr.conjunction?_toList _).symm
  | distinct | filter | group | filterGroups | order | take | drop | withCte
  | applyImplicitGroups => exact h

theorem records_foldl_runRecorded {state : Select × ConditionLog} (hs : state.1.Named)
    (h : state.1.Records state.2) (calls : List BuilderCall) :
    (calls.foldl BuilderCall.runRecorded state).1.Records
      (calls.foldl BuilderCall.runRecorded state).2 := by
  induction calls generalizing state with
  | nil => exact h
  | cons call rest ih => exact ih (named_run hs call) (records_run hs h call)

/-- Whatever has been called, the condition of each node is the conjunction of what the calls have
attached to it. -/
theorem ofCalls_records (calls : List BuilderCall) : (ofCalls calls).Records (attached calls) := by
  have hempty : Records {} fun _ => [] := fun _ => rfl
  have hnamed : Named {} := AliasTable.Names.empty
  have hrecords := @records_foldl_runRecorded ({}, fun _ => []) hnamed hempty calls
  rwa [BuilderCall.foldl_runRecorded_fst] at hrecords

end Select

namespace Level

/-- A piece of the FROM clause that ends with a condition, behind the keyword. -/
def Carries (l : Level) (piece : List Token) (e : Expr) : Prop :=
  ∃ front written, e.tokens l .predicate = .ok written ∧ .conditionKeyword ∉ front ∧
    piece = front ++ [.space, .conditionKeyword, .space] ++ written

/-- What is written of the condition of a node: a join carries it, a root never has one. -/
structure EntryOf (l : Level) (id : NodeId) (e? : Option Expr) (piece : List Token) : Prop where
  join : ∀ e ∈ e?, (l.joins.parent? id).isSome → l.Carries piece e
  root : l.joins.parent? id = none → .conditionKeyword ∉ piece
  bare : e? = none → .conditionKeyword ∉ piece

variable {l : Level} {before : List NodeId} {n : JoinNode Expr} {piece : List Token}

theorem conditionKeyword_not_mem_rootOpening (before : List NodeId) :
    Token.conditionKeyword ∉ rootOpening before := by
  rw [rootOpening]
  split <;> simp [listSeparator, Token.comma]

theorem conditionKeyword_not_mem_outerPrefixTokens (ctx : RenderContext) (path : String) :
    Token.conditionKeyword ∉ ctx.outerPrefixTokens path := by
  rw [RenderContext.outerPrefixTokens]
  split
  · split <;> simp
  · simp

theorem conditionKeyword_not_mem_joinWords (n : JoinNode Expr) :
    Token.conditionKeyword ∉ joinWords n := by
  rw [joinWords]
  split <;> split <;> simp

/-- A join ends with its condition, or with its alias if it has none. -/
theorem carries_conditionClause {front condition : List Token}
    (hfront : .conditionKeyword ∉ front)
    (h : conditionClause (n.condition.map (Expr.tokens l .predicate)) = .ok condition) :
    (∀ e ∈ n.condition, l.Carries (front ++ condition) e) ∧
      (n.condition = none → .conditionKeyword ∉ front ++ condition) := by
  cases hn : n.condition with
  | none =>
      rw [hn] at h
      cases h
      exact ⟨by simp, fun _ => by rwa [List.append_nil]⟩
  | some e =>
      rw [hn, Option.map_some, conditionClause] at h
      simp only [bind_eq_ok, pure_eq_ok] at h
      obtain ⟨written, hwritten, rfl⟩ := h
      refine ⟨fun _ he => ?_, by simp⟩
      obtain rfl := Option.some.inj he
      exact ⟨front, written, hwritten, hfront, (List.append_assoc _ _ _).symm⟩

theorem Declares.entryOf {id : NodeId} (hn : l.joins.node? id = some n)
    (h : l.Declares before n piece) : l.EntryOf id n.condition piece := by
  have hparent : l.joins.parent? id = n.parent := by
    rw [JoinGraph.parent?, hn, Option.bind_some]
  have hroot (hnone : n.parent = none) (hpiece : .conditionKeyword ∉ piece) :
      l.EntryOf id n.condition piece :=
    ⟨fun _ _ hsome => by simp [hparent, hnone] at hsome, fun _ => hpiece, fun _ => hpiece⟩
  have hjoin {parent : NodeId} (hunder : n.parent = some parent)
      (hpiece : (∀ e ∈ n.condition, l.Carries piece e) ∧
        (n.condition = none → .conditionKeyword ∉ piece)) : l.EntryOf id n.condition piece :=
    ⟨fun e he _ => hpiece.1 e he, fun hnone => by simp [hparent, hunder] at hnone, hpiece.2⟩
  cases h with
  | root entity source parent =>
      refine hroot parent ?_
      simp [conditionKeyword_not_mem_rootOpening, declared]
  | correlated path source parent =>
      refine hroot parent ?_
      simp [conditionKeyword_not_mem_rootOpening, conditionKeyword_not_mem_outerPrefixTokens,
        declared]
  | crossJoin entity source type parent under earlier unconditional =>
      refine hjoin under ⟨by simp [unconditional], fun _ => ?_⟩
      simp [listSeparator, Token.comma, declared]
  | entityJoin entity source type parent under earlier condition written =>
      refine hjoin under (carries_conditionClause ?_ written)
      simp [conditionKeyword_not_mem_joinWords, declared]
  | attributeJoin attr relation source type parent under earlier owner node condition written =>
      refine hjoin under (carries_conditionClause ?_ written)
      simp [conditionKeyword_not_mem_joinWords, declared, Token.dot]

theorem DeclaresAll.length {ids : List NodeId} {pieces : List (List Token)}
    (h : l.DeclaresAll before ids pieces) : pieces.length = ids.length := by
  induction h with
  | nil => rfl
  | cons _ _ _ ih => rw [List.length_cons, List.length_cons, ih]

theorem DeclaresAll.entryOf {ids : List NodeId} {pieces : List (List Token)}
    (h : l.DeclaresAll before ids pieces) {i : Nat} {id : NodeId} (hid : ids[i]? = some id) :
    ∃ piece, pieces[i]? = some piece ∧ l.EntryOf id (l.joins.condition? id) piece := by
  induction h generalizing i with
  | nil => cases hid
  | @cons before rest first n piece pieces node declared _ ih =>
      cases i with
      | zero =>
          obtain rfl := Option.some.inj hid
          have hcondition : l.joins.condition? first = n.condition := by
            rw [JoinGraph.condition?, node, Option.bind_some]
          exact ⟨piece, rfl, hcondition ▸ declared.entryOf node⟩
      | succ i => exact ih hid

end Level

/-- No condition of a join is dropped. If a level that calls have led to can be written, its FROM
clause has one entry for each node, and the entry of a join carries the conjunction of what has been
attached to it, in the order of the calls. What is attached to a root is not written. -/
theorem Select.entries_carry_conditions (calls : List BuilderCall) (ctx : RenderContext)
    {ts : List Token} (h : (ofCalls calls).tokens ctx = .ok ts) :
    ∃ tables selected, ∃ entries : List (List Token), ∃ condition groups having orders,
      ts = (ofCalls calls).assembled ctx tables selected entries.flatten condition groups having
        orders ∧
      entries.length = (ofCalls calls).joins.size ∧
      ∀ id < (ofCalls calls).joins.size, ∃ entry,
        entries[(ofCalls calls).joins.depthFirst.idxOf id]? = some entry ∧
          ((ofCalls calls).level ctx).EntryOf id (Expr.conjunction? (attached calls id)) entry := by
  have hnamed : (ofCalls calls).Named := named_foldl_run (s := {}) AliasTable.Names.empty calls
  have hordered := hnamed.grown.ordered
  have hjoins := hordered.wellFormed
  obtain ⟨-, hdeclares⟩ := from_declares_walk ctx (ofCalls calls) hordered
  obtain ⟨tables, selected, _, condition, groups, having, orders, hts, entries, rfl, hentries⟩ :=
    hdeclares ts h
  refine ⟨tables, selected, entries, condition, groups, having, orders, hts, ?_, fun id hid => ?_⟩
  · exact hentries.length.trans hjoins.length_depthFirst
  · rw [← ofCalls_records calls id]
    exact hentries.entryOf (List.getElem?_idxOf (hjoins.mem_depthFirst.2 hid))

/-- The named owners of documents, with two conditions on the owner. -/
def BuilderCall.namedOwners : List BuilderCall :=
  [.addRoot "Document" "d", .join "d.owner" "o" .singular .left,
    .on 1 (.isNull (.bound 1 "o" (some "name")) true),
    .on 1 (.binary (.bound 1 "o" (some "age")) .gt (.literal (.int 30)))]

theorem Select.entries_carry_conditions_namedOwners :
    ∃ ts, (ofCalls BuilderCall.namedOwners).tokens { dialect := .hibernate } = .ok ts ∧
      ∃ entry, ((ofCalls BuilderCall.namedOwners).level { dialect := .hibernate }).Carries entry
        (.binary (.isNull (.bound 1 "o" (some "name")) true) .and
          (.binary (.bound 1 "o" (some "age")) .gt (.literal (.int 30)))) := by
  obtain ⟨ts, hts⟩ : ∃ ts, (ofCalls BuilderCall.namedOwners).tokens { dialect := .hibernate } =
    .ok ts := ⟨_, rfl⟩
  obtain ⟨_, _, entries, _, _, _, _, -, -, hentries⟩ := entries_carry_conditions _ _ hts
  obtain ⟨entry, -, hentry⟩ := hentries 1 (by decide)
  exact ⟨ts, hts, entry, hentry.join _ rfl (by decide)⟩

/-- Documents by a condition that is attached to the root. -/
def BuilderCall.oneDocument : List BuilderCall :=
  [.addRoot "Document" "d", .on 0 (.binary (.bound 0 "d" (some "id")) .eq (.literal (.int 1)))]

/-- The condition of a root is gone without an error. -/
theorem Select.not_entries_carry_conditions_oneDocument :
    ¬∀ (calls : List BuilderCall) (ctx : RenderContext) (ts : List Token),
      (ofCalls calls).tokens ctx = .ok ts → ∀ id, ∀ e ∈ Expr.conjunction? (attached calls id),
        ∃ before written after, e.tokens ((ofCalls calls).level ctx) .predicate = .ok written ∧
          ts = before ++ [.conditionKeyword, .space] ++ written ++ after := by
  intro hclaim
  have htokens : (ofCalls BuilderCall.oneDocument).tokens { dialect := .hibernate } =
      .ok [.keyword .SELECT, .space, .name "d", .space, .keyword .FROM, .space, .name "Document",
        .space, .name "d"] := rfl
  obtain ⟨before, written, after, -, hsplit⟩ := hclaim _ _ _ htokens 0 _ rfl
  have hmem : Token.conditionKeyword ∈ before ++ [.conditionKeyword, .space] ++ written ++ after := by
    simp
  rw [← hsplit] at hmem
  simp at hmem

end EntityQuery
