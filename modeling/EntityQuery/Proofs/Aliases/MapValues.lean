import EntityQuery.Proofs.Aliases.Visits
import EntityQuery.Proofs.Outcome
import EntityQuery.Render.Tokens

/-!
The values of a joined map. Where the dialect has a function that unwraps them, a path from the map
is written with it unless the path is the argument of a function on collections. The marks that say
so are those of the path at the end of the chain of select aliases; the path as it was written has
its say only if it stands there itself.
-/

namespace EntityQuery

/-- The functions on collections, which mark a path that they are given. -/
inductive CollectionFunction where
  | key
  | value
  | entry
  | index
  | size
deriving DecidableEq, Repr

namespace CollectionFunction

def name : CollectionFunction → String
  | key => "KEY"
  | value => "VALUE"
  | entry => "ENTRY"
  | index => "INDEX"
  | size => "SIZE"

/-- The call of a function on collections. -/
def call : CollectionFunction → Expr → Expr
  | key => Expr.key
  | value => Expr.value
  | entry => Expr.entry
  | index => Expr.index
  | size => Expr.size

/-- A path as the argument of a function on collections. -/
def mark (c : CollectionFunction) (p : Path) : Path :=
  { p with inCollectionFunction := true, keySide := c == key }

theorem call_path (c : CollectionFunction) (p : Path) :
    c.call (.path p) = .call c.name [.path (c.mark p)] := by
  cases c <;> rfl

/-- A call is written as its name with the path in parentheses, as the path is written. -/
theorem tokens_call (c : CollectionFunction) (l : Level) (position : Position) (p : Path) :
    (c.call (.path p)).tokens l position =
      (l.pathTokens (c.mark p)).map fun ts => callTokens c.name false [ts] := by
  have houter : Expr.isOuterCall c.name [.path (c.mark p)] = false := by cases c <;> rfl
  have hgeneric : Expr.genericName? c.name [.path (c.mark p)] = none := by cases c <;> rfl
  rw [call_path, Expr.tokens, houter]
  simp only [Bool.false_eq_true, if_false, hgeneric, Expr.listTokens, Expr.tokens]
  cases l.pathTokens (c.mark p) <;> rfl

end CollectionFunction

namespace Path

/-- A path as it stands in a query: by itself, or as the argument of a function on collections. -/
def inPlace (place : Option CollectionFunction) (p : Path) : Path :=
  place.elim p fun c => c.mark p

/-- Whether a path is marked as the argument of a function on collections. -/
def isMarked (p : Path) : Bool := p.keySide || p.inCollectionFunction

end Path

/-- The expression that a path is in a place of a query. -/
def Expr.ofPlace (place : Option CollectionFunction) (p : Path) : Expr :=
  place.elim (.path p) fun c => c.call (.path p)

/-- What is written in a place of a query, given how the path there is written. -/
def placeTokens (place : Option CollectionFunction) (ts : List Token) : List Token :=
  place.elim ts fun c => callTokens c.name false [ts]

namespace Level

variable {l : Level} {w q : Path} {node : NodeId} {field : Option String} {n : JoinNode Expr}

/-- The join node that a path of a level starts from, by its binding or by the alias of a join, and
the attribute that it goes on with. -/
inductive Denotes (l : Level) : Path → NodeId → Option String → Prop
  | bound {q : Path} {node : NodeId} (h : q.base = some node) : Denotes l q node q.field
  | joinAlias {q : Path} {a : String} {node : NodeId} {implicit : Bool} (hbase : q.base = none)
      (h : l.aliases.find? q.head = some (.join a node implicit)) : Denotes l q node q.tail?

/-- Whether a path stands for another: for itself, or, where aliases are inlined, for a path that
its select alias leads to through any number of others. -/
def Reaches (l : Level) (w q : Path) : Prop :=
  w = q ∨ l.context.options.inlineAliases = true ∧ ∃ as, l.aliases.Visits w as q

theorem Denotes.ends (h : l.Denotes q node field) : l.aliases.Ends q := by
  rintro a next hq
  cases h with
  | bound hbound =>
      rw [hq.1] at hbound
      cases hbound
  | joinAlias _ hjoin =>
      obtain ⟨-, -, name, hselect⟩ := id hq
      rw [hq.head_eq, hselect] at hjoin
      cases hjoin

theorem Denotes.resolvedTokens (h : l.Denotes q node field) :
    l.resolvedTokens q = l.nodeTokens node field q := by
  cases h with
  | bound hbound => rw [Level.resolvedTokens, hbound]
  | joinAlias hbase hjoin => rw [Level.resolvedTokens, hbase, hjoin]

theorem Reaches.pathTokens (h : l.Reaches w q) (hdenotes : l.Denotes q node field) :
    l.pathTokens w = l.nodeTokens node field q := by
  rw [← hdenotes.resolvedTokens]
  obtain rfl | ⟨hinline, as, hvisits⟩ := h
  · by_cases hinline : l.context.options.inlineAliases = true
    · exact pathTokens_of_visits hinline (.here w) hdenotes.ends
    · rw [Level.pathTokens, if_neg hinline]
  · exact pathTokens_of_visits hinline hvisits hdenotes.ends

/-- The alias of a node, or what a function makes of it. -/
def ownerTokens (l : Level) (n : JoinNode Expr) : Option String → List Token
  | none => l.context.prefixTokens ++ [.name n.aliasName]
  | some f => .function f :: Token.parenthesized (l.context.prefixTokens ++ [.name n.aliasName])

def fieldTokens : Option String → List Token
  | none => []
  | some f => [Token.dot, .name f]

/-- A path from a node, by its alias or by what a function makes of the alias. -/
def valueTokens (l : Level) (n : JoinNode Expr) (field function? : Option String) : List Token :=
  l.ownerTokens n function? ++ fieldTokens field

/-- Which function has been called can be told from the text. -/
theorem valueTokens_inj {f? g? : Option String}
    (h : l.valueTokens n field f? = l.valueTokens n field g?) : f? = g? := by
  have howner := List.append_cancel_right h
  -- no alias starts with the name of a function
  have hplain (f : String) : l.ownerTokens n none ≠ l.ownerTokens n (some f) := by
    rw [ownerTokens, ownerTokens, RenderContext.prefixTokens]
    cases l.context.options.aliasPrefix <;> simp
  cases f? with
  | none => cases g? with
    | none => rfl
    | some g => exact absurd howner (hplain g)
  | some f => cases g? with
    | none => exact absurd howner.symm (hplain f)
    | some g =>
        injection howner with hfunction _
        injection hfunction with hname
        exact congrArg some hname

theorem placeTokens_inj {place : Option CollectionFunction} {ts ts' : List Token}
    (h : placeTokens place ts = placeTokens place ts') : ts = ts' := by
  cases place with
  | none => exact h
  | some c => simpa [placeTokens, callTokens, Token.parenthesized, Token.joined] using h

/-- The value side of a map is unwrapped if the dialect has a function for that and the path that
was reached is not marked. -/
theorem nodeTokens_map (hn : l.joins.node? node = some n) (hmap : n.relation? = some .map) :
    l.nodeTokens node field q =
      .ok (l.valueTokens n field
        (if q.isMarked then none else l.context.capabilities.mapValueFunction)) := by
  have hvalue : l.joins.isMapValue node = true := by
    rw [JoinGraph.isMapValue, hn, Option.bind_some, hmap]
    rfl
  simp only [nodeTokens, hn, hvalue, Bool.true_and, ← Bool.not_or, valueTokens]
  rw [← Path.isMarked]
  cases q.isMarked <;> cases l.context.capabilities.mapValueFunction <;> cases field <;> rfl

theorem tokens_ofPlace (place : Option CollectionFunction) (position : Position) (p : Path) :
    (Expr.ofPlace place p).tokens l position =
      (l.pathTokens (p.inPlace place)).map (placeTokens place) := by
  cases place with
  | none =>
      have hid : placeTokens none = id := rfl
      rw [Expr.ofPlace, Option.elim_none, Expr.tokens, hid]
      cases h : l.pathTokens (p.inPlace none) <;> exact h
  | some c => exact c.tokens_call l position p

/-- What is written in a place where a path stands for one from a map. -/
theorem tokens_ofPlace_map {place : Option CollectionFunction} {p : Path}
    (hreaches : l.Reaches (p.inPlace place) q) (hdenotes : l.Denotes q node field)
    (hn : l.joins.node? node = some n) (hmap : n.relation? = some .map) (position : Position) :
    (Expr.ofPlace place p).tokens l position =
      .ok (placeTokens place (l.valueTokens n field
        (if q.isMarked then none else l.context.capabilities.mapValueFunction))) := by
  rw [tokens_ofPlace, hreaches.pathTokens hdenotes, nodeTokens_map hn hmap]
  rfl

/-- The rule that looks at the path as it was written: the alias of a map is wrapped in the function
that the dialect has for its values if and only if it has one and the path is not given to a
function on collections. -/
def WrapsAsWritten (l : Level) (place : Option CollectionFunction) (p : Path) (n : JoinNode Expr)
    (field : Option String) : Prop :=
  ∀ position f, (Expr.ofPlace place p).tokens l position =
      .ok (placeTokens place (l.valueTokens n field (some f))) ↔
    l.context.capabilities.mapValueFunction = some f ∧ place = none

/-- A path that stands for one from a map is written with the function that the dialect has for its
values, unless the path at the end of its chain is marked. So the rule that looks at the path as it
was written holds if and only if the dialect has no such function, or the path at the end is marked
just if the written one is given to a function on collections. -/
theorem map_wrapped_iff {place : Option CollectionFunction} {p : Path}
    (hreaches : l.Reaches (p.inPlace place) q) (hdenotes : l.Denotes q node field)
    (hn : l.joins.node? node = some n) (hmap : n.relation? = some .map) :
    (∀ position, (Expr.ofPlace place p).tokens l position =
      .ok (placeTokens place (l.valueTokens n field
        (if q.isMarked then none else l.context.capabilities.mapValueFunction)))) ∧
    (l.WrapsAsWritten place p n field ↔
      l.context.capabilities.mapValueFunction = none ∨ q.isMarked = place.isSome) := by
  have hwritten := tokens_ofPlace_map hreaches hdenotes hn hmap
  refine ⟨hwritten, ?_⟩
  have hwraps (position : Position) (f : String) : (Expr.ofPlace place p).tokens l position =
      .ok (placeTokens place (l.valueTokens n field (some f))) ↔
        q.isMarked = false ∧ l.context.capabilities.mapValueFunction = some f := by
    rw [hwritten position, Except.ok.injEq]
    constructor
    · intro h
      have hfunction := valueTokens_inj (placeTokens_inj h)
      cases hmarked : q.isMarked <;> simp_all
    · rintro ⟨hmarked, hfunction⟩
      rw [hmarked, hfunction]
      rfl
  simp only [WrapsAsWritten, hwraps]
  have hposition : Nonempty Position := ⟨.value⟩
  cases l.context.capabilities.mapValueFunction with
  | none => simp
  | some f => cases place <;> cases q.isMarked <;> simp

/-- People with texts in several languages. A selected item has an alias for the texts. -/
def captions : Level where
  context := { dialect := .eclipseLink }
  aliases := .ofEntries [.join "p" 0 false, .join "l" 1 false,
    .select "x" (.path { elements := ["l"] })]
  joins := {
    nodes := [{ aliasName := "p", source := .root "Person" },
      { aliasName := "l", source := .ofAttribute "localized" .map, parent := some 0
        type := some .left }]
    roots := [0] }

/-- The texts, and a path to them. -/
def captioned : JoinNode Expr where
  aliasName := "l"
  source := .ofAttribute "localized" .map
  parent := some 0
  type := some .left

theorem map_wrapped_iff_captions :
    captions.Reaches (Path.inPlace (some .key) { elements := ["x"] }) { elements := ["l"] } ∧
    captions.Denotes { elements := ["l"] } 1 none ∧
    captions.joins.node? 1 = some captioned ∧ captioned.relation? = some .map ∧
    (∀ position, (Expr.ofPlace (some .key) { elements := ["x"] }).tokens captions position =
      .ok (placeTokens (some .key) (captions.valueTokens captioned none (some "VALUE")))) ∧
    (captions.WrapsAsWritten (some .key) { elements := ["x"] } captioned none ↔
      captions.context.capabilities.mapValueFunction = none ∨ false = true) := by
  have hreaches : captions.Reaches (Path.inPlace (some .key) { elements := ["x"] })
      { elements := ["l"] } :=
    .inr ⟨rfl, ["x"], .next ⟨rfl, rfl, "x", rfl⟩ (.here _)⟩
  have hdenotes : captions.Denotes { elements := ["l"] } 1 none :=
    @Denotes.joinAlias captions { elements := ["l"] } "l" 1 false rfl rfl
  exact ⟨hreaches, hdenotes, rfl, rfl, map_wrapped_iff hreaches hdenotes rfl rfl⟩

/-- The keys of the texts are asked for by the alias of the item, and the alias of the join is
wrapped all the same. -/
theorem not_map_wrapped_as_written_captions :
    captions.Reaches (Path.inPlace (some .key) { elements := ["x"] }) { elements := ["l"] } ∧
    captions.Denotes { elements := ["l"] } 1 none ∧
    captions.joins.node? 1 = some captioned ∧ captioned.relation? = some .map ∧
    ¬captions.WrapsAsWritten (some .key) { elements := ["x"] } captioned none := by
  refine ⟨.inr ⟨rfl, ["x"], .next ⟨rfl, rfl, "x", rfl⟩ (.here _)⟩,
    @Denotes.joinAlias captions { elements := ["l"] } "l" 1 false rfl rfl, rfl, rfl,
    fun hrule => ?_⟩
  have hwritten : (Expr.ofPlace (some .key) { elements := ["x"] }).tokens captions .value =
      .ok (placeTokens (some .key) (captions.valueTokens captioned none (some "VALUE"))) := rfl
  exact absurd ((hrule .value "VALUE").1 hwritten).2 (by simp)

end Level

end EntityQuery
