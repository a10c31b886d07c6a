import EntityQuery.Error

/-!
The FROM clause of one query level: an arena of join nodes, addressed by their positions, and
the list of its roots. The type of conditions is a parameter, so that nothing here depends on
what an expression is.

A graph may come from a document, so parents and roots need not exist and parents need not come
first; the operations below that add nodes keep both.
-/

namespace EntityQuery

/-- How a node is joined to its parent. -/
inductive JoinType where
  | inner
  | left
  | cross
deriving DecidableEq, Repr, Inhabited

/-- What the attribute that a join follows holds. -/
inductive Relation where
  | singular
  | collection
  /-- A map; the joined node stands for its values. -/
  | map
deriving DecidableEq, Repr, Inhabited

/-- Where the rows of a node come from. -/
inductive JoinSource where
  /-- All rows of an entity, at the start of a FROM entry. -/
  | root (entity : String)
  /-- An attribute of the parent node. -/
  | ofAttribute (name : String) (relation : Relation)
  /-- An entity that is not related to the parent, or a common table. -/
  | ofEntity (name : String)
  /-- A path of an enclosing query, at the start of a FROM entry. -/
  | correlated (path : String)
deriving DecidableEq, Repr, Inhabited

/-- One entry of the FROM clause. -/
structure JoinNode (ε : Type) where
  aliasName : String
  source : JoinSource
  parent : Option NodeId := none
  type : Option JoinType := none
  fetch : Bool := false
  condition : Option ε := none
  /-- Whether the node was added on behalf of an expression, not joined by the query. -/
  implicit : Bool := false
deriving Repr, Inhabited

/-- The join nodes of one query level. -/
structure JoinGraph (ε : Type) where
  nodes : List (JoinNode ε) := []
  roots : List NodeId := []
deriving Repr, Inhabited

/-- How the nodes of a graph were numbered anew. The last entry for a node counts. -/
structure Renumbering where
  entries : List (NodeId × NodeId) := []
deriving DecidableEq, Repr, Inhabited

namespace Renumbering

def insert (m : Renumbering) (old new : NodeId) : Renumbering := ⟨(old, new) :: m.entries⟩

/-- The new number of a node, if it has one. -/
def find? (m : Renumbering) (old : NodeId) : Option NodeId := m.entries.lookup old

/-- The new number of a node; a node of another level keeps the one it has. -/
def apply (m : Renumbering) (old : NodeId) : NodeId := (m.find? old).getD old

/-- The renumbering with the given entries, the later ones over the earlier ones. -/
def ofList (entries : List (NodeId × NodeId)) : Renumbering :=
  entries.foldl (fun m e => m.insert e.1 e.2) {}

end Renumbering

namespace Relation

/-- Whether a join may meet several rows on the other side. -/
def plural : Relation → Bool
  | singular => false
  | collection => true
  | map => true

end Relation

namespace JoinNode

variable {ε : Type}

def isRoot (n : JoinNode ε) : Bool := n.parent.isNone

/-- What the followed attribute holds, for a node that follows one. -/
def relation? (n : JoinNode ε) : Option Relation :=
  match n.source with
  | .ofAttribute _ relation => some relation
  | _ => none

end JoinNode

namespace JoinGraph

variable {ε : Type}

def node? (g : JoinGraph ε) (id : NodeId) : Option (JoinNode ε) := g.nodes[id]?

def size (g : JoinGraph ε) : Nat := g.nodes.length

/-- The node of an identifier, or the error that there is none. -/
def require (g : JoinGraph ε) (id : NodeId) : Except QueryError (JoinNode ε) :=
  match g.node? id with
  | some n => .ok n
  | none => .error (.unresolved (.node id))

/-- Changes one node; a node that does not exist stays so. -/
def modify (g : JoinGraph ε) (id : NodeId) (f : JoinNode ε → JoinNode ε) : JoinGraph ε :=
  { g with nodes := g.nodes.modify id f }

/-- Adds a node at the end; one without a parent is a root. -/
def push (g : JoinGraph ε) (n : JoinNode ε) : JoinGraph ε where
  nodes := g.nodes ++ [n]
  roots := if n.isRoot then g.roots ++ [g.nodes.length] else g.roots

/-- Adds a node under a parent that has to exist, and answers where it stands. -/
def pushUnder (g : JoinGraph ε) (parent : NodeId) (n : JoinNode ε) :
    Except QueryError (NodeId × JoinGraph ε) := do
  let _ ← g.require parent
  pure (g.size, g.push { n with parent := some parent })

/-- `FROM entity alias`. -/
def addRoot (g : JoinGraph ε) (entity aliasName : String) : NodeId × JoinGraph ε :=
  (g.size, g.push { aliasName := aliasName, source := .root entity })

/-- `FROM path alias`, where the path starts at an enclosing query. -/
def correlate (g : JoinGraph ε) (path aliasName : String) : NodeId × JoinGraph ε :=
  (g.size, g.push { aliasName := aliasName, source := .correlated path })

/-- `JOIN parent.attribute alias`. -/
def join (g : JoinGraph ε) (parent : NodeId) (attr aliasName : String) (relation : Relation)
    (type : JoinType) : Except QueryError (NodeId × JoinGraph ε) :=
  g.pushUnder parent
    { aliasName := aliasName, source := .ofAttribute attr relation, type := some type }

/-- `JOIN entity alias ON condition`. -/
def joinEntity (g : JoinGraph ε) (parent : NodeId) (entity aliasName : String) (type : JoinType)
    (condition : ε) : Except QueryError (NodeId × JoinGraph ε) :=
  g.pushUnder parent
    { aliasName := aliasName
      source := .ofEntity entity
      type := some type
      condition := some condition }

/-- `, entity alias`. -/
def crossJoin (g : JoinGraph ε) (parent : NodeId) (entity aliasName : String) :
    Except QueryError (NodeId × JoinGraph ε) :=
  g.pushUnder parent { aliasName := aliasName, source := .ofEntity entity, type := some .cross }

/-- The nodes directly under `id`, in the order in which they were added. -/
def children (g : JoinGraph ε) (id : NodeId) : List NodeId :=
  (g.nodes.zipIdx.filter fun entry => entry.1.parent == some id).map (·.2)

/-- `id` and what lies under it, at most `depth` levels of it, each node before its
children. -/
def subtreeWithin (g : JoinGraph ε) : Nat → NodeId → List NodeId
  | 0, _ => []
  | depth + 1, id => id :: (g.children id).flatMap (g.subtreeWithin depth)

/-- `id` and all that lies under it, each node before its children. No branch without a cycle
is longer than the graph and the node it starts from. -/
def subtree (g : JoinGraph ε) (id : NodeId) : List NodeId := g.subtreeWithin (g.size + 1) id

/-- The nodes in the order of the FROM clause: the subtree of each root. -/
def depthFirst (g : JoinGraph ε) : List NodeId := g.roots.flatMap g.subtree

/-- The first node with an alias. -/
def findAlias? (g : JoinGraph ε) (aliasName : String) : Option NodeId :=
  g.nodes.findIdx? fun n => n.aliasName == aliasName

/-- Whether a node stands for the values of a map. -/
def isMapValue (g : JoinGraph ε) (id : NodeId) : Bool :=
  (g.node? id).bind JoinNode.relation? == some .map

/-- Whether the query itself joins a collection or a map. -/
def joinsCollection (g : JoinGraph ε) : Bool :=
  g.nodes.any fun n => !n.implicit && (n.relation?.any Relation.plural)

/-- The candidates for a fresh alias: the text itself, then the text with a number. The number is
natural, so it has no greatest value. A signed number of 32 bits would run out first on a graph of
`2 ^ 31` nodes. -/
def aliasCandidate (base : String) : Nat → String
  | 0 => base
  | k + 1 => base ++ "_" ++ toString (k + 1)

/-- The first candidate that no node carries. One of the first `g.size + 1` is free. So a search
with signed numbers of 32 bits can come to another answer only from `2 ^ 31` nodes on. -/
def freshAlias (g : JoinGraph ε) (base : String) : String :=
  (((List.range (g.size + 1)).map (aliasCandidate base)).find? fun aliasName =>
    (g.findAlias? aliasName).isNone).getD base

/-- Adds copies of the listed nodes of `g` to `target`. A copy hangs under the copy of its
parent, and is a root if its parent has not been copied before it. -/
def copyNodes (g : JoinGraph ε) :
    List NodeId → JoinGraph ε → Renumbering → Except CopyFailure (JoinGraph ε × Renumbering)
  | [], target, numbers => .ok (target, numbers)
  | id :: rest, target, numbers =>
      match g.node? id with
      | none => .error (.missingNode id)
      | some n =>
          copyNodes g rest (target.push { n with parent := n.parent.bind numbers.find? })
            (numbers.insert id target.size)

/-- Applies a function to the condition of the copy of each listed node. -/
def modifyConditions (f : ε → ε) (numbers : Renumbering) (ids : List NodeId)
    (target : JoinGraph ε) : JoinGraph ε :=
  ids.foldl (fun target id =>
    match numbers.find? id with
    | some copy => target.modify copy fun n => { n with condition := n.condition.map f }
    | none => target) target

/-- Adds a copy of every node of `g` to `target`, in the order of the FROM clause, and answers
the new numbers too. Conditions are bound to the copies once all of them exist, since a condition
may mention nodes that come after it. -/
def copyInto (rebind : Renumbering → ε → ε) (g target : JoinGraph ε) :
    Except CopyFailure (JoinGraph ε × Renumbering) := do
  let order := g.depthFirst
  let (target, numbers) ← g.copyNodes order target {}
  pure (modifyConditions (rebind numbers) numbers order target, numbers)

end JoinGraph

end EntityQuery
