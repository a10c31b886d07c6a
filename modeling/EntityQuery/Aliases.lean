import EntityQuery.Joins

/-!
The aliases of one query level. An alias names a join node or a selected expression; naming
something else by it replaces the entry. Entries are kept in the order of their keys.
-/

namespace EntityQuery

/-- What an alias names. -/
inductive AliasEntry (ε : Type) where
  | join (aliasName : String) (node : NodeId) (implicit : Bool)
  | select (aliasName : String) (expr : ε)
deriving Repr, Inhabited

/-- The aliases of one query level, in ascending order of the keys. Texts are ordered by their
characters, which is also the order of their UTF-8 bytes. -/
structure AliasTable (ε : Type) where
  entries : List (String × AliasEntry ε) := []
deriving Repr, Inhabited

namespace AliasEntry

variable {ε : Type}

def aliasName : AliasEntry ε → String
  | join aliasName _ _ => aliasName
  | select aliasName _ => aliasName

def isJoin : AliasEntry ε → Bool
  | join .. => true
  | select .. => false

/-- Binds an entry to the copies of the nodes that it mentions. -/
def rebind (f : Renumbering → ε → ε) (numbers : Renumbering) : AliasEntry ε → AliasEntry ε
  | join aliasName node implicit => join aliasName (numbers.apply node) implicit
  | select aliasName expr => select aliasName (f numbers expr)

end AliasEntry

namespace AliasTable

variable {ε : Type}

/-- Puts an entry into a list in ascending order, in place of one with the same key. -/
def insertEntry (key : String) (entry : AliasEntry ε) :
    List (String × AliasEntry ε) → List (String × AliasEntry ε)
  | [] => [(key, entry)]
  | (k, e) :: rest =>
      if key = k then (key, entry) :: rest
      else if key < k then (key, entry) :: (k, e) :: rest
      else (k, e) :: insertEntry key entry rest

def insert (t : AliasTable ε) (key : String) (entry : AliasEntry ε) : AliasTable ε :=
  ⟨insertEntry key entry t.entries⟩

/-- Names a join node. What the alias named before is `t.find? alias`. -/
def insertJoin (t : AliasTable ε) (aliasName : String) (node : NodeId) (implicit : Bool) :
    AliasTable ε :=
  t.insert aliasName (.join aliasName node implicit)

/-- Names a selected expression. What the alias named before is `t.find? alias`. -/
def insertSelect (t : AliasTable ε) (aliasName : String) (expr : ε) : AliasTable ε :=
  t.insert aliasName (.select aliasName expr)

def find? (t : AliasTable ε) (aliasName : String) : Option (AliasEntry ε) :=
  t.entries.lookup aliasName

def erase (t : AliasTable ε) (aliasName : String) : AliasTable ε :=
  ⟨t.entries.filter fun entry => entry.1 != aliasName⟩

def contains (t : AliasTable ε) (aliasName : String) : Bool := (t.find? aliasName).isSome

/-- What the aliases name, in the order of the keys. -/
def values (t : AliasTable ε) : List (AliasEntry ε) := t.entries.map (·.2)

/-- The join node that an alias names, if it names one. -/
def joinNode? (t : AliasTable ε) (aliasName : String) : Option NodeId :=
  match t.find? aliasName with
  | some (.join _ node _) => some node
  | _ => none

/-- The join node that an alias names, or the error that it names none. -/
def requireJoin (t : AliasTable ε) (aliasName : String) : Except QueryError NodeId :=
  match t.joinNode? aliasName with
  | some node => .ok node
  | none => .error (.unresolved (.joinAlias aliasName))

/-- The aliases of join nodes, as the entries spell them. -/
def joinAliases (t : AliasTable ε) : List String :=
  (t.values.filter AliasEntry.isJoin).map AliasEntry.aliasName

/-- Binds every entry to the copies of the nodes that it mentions. -/
def rebind (f : Renumbering → ε → ε) (numbers : Renumbering) (t : AliasTable ε) :
    AliasTable ε :=
  ⟨t.entries.map fun entry => (entry.1, entry.2.rebind f numbers)⟩

end AliasTable

end EntityQuery
