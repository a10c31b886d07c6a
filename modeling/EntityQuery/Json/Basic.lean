import EntityQuery.Number.Double

/-!
JSON values as they are read. An object keeps its fields in order and with repetitions, so that
whoever interprets it can refuse them. A number is an integer of sixty-four bits, signed or not,
or else a double.
-/

namespace EntityQuery

inductive Json where
  | null
  | bool (value : Bool)
  | int (value : Int)
  | float (value : Double)
  | string (value : String)
  | array (items : List Json)
  | object (fields : List (String × Json))
  /-- Something that is written by the rules but has no value here: a number beyond all doubles,
  a text with half a surrogate pair, or a value nested too deeply. It does no harm where it is
  not looked at. -/
  | unreadable

instance : Inhabited Json := ⟨.null⟩

namespace Json

mutual

/-- The number of arrays and objects that stand inside one another. -/
def depth : Json → Nat
  | null | bool _ | int _ | float _ | string _ | unreadable => 0
  | array items => depthList items + 1
  | object fields => depthFields fields + 1

def depthList : List Json → Nat
  | [] => 0
  | j :: rest => max j.depth (depthList rest)

def depthFields : List (String × Json) → Nat
  | [] => 0
  | (_, j) :: rest => max j.depth (depthFields rest)

end

end Json

end EntityQuery
