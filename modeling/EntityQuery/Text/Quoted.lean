/-!
Quoted literals: a text between single quotes, with every quote inside it written twice.
-/

namespace EntityQuery.Quoted

/-- The inside of a literal: each quote twice, all else once. -/
def double : List Char → List Char
  | [] => []
  | c :: rest => if c = '\'' then '\'' :: '\'' :: double rest else c :: double rest

/-- The literal for a text. -/
def literal (s : String) : String := "'" ++ String.ofList (double s.toList) ++ "'"

end EntityQuery.Quoted
