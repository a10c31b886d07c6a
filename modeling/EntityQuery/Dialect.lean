import EntityQuery.Text.Quoted
import EntityQuery.Text.Casing

/-!
The dialects of the entity query language, and what each of them can say. Every spelling and
every shape that differs between persistence providers is a field of `Capabilities`; the
dialects are records that depart from one baseline.
-/

namespace EntityQuery

/-- The persistence providers whose dialect can be written. -/
inductive Dialect where
  | hibernate
  | eclipseLink
  | dataNucleus
  | openJpa
deriving DecidableEq, Repr, Inhabited

/-- What a dialect can parse, and how it spells what dialects spell differently. -/
structure Capabilities where
  /-- A truth value where a value stands. -/
  booleanValue : Bool → String
  /-- A truth value where a predicate stands. -/
  booleanCondition : Bool → String
  /-- A text literal. -/
  quoted : String → String := Quoted.literal
  /-- The escape character of a pattern, with its quotes. -/
  escapeCharacter : Char → String := fun c => Quoted.literal (String.singleton c)
  /-- The null value. -/
  nullValue : String := "NULL"
  /-- The comparison with null that follows an operand; the argument says whether it is
  negated. -/
  nullComparison : Bool → String := fun negated => if negated then "IS NOT NULL" else "IS NULL"
  /-- The function that gives the value side of a joined map, if one has to be called. -/
  mapValueFunction : Option String := some "VALUE"
  /-- Whether any function can be called as `FUNCTION('name', ...)`. -/
  genericFunctions : Bool := true
  /-- How the call of a registered function opens. The number counts the name and the
  arguments. -/
  invocation : String → Nat → String := fun name _ => name ++ "("
  /-- Whether `COUNT(*)` can be written. -/
  countStar : Bool := false
  /-- Whether a parameter that holds a list stands in parentheses. -/
  listParameterParentheses : Bool := false
  /-- The word before the condition of a join. -/
  conditionKeyword : String := "ON"
  /-- Whether an entity can be joined by a condition alone. -/
  entityJoins : Bool := true
  /-- Whether set operations can be written between queries. -/
  nativeSetOperations : Bool := false
  /-- Whether a query may open with a WITH clause. -/
  withClause : Bool := false
  /-- Whether elements of a collection can be deleted. -/
  collectionModification : Bool := false
  /-- Whether a modification may report values back. -/
  returningClause : Bool := false

namespace Dialect

/-- Every dialect, in the order in which they are listed. -/
def all : List Dialect := [hibernate, eclipseLink, dataNucleus, openJpa]

def name : Dialect → String
  | hibernate => "hibernate"
  | eclipseLink => "eclipselink"
  | dataNucleus => "datanucleus"
  | openJpa => "openjpa"

/-- The dialect of a name, in any mixture of upper and lower case. -/
def ofName? (s : String) : Option Dialect :=
  all.find? fun d => Text.agreesIgnoringCase d.name s

def lowerBoolean (b : Bool) : String := if b then "true" else "false"

def upperBoolean (b : Bool) : String := if b then "TRUE" else "FALSE"

/-- A comparison of numbers with the given truth value, where a bare truth value is no
predicate. -/
def numericCondition (b : Bool) : String := if b then "1 = 1" else "1 = 0"

/-- Dereferences map values by itself, has no type for a bare null, and writes set operations,
WITH, RETURNING and the modification of collections. -/
def hibernateCapabilities : Capabilities where
  booleanValue := lowerBoolean
  booleanCondition := numericCondition
  nullValue := "NULLIF(1,1)"
  mapValueFunction := none
  countStar := true
  listParameterParentheses := true
  conditionKeyword := "WITH"
  nativeSetOperations := true
  withClause := true
  collectionModification := true
  returningClause := true

/-- Calls registered functions through `OPERATOR`, and reads a backslash in a literal as an
escape. -/
def eclipseLinkCapabilities : Capabilities where
  booleanValue := upperBoolean
  booleanCondition := upperBoolean
  escapeCharacter := fun c =>
    if c = '\\' then "'\\\\'" else Quoted.literal (String.singleton c)
  invocation := fun name count =>
    if 1 < count then "OPERATOR('" ++ name ++ "'," else "OPERATOR('" ++ name ++ "'"

/-- Needs a comparison around a truth value, and joins along attributes only. -/
def dataNucleusCapabilities : Capabilities where
  booleanValue := upperBoolean
  booleanCondition := fun b => if b then "TRUE = TRUE" else "TRUE = FALSE"
  entityJoins := false

/-- Knows the older language: no call of functions by name, and joins along attributes only. -/
def openJpaCapabilities : Capabilities where
  booleanValue := lowerBoolean
  booleanCondition := numericCondition
  genericFunctions := false
  entityJoins := false

def capabilities : Dialect → Capabilities
  | hibernate => hibernateCapabilities
  | eclipseLink => eclipseLinkCapabilities
  | dataNucleus => dataNucleusCapabilities
  | openJpa => openJpaCapabilities

end Dialect

end EntityQuery
