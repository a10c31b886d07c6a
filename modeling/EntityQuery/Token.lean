import EntityQuery.Dialect
import EntityQuery.Number.DecimalText

/-!
Tokens, the units of query text. A token says what is meant; only `Token.text` knows how a
dialect spells it. A query is a list of tokens, and its text is the texts of its tokens one
after another: spaces are tokens too.
-/

namespace EntityQuery

/-- The reserved words of the query language, some of them of two words. -/
inductive Keyword where
  | SELECT
  | FROM
  | WHERE
  | AND
  | OR
  | NOT
  | AS
  | JOIN
  | LEFT
  | FETCH
  | GROUP_BY
  | HAVING
  | ORDER_BY
  | ASC
  | DESC
  | NULLS_FIRST
  | NULLS_LAST
  | CASE
  | WHEN
  | THEN
  | ELSE
  | END
  | IN
  | BETWEEN
  | LIKE
  | ESCAPE
  | DISTINCT
  | ALL
  | UNION
  | INTERSECT
  | EXCEPT
  | WITH
  | RECURSIVE
  | UPDATE
  | SET
  | DELETE
  | RETURNING
deriving DecidableEq, Repr

/-- Punctuation and operators. -/
inductive Mark where
  | comma
  | dot
  | star
  | openParen
  | closeParen
  | equal
  | notEqual
  | less
  | greater
  | lessOrEqual
  | greaterOrEqual
  | plus
  | minus
  | times
  | divide
deriving DecidableEq, Repr

/-- A unit of query text. -/
inductive Token where
  | keyword (word : Keyword)
  | mark (mark : Mark)
  | space
  /-- A truth value where a value stands. -/
  | booleanValue (value : Bool)
  /-- A truth value where a predicate stands. -/
  | booleanCondition (value : Bool)
  | nullValue
  /-- The comparison of the operand before it with null. -/
  | nullComparison (negated : Bool)
  /-- The escape character of a pattern. -/
  | escapeCharacter (char : Char)
  /-- The word that opens the condition of a join. -/
  | conditionKeyword
  /-- A name: of an entity, an alias or an attribute. -/
  | name (text : String)
  /-- The place of a parameter. -/
  | parameter (name : String)
  | integer (value : Int64)
  | float (value : Double)
  | string (value : String)
  /-- The name of a called function. -/
  | function (name : String)
  /-- Text that was made elsewhere and stands as it is. -/
  | raw (text : String)
  /-- The text of other tokens, as one text literal. -/
  | quoted (tokens : List Token)

namespace Keyword

def text : Keyword → String
  | SELECT => "SELECT"
  | FROM => "FROM"
  | WHERE => "WHERE"
  | AND => "AND"
  | OR => "OR"
  | NOT => "NOT"
  | AS => "AS"
  | JOIN => "JOIN"
  | LEFT => "LEFT"
  | FETCH => "FETCH"
  | GROUP_BY => "GROUP BY"
  | HAVING => "HAVING"
  | ORDER_BY => "ORDER BY"
  | ASC => "ASC"
  | DESC => "DESC"
  | NULLS_FIRST => "NULLS FIRST"
  | NULLS_LAST => "NULLS LAST"
  | CASE => "CASE"
  | WHEN => "WHEN"
  | THEN => "THEN"
  | ELSE => "ELSE"
  | END => "END"
  | IN => "IN"
  | BETWEEN => "BETWEEN"
  | LIKE => "LIKE"
  | ESCAPE => "ESCAPE"
  | DISTINCT => "DISTINCT"
  | ALL => "ALL"
  | UNION => "UNION"
  | INTERSECT => "INTERSECT"
  | EXCEPT => "EXCEPT"
  | WITH => "WITH"
  | RECURSIVE => "RECURSIVE"
  | UPDATE => "UPDATE"
  | SET => "SET"
  | DELETE => "DELETE"
  | RETURNING => "RETURNING"

end Keyword

namespace Mark

def text : Mark → String
  | comma => ","
  | dot => "."
  | star => "*"
  | openParen => "("
  | closeParen => ")"
  | equal => "="
  | notEqual => "<>"
  | less => "<"
  | greater => ">"
  | lessOrEqual => "<="
  | greaterOrEqual => ">="
  | plus => "+"
  | minus => "-"
  | times => "*"
  | divide => "/"

end Mark

mutual

/-- The spelling of a token in a dialect. -/
def Token.text (d : Dialect) : Token → String
  | .keyword word => word.text
  | .mark m => m.text
  | .space => " "
  | .booleanValue b => d.capabilities.booleanValue b
  | .booleanCondition b => d.capabilities.booleanCondition b
  | .nullValue => d.capabilities.nullValue
  | .nullComparison negated => d.capabilities.nullComparison negated
  | .escapeCharacter c => d.capabilities.escapeCharacter c
  | .conditionKeyword => d.capabilities.conditionKeyword
  | .name s => s
  | .parameter name => ":" ++ name
  | .integer n => toString n.toInt
  | .float x => x.text
  | .string s => d.capabilities.quoted s
  | .function name => name
  | .raw s => s
  | .quoted tokens => d.capabilities.quoted (tokensText d tokens)

/-- The text of a list of tokens. -/
def tokensText (d : Dialect) : List Token → String
  | [] => ""
  | t :: rest => t.text d ++ tokensText d rest

end

namespace Token

def comma : Token := .mark .comma

def dot : Token := .mark .dot

/-- A comma and a space, as between the items of a clause. -/
def listSeparator : List Token := [comma, space]

/-- Tokens in parentheses. -/
def parenthesized (tokens : List Token) : List Token :=
  .mark .openParen :: (tokens ++ [.mark .closeParen])

/-- A keyword with a space on either side. -/
def spaced (word : Keyword) : List Token := [space, keyword word, space]

/-- Lists of tokens with a separator between each two. -/
def joined (separator : List Token) (parts : List (List Token)) : List Token :=
  List.flatten (parts.intersperse separator)

end Token

end EntityQuery
