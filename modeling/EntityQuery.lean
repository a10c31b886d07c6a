import EntityQuery.Analysis.Sizes
import EntityQuery.Document.Reading
import EntityQuery.Json.Writer
import EntityQuery.Main
import EntityQuery.Query.Copy
import EntityQuery.Proofs.Induction
import EntityQuery.Proofs.Joins.Copy
import EntityQuery.Proofs.Copy.Paths
import EntityQuery.Proofs.Copy.Level
import EntityQuery.Proofs.Copy.Expression
import EntityQuery.Proofs.Copy.Alike
import EntityQuery.Proofs.Copy.Statement
import EntityQuery.Proofs.Outcome
import EntityQuery.Proofs.Render.Sites
import EntityQuery.Proofs.Render.Verdict
import EntityQuery.Proofs.Render.FunctionForms
import EntityQuery.Proofs.Render.LevelVerdict
import EntityQuery.Proofs.Render.Success
import EntityQuery.Proofs.Render.Dialects
import EntityQuery.Proofs.Render.Mentions
import EntityQuery.Proofs.Render.Parts
import EntityQuery.Proofs.Render.Coverage
import EntityQuery.Proofs.Render.Parameters
import EntityQuery.Proofs.SetOperations.Tree
import EntityQuery.Proofs.Rewriting.Agreement
import EntityQuery.Proofs.Rewriting.Basic
import EntityQuery.Proofs.Rewriting.Levels
import EntityQuery.Proofs.Rewriting.Queries
import EntityQuery.Proofs.Aliases.Table
import EntityQuery.Proofs.Aliases.Chains
import EntityQuery.Proofs.Aliases.Visits
import EntityQuery.Proofs.Aliases.MapValues
import EntityQuery.Proofs.Aliases.Inlining
import EntityQuery.Proofs.Query.Built
import EntityQuery.Proofs.Aliases.Renaming
import EntityQuery.Proofs.Aliases.Prefix
import EntityQuery.Proofs.Literals.Blank
import EntityQuery.Proofs.Literals.Place
import EntityQuery.Proofs.Literals.Bare
import EntityQuery.Proofs.Literals.Expression
import EntityQuery.Proofs.Literals.Queries
import EntityQuery.Proofs.Literals.SetOperations
import EntityQuery.Proofs.Literals.Statements
import EntityQuery.Proofs.Joins.Grown
import EntityQuery.Proofs.Joins.DepthFirst
import EntityQuery.Proofs.Joins.Naming
import EntityQuery.Proofs.Joins.Fresh
import EntityQuery.Proofs.Analysis.Groups
import EntityQuery.Proofs.Analysis.Sizes
import EntityQuery.Proofs.Query.Calls
import EntityQuery.Proofs.Analysis.AliasedGroups
import EntityQuery.Proofs.Render.Declarations
import EntityQuery.Proofs.Aliases.Spelling
import EntityQuery.Proofs.Aliases.Subqueries
import EntityQuery.Proofs.Aliases.Scoping
import EntityQuery.Proofs.Lexical.Scan
import EntityQuery.Proofs.Lexical.Tokens
import EntityQuery.Proofs.Lexical.Names
import EntityQuery.Proofs.Lexical.Levels
import EntityQuery.Proofs.Lexical.Statements
import EntityQuery.Proofs.Document.Schema
import EntityQuery.Proofs.Document.Decoding
import EntityQuery.Proofs.Document.Meaning
import EntityQuery.Proofs.Document.Storing
import EntityQuery.Proofs.Document.Variation
import EntityQuery.Proofs.Document.Numbers
import EntityQuery.Proofs.Document.RoundTrip
import EntityQuery.Proofs.Written.Basic
import EntityQuery.Proofs.Written.Traces
import EntityQuery.Proofs.Written.Statements
import EntityQuery.Proofs.SetOperations.Orders
import EntityQuery.Proofs.Rows.Basic
import EntityQuery.Proofs.Rows.Listings
import EntityQuery.Proofs.Rows.Sizes
import EntityQuery.Proofs.Predicates.Grammar
import EntityQuery.Proofs.Predicates.Parentheses
import EntityQuery.Proofs.Copy.Embedding
import EntityQuery.Proofs.Copy.Refusal
import EntityQuery.Proofs.Copy.Normal
import EntityQuery.Proofs.Ctes.Columns
import EntityQuery.Proofs.Aliases.JoinsOnly
import EntityQuery.Proofs.SetOperations.Exchange
import EntityQuery.Proofs.Query.SelectAliases
import EntityQuery.Proofs.Analysis.Replaced
import EntityQuery.Proofs.Analysis.Removal
import EntityQuery.Proofs.Analysis.Failures
import EntityQuery.Proofs.Query.ItemAliases
import EntityQuery.Proofs.Analysis.Captures
import EntityQuery.Proofs.Limits.Windows
import EntityQuery.Proofs.SetOperations.Skeleton
import EntityQuery.Proofs.Written.Pieces
import EntityQuery.Proofs.Limits.Numerals
import EntityQuery.Proofs.Predicates.Grouping
import EntityQuery.Proofs.Query.Conditions
import EntityQuery.Proofs.Literals.Reading
import EntityQuery.Proofs.SetOperations.Meaning
import EntityQuery.Proofs.Copy.Substitution
