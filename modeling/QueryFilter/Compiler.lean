import QueryFilter.Policy.Check
import QueryFilter.Query.Grammar
import QueryFilter.Query.Json
import QueryFilter.Sql.Translate

/-!
# Compiling a query

Reading, checking and translating in one.  The translation only sees queries that have passed the
policy, and the first stage that fails gives the error.
-/

namespace QueryFilter

/-- Why a query is not compiled. -/
inductive CompileError where
  | invalid (e : ParseError)
  | rejected (v : Violation)
  | untranslatable (e : Sql.TranslateError)

namespace CompileError

/-- The code of an error. -/
def code : CompileError → String
  | invalid _ => "invalid_query"
  | rejected _ => "query_rejected"
  | untranslatable _ => "untranslatable_query"

/-- Whether the query is at fault, and not the compiler.  It always is. -/
def isClientError : CompileError → Bool
  | invalid _ | rejected _ | untranslatable _ => true

/-- The wording of an error. -/
def message : CompileError → String
  | invalid e => e.message
  | rejected v => v.message
  | untranslatable e => e.message

end CompileError

/-- A policy, a schema and a way to write conditions. -/
structure Compiler where
  policy : Policy
  schema : Option Schema
  translator : Sql.Translator

namespace Compiler

variable (c : Compiler)

/-- Compiles a tree. -/
def compileQuery (q : Query) : Except CompileError Sql.Fragment := do
  let q ← (c.policy.validate c.schema q).mapError .rejected
  (c.translator.translate q).mapError .untranslatable

/-- Compiles a query text. -/
def compileText (text : String) : Except CompileError Sql.Fragment := do
  c.compileQuery (← (Query.parse text).mapError .invalid)

/-- Compiles the text of a filter document, of which `read?` makes the document. -/
def compileFilterWith (read? : String → Option Document) (text : String) :
    Except CompileError Sql.Fragment := do
  c.compileQuery (← (Query.parseFilterWith read? text).mapError .invalid)

/-- Compiles the JSON text of a filter document. -/
def compileFilter (text : String) : Except CompileError Sql.Fragment :=
  c.compileFilterWith Document.read? text

end Compiler

end QueryFilter
