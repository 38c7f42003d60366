import QueryFilter.Document.Reader
import QueryFilter.Query.Filter

/-!
# Queries from JSON texts

Filter documents that are JSON texts, as a program reads them.
-/

namespace QueryFilter.Query

/-- Reads the JSON text of a filter document. -/
def parseFilter : String → Except ParseError Query := parseFilterWith Document.read?

/-- Reads the bytes of a filter document, which are JSON text in UTF-8. -/
def parseFilterBytes : ByteArray → Except ParseError Query := parseFilterBytesWith Document.read?

end QueryFilter.Query
