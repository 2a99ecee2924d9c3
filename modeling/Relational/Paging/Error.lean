import Relational.Query.Error
/-
What can be wrong with a request for a page.
-/
namespace Relational

/-- Why a page cannot exist. -/
inductive PageFault where
  | pageZero
  | sizeZero
  deriving DecidableEq, Repr

/-- What to tell the user about the page. -/
def PageFault.message : PageFault → String
  | pageZero => "page numbers start at 1"
  | sizeZero => "per_page must be at least 1"

/-- Why a token is refused. -/
inductive TokenFault where
  | noDot
  | payloadEncoding
  | digestEncoding
  | digestMismatch
  | payload
  | otherColumn
  | otherDirection
  deriving DecidableEq, Repr

/-- What to tell the user about the token. -/
def TokenFault.message : TokenFault → String
  | noDot => "malformed token"
  | payloadEncoding => "malformed payload encoding"
  | digestEncoding => "malformed digest encoding"
  | digestMismatch => "digest mismatch"
  | payload => "malformed payload"
  | otherColumn => "token was issued for another column"
  | otherDirection => "token was issued for another direction"

/-- A fault in a request for a page, or in the query it is for. -/
inductive PagingError where
  | invalidPage (fault : PageFault)
  | invalidCursor (fault : TokenFault)
  | missingCursorColumn (column : String)
  | unsupportedCursorValue (column kind : String)
  | query (e : QueryError)
  deriving DecidableEq, Repr

/-- What to tell the user. -/
def PagingError.message : PagingError → String
  | invalidPage fault => "invalid page request: " ++ fault.message
  | invalidCursor fault => "invalid cursor: " ++ fault.message
  | missingCursorColumn column => "row is missing cursor column '" ++ column ++ "'"
  | unsupportedCursorValue column kind =>
    "cursor column '" ++ column ++ "' holds an unsupported " ++ kind ++ " value"
  | query e => e.message

end Relational
