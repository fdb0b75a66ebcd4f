/-
This file reads list requests and relation changes from the parts of an HTTP request.
-/
import EntityFilter.Failure
import EntityFilter.Filter.Expression
import EntityFilter.Http.MediaType
import EntityFilter.Json.Parser
import EntityFilter.Mutation.Payload

namespace EntityFilter.Http

/-- The text between the first question mark and the fragment of an address. -/
def queryOfAddress (address : String) : String :=
  String.ofList
    (Request.splitFirst '?' (Request.splitFirst '#' address.toList).1).2

def listRequest (address : String) : ListRequest :=
  .ofQuery (queryOfAddress address)

/-- The relation changes in the body of a request. The body has to be a JSON object by its media
type and by its text, and the changes stand in its member `relations`. -/
def relationChanges (contentType : Option String) (body : String) :
    Except RequestFault (List RelationChange) := do
  if !(contentType.bind MediaType.ofText?).any (·.isJson) then
    throw .contentType
  let some content := Json.parse? body | throw .malformedBody
  let some relations := content.member? "relations" | throw .missingRelations
  if !relations.isObject then
    throw .relationsNotObject
  pure (RelationChange.ofRelations relations)

/-- The status and the body that answer a failure. -/
def response (report : Report) : Nat × Value :=
  (report.failureClass.status, report.body)

end EntityFilter.Http
