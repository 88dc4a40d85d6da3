import CertGate.Fetch
import CertGate.Json.Reader

namespace CertGate

def deepestNesting : Nat := 127

def lastFields (fields : List (String × Datum)) : List (String × Datum) :=
  (Keyed.ofList fields : Table Datum).toList

mutual

/-- The document with every field name once, if all of it is legible and it does not nest deeper
than `depth`. -/
def Datum.settled? : (depth : Nat) → Datum → Option Datum
  | _, .illegible => none
  | 0, .list _ => none
  | 0, .record _ => none
  | depth + 1, .list items => (settledItems? depth items).map Datum.list
  | depth + 1, .record fields => (settledFields? depth fields).map fun fs ↦ .record (lastFields fs)
  | _, d => some d

def settledItems? : (depth : Nat) → List Datum → Option (List Datum)
  | _, [] => some []
  | depth, d :: ds => do
    let d ← Datum.settled? depth d
    return d :: (← settledItems? depth ds)

def settledFields? : (depth : Nat) → List (String × Datum) → Option (List (String × Datum))
  | _, [] => some []
  | depth, (name, d) :: fs => do
    let d ← Datum.settled? depth d
    return (name, d) :: (← settledFields? depth fs)

end

namespace Retrieval

def bodyRecord? (body : Bytes) : Option (List (String × Datum)) :=
  match Json.read? body >>= Datum.settled? deepestNesting with
  | some (.record fields) => some fields
  | _ => none

def missingField (field : String) : Error :=
  .internal s!"The specified retrieval field: `{field}` was not found in the response body of the service type"

def token (fields : List (String × Datum)) (field : String) : Result Datum :=
  match fields.lookup field with
  | some d => pure d
  | none => throw (missingField field)

def mockFields (uniqueKey : String) : Result (List (String × Datum)) :=
  if uniqueKey = "success" then pure [("token", .text "some-value")]
  else if uniqueKey = "incorrect-retrieval-field" then pure [("other_field", .text "some-value")]
  else throw (.internal "Backend error")

/-- The fields of the response to one request. A refusal is reported in the words of the service. -/
def requestFields (url : String) (headers : List (String × String)) :
    Program (List (String × Datum)) := do
  match ← Fetch.get url headers with
  | .error e => throw (.internal e.text)
  | .ok (source, response) =>
    if !Fetch.isSuccess response then
      throw (.internal (Utf8.decodeLossy response.body))
    match bodyRecord? response.body with
    | some fields => return fields
    | none => throw (.internal (FetchError.undecodable source).text)

def fields (a : AuthMethod) (scheme uniqueKey : String) : Program (List (String × Datum)) :=
  match a.variant with
  | .mock => Program.ofResult (mockFields uniqueKey)
  | .apiKey _ => requestFields (a.resourceUrl scheme uniqueKey) []
  | .headers h => requestFields (a.resourceUrl scheme uniqueKey) h.toList

def retrieve (a : AuthMethod) (scheme uniqueKey : String) : Program Datum := do
  token (← fields a scheme uniqueKey) a.retrievalField

end Retrieval

end CertGate
