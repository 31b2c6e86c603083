import IndexVault.Json.Record

namespace IndexVault

/-- The body that asks for a new index. -/
structure CreateRequest where
  name : String := ""
  projectUuid : Option String := none
  deriving DecidableEq, Repr

/-- The query that asks for a listing. -/
structure ListQuery where
  projectUuid : Option String := none
  deriving DecidableEq, Repr

/-- The name has to be given. -/
def CreateRequest.fields : List (Json.Field CreateRequest) :=
  [{ Json.Field.setting "name" Json.readText (fun r (v : String) => { r with name := v }) with
      optionalInObject := false
      optionalInArray := false },
   .setting "project_uuid" (Json.readOptional Json.readText) fun r v => { r with projectUuid := v }]

def CreateRequest.read : Json.Reader CreateRequest := Json.readRecord fields {}

/-- An array has to give the project, if only as `null`. -/
def ListQuery.fields : List (Json.Field ListQuery) :=
  [{ Json.Field.setting "project_uuid" (Json.readOptional Json.readText)
        (fun (r : ListQuery) v => { r with projectUuid := v }) with
      optionalInArray := false }]

def ListQuery.read : Json.Reader ListQuery := Json.readRecord fields {}

end IndexVault
