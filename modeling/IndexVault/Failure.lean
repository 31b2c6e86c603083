import IndexVault.SignedBody
import IndexVault.Wire.Error

namespace IndexVault

/-- Why a database statement fails. -/
inductive DatabaseFault where
  | rowMissing
  | closed
  | tableMissing (table : String)
  | duplicateKey (column : String)
  deriving DecidableEq, Repr

/-- Why a file cannot be used. -/
inductive FileFault where
  | notFound
  | isDirectory
  | invalidText
  deriving DecidableEq, Repr

/-- Why a remote service gives no answer that can be used. -/
inductive RemoteFault where
  | unreachable
  | status (code : Nat)
  | malformedReply
  deriving DecidableEq, Repr

/-- A failure of the service: what went wrong, from which its words and its status code follow. -/
inductive Failure where
  | database (fault : DatabaseFault)
  | file (fault : FileFault)
  | badSignature
  | payload (error : PayloadError)
  | json
  | unknownIndex (publicId : String)
  | unknownProject (project : String)
  | missingBearer
  | forbidden (reason : String)
  | provider (fault : RemoteFault)
  | badRequest (reason : String)
  | configuration (reason : String)
  | internal (reason : String)
  deriving DecidableEq, Repr

def DatabaseFault.message : DatabaseFault → String
  | rowMissing => "no rows returned by a query that expected to return at least one row"
  | closed => "attempted to acquire a connection on a closed pool"
  | tableMissing table => s!"no such table: {table}"
  | duplicateKey column => s!"UNIQUE constraint failed: {column}"

def FileFault.message : FileFault → String
  | notFound => "No such file or directory (os error 2)"
  | isDirectory => "Is a directory (os error 21)"
  | invalidText => "stream did not contain valid UTF-8"

def RemoteFault.message : RemoteFault → String
  | unreachable => "the service cannot be reached"
  | status code => s!"the service answered with status {code}"
  | malformedReply => "the answer cannot be read"

namespace Failure

def message : Failure → String
  | database fault => s!"database error: {fault.message}"
  | file fault => s!"I/O error: {fault.message}"
  | badSignature => "invalid callback signature"
  | payload error => s!"malformed Findex payload: {error.message}"
  | json => "malformed JSON: the text does not describe the expected value"
  | unknownIndex publicId => s!"Unknown index for ID {publicId}"
  | unknownProject project => s!"Unknown project {project}"
  | missingBearer => "missing or malformed bearer token"
  | forbidden reason => s!"forbidden: {reason}"
  | provider fault => s!"identity provider error: {fault.message}"
  | badRequest reason => reason
  | configuration reason => s!"configuration error: {reason}"
  | internal reason => s!"internal error: {reason}"

def status : Failure → Nat
  | database _ | file _ | provider _ | configuration _ | internal _ => 500
  | badSignature | forbidden _ => 403
  | payload _ | json | badRequest _ | unknownIndex _ => 400
  | unknownProject _ => 404
  | missingBearer => 401

/-- A refused body as a failure: a wrong signature is forbidden, a seed of a wrong length is the
server's own fault, and all else is the caller's. -/
def ofSignature : SignatureError → Failure
  | .mismatch => badSignature
  | .seedLength n => internal (SignatureError.seedLength n).message
  | .missingSignature n => badRequest (SignatureError.missingSignature n).message
  | .missingTimestamp n => badRequest (SignatureError.missingTimestamp n).message
  | .expired now expiration => badRequest (SignatureError.expired now expiration).message

end Failure

end IndexVault
