import IndexVault.FilePath
import IndexVault.Http.ContentCoding
import IndexVault.Http.Date
import IndexVault.Http.FileExtension
import IndexVault.Http.Message
import IndexVault.Http.Range

namespace IndexVault.Http

/-- A directory of files, each under the parts of its path, and the second since 1970 in which they
were written. -/
structure StaticFiles where
  files : List (List String × Bytes) := []
  written : Nat := 0

/-- What a path inside the directory names. -/
inductive StaticNode where
  | file (content : Bytes)
  | directory
  | missing
  | refused

namespace StaticFiles

def file? (d : StaticFiles) (path : List String) : Option Bytes :=
  d.files.lookup path

/-- Whether a path names the directory itself or one that holds a file. -/
def isDirectory (d : StaticFiles) (path : List String) : Bool :=
  path.isEmpty || d.files.any fun f => path.isPrefixOf f.1 && path.length < f.1.length

/-- What a path names. -/
def node (d : StaticFiles) (path : List String) : StaticNode :=
  -- A name that is too long is refused once the directories before it are found.
  let known := (List.range path.length).all fun n =>
    !d.isDirectory (path.take n) || (path.getD n "").utf8ByteSize ≤ maxNameLength
  if !known then .refused
  else if d.isDirectory path then .directory
  else
    match d.file? path with
    | some content => .file content
    | none => .missing

/-- What a path names when its last name loses the extension. -/
def nodeOfStem (d : StaticFiles) (path : List String) : StaticNode :=
  match path.getLast?.map FileExtension.stemOfName with
  | none => .missing
  | some stem =>
    if stem != "." && stem != ".." then d.node (path.dropLast ++ [stem])
    -- Of one or two points that are left the directory is found, or the one above it.
    else if d.isDirectory path.dropLast then .directory
    else .missing

/-- What a path names for a request. One that asks for content as it is gets the file without the
extension in place of a missing one. -/
def nodeFor (d : StaticFiles) (r : Request) (path : List String) : StaticNode :=
  match d.node path with
  | .missing => if r.wantsIdentity then d.nodeOfStem path else .missing
  | found => found

end StaticFiles

/-- A spelled path as the parts of a file path: empty parts and points are passed over, and a path
that starts at the root or climbs to a parent leads nowhere. -/
def filePath? (path : Bytes) : Option (List String) :=
  match Bytes.toText? (Text.percentDecode (path.dropWhile (· == 0x2f))) with
  | none => none
  | some s =>
    if s.toList.head? = some '/' then none
    else
      let parts := (Text.splitOnByte 0x2f (Bytes.ofText s)).filterMap Bytes.toText?
      let parts := parts.filter fun p => p != "" && p != "."
      if parts.contains ".." then none else some parts

/-- The time in a header of a request, in seconds since 1970. -/
def Request.time? (r : Request) (name : String) : Option Nat :=
  ((r.header name).head?.bind Date.ofBytes?).map Date.unixSeconds

/-- The status of a file that is not served since a request wants it only if it was written after a
time, or only if it was not. -/
def Request.unmetCondition? (r : Request) (written : Nat) : Option Nat :=
  if ((r.time? "if-unmodified-since").map fun t => decide (t < written)).getD false then some 412
  else if ((r.time? "if-modified-since").map fun t => decide (written ≤ t)).getD false then some 304
  else none

/-- The ranges that a request asks for, if its header is readable. -/
def Request.range? (r : Request) : Option Bytes :=
  (r.header "range").head?.filter fun value => value.all isReadable

/-- The status and the content that answer for a file of some size. Only one part of a file can be
asked for, and a `HEAD` request gets no content. -/
def requestedContent (r : Request) (size : Nat) (content : Bytes) : Nat × Bytes :=
  let shown (b : Bytes) : Bytes := if r.method = "HEAD" then [] else b
  match r.range?.map (spansOfHeader? size) with
  | none => (200, shown content)
  | some (some [span]) => (206, shown (span.slice content))
  | some (some (_ :: _)) => (416, Bytes.ofText "Cannot serve multipart range requests")
  | some _ => (416, [])

/-- The response to a file of some size: its content with the media type that its name suggests,
unless a condition of the request is not met. -/
def fileResponse (d : StaticFiles) (r : Request) (path : List String) (size : Nat)
    (content : Bytes) : Response :=
  match r.unmetCondition? d.written with
  | some status => .empty status
  | none =>
    let (status, body) := requestedContent r size content
    { status := status
      contentType := some (mediaTypeOfName (path.getLast?.getD ""))
      body := body }

/-- The size of a directory. -/
def directorySize : Nat := 4096

/-- The response to what is found under a path, if anything is. A directory that takes the place of
a file has a size, but no content. -/
def nodeResponse? (d : StaticFiles) (r : Request) (path : List String) : Option Response :=
  match d.nodeFor r path with
  | .file content => some (fileResponse d r path content.length content)
  | .directory => some (fileResponse d r path directorySize [])
  | .refused => some (.empty 500)
  | .missing => none

def startPage : String := "index.html"

/-- The response where no file is found: that to the start page, if there is one, under the status
of a missing file. -/
def notFound (directory : Option StaticFiles) (r : Request) : Response :=
  match directory.bind fun d => nodeResponse? d r [startPage] with
  | some response => { response with status := 404 }
  | none => .empty 404

/-- The longest path below the directory, where each name counts with the slash before it. -/
def maxPathLength : Nat :=
  -- With the name of the directory itself such a path takes 4095 bytes.
  4073

def isTooLong (path : List String) : Bool :=
  maxPathLength < path.foldl (fun n p => n + 1 + p.utf8ByteSize) 0

/-- Whether a name holds a NUL, which no file name does. -/
def holdsNul (path : List String) : Bool :=
  path.any fun p => p.toList.contains (Char.ofNat 0)

/-- The response to a path: what is found there, or the page for missing files. -/
def pathResponse (d : StaticFiles) (r : Request) (path : List String) : Response :=
  (nodeResponse? d r path).getD (notFound (some d) r)

/-- Serves the file of a path; a directory is served by its start page under a path that ends in a
slash, and elsewhere redirects there. -/
def serveFile (d : Option StaticFiles) (r : Request) : Response :=
  match filePath? r.path with
  | none => notFound d r
  | some parts =>
    if holdsNul parts || isTooLong parts then .empty 500
    else
      match d with
      | none => notFound none r
      | some d =>
        if !d.isDirectory parts then pathResponse d r parts
        else if r.path.getLast? = some 0x2f then pathResponse d r (parts ++ [startPage])
        else .empty 307

/-- The response to a request that leads to no route: a file, in whole or in part, and only if it changed
when the request asks for that. -/
def serveStatic (d : Option StaticFiles) (r : Request) : Response :=
  if r.method = "GET" || r.method = "HEAD" then serveFile d r else .empty 405

end IndexVault.Http
