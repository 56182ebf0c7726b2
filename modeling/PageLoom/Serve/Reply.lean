import PageLoom.Serve.EventStream
import PageLoom.Serve.Request

/-!
# Replies

How a response goes over the wire: a status line, headers, an empty line and the body. A page is not
to be cached, and neither is an event stream, whose body is its greeting and goes on from there.
-/

namespace PageLoom.Serve

structure Reply where
  status : Nat
  headers : List (Text × Text)
  body : Bytes
deriving Repr, DecidableEq

namespace Reply

def contentType : Text := "Content-Type".toList

def contentLength : Text := "Content-Length".toList

def cacheControl : Text := "Cache-Control".toList

def location : Text := "Location".toList

def notCached : Text × Text := (cacheControl, "no-cache".toList)

/-- Media types by suffix. -/
def mediaTypes : List (Text × Text) := [
  (".html".toList, "text/html".toList),
  (".htm".toList, "text/html".toList),
  (".css".toList, "text/css".toList),
  (".js".toList, "text/javascript".toList),
  (".mjs".toList, "text/javascript".toList),
  (".json".toList, "application/json".toList),
  (".txt".toList, "text/plain".toList),
  (".xml".toList, "text/xml".toList),
  (".svg".toList, "image/svg+xml".toList),
  (".png".toList, "image/png".toList),
  (".jpg".toList, "image/jpeg".toList),
  (".jpeg".toList, "image/jpeg".toList),
  (".gif".toList, "image/gif".toList),
  (".ico".toList, "image/vnd.microsoft.icon".toList),
  (".pdf".toList, "application/pdf".toList)]

def mediaType (name : Text) : Text :=
  (mediaTypes.lookup (Text.lower (splitSuffix name).2)).getD "application/octet-stream".toList

/-- A body of a known length. -/
def ofBody (status : Nat) (media : Text) (body : Bytes) : Reply :=
  ⟨status, [(contentType, media), (contentLength, Text.ofNat body.length)], body⟩

def pageMedia : Text := "text/html; charset=utf-8".toList

def eventMedia : Text := "text/event-stream".toList

def plainMedia : Text := "text/plain".toList

def phrase (status : Nat) : Text :=
  if status = 200 then "OK".toList
  else if status = 301 then "Moved Permanently".toList
  else if status = badRequest then "Bad Request".toList
  else if status = notFound then "File not found".toList
  else if status = lineTooLong then "Request-URI Too Long".toList
  else "Unsupported method".toList

def ofResponse : Response → Reply
  | .page body =>
    let reply := ofBody 200 pageMedia (Utf8.encode body)
    { reply with headers := reply.headers ++ [notCached] }
  | .file name bytes => ofBody 200 (mediaType name) bytes
  | .listing body => ofBody 200 pageMedia (Utf8.encode body)
  | .redirect address => ⟨301, [(location, address), (contentLength, ['0'])], []⟩
  | .events _ =>
    ⟨200, [(contentType, eventMedia), notCached, ("Connection".toList, "keep-alive".toList)],
      Utf8.encode greeting⟩
  | .failure status => ofBody status plainMedia (Utf8.encode (phrase status))

/-- What goes to the client that made a request: the head alone if it asked for no more. -/
def forRequest (request : Request) (response : Response) : Reply :=
  let reply := ofResponse response
  if request.method = "HEAD".toList then { reply with body := [] } else reply

/-- The most bytes of a file that are written at once. -/
def portion : Nat := 65536

/-- How many writes it takes to send the reply for a response: one for the head, and one for each
portion of the body. A page goes out whole. -/
def writes (response : Response) (reply : Reply) : Nat :=
  match response with
  | .file _ _ | .listing _ => 1 + (reply.body.length + portion - 1) / portion
  | _ => if reply.body.isEmpty then 1 else 2

def header? (reply : Reply) (name : Text) : Option Text := reply.headers.lookup name

def headText (reply : Reply) : Text :=
  "HTTP/1.0 ".toList ++ Text.ofNat reply.status ++ ' ' :: phrase reply.status ++
    reply.headers.flatMap (fun (name, value) => '\r' :: '\n' :: name ++ ':' :: ' ' :: value) ++
    "\r\n\r\n".toList

/-- The characters of a head are bytes, as those of a request line are. -/
def toBytes (reply : Reply) : Bytes :=
  reply.headText.map (fun c => UInt8.ofNat c.toNat) ++ reply.body

end Reply

end PageLoom.Serve
