import PageLoom.Disk.Basic
import PageLoom.Serve.Listing
import PageLoom.Serve.Page
import PageLoom.Serve.Target

/-!
# Requests

How a request line is answered from a directory. HTML pages get the reload script and are not to be
cached; every other file is sent as it is. Paths are decoded before they are looked up and never
lead out of the directory.
-/

namespace PageLoom.Serve

/-- A request line with its two words for what is wanted. -/
structure Request where
  method : Text
  target : Text
deriving Repr, DecidableEq

inductive Response where
  | page (body : Text)
  | file (name : Text) (bytes : Bytes)
  | listing (body : Text)
  | redirect (address : Text)
  | events (page : Text)
  | failure (status : Nat)
deriving Repr, DecidableEq

/-- Requests that the server gives up on without an answer. -/
inductive RequestError where
  | badAuthority
  | holdsNul
  | unencodable
  | nameTooLong
deriving Repr, DecidableEq

def badRequest : Nat := 400

def notFound : Nat := 404

def lineTooLong : Nat := 414

def unknownMethod : Nat := 501

/-- Longer lines are refused, their end mark included. -/
def lineLimit : Nat := 65536

/-- Several slashes at the beginning are one, lest the path be taken for an authority. -/
def withOneSlash (target : Text) : Text :=
  match target with
  | '/' :: '/' :: rest => '/' :: rest.dropWhile (· = '/')
  | target => target

/-- The request on a line, in which every byte stands for the character of its number, or the
status of its refusal. -/
def Request.ofLine (line : Bytes) : Except Nat Request :=
  if lineLimit < line.length + 2 then .error lineTooLong
  else
    match Text.words (line.map fun byte => Char.ofNat byte.toNat) with
    | [method, target, _] => .ok ⟨method, withOneSlash target⟩
    | _ => .error badRequest

/-- Where a path that is not yet decoded leads in a directory. -/
def servedLocation (directory : Location) (path : Text) : Location :=
  directory ++ Path.follow [] (Path.ofText (Percent.decode path)).names

def endsWithSlash (path : Text) : Bool := path.getLast? == some '/'

def indexNames : List Text := ["index.html".toList, "index.htm".toList]

def pageSuffixes : List Text := [".html".toList, ".htm".toList]

def holdsNul (location : Location) : Bool := location.any (·.contains '\x00')

/-- What is at a served location. Names that no file can have are those of none. -/
def find (disk : Disk) (location : Location) : Except RequestError (Option Entry) :=
  if holdsNul location then .ok none
  else (disk.find location).mapError fun _ => .nameTooLong

/-- The HTML page that a path stands for; a directory has one only if the path ends with a slash. -/
def pageAt (disk : Disk) (directory : Location) (path : Text) :
    Except RequestError (Option Location) := do
  if !(Percent.surrogates path).isEmpty then return none
  let location := servedLocation directory path
  let candidate? :=
    match ← find disk location with
    | some .directory =>
      if endsWithSlash path then some (location ++ ["index.html".toList]) else none
    | _ => some location
  return candidate?.filter fun candidate =>
    pageSuffixes.contains (Text.lower (suffixOf candidate)) && disk.isFile candidate

/-- Answers with a file as it is. -/
def sendFile (disk : Disk) (location : Location) (path : Text) : Except RequestError Response :=
  if endsWithSlash path then .ok (.failure notFound)
  else if holdsNul location then .error .holdsNul
  else
    match disk.read location with
    | .ok bytes => .ok (.file (location.getLast?.getD []) bytes)
    | .error _ => .ok (.failure notFound)

/-- The path of a target that is not taken for a URL. -/
def plainPath (target : Text) : Text := target.takeWhile fun c => c != '?' && c != '#'

/-- Surrogates that stand for single bytes. -/
def isByteSurrogate (code : Nat) : Bool := 56448 ≤ code && code < 56576

/-- Answers to a path with surrogates, which no file has. -/
def refuseSurrogates (path : Text) : Except RequestError Response :=
  if endsWithSlash path || (Percent.surrogates path).all isByteSurrogate then
    .ok (.failure notFound)
  else .error .unencodable

/-- Answers with what is at the location of a path: a file, an index or a listing as they are. -/
def answerAt (disk : Disk) (location : Location) (path target : Text) :
    Except RequestError Response :=
  if disk.isDirectory location then
    match Target.ofText? target with
    | none => .error .badAuthority
    | some parts =>
      if endsWithSlash parts.path then
        match indexNames.find? fun name => disk.isFile (location ++ [name]) with
        | some name => sendFile disk (location ++ [name]) name
        | none => .ok (.listing (listing disk location target))
      else .ok (.redirect { parts with path := parts.path ++ ['/'] }.toText)
  else sendFile disk location path

def answerPlain (disk : Disk) (directory : Location) (target : Text) :
    Except RequestError Response :=
  let path := plainPath target
  if (Percent.surrogates path).isEmpty then
    answerAt disk (servedLocation directory path) path target
  else refuseSurrogates path

/-- The page whose reloads an event stream is asked for. -/
def eventPage (query : Text) : Text :=
  ((Target.fields query).lookup "path".toList).getD ['/']

/-- Answers with an event stream or a page, or else with what there is as it is. -/
def answerLive (disk : Disk) (directory : Location) (target : Text) :
    Except RequestError Response := do
  match Target.ofText? target with
  | none => throw .badAuthority
  | some parts =>
    if parts.path = eventsPath then return .events (eventPage parts.query)
    match ← pageAt disk directory parts.path with
    | none => answerPlain disk directory target
    | some location =>
      match disk.read location with
      | .ok bytes => return .page (injectClient (Utf8.decodeReplacing bytes))
      | .error _ => return .failure notFound

def answer (disk : Disk) (directory : Location) (request : Request) :
    Except RequestError Response :=
  if request.method = "GET".toList then answerLive disk directory request.target
  else if request.method = "HEAD".toList then answerPlain disk directory request.target
  else .ok (.failure unknownMethod)

end PageLoom.Serve
