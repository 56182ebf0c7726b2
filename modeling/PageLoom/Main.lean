import PageLoom.Command.Scope
import PageLoom.Command.Wording
import PageLoom.Serve.Reply
import PageLoom.Watch.Survey
import Std.Async.TCP

/-!
# Program

The program reads from the real disk what a command has to know, runs the command on that, writes
back what has changed, and tells what happened. Watching and serving go on until it is stopped.
-/

namespace PageLoom.Program

open Command Site

/-! ## Disk -/

/-- A location on the real disk. -/
def onDisk (location : Location) : IO.FS.DirEntry :=
  ⟨String.ofList (Location.toText location.dropLast), String.ofList (location.getLast?.getD [])⟩

/-- What is at a location, and whether a link leads there. -/
def look (location : Location) : IO (Option (Entry × Bool)) := do
  let path := (onDisk location).path
  try
    let linked := (← path.symlinkMetadata).type == .symlink
    match (← path.metadata).type with
    | .dir => return some (.directory, linked)
    | .file => return some (.file (← IO.FS.readBinFile path).toList, linked)
    | _ => return none
  catch _ => return none

/-- Adds what is at a location, but not what is below it. -/
def readEntry (disk : Disk) (location : Location) : IO Disk := do
  match ← look location with
  | some (entry, _) => return disk.plant location entry
  | none => return disk

/-- Adds what is at a location and below it. Links to directories are not followed. -/
partial def readTree (disk : Disk) (location : Location) : IO Disk := do
  match ← look location with
  | none => return disk
  | some (.directory, false) =>
    let names := (← (onDisk location).path.readDir).toList.map (·.fileName.toList)
    names.foldlM (fun disk name => readTree disk (location ++ [name]))
      (disk.plant location .directory)
  | some (entry, _) => return disk.plant location entry

/-- Writes a file in one step, so that nobody finds it half written. -/
def writeFile (location : Location) (bytes : Bytes) : IO Unit := do
  let temporary := location.dropLast ++ ['.' :: location.getLast?.getD [] ++ ".tmp".toList]
  IO.FS.createDirAll (onDisk location.dropLast).path
  IO.FS.writeBinFile (onDisk temporary).path ⟨bytes.toArray⟩
  IO.FS.rename (onDisk temporary).path (onDisk location).path

def applyDifference (location : Location) : Difference → IO Unit
  | .gone => IO.FS.removeFile (onDisk location).path
  | .new .directory | .altered .directory => IO.FS.createDirAll (onDisk location).path
  | .new (.file bytes) | .altered (.file bytes) => writeFile location bytes

/-- Brings the real disk from one state to another. -/
def writeBack (before after : Disk) : IO Unit :=
  (before.differences after).forM fun (location, difference) => applyDifference location difference

/-! ## Surroundings -/

def readVariable (name : Text) : IO (Option (Text × Text)) := do
  return (← IO.getEnv (String.ofList name)).map fun value => (name, value.toList)

def environmentFileText (current : Location) : IO Text := do
  match ← look (current ++ [Environment.fileName]) with
  | some (.file bytes, _) => return (Utf8.decode? bytes).getD []
  | _ => return []

/-- Documents are expanded one after the other, so there is one processor to speak of. -/
def surroundings : IO Surroundings := do
  let current := (Path.ofText (← IO.FS.realPath ".").toString.toList).names
  let names := [homeVariable, Environment.levelVariable, Environment.portVariable,
    Environment.workersVariable] ++ Environment.mentionedNames (← environmentFileText current)
  return ⟨⟨current, []⟩, ← names.filterMapM readVariable, 1⟩

def sayLines (lines : List Text) : IO Unit := do
  lines.forM fun line => IO.println (String.ofList line)
  (← IO.getStdout).flush

/-- Says a notice, and answers whether it could be printed. -/
def say (notice : Notice) : IO Bool := do
  match notice.lines with
  | .ok lines =>
    sayLines lines
    return true
  | .error error =>
    IO.eprintln (String.ofList (markupMessage error))
    return false

/-! ## Serving -/

abbrev Connection := Std.Async.TCP.Socket.Client

abbrev Shared := IO.Ref Watch.WatchState

def send (connection : Connection) (bytes : Bytes) : IO Unit :=
  (connection.send ⟨bytes.toArray⟩).block

def changeHub {α : Type} (shared : Shared) (default : α) (change : Serve.Hub → α × Serve.Hub) :
    IO α :=
  shared.modifyGet fun state =>
    match state.hub with
    | none => (default, state)
    | some hub =>
      let (result, hub) := change hub
      (result, { state with hub := some hub })

def messagesFor (shared : Shared) (client : Nat) : IO (List Serve.Message) :=
  changeHub shared [] fun hub => (hub.drain? client).getD ([], hub)

/-- How often an event stream looks for messages, in milliseconds, and after how many looks in vain
it gives a sign of life. -/
def streamPace : UInt32 := 250

def patience : Nat := 60

partial def streamTo (shared : Shared) (connection : Connection) (client looks : Nat) :
    IO Unit := do
  let messages ← messagesFor shared client
  let waits : List Serve.Wait :=
    if messages.isEmpty && looks = 0 then [.timeout] else messages.map .message
  (Serve.chunksOf waits).forM fun chunk => send connection (Utf8.encode chunk)
  if messages.contains none then return
  IO.sleep streamPace
  streamTo shared connection client (if waits.isEmpty then looks - 1 else patience)

/-- Reads up to the empty line that ends the head of a request. -/
partial def readHead (connection : Connection) (head : Bytes) : IO Bytes := do
  let isComplete := [13, 10, 13, 10].isPrefixOf (head.drop (head.length - 4))
  if isComplete || 2 * Serve.lineLimit < head.length then return head
  match ← (connection.recv? 4096).block with
  | none => return head
  | some bytes => readHead connection (head ++ bytes.toList)

def respond (shared : Shared) (connection : Connection) (request : Serve.Request)
    (response : Serve.Response) : IO Unit := do
  send connection (Serve.Reply.forRequest request response).toBytes
  match response with
  | .events page =>
    let client ← changeHub shared 0 (·.connect page)
    try streamTo shared connection client patience
    finally changeHub shared () fun hub => ((), hub.disconnect client)
  | _ => return

def handleConnection (plan : Plan) (shared : Shared) (connection : Connection) : IO Unit := do
  let head ← readHead connection []
  match Serve.Request.ofLine (head.takeWhile fun byte => byte != 13 && byte != 10) with
  | .error status => send connection (Serve.Reply.ofResponse (.failure status)).toBytes
  | .ok request =>
    match Serve.answer (← shared.get).build.disk plan.output request with
    | .error _ => return
    | .ok response => respond shared connection request response
  connection.shutdown.block

/-- A connection that breaks is no matter for the others. -/
partial def acceptConnections (server : Std.Async.TCP.Socket.Server) (plan : Plan)
    (shared : Shared) : IO Unit := do
  let connection ← server.accept.block
  let handle : IO Unit :=
    try handleConnection plan shared connection
    catch _ => return
  let _ ← IO.asTask handle .dedicated
  acceptConnections server plan shared

/-- Starts to serve the output, and answers with the address in use. -/
def startServer (plan : Plan) (shared : Shared) : IO Text := do
  let .ok address := Serve.addressOf plan.config.host
    | throw (IO.userError (String.ofList plan.config.host))
  let some numbers := Std.Net.IPv4Addr.ofString (String.ofList (Serve.addressText address))
    | throw (IO.userError (String.ofList plan.config.host))
  let server ← Std.Async.TCP.Socket.Server.mk
  server.bind (.v4 ⟨numbers, plan.config.port.toUInt16⟩)
  server.listen 128
  let port := (← server.getSockName).port.toNat
  let _ ← IO.asTask (acceptConnections server plan shared) .dedicated
  return serverAddress address port

/-! ## Watching -/

def readBuild (plan : Plan) : IO Disk := (buildPlaces plan).foldlM readTree Disk.empty

/-- Looks at the disk every second and deals with what has changed. -/
partial def watchFrom (plan : Plan) (surroundings : Surroundings) (shared : Shared)
    (before : Disk) : IO Unit := do
  IO.sleep 1000
  let seen ← readBuild plan
  let now := (← IO.monoMsNow) * 1000
  let (result, reports, after) ← shared.modifyGet fun state =>
    let survey := Watch.handleSurvey plan surroundings.standpoint surroundings.processors now
    let (result, state) := (survey before seen).run.run state
    ((result, state.reports, state.build.disk), { state with reports := [] })
  writeBack seen after
  reports.forM fun report => do
    let _ ← (printable (reportNotices report)).1.mapM say
  match result with
  | .ok () => pure ()
  | .error error => IO.eprintln (String.ofList error.message)
  watchFrom plan surroundings shared after

/-! ## Running -/

/-- Tells of a notice, after having started the server that it may tell of. -/
def carryOut (plan? : Option Plan) (shared? : Option Shared) (notice : Notice) : IO Bool := do
  match notice, plan?, shared? with
  | .serving output _, some plan, some shared =>
    try
      let address ← startServer plan shared
      say (.serving output address)
    catch error =>
      let _ ← say (.serverRefused (toString error).toList)
      return false
  | notice, _, _ => say notice

def run (arguments : List Text) : IO UInt32 := do
  let surroundings ← surroundings
  let first ← readEntry Disk.empty (environmentPlace surroundings)
  let known ← (decidingPlaces surroundings first arguments).foldlM readEntry first
  let plan? := Command.plan? surroundings known arguments
  let before ←
    match plan? with
    | some plan => (buildPlaces plan).foldlM readTree known
    | none => pure known
  let outcome := Command.run surroundings before arguments
  writeBack before outcome.disk
  let shared? ← plan?.mapM fun plan =>
    IO.mkRef (Watch.initialState plan outcome.disk (some Serve.Hub.empty))
  for notice in outcome.notices do
    if !(← carryOut plan? shared? notice) then return 1
  match outcome.stop with
  | none => sayLines (answerLines arguments)
  | some stop => stop.lines.forM fun line => IO.eprintln (String.ofList line)
  match plan?, shared? with
  | some plan, some shared =>
    if outcome.notices.contains .watching then
      watchFrom plan surroundings shared outcome.disk
  | _, _ => pure ()
  return UInt32.ofNat outcome.exitCode

end PageLoom.Program

def main (arguments : List String) : IO UInt32 := PageLoom.Program.run (arguments.map String.toList)
