import PageLoom.Disk.Path
import PageLoom.Table
import PageLoom.Text.Utf8

/-!
# Disk

A disk maps locations to files and directories. The root is a directory, and what lies in a
directory lies in a directory that is on the disk. Names and whole paths have a greatest length.
Operations that fail may have made directories before; all else they leave as it was.
-/

namespace PageLoom

inductive Entry where
  | file (bytes : Bytes)
  | directory
deriving Repr, DecidableEq

structure Disk where
  entries : List (Location × Entry)
deriving Repr, DecidableEq

inductive DiskError where
  | notFound
  | isDirectory
  | notDirectory
  | alreadyExists
  | sameFile
  | unnamed
  | nameTooLong
  | holdsNul
deriving Repr, DecidableEq

def DiskError.message : DiskError → Text
  | notFound => "[Errno 2] No such file or directory".toList
  | isDirectory => "[Errno 21] Is a directory".toList
  | notDirectory => "[Errno 20] Not a directory".toList
  | alreadyExists => "[Errno 17] File exists".toList
  | sameFile => "source and target are the same file".toList
  | unnamed => "the root has no name".toList
  | nameTooLong => "[Errno 36] File name too long".toList
  | holdsNul => "embedded null byte".toList

/-- The most bytes that a name may have. -/
def nameLimit : Nat := 255

/-- The most bytes that a whole path may have. -/
def pathLimit : Nat := 4095

def isOverlong (name : Text) : Bool := nameLimit < (Utf8.encode name).length

/-- The bytes of a path, the slash before every name included. -/
def pathSize (location : Location) : Nat :=
  location.foldl (fun size name => size + (Utf8.encode name).length + 1) 0

namespace Disk

def empty : Disk := ⟨[]⟩

def entry? (disk : Disk) (location : Location) : Option Entry :=
  if location.isEmpty then some .directory else disk.entries.lookup location

def isDirectory (disk : Disk) (location : Location) : Bool :=
  disk.entry? location == some .directory

def isFile (disk : Disk) (location : Location) : Bool :=
  match disk.entry? location with
  | some (.file _) => true
  | _ => false

def exists? (disk : Disk) (location : Location) : Bool := (disk.entry? location).isSome

def set (disk : Disk) (location : Location) (entry : Entry) : Disk :=
  ⟨Table.put disk.entries location entry⟩

def erase (disk : Disk) (location : Location) : Disk :=
  ⟨disk.entries.filter fun entry => entry.1 != location⟩

/-- Removes a location and everything below it. -/
def eraseTree (disk : Disk) (location : Location) : Disk :=
  ⟨disk.entries.filter fun entry => !isWithin location entry.1⟩

/-- A location together with all directories above it, outermost first, the root aside. -/
def lineage : Location → List Location
  | [] => []
  | name :: rest => [name] :: (lineage rest).map (name :: ·)

/-- Whether a file stands where a directory above a location would have to be. -/
def blocked (disk : Disk) (location : Location) : Bool :=
  (lineage location.dropLast).any disk.isFile

/-- Why no way leads on through a place, if none does. -/
def obstacle? (disk : Disk) (place : Location) : Option DiskError :=
  if isOverlong (place.getLast?.getD []) then some .nameTooLong
  else
    match disk.entry? place with
    | none => some .notFound
    | some (.file _) => some .notDirectory
    | some .directory => none

/-- The failure to find something at a location: the first obstacle on the way there. -/
def absence (disk : Disk) (location : Location) : DiskError :=
  if pathLimit < pathSize location then .nameTooLong
  else ((lineage location).findSome? disk.obstacle?).getD .notFound

/-- What is at a location, if anything. Only to ask for names that are too long is an error. -/
def find (disk : Disk) (location : Location) : Except DiskError (Option Entry) :=
  match disk.entry? location with
  | some entry => .ok (some entry)
  | none => if disk.absence location = .nameTooLong then .error .nameTooLong else .ok none

/-- Follows a path on the disk, where `..` leads up only from a directory that is there. -/
def reach (disk : Disk) (standpoint : Standpoint) (path : Path) : Except DiskError Location :=
  if path.holdsNul then .error .holdsNul
  else
    path.names.foldlM (fun place name =>
      if name = Path.upward then
        if disk.isDirectory place then .ok place.dropLast else .error (disk.absence place)
      else .ok (place ++ [name])) (path.start standpoint)

def read (disk : Disk) (location : Location) : Except DiskError Bytes :=
  match disk.entry? location with
  | some (.file bytes) => .ok bytes
  | some .directory => .error .isDirectory
  | none => .error (disk.absence location)

/-- Adds a directory and all directories above it, as far as they are missing. -/
def addDirectories (disk : Disk) (location : Location) : Disk :=
  (lineage location).foldl
    (fun disk directory =>
      if disk.exists? directory then disk else disk.set directory .directory)
    disk

/-- Puts a file at a location whose parent is there. -/
def place (disk : Disk) (location : Location) (bytes : Bytes) : Except DiskError Disk :=
  match disk.entry? location with
  | some .directory => .error .isDirectory
  | some (.file _) => .ok (disk.set location (.file bytes))
  | none =>
    match disk.absence location with
    | .notFound => .ok (disk.set location (.file bytes))
    | error => .error error

/-- Puts an entry at a location with the directories that it needs, unless something is in the way
of it. -/
def plant (disk : Disk) (location : Location) : Entry → Disk
  | .directory =>
    if disk.blocked location || disk.exists? location then disk else disk.addDirectories location
  | .file bytes =>
    if disk.blocked location then disk
    else ((disk.addDirectories location.dropLast).place location bytes).toOption.getD disk

/-- All that is below a directory, by the names from there. -/
def contents (disk : Disk) (directory : Location) : List (List Text × Entry) :=
  disk.entries.filterMap fun (location, entry) =>
    match below? directory location with
    | some (name :: names) => some (name :: names, entry)
    | _ => none

/-- The height of the highest location on a disk. -/
def height (disk : Disk) : Nat :=
  disk.entries.foldl (fun height entry => max height entry.1.length) 0

/-- The names in a directory for which a test holds, in order. -/
def namesIn (disk : Disk) (directory : Location) (accept : Entry → Bool) : List Text :=
  (disk.entries.filterMap fun (location, entry) =>
    match below? directory location with
    | some [name] => if accept entry then some name else none
    | _ => none).mergeSort Text.atMost

def directoriesIn (disk : Disk) (directory : Location) : List Text :=
  disk.namesIn directory fun
    | .directory => true
    | .file _ => false

def filesIn (disk : Disk) (directory : Location) : List Text :=
  disk.namesIn directory fun
    | .directory => false
    | .file _ => true

end Disk

/-- Actions on a disk. What an action has done before it fails stays done. -/
abbrev DiskAction := ExceptT DiskError (StateM Disk)

namespace DiskAction

def change (step : Disk → Except DiskError Disk) : DiskAction Unit := do
  set (← step (← get))

/-- What is at a location, if anything. -/
def look (location : Location) : DiskAction (Option Entry) := do
  (← get).find location

def readBytes (location : Location) : DiskAction Bytes := do
  let disk ← get
  disk.read location

/-- Makes a directory and all directories above it, as far as they are missing. Those above a name
that is too long are made before it fails. -/
def makeDirectory (location : Location) : DiskAction Unit := do
  let disk ← get
  match disk.entry? location with
  | some .directory => return
  | some (.file _) => throw .alreadyExists
  | none =>
    if pathLimit < pathSize location then throw .nameTooLong
    if disk.blocked location then throw .notDirectory
    let usable := location.takeWhile (!isOverlong ·)
    set (disk.addDirectories usable)
    if usable.length < location.length then throw .nameTooLong

/-- Makes the directory that a location lies in, unless something is there. -/
def makeParent (location : Location) : DiskAction Unit := do
  if !(← get).exists? location.dropLast then makeDirectory location.dropLast

/-- A text is first written next to its place, under a longer name. -/
def stagingOf (location : Location) : Location :=
  location.dropLast ++ ['.' :: location.getLast?.getD [] ++ ".________.tmp".toList]

/-- Writes a text in one step, making the directories it needs. -/
def writeText (location : Location) (text : Text) : DiskAction Unit := do
  makeParent location
  let _ ← look (stagingOf location)
  change (·.place location (Utf8.encode text))

/-- Where a copy of a file goes: into the target if that is a directory. -/
def copyTarget (disk : Disk) (source target : Location) : Location :=
  if disk.isDirectory target then target ++ [source.getLast?.getD []] else target

/-- Copies a file, making the directories it needs first. -/
def copyFile (source target : Location) : DiskAction Unit := do
  makeParent target
  let disk ← get
  let place := copyTarget disk source target
  if place = source && disk.exists? source then throw .sameFile
  let bytes ← disk.read source
  change (·.place place bytes)

/-- Follows a path to where something is to be put, making the directories that `..` leads up from.
Only from a directory does it lead up. -/
def pave (standpoint : Standpoint) (path : Path) : DiskAction Location := do
  if path.holdsNul then throw .holdsNul
  path.names.foldlM (fun place name => do
    if name = Path.upward then
      if (← get).isFile place then throw .notDirectory
      makeDirectory place
      return place.dropLast
    else return place ++ [name]) (path.start standpoint)

/-- Copies a file from path to path. The directories that the copy needs are made before the file
is looked for. -/
def copyPath (standpoint : Standpoint) (source target : Path) : DiskAction Unit := do
  let place ← pave standpoint target
  makeParent place
  copyFile (← (← get).reach standpoint source) place

/-- Removes a file, and answers whether there was one to remove. -/
def removeFile (location : Location) : DiskAction Bool := do
  if (← get).isFile location then
    modify (·.erase location)
    return true
  else return false

/-- Removes a file only if it lies within a directory. -/
def removeWithin (base location : Location) : DiskAction Bool :=
  if isWithin base location then removeFile location else return false

/-- The lock of a directory stands next to it. -/
def lockOf (location : Location) : Location :=
  location.dropLast ++ [location.getLast?.getD [] ++ ".lock".toList]

/-- Takes the lock of a directory, which is an empty file. What the lock is to lie in has to be a
directory. The root has no lock, as nothing can stand next to it. -/
def takeLock (location : Location) : DiskAction Unit := do
  if location.isEmpty then throw .unnamed
  makeDirectory (lockOf location).dropLast
  change (·.place (lockOf location) [])

end DiskAction

end PageLoom
