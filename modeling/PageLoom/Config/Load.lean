import PageLoom.Config.Validation
import PageLoom.Toml.Document

/-!
# Configuration files

Loading a configuration: the file is found, read, parsed and checked. Relative directories in it
are taken from the directory of the file.
-/

namespace PageLoom.Config

open Site

inductive LoadError where
  | missing (location : Location)
  | unreachable (error : DiskError)
  | unreadable (location : Location) (error : DiskError)
  | badToml (error : Toml.TomlError)
  | invalid (issues : List Issue)
  | path (error : PathError)
  | undecodable
  | tooManyDigits
  | nestedTooDeep
deriving Repr, DecidableEq

/-- How messages show a key: its parts between parentheses, with a comma after a part alone. -/
def keyShown : List Text → Text
  | [part] => '(' :: Text.quoted part ++ [',', ')']
  | parts => Datum.enclosed '(' ')' (parts.map Text.quoted)

def tomlMessage : Toml.TomlError → Text
  | .conflict key => "The key ".toList ++ keyShown key ++ " is taken".toList
  | .malformed | .tooManyDigits | .tooDeep => "Unexpected text".toList

namespace LoadError

/-- What a failure is, without the details. -/
def headline : LoadError → Text
  | missing location => "Configuration file not found: ".toList ++ Location.toText location
  | unreachable error => error.message
  | unreadable _ _ => "Unable to read configuration file".toList
  | badToml _ => "Invalid TOML in configuration file".toList
  | invalid issues => issuesMessage issues
  | path _ => "path without location".toList
  | undecodable => "undecodable".toList
  | tooManyDigits => "integer with too many digits".toList
  | nestedTooDeep => "values nested too deep".toList

def message (error : LoadError) : Text :=
  match error with
  | unreadable location cause =>
    error.headline ++ ": ".toList ++ cause.message ++ ": ".toList ++
      Text.quoted (Location.toText location)
  | badToml cause => error.headline ++ ": ".toList ++ tomlMessage cause
  | error => error.headline

end LoadError

/-- A configuration with the names of the fields that its source gave. -/
structure Loaded where
  config : BuildConfig
  given : List Text
deriving Repr, DecidableEq

def loadedOf (table : Table) : Except LoadError Loaded :=
  match validate table with
  | .ok config => .ok ⟨config, fieldsGiven table⟩
  | .error issues => .error (.invalid issues)

def directoryFields : List Text := ["source".toList, "output".toList, "components".toList]

/-- Moves a relative directory under the directory of the configuration file. -/
def anchorDirectory (standpoint : Standpoint) (directory : Location) (table : Table)
    (name : Text) : Except LoadError Table :=
  match table.get? name with
  | some (.text value) =>
    match (Path.ofText value).expandHome standpoint with
    | .error error => .error (.path error)
    | .ok expanded =>
      if expanded.isAbsolute then .ok table
      else
        let anchored := (Path.ofLocation directory).join (Path.ofText value)
        .ok (table.insert name (.text anchored.toText))
  | _ => .ok table

def tomlError : Toml.TomlError → LoadError
  | .tooManyDigits => .tooManyDigits
  | .tooDeep => .nestedTooDeep
  | error => .badToml error

def loadConfig (standpoint : Standpoint) (disk : Disk) (path : Path) : Except LoadError Loaded := do
  let location ← (path.locate standpoint).mapError .path
  if (← (disk.find location).mapError .unreachable).isNone then throw (.missing location)
  let bytes ← (disk.read location).mapError (.unreadable location)
  match Utf8.decode? bytes with
  | none => throw .undecodable
  | some source =>
    let table ← (Toml.parse source).mapError tomlError
    let anchored ← directoryFields.foldlM (anchorDirectory standpoint location.dropLast) table
    loadedOf anchored

def defaultFileName : Text := "tagsmith.toml".toList

def isFileEntry : Entry → Bool
  | .file _ => true
  | .directory => false

/-- The configuration file of a directory, if it has one. -/
def findDefault (standpoint : Standpoint) (disk : Disk) (directory : Path) :
    Except DiskError (Option Path) :=
  let candidate := directory.join ⟨[], [defaultFileName]⟩
  match disk.reach standpoint candidate with
  | .error .nameTooLong => .error .nameTooLong
  | .error _ => .ok none
  | .ok location =>
    (disk.find location).map fun entry? =>
      if entry?.any isFileEntry then some candidate else none

end PageLoom.Config
