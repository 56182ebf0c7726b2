import PageLoom.Disk.Basic

/-!
# Documents

Which files of a source tree are documents to expand: those with a listed suffix, outside the
excluded directories, not too deep, and with a listed stem if stems are listed. The walk over a tree
leaves excluded directories out, and visits a directory before those in it.
-/

namespace PageLoom.Site

/-- How documents are told from other files. The depth of a file is the number of directories
between it and the root. -/
structure DocumentRule where
  depth : Option Int
  stems : Option (List Text)
  extensions : List Text
  exclude : List (List Text)
deriving Repr, DecidableEq

def depthBelow (below : List Text) : Int := (below.length : Int) - 1

def isExcluded (exclude : List (List Text)) (names : List Text) : Bool :=
  exclude.any fun excluded => isWithin excluded names

def isDocument (rule : DocumentRule) (root names : List Text) : Bool :=
  rule.extensions.contains (Text.lower (suffixOf names)) &&
    match below? root names with
    | none => false
    | some below =>
      !isExcluded rule.exclude names &&
        rule.depth.all (fun depth => decide (depthBelow below ≤ depth)) &&
        rule.stems.all fun stems => stems.contains (stemOf names)

/-- The directories to visit from a directory. -/
def foldersToVisit (disk : Disk) (exclude : List (List Text)) (directory : Location) : List Text :=
  (disk.directoriesIn directory).filter fun name => !isExcluded exclude (directory ++ [name])

/-- The documents in a directory that lies below the root by some names, and below it. Directories
whose files would be too deep are not visited. -/
def documentsBelow (disk : Disk) (rule : DocumentRule) (root : Location) :
    Nat → List Text → List Location
  | 0, _ => []
  | height + 1, below =>
    let directory := root ++ below
    if disk.isDirectory directory then
      let documents := ((disk.filesIn directory).map fun name => directory ++ [name]).filter
        (isDocument rule root)
      let folders :=
        if rule.depth.any fun depth => decide (depth ≤ (below.length : Int)) then []
        else foldersToVisit disk rule.exclude directory
      documents ++ folders.flatMap fun name =>
        documentsBelow disk rule root height (below ++ [name])
    else []

/-- The documents under a root. No directory is higher than the disk. -/
def documents (disk : Disk) (rule : DocumentRule) (root : Location) : List Location :=
  documentsBelow disk rule root (disk.height + 1) []

/-- Copies a directory that lies below the root by some names, level by level, and counts the
files. Its directories are listed before any of them is visited. -/
def copyBelow (exclude : List (List Text)) (root output : Location) :
    Nat → List Text → DiskAction Nat
  | 0, _ => return 0
  | height + 1, below => do
    let disk ← get
    let directory := root ++ below
    if disk.isDirectory directory then
      let folders := foldersToVisit disk exclude directory
      let files := disk.filesIn directory
      folders.forM fun name => DiskAction.makeDirectory (output ++ below ++ [name])
      files.forM fun name =>
        DiskAction.copyFile (directory ++ [name]) (output ++ below ++ [name])
      let counts ← folders.mapM fun name =>
        copyBelow exclude root output height (below ++ [name])
      return counts.foldl (· + ·) files.length
    else return 0

/-- Copies a whole tree, whatever the depth of its files. -/
def copyTree (exclude : List (List Text)) (root output : Location) : DiskAction Nat := do
  DiskAction.makeDirectory output
  copyBelow exclude root output ((← get).height + 1) []

end PageLoom.Site
