import PageLoom.Component.Failures
import PageLoom.Disk.Path

/-!
# Build reports

The outcome of a full build: the documents written and failed, the counts of files, components and
fragments, and the rows of the summary that is shown after a build.
-/

namespace PageLoom.Site

structure BuildReport where
  source : Location
  output : Location
  written : List Location
  failed : List (Location × Text)
  copied : Nat
  components : Nat
  missing : List Component.FailureRow
  cacheEntries : Nat
  cacheHits : Nat
deriving Repr, DecidableEq

namespace BuildReport

def cachedText (report : BuildReport) : Text :=
  Text.ofNat report.cacheEntries ++ " (".toList ++ Text.ofNat report.cacheHits ++ " hits)".toList

def summaryRows (report : BuildReport) : List (Text × Text) := [
  ("Source".toList, Location.toText report.source),
  ("Output".toList, Location.toText report.output),
  ("Components loaded".toList, Text.ofNat report.components),
  ("Files copied".toList, Text.ofNat report.copied),
  ("Documents processed".toList, Text.ofNat report.written.length),
  ("Documents failed".toList, Text.ofNat report.failed.length),
  ("Missing components".toList, Text.ofNat report.missing.length),
  ("Cached fragments".toList, report.cachedText)]

end BuildReport

end PageLoom.Site
