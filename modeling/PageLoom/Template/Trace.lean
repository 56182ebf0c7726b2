import PageLoom.Text.Scan

/-!
# Trace markers

An expanded component may be wrapped in comments that name it, each on a line of its own. Stripping
removes every line of that form together with the line ends around it.
-/

namespace PageLoom.Template

open Scan

def markerEnd : Text := " -->".toList

def startMarker : Text := "<!-- Component components/".toList

def endMarker : Text := "<!-- End component components/".toList

def markerLine (marker name : Text) : Text := '\n' :: marker ++ name ++ markerEnd ++ ['\n']

def wrapFragment (name text : Text) : Text :=
  markerLine startMarker name ++ text ++ markerLine endMarker name

/-- The length of a marker line after its first line end, given what follows the marker. -/
def markerLength? (marker text : Text) : Option Nat :=
  match Text.afterStart? marker text with
  | none => none
  | some rest =>
    let line := rest.takeWhile (· ≠ '\n')
    if line.length < rest.length && Text.endsWith markerEnd line then
      some (marker.length + line.length + 1)
    else none

def tracePattern : Pattern Unit := fun _ text =>
  match text with
  | '\n' :: text =>
    match markerLength? endMarker text with
    | some more => some ((), more)
    | none => (markerLength? startMarker text).map fun more => ((), more)
  | _ => none

def stripMarkers (text : Text) : Text := replaceWith tracePattern (fun _ _ => []) text

end PageLoom.Template
