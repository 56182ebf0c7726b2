import PageLoom.Text.Classes
import PageLoom.Text.Scan

/-!
# Pages

The URL path that names a page, and the script that makes a served page reload itself. The script
goes before the last closing body tag, or to the end of a page without one.
-/

namespace PageLoom.Serve

open Scan

/-- A page path begins with one slash; a directory stands for its index. -/
def normalizePage (path : Text) : Text :=
  let page := '/' :: path.dropWhile (· = '/')
  if page.getLast? = some '/' then page ++ "index.html".toList else page

def eventsPath : Text := "/__livereload".toList

def clientScript : Text :=
  "<script>\n(function () \x7b\n  var source = new EventSource(\"".toList ++ eventsPath ++
  "?path=\" + encodeURIComponent(window.location.pathname));\n".toList ++
  "  source.addEventListener(\"reload\", function () \x7b ".toList ++
  "window.location.reload(); \x7d);\n".toList ++
  "\x7d)();\n</script>\n".toList

/-- The rest of a text after a word in any ASCII letter case. -/
def afterWord? : Text → Text → Option Text
  | [], text => some text
  | _ :: _, [] => none
  | expected :: word, c :: text =>
    if c = expected || c = Char.ofNat (expected.toNat - 32) then afterWord? word text else none

def bodyClosePattern : Pattern Unit := fun _ text =>
  match Text.afterStart? "</".toList text with
  | none => none
  | some rest =>
    match afterWord? "body".toList rest with
    | none => none
    | some rest =>
      match rest.dropWhile Text.isBlank with
      | '>' :: _ => some ((), (rest.takeWhile Text.isBlank).length + 6)
      | _ => none

/-- Puts a text before the last found piece. -/
def insertBeforeLast (inserted : Text) (found : List (Piece Unit)) : Text :=
  match found.reverse.findIdx? fun
      | .found _ _ => true
      | .plain _ => false with
  | none => sourceOf found ++ inserted
  | some fromEnd =>
    let place := found.length - fromEnd - 1
    sourceOf (found.take place) ++ inserted ++ sourceOf (found.drop place)

def injectClient (html : Text) : Text :=
  insertBeforeLast clientScript (pieces bodyClosePattern html)

end PageLoom.Serve
