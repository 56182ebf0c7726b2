import PageLoom.Disk.Basic
import PageLoom.Text.Lower
import PageLoom.Text.Percent

/-!
# Directory listings

The page that shows what is in a directory: its entries in alphabetical order, as links.
-/

namespace PageLoom.Serve

def escapeMarkup (text : Text) : Text :=
  text.flatMap fun c =>
    if c = '&' then "&amp;".toList
    else if c = '<' then "&lt;".toList
    else if c = '>' then "&gt;".toList
    else [c]

/-- The names in a directory, those of directories with a slash, without regard to letter size. -/
def entriesOf (disk : Disk) (directory : Location) : List Text :=
  let folders := (disk.directoriesIn directory).map fun name => (name, name ++ ['/'])
  let files := (disk.filesIn directory).map fun name => (name, name)
  ((folders ++ files).mergeSort fun left right =>
    Text.atMost (Text.lower left.1) (Text.lower right.1)).map (·.2)

def listItem (name : Text) : Text :=
  "<li><a href=\"".toList ++ Percent.encode (fun c => c == '/' || Percent.isUnreserved c) name ++
    "\">".toList ++ escapeMarkup name ++ "</a></li>".toList

/-- The listing of a directory that a request calls by some target. -/
def listing (disk : Disk) (directory : Location) (target : Text) : Text :=
  let title := "Directory listing for ".toList ++ escapeMarkup (Percent.decode target)
  Text.joinWith ['\n'] ([
    "<!DOCTYPE HTML>".toList,
    "<html lang=\"en\">".toList,
    "<head>".toList,
    "<meta charset=\"utf-8\">".toList,
    "<title>".toList ++ title ++ "</title>\n</head>".toList,
    "<body>\n<h1>".toList ++ title ++ "</h1>".toList,
    "<hr>\n<ul>".toList] ++ (entriesOf disk directory).map listItem ++
    ["</ul>\n<hr>\n</body>\n</html>\n".toList])

end PageLoom.Serve
