import PageLoom.Serve.HostTable
import PageLoom.Text.Lower
import PageLoom.Text.Punycode

/-!
# Host names

The ASCII form of a host name, label by label. In a label with other characters capitals become
small, some characters are dropped or replaced by ASCII ones, and what is still not ASCII then is
written in Punycode after a mark. Labels are neither empty nor longer than 63 characters, hold no
refused character, and do not mix the two directions of writing.
-/

namespace PageLoom.Serve.HostName

def isSeparator (c : Char) : Bool := ['.', '。', '．', '｡'].contains c

/-- The labels of a name. -/
def labels (name : Text) : List Text :=
  Text.splitOn '.' (name.map fun c => if isSeparator c then '.' else c)

def covers (run : PlainRun) (code : Nat) : Bool := run.first ≤ code && code ≤ run.last

/-- The ASCII characters that a character stands for. -/
def plainForm? (c : Char) : Option Text :=
  match plainRuns.find? fun run => covers run c.toNat with
  | some run => some [Char.ofNat (run.start + (c.toNat - run.first) % run.row)]
  | none => spelledForms.lookup c

def isDropped (c : Char) : Bool := Text.inRanges droppedRanges c.toNat

def isRefused (c : Char) : Bool := Text.inRanges refusedRanges c.toNat

def isRightToLeft (c : Char) : Bool := Text.inRanges rightToLeftRanges c.toNat

/-- Letters of scripts that run from left to right. -/
def isLeftToRight (c : Char) : Bool :=
  Text.isWord c && !Text.isDigit c && c != '_' && !isRightToLeft c

/-- A label from right to left begins and ends with letters of such a script, and holds none of the
others. -/
def isOfOneDirection (label : Text) : Bool :=
  !label.any isRightToLeft ||
    (!label.any isLeftToRight && label.head?.any isRightToLeft && label.getLast?.any isRightToLeft)

/-- A label with its characters in the form in which labels are compared. -/
def prepared? (label : Text) : Option Text :=
  let kept := label.filter (!isDropped ·)
  let plain := kept.flatMap fun c => (plainForm? c).getD [c]
  if kept.any isRefused || !isOfOneDirection plain then none else some (Text.lower plain)

def labelLimit : Nat := 63

def sized? (label : Text) : Option Text :=
  if label.isEmpty || labelLimit < label.length then none else some label

/-- What marks a label as encoded. -/
def encodedMark : Text := "xn--".toList

def encodeLabel? (label : Text) : Option Text :=
  if label.all Punycode.isAscii then sized? label
  else
    match prepared? label with
    | none => none
    | some label =>
      if label.all Punycode.isAscii then sized? label
      else if Text.startsWith encodedMark label then none
      else sized? (encodedMark ++ Punycode.encode label)

/-- Encodes labels in order. The last of several may be empty. -/
def encodeLabels? : List Text → Option (List Text)
  | [] => some []
  | [label, []] => (encodeLabel? label).map fun encoded => [encoded, []]
  | label :: labels => do return (← encodeLabel? label) :: (← encodeLabels? labels)

/-- The ASCII form of a name, if it has one. A name in ASCII is taken as it is. -/
def encode? (name : Text) : Option Text :=
  if name.all Punycode.isAscii then some name
  else (encodeLabels? (labels name)).map (Text.joinWith ['.'])

end PageLoom.Serve.HostName
