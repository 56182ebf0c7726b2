import PageLoom.Console.Color

/-!
# Console styles

A style is written in words: effects, a color, a color after `on`, an address after `link`, and
`not` before an effect that is not wanted. Styles that look the same have one canonical
text, and by that text the closing tag of a style is matched with its opening tag.
-/

namespace PageLoom.Console

inductive Effect where
  | bold
  | dim
  | italic
  | underline
  | blink
  | fastBlink
  | reverse
  | conceal
  | strike
  | doubleUnderline
  | frame
  | encircle
  | overline
deriving Repr, DecidableEq

namespace Effect

/-- All effects in canonical order. -/
def all : List Effect :=
  [bold, dim, italic, underline, blink, fastBlink, reverse, conceal, strike, doubleUnderline, frame,
    encircle, overline]

def name : Effect → Text
  | bold => "bold".toList
  | dim => "dim".toList
  | italic => "italic".toList
  | underline => "underline".toList
  | blink => "blink".toList
  | fastBlink => "blink2".toList
  | reverse => "reverse".toList
  | conceal => "conceal".toList
  | strike => "strike".toList
  | doubleUnderline => "underline2".toList
  | frame => "frame".toList
  | encircle => "encircle".toList
  | overline => "overline".toList

def shortNames : List (Text × Effect) := [
  ("b".toList, bold),
  ("d".toList, dim),
  ("i".toList, italic),
  ("u".toList, underline),
  ("r".toList, reverse),
  ("c".toList, conceal),
  ("s".toList, strike),
  ("uu".toList, doubleUnderline),
  ("o".toList, overline)]

def ofName? (name : Text) : Option Effect :=
  (all.find? fun effect => effect.name = name).or (shortNames.lookup name)

end Effect

/-- What a style sets. Of an effect that is set several times the last setting counts. -/
structure Style where
  settings : List (Effect × Bool)
  color : Option Text
  background : Option Text
  link : Option Text
deriving Repr, DecidableEq

namespace Style

def plain : Style := ⟨[], none, none, none⟩

def set (style : Style) (effect : Effect) (value : Bool) : Style :=
  { style with settings := (effect, value) :: style.settings }

/-- Adds what words say to a style, in order. -/
def addWords : List Text → Style → Except ColorError Style
  | [], style => .ok style
  | word :: words, style =>
    let small := Text.lower word
    if small = "on".toList then
      match words with
      | [] => .error .unknown
      | color :: words => do addWords words { style with background := some (← colorName color) }
    else if small = "not".toList then
      match words with
      | [] => .error .unknown
      | name :: words =>
        match Effect.ofName? name with
        | none => .error .unknown
        | some effect => addWords words (style.set effect false)
    else if small = "link".toList then
      match words with
      | [] => .error .unknown
      | address :: words => addWords words { style with link := some address }
    else
      match Effect.ofName? small with
      | some effect => addWords words (style.set effect true)
      | none => do addWords words { style with color := some (← colorName word) }

def ofText (text : Text) : Except ColorError Style :=
  if Text.trim text = "none".toList then .ok plain else addWords (Text.words text) plain

def settingWords (style : Style) : List Text :=
  Effect.all.flatMap fun effect =>
    match style.settings.lookup effect with
    | none => []
    | some true => [effect.name]
    | some false => ["not".toList, effect.name]

def toText (style : Style) : Text :=
  let words := style.settingWords ++ style.color.toList ++
    (style.background.map fun color => ["on".toList, color]).getD [] ++
    (style.link.map fun address => ["link".toList, address]).getD []
  if words.isEmpty then "none".toList else Text.joinWith [' '] words

/-- The canonical text of a style. What is no style is kept in small letters. -/
def canonical (text : Text) : Except ColorError Text :=
  match ofText text with
  | .ok style => .ok style.toText
  | .error .unknown => .ok (Text.lower (Text.trim text))
  | .error .notNumber => .error .notNumber

end Style

end PageLoom.Console
