import PageLoom.Props
import PageLoom.Text.Quoted

/-!
# Cache keys

The key of an invocation spells its store generation, its component and its props in order, as a
compact JSON array behind a number and a colon. Two invocations share a key only if all of these
agree.
-/

namespace PageLoom.Component

def jsonEscape (c : Char) : Text :=
  if c = '"' then ['\\', '"']
  else if c = '\\' then ['\\', '\\']
  else if c = '\n' then ['\\', 'n']
  else if c = '\r' then ['\\', 'r']
  else if c = '\t' then ['\\', 't']
  else if c = '\x08' then ['\\', 'b']
  else if c = '\x0c' then ['\\', 'f']
  else if c.toNat < 32 then '\\' :: 'u' :: Text.hexOfWidth 4 c.toNat
  else [c]

def jsonString (text : Text) : Text := '"' :: text.flatMap jsonEscape ++ ['"']

def jsonArray (entries : List Text) : Text := '[' :: Text.joinWith [','] entries ++ [']']

def jsonProp (name : Text) : PropValue → Text
  | .scalar text => jsonArray [jsonString name, jsonString "scalar".toList, jsonString text]
  | .list values =>
    jsonArray [jsonString name, jsonString "list".toList, jsonArray (values.map jsonString)]

def serializeProps (component : Text) (props : Props) : Text :=
  jsonArray [jsonString component, jsonArray (props.map fun (name, value) => jsonProp name value)]

def cacheKey (generation : Nat) (component : Text) (props : Props) : Text :=
  Text.ofNat generation ++ ':' :: serializeProps component props

end PageLoom.Component
