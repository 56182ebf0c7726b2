import PageLoom.Text.Classes
import PageLoom.Text.Scan

/-!
# Directives

A directive stands on one line between `\x7b%` and `%\x7d`: a keyword that no letter or digit
continues, and an argument, which is everything up to the first closing mark.
-/

namespace PageLoom.Template

open Scan

inductive Keyword where
  | ifTrue
  | elseIf
  | otherwise
  | endIf
  | forEach
  | endFor
deriving Repr, DecidableEq

def Keyword.spelling : Keyword → Text
  | ifTrue => "if".toList
  | elseIf => "elif".toList
  | otherwise => "else".toList
  | endIf => "endif".toList
  | forEach => "for".toList
  | endFor => "endfor".toList

def keywords : List Keyword := [.ifTrue, .elseIf, .otherwise, .endIf, .forEach, .endFor]

structure Directive where
  keyword : Keyword
  argument : Text
deriving Repr, DecidableEq

def opening : Text := ['\x7b', '%']

def closing : Text := ['%', '\x7d']

/-- The text after a keyword that stands at the head of a text as a whole word. -/
def afterKeyword? (text : Text) (keyword : Keyword) : Option (Keyword × Text) :=
  match Text.afterStart? keyword.spelling text with
  | some rest => if rest.head?.any Text.isWord then none else some (keyword, rest)
  | none => none

def directivePattern : Pattern Directive := fun _ text =>
  match Text.afterStart? opening text with
  | none => none
  | some inside =>
    let blanks := inside.takeWhile Text.isBlank
    match keywords.findSome? (afterKeyword? (inside.dropWhile Text.isBlank)) with
    | none => none
    | some (keyword, rest) =>
      match Text.cutAt? closing rest with
      | none => none
      | some (argument, _) =>
        if argument.contains '\n' then none
        else
          some (⟨keyword, Text.trim argument⟩,
            blanks.length + keyword.spelling.length + argument.length + 3)

def directives (text : Text) : List (Piece Directive) := pieces directivePattern text

end PageLoom.Template
