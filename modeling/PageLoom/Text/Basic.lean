/-!
# Text

Documents, templates, names and keys are lists of characters, so that cutting, joining and
searching are list operations. This module holds the few operations on text that the rest of the
library shares.
-/

namespace PageLoom

abbrev Text := List Char

namespace Text

/-- What is left of a text after a given start, if it starts so. -/
def afterStart? : Text → Text → Option Text
  | [], text => some text
  | _ :: _, [] => none
  | expected :: start, actual :: text =>
    if expected = actual then afterStart? start text else none

def startsWith (start text : Text) : Bool := (afterStart? start text).isSome

def endsWith (ending text : Text) : Bool := startsWith ending.reverse text.reverse

/-- Cuts at every separator, so that there is one part more than separators. -/
def splitOn (separator : Char) : Text → List Text
  | [] => [[]]
  | c :: text =>
    if c = separator then [] :: splitOn separator text
    else
      match splitOn separator text with
      | [] => [[c]]
      | part :: parts => (c :: part) :: parts

def joinWith (separator : Text) : List Text → Text
  | [] => []
  | [part] => part
  | part :: next :: parts => part ++ separator ++ joinWith separator (next :: parts)

def trimEndWhile (drop : Char → Bool) (text : Text) : Text :=
  (text.reverse.dropWhile drop).reverse

def trimWhile (drop : Char → Bool) (text : Text) : Text :=
  trimEndWhile drop (text.dropWhile drop)

/-- The text before the first place where `mark` stands, and the text after that mark. -/
def cutAt? (mark : Text) : Text → Option (Text × Text)
  | [] => if mark.isEmpty then some ([], []) else none
  | c :: text =>
    match afterStart? mark (c :: text) with
    | some after => some ([], after)
    | none =>
      match cutAt? mark text with
      | some (before, after) => some (c :: before, after)
      | none => none

def includes (mark text : Text) : Bool := (cutAt? mark text).isSome

/-- Lexicographic order by code point. -/
def compare : Text → Text → Ordering
  | [], [] => .eq
  | [], _ :: _ => .lt
  | _ :: _, [] => .gt
  | left :: lefts, right :: rights =>
    if left.val < right.val then .lt
    else if right.val < left.val then .gt
    else compare lefts rights

def atMost (left right : Text) : Bool := compare left right != .gt

def ofNat (value : Nat) : Text := Nat.toDigits 10 value

def ofInt : Int → Text
  | .ofNat value => ofNat value
  | .negSucc value => '-' :: ofNat (value + 1)

@[simp]
theorem afterStart?_nil (text : Text) : afterStart? [] text = some text := by
  cases text <;> rfl

theorem afterStart?_append (start text : Text) : afterStart? start (start ++ text) = some text := by
  induction start with
  | nil => simp
  | cons c start ih => simp [afterStart?, ih]

theorem eq_append_of_afterStart? {start text rest : Text}
    (hrest : afterStart? start text = some rest) :
    text = start ++ rest := by
  induction start generalizing text with
  | nil => simpa using hrest
  | cons expected start ih =>
    cases text with
    | nil => simp [afterStart?] at hrest
    | cons actual text =>
      simp only [afterStart?] at hrest
      split at hrest
      · next hsame => rw [hsame, List.cons_append, ← ih hrest]
      · simp at hrest

theorem eq_append_of_cutAt? {mark text before after : Text}
    (hcut : cutAt? mark text = some (before, after)) : text = before ++ mark ++ after := by
  induction text generalizing before after with
  | nil =>
    simp only [cutAt?] at hcut
    split at hcut
    · next hmark =>
      simp only [Option.some.injEq, Prod.mk.injEq] at hcut
      simp [← hcut.1, ← hcut.2, List.isEmpty_iff.1 hmark]
    · simp at hcut
  | cons c text ih =>
    simp only [cutAt?] at hcut
    split at hcut
    · next rest hrest =>
      simp only [Option.some.injEq, Prod.mk.injEq] at hcut
      rw [← hcut.1, ← hcut.2]
      simpa using eq_append_of_afterStart? hrest
    · split at hcut
      · next before' after' htail =>
        simp only [Option.some.injEq, Prod.mk.injEq] at hcut
        rw [← hcut.1, ← hcut.2]
        simpa using ih htail
      · simp at hcut

@[simp]
theorem splitOn_ne_nil (separator : Char) (text : Text) : splitOn separator text ≠ [] := by
  cases text with
  | nil => simp [splitOn]
  | cons c text =>
    simp only [splitOn]
    split
    · simp
    · split <;> simp

end Text

end PageLoom
