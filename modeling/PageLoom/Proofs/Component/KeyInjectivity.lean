import Mathlib.Tactic.Common
import PageLoom.Component.Key
import PageLoom.Proofs.Text.Separation
import PageLoom.Text.Percent

/-!
# Injective cache keys

A cache key has to determine the generation, the component and the props that it was made from, as
otherwise one invocation could be served the fragment of another. Every layer of the key can be cut
off the head of a text in one way only, and this passes from escaped characters to strings, from
the members of an array to the array, and from there to the key.
-/

namespace PageLoom.Component

variable {α : Type}

/-- An encoding that ends at the same place whatever follows it. -/
def SelfDelimiting (encode : α → Text) : Prop :=
  ∀ left right leftRest rightRest, encode left ++ leftRest = encode right ++ rightRest →
    left = right ∧ leftRest = rightRest

/-- Reads the character that an escape at the head of a text stands for. -/
def unescapeHead? : Text → Option (Char × Text)
  | '\\' :: 'u' :: _ :: _ :: high :: low :: rest =>
    (Percent.hexByte? [high, low]).map fun byte => (Char.ofNat byte.toNat, rest)
  | '\\' :: 'n' :: rest => some ('\n', rest)
  | '\\' :: 'r' :: rest => some ('\r', rest)
  | '\\' :: 't' :: rest => some ('\t', rest)
  | '\\' :: 'b' :: rest => some ('\x08', rest)
  | '\\' :: 'f' :: rest => some ('\x0c', rest)
  | '\\' :: c :: rest => some (c, rest)
  | c :: rest => some (c, rest)
  | [] => none

theorem hexOfWidth_control : ∀ code < 32,
    Text.hexOfWidth 4 code = ['0', '0', Text.hexDigit (code / 16), Text.hexDigit code] ∧
      Percent.hexByte? [Text.hexDigit (code / 16), Text.hexDigit code] =
        some (UInt8.ofNat code) := by
  decide

theorem unescapeHead?_jsonEscape (c : Char) (rest : Text) :
    unescapeHead? (jsonEscape c ++ rest) = some (c, rest) := by
  unfold jsonEscape
  split_ifs with hquote hbackslash hline hreturn htab hbell hform hcontrol
  · simp [hquote, unescapeHead?]
  · simp [hbackslash, unescapeHead?]
  · simp [hline, unescapeHead?]
  · simp [hreturn, unescapeHead?]
  · simp [htab, unescapeHead?]
  · simp [hbell, unescapeHead?]
  · simp [hform, unescapeHead?]
  · obtain ⟨hhex, hbyte⟩ := hexOfWidth_control c.toNat hcontrol
    have hcode : c.toNat % 256 = c.toNat := by omega
    simp [hhex, unescapeHead?, hbyte, hcode]
  · simp [unescapeHead?, hbackslash]

theorem jsonEscape_selfDelimiting : SelfDelimiting jsonEscape := by
  intro left right leftRest rightRest heq
  have hread := congrArg unescapeHead? heq
  simpa [unescapeHead?_jsonEscape] using hread

/-- No escaped character looks like the end of a string. -/
theorem jsonEscape_append_ne (c : Char) (rest after : Text) :
    jsonEscape c ++ rest ≠ '"' :: after := by
  unfold jsonEscape
  split_ifs with hquote <;> simp [*]

theorem jsonString_append (text rest : Text) :
    jsonString text ++ rest = '"' :: (text.flatMap jsonEscape ++ '"' :: rest) := by
  simp [jsonString]

theorem jsonString_selfDelimiting : SelfDelimiting jsonString := by
  intro left
  induction left with
  | nil =>
      intro right leftRest rightRest heq
      cases right with
      | nil => simpa [jsonString] using heq
      | cons c right =>
          simp only [jsonString_append, List.flatMap_nil, List.flatMap_cons, List.nil_append,
            List.append_assoc, List.cons.injEq, true_and] at heq
          exact absurd heq.symm (jsonEscape_append_ne c _ _)
  | cons c left ih =>
      intro right leftRest rightRest heq
      cases right with
      | nil =>
          simp only [jsonString_append, List.flatMap_nil, List.flatMap_cons, List.nil_append,
            List.append_assoc, List.cons.injEq, true_and] at heq
          exact absurd heq (jsonEscape_append_ne c _ _)
      | cons d right =>
          simp only [jsonString_append, List.flatMap_cons, List.append_assoc,
            List.cons.injEq, true_and] at heq
          obtain ⟨hhead, htail⟩ := jsonEscape_selfDelimiting c d _ _ heq
          obtain ⟨htext, hrest⟩ := ih right leftRest rightRest (by
            rw [jsonString_append, jsonString_append, htail])
          exact ⟨by rw [hhead, htext], hrest⟩

/-- What is left of an array after one of its members. -/
def arrayTail (encode : α → Text) (members : List α) : Text :=
  members.flatMap (fun member => ',' :: encode member) ++ [']']

theorem jsonArray_nil_append (encode : α → Text) (rest : Text) :
    jsonArray (([] : List α).map encode) ++ rest = '[' :: ']' :: rest := rfl

theorem jsonArray_cons_append (encode : α → Text) (member : α) (members : List α) (rest : Text) :
    jsonArray ((member :: members).map encode) ++ rest =
      '[' :: (encode member ++ (arrayTail encode members ++ rest)) := by
  simp [jsonArray, arrayTail, Text.joinWith_cons, List.flatMap_map]

theorem arrayTail_selfDelimiting {encode : α → Text} (hencode : SelfDelimiting encode) :
    SelfDelimiting (arrayTail encode) := by
  intro left
  induction left with
  | nil =>
      intro right leftRest rightRest heq
      cases right with
      | nil => simpa [arrayTail] using heq
      | cons member right => simp [arrayTail] at heq
  | cons member left ih =>
      intro right leftRest rightRest heq
      cases right with
      | nil => simp [arrayTail] at heq
      | cons other right =>
          simp only [arrayTail, List.flatMap_cons, List.cons_append, List.append_assoc,
            List.cons.injEq, true_and] at heq
          obtain ⟨hmember, htail⟩ := hencode member other _ _ heq
          obtain ⟨hmembers, hrest⟩ := ih right leftRest rightRest (by simpa [arrayTail] using htail)
          exact ⟨by rw [hmember, hmembers], hrest⟩

/-- An array can be cut off the head of a text if its members can, and no member looks like the
end of the array. -/
theorem jsonArray_selfDelimiting {encode : α → Text} (hencode : SelfDelimiting encode)
    (hends : ∀ member rest after, encode member ++ rest ≠ ']' :: after) :
    SelfDelimiting fun members : List α => jsonArray (members.map encode) := by
  intro left right leftRest rightRest heq
  cases left with
  | nil =>
      cases right with
      | nil => simpa [jsonArray_nil_append] using heq
      | cons other right =>
          simp only [jsonArray_nil_append, jsonArray_cons_append, List.cons.injEq,
            true_and] at heq
          exact absurd heq.symm (hends _ _ _)
  | cons member left =>
      cases right with
      | nil =>
          simp only [jsonArray_nil_append, jsonArray_cons_append, List.cons.injEq,
            true_and] at heq
          exact absurd heq (hends _ _ _)
      | cons other right =>
          simp only [jsonArray_cons_append, List.cons.injEq, true_and] at heq
          obtain ⟨hmember, htail⟩ := hencode member other _ _ heq
          obtain ⟨hmembers, hrest⟩ := arrayTail_selfDelimiting hencode left right _ _ htail
          exact ⟨by rw [hmember, hmembers], hrest⟩

theorem jsonTexts_selfDelimiting :
    SelfDelimiting fun texts : List Text => jsonArray (texts.map jsonString) :=
  jsonArray_selfDelimiting jsonString_selfDelimiting fun text rest after => by
    simp [jsonString_append]

theorem jsonArray_pair (first second : Text) :
    jsonArray [first, second] = '[' :: (first ++ ',' :: (second ++ [']'])) := by
  simp [jsonArray, Text.joinWith]

theorem jsonArray_triple_append (first second third rest : Text) :
    jsonArray [first, second, third] ++ rest =
      '[' :: (first ++ ',' :: (second ++ ',' :: (third ++ ']' :: rest))) := by
  simp [jsonArray, Text.joinWith]

theorem jsonProp_selfDelimiting :
    SelfDelimiting fun prop : Text × PropValue => jsonProp prop.1 prop.2 := by
  rintro ⟨leftName, leftValue⟩ ⟨rightName, rightValue⟩ leftRest rightRest heq
  have hkinds : "scalar".toList ≠ "list".toList := by decide
  cases leftValue with
  | scalar leftText =>
      cases rightValue with
      | scalar rightText =>
          simp only [jsonProp, jsonArray_triple_append, List.cons.injEq, true_and] at heq
          obtain ⟨hname, hkind⟩ := jsonString_selfDelimiting _ _ _ _ heq
          obtain ⟨-, hvalue⟩ := jsonString_selfDelimiting _ _ _ _ (List.cons.inj hkind).2
          obtain ⟨htext, hrest⟩ := jsonString_selfDelimiting _ _ _ _ (List.cons.inj hvalue).2
          exact ⟨by rw [hname, htext], (List.cons.inj hrest).2⟩
      | list rightValues =>
          simp only [jsonProp, jsonArray_triple_append, List.cons.injEq, true_and] at heq
          obtain ⟨-, hkind⟩ := jsonString_selfDelimiting _ _ _ _ heq
          exact absurd (jsonString_selfDelimiting _ _ _ _ (List.cons.inj hkind).2).1 hkinds
  | list leftValues =>
      cases rightValue with
      | scalar rightText =>
          simp only [jsonProp, jsonArray_triple_append, List.cons.injEq, true_and] at heq
          obtain ⟨-, hkind⟩ := jsonString_selfDelimiting _ _ _ _ heq
          exact absurd (jsonString_selfDelimiting _ _ _ _ (List.cons.inj hkind).2).1 hkinds.symm
      | list rightValues =>
          simp only [jsonProp, jsonArray_triple_append, List.cons.injEq, true_and] at heq
          obtain ⟨hname, hkind⟩ := jsonString_selfDelimiting _ _ _ _ heq
          obtain ⟨-, hvalue⟩ := jsonString_selfDelimiting _ _ _ _ (List.cons.inj hkind).2
          obtain ⟨htexts, hrest⟩ := jsonTexts_selfDelimiting _ _ _ _ (List.cons.inj hvalue).2
          exact ⟨by rw [hname, htexts], (List.cons.inj hrest).2⟩

theorem jsonProps_selfDelimiting :
    SelfDelimiting fun props : Props => jsonArray (props.map fun prop => jsonProp prop.1 prop.2) :=
  jsonArray_selfDelimiting jsonProp_selfDelimiting fun prop rest after => by
    cases prop with
    | mk name value => cases value <;> simp [jsonProp, jsonArray]

theorem serializeProps_injective {left right : Text} {leftProps rightProps : Props}
    (heq : serializeProps left leftProps = serializeProps right rightProps) :
    left = right ∧ leftProps = rightProps := by
  rw [serializeProps, serializeProps, jsonArray_pair, jsonArray_pair] at heq
  obtain ⟨hname, hprops⟩ := jsonString_selfDelimiting _ _ _ _ (List.cons.inj heq).2
  exact ⟨hname, (jsonProps_selfDelimiting _ _ _ _ (List.cons.inj hprops).2).1⟩

/-- The generation ends at the first colon of a key, as no digit is one. -/
theorem takeWhile_ofNat_colon (value : Nat) (rest : Text) :
    (Text.ofNat value ++ ':' :: rest).takeWhile (· ≠ ':') = Text.ofNat value := by
  rw [List.takeWhile_append_of_pos]
  · simp
  · intro c hc
    have hdigit := Nat.isDigit_of_mem_toDigits (by decide) (by decide) hc
    simp only [ne_eq, decide_eq_true_eq]
    rintro rfl
    simp at hdigit

theorem ofNat_injective {left right : Nat} (heq : Text.ofNat left = Text.ofNat right) :
    left = right := by
  have hvalue := congrArg (Nat.ofDigitChars 10 · 0) heq
  simpa [Text.ofNat] using hvalue

/-- A key determines what it was made from. -/
theorem eq_of_cacheKey_eq {leftGeneration rightGeneration : Nat} {left right : Text}
    {leftProps rightProps : Props}
    (heq : cacheKey leftGeneration left leftProps = cacheKey rightGeneration right rightProps) :
    leftGeneration = rightGeneration ∧ left = right ∧ leftProps = rightProps := by
  simp only [cacheKey] at heq
  have hdigits := congrArg (List.takeWhile (· ≠ ':')) heq
  rw [takeWhile_ofNat_colon, takeWhile_ofNat_colon] at hdigits
  rw [hdigits] at heq
  exact ⟨ofNat_injective hdigits,
    serializeProps_injective (List.cons.inj (List.append_cancel_left heq)).2⟩

/-- Keys are the same exactly for the same component with the same props in the same order and
templates of the same generation. -/
theorem cacheKey_inj {leftGeneration rightGeneration : Nat} {left right : Text}
    {leftProps rightProps : Props} :
    cacheKey leftGeneration left leftProps = cacheKey rightGeneration right rightProps ↔
      leftGeneration = rightGeneration ∧ left = right ∧ leftProps = rightProps := by
  constructor
  · exact eq_of_cacheKey_eq
  · rintro ⟨rfl, rfl, rfl⟩
    rfl

end PageLoom.Component
