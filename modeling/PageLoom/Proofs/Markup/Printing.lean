import PageLoom.Proofs.Markup.Invocation

/-!
# Printed tags

A tag is printed from a name and attributes, with blanks wherever they can stand. It is the only tag
that is found among text without opening marks, under its name, and its attributes are read back
from it.
-/

namespace PageLoom.Markup

open Scan

variable {place : Place} {name blanks before after text : Text} {c : Char}
variable {entry : WrittenAttribute} {entries : List WrittenAttribute}

/-- An attribute whose value neither opens nor closes a tag. -/
structure WrittenAttribute.Printable (entry : WrittenAttribute) : Prop
    extends entry.WellFormed where
  opening : '<' ∉ entry.value
  closing : '>' ∉ entry.value

/-- A tag with attributes, and with blanks before its end. -/
def printTag (name : Text) (entries : List WrittenAttribute) (blanks : Text) : Text :=
  '<' :: name ++ entries.flatMap WrittenAttribute.print ++ blanks ++ ['/', '>']

/-! ## What is in a printed tag -/

theorem not_mem_blanks (hblanks : ∀ c ∈ blanks, Text.isBlank c = true)
    (hother : Text.isBlank c = false) : c ∉ blanks :=
  fun hmem => Bool.false_ne_true (hother.symm.trans (hblanks c hmem))

/-- A character that is neither blank nor part of a name nor a mark of an attribute is in a printed
attribute only if it is in the value. -/
theorem not_mem_print (hentry : entry.WellFormed) (hblank : Text.isBlank c = false)
    (houtside : IsOutsideNames c) (hmark : c ∉ ['=', '"']) (hvalue : c ∉ entry.value) :
    c ∉ entry.print := by
  have hname := not_mem_attributeName hentry.name houtside
  have hbefore := not_mem_blanks hentry.before hblank
  have hleft := not_mem_blanks hentry.left hblank
  have hright := not_mem_blanks hentry.right hblank
  simp only [List.mem_cons, List.not_mem_nil, or_false, not_or] at hmark
  simp [WrittenAttribute.print, hbefore, hleft, hright, hname, hvalue, hmark]

theorem not_mem_entries (hentries : ∀ entry ∈ entries, entry.Printable) :
    '<' ∉ entries.flatMap WrittenAttribute.print ∧
      '>' ∉ entries.flatMap WrittenAttribute.print := by
  simp only [List.mem_flatMap, not_exists, not_and]
  constructor
  · intro entry hmem
    have hentry := hentries entry hmem
    exact not_mem_print hentry.toWellFormed (by decide) (by decide) (by decide) hentry.opening
  · intro entry hmem
    have hentry := hentries entry hmem
    exact not_mem_print hentry.toWellFormed (by decide) (by decide) (by decide) hentry.closing

theorem isInside_print (hentries : ∀ entry ∈ entries, entry.Printable)
    (hblanks : ∀ c ∈ blanks, Text.isBlank c = true) :
    IsInside (entries.flatMap WrittenAttribute.print ++ blanks) := by
  constructor
  · simp [(not_mem_entries hentries).2, not_mem_blanks hblanks (c := '>') (by decide)]
  · cases entries with
    | nil => exact fun c hhead => hblanks c (List.mem_of_mem_head? hhead)
    | cons entry entries =>
        have hentry := hentries entry List.mem_cons_self
        obtain ⟨blank, others, hbefore⟩ := List.exists_cons_of_ne_nil hentry.apart
        intro c hhead
        simp only [List.flatMap_cons, WrittenAttribute.print, hbefore, List.cons_append,
          List.head?_cons, Option.mem_some_iff] at hhead
        rw [← hhead]
        exact hentry.before blank (by simp [hbefore])

/-! ## Its attributes -/

theorem attributesOf_print (hsome : entries ≠ []) (hblanks : ∀ c ∈ blanks, Text.isBlank c = true) :
    attributesOf (entries.flatMap WrittenAttribute.print ++ blanks) =
      entries.flatMap WrittenAttribute.print := by
  obtain ⟨front, last, rfl⟩ := (List.eq_nil_or_concat' entries).resolve_left hsome
  obtain ⟨text, htext⟩ : ∃ text, (front ++ [last]).flatMap WrittenAttribute.print = text ++ ['"'] :=
    ⟨_, by rw [List.flatMap_append, List.flatMap_singleton, WrittenAttribute.print,
      ← List.append_assoc]⟩
  rw [htext, ← List.append_cons]
  exact attributesOf_append (by decide) hblanks text

/-- The attributes in the inside of a printed tag are those that were printed. -/
theorem parseAttributes_inside (hentries : ∀ entry ∈ entries, entry.WellFormed)
    (hblanks : ∀ c ∈ blanks, Text.isBlank c = true) :
    parseAttributes (attributesOf (entries.flatMap WrittenAttribute.print ++ blanks)) =
      Table.ofEntries (entries.map fun entry => (entry.name, .scalar entry.value)) := by
  by_cases hnone : entries = []
  · subst hnone
    apply parseAttributes_blanks
    cases blanks with
    | nil => nofun
    | cons blank blanks =>
        rw [List.forall_mem_cons] at hblanks
        rw [List.flatMap_nil, List.nil_append, attributesOf, List.forall_mem_cons]
        exact ⟨hblanks.1, fun c hmem => hblanks.2 c ((Text.trimEnd_prefix blanks).subset hmem)⟩
  · rw [attributesOf_print hnone hblanks, parseAttributes_print hentries]

theorem lookup_entries (entries : List WrittenAttribute) (key : Text) :
    (entries.map fun entry => (entry.name, PropValue.scalar entry.value)).lookup key =
      (entries.find? (·.name = key)).map fun entry => .scalar entry.value := by
  induction entries with
  | nil => rfl
  | cons entry entries ih =>
      rw [List.map_cons, List.lookup_cons, List.find?_cons, ih]
      by_cases hsame : entry.name = key
      · simp [hsame]
      · rw [beq_eq_false_iff_ne.mpr (Ne.symm hsame), decide_eq_false hsame]

/-! ## The tag among other text -/

/-- A name begins no comment, and there is no opening mark in it. -/
theorem IsComponentName.spec (hname : IsComponentName place name) :
    '<' ∉ name ∧ ∃ first others, name = first :: others ∧ first ≠ '!' := by
  constructor
  · intro hmem
    have hpart := hname.isNamePart '<' hmem
    unfold IsNamePart at hpart
    exact absurd hpart (by decide)
  · obtain ⟨first, others, parts, rfl, hfirst, -⟩ := hname
    refine ⟨first, _, rfl, ?_⟩
    rintro rfl
    exact absurd hfirst (by decide)

/-- Without other opening marks there is no comment. -/
theorem protectComments_printTag (hname : IsComponentName place name)
    (hentries : ∀ entry ∈ entries, entry.Printable)
    (hblanks : ∀ c ∈ blanks, Text.isBlank c = true) (hbefore : '<' ∉ before) (hafter : '<' ∉ after) :
    (protectComments (before ++ printTag name entries blanks ++ after)).1 =
      before ++ printTag name entries blanks ++ after := by
  obtain ⟨hopen, first, others, hfirst, hother⟩ := hname.spec
  obtain ⟨rest, hrest⟩ : ∃ rest, rest = name ++ entries.flatMap WrittenAttribute.print ++ blanks ++
      ['/', '>'] ++ after := ⟨_, rfl⟩
  have habsent : '<' ∉ rest := by
    rw [hrest]
    simp [hopen, (not_mem_entries hentries).1, not_mem_blanks hblanks (c := '<') (by decide), hafter]
  have hnone : commentPattern none ('<' :: rest) = none := by
    rw [hrest, hfirst]
    simp [commentPattern, Text.afterStart?, hother.symm]
  have htext : before ++ printTag name entries blanks ++ after = before ++ '<' :: rest := by
    rw [hrest]
    simp [printTag]
  have hplain : pieces commentPattern (before ++ '<' :: rest) = (before ++ '<' :: rest).map .plain := by
    rw [pieces_append_of_not_mem contextFree_commentPattern (fun _ _ => commentPattern_of_ne)
      hbefore, pieces_cons_plain contextFree_commentPattern hnone,
      pieces_of_not_mem contextFree_commentPattern (fun _ _ => commentPattern_of_ne) habsent,
      List.map_append, List.map_cons]
  rw [htext]
  exact (congrArg (numberComments 0) hplain).trans (numberComments_plain _)

/-- A printed tag is the only one that is found, and its attributes are read back, of those with one
name the first place and the last value. -/
theorem findTags_printTag (hname : IsComponentName place name) (hvoid : isVoidElement name = false)
    (hentries : ∀ entry ∈ entries, entry.Printable)
    (hblanks : ∀ c ∈ blanks, Text.isBlank c = true) (hbefore : '<' ∉ before) (hafter : '<' ∉ after) :
    ∃ tag, findTags place (before ++ printTag name entries blanks ++ after) = [tag] ∧
      tag.name = name ∧ tag.source = printTag name entries blanks ∧
      (parseAttributes tag.attributes).map Prod.fst = (entries.map (·.name)).eraseDups ∧
      ∀ key, (parseAttributes tag.attributes).get? key =
        (entries.reverse.find? (·.name = key)).map fun entry => .scalar entry.value := by
  have htag : before ++ printTag name entries blanks ++ after = before ++
      ((Tag.written name (entries.flatMap WrittenAttribute.print ++ blanks)).source ++ after) := by
    simp [printTag, Tag.written]
  have hplain : pieces (tagPattern place) after = after.map .plain :=
    pieces_of_not_mem (contextFree_tagPattern place) (fun _ _ => tagPattern_of_ne) hafter
  refine ⟨Tag.written name (entries.flatMap WrittenAttribute.print ++ blanks), ?_, rfl,
    by simp [printTag, Tag.written], ?_, fun key => ?_⟩
  · rw [findTags, protectComments_printTag hname hentries hblanks hbefore hafter, htag,
      pieces_append_of_not_mem (contextFree_tagPattern place) (fun _ _ => tagPattern_of_ne) hbefore,
      pieces_written hname (isInside_print hentries hblanks), hplain]
    simp [values, Tag.written, hvoid]
  · rw [Tag.written, parseAttributes_inside (fun entry hmem => (hentries entry hmem).toWellFormed)
      hblanks, Table.keys_ofEntries, List.map_map]
    rfl
  · rw [Tag.written, parseAttributes_inside (fun entry hmem => (hentries entry hmem).toWellFormed)
      hblanks, Props.get?, Table.lookup_ofEntries, ← List.map_reverse, lookup_entries]

/-- A name with a slash, values that look like attributes and ends of tags, and a name given twice. -/
theorem findTags_printTag_repeated :
    ∃ tag, findTags .template
        "a > b <ui/card\n k = \"/ id='1'\" data-id=\"k=2 /\"  k=\"\"\t/> c/>".toList = [tag] ∧
      tag.name = "ui/card".toList ∧
      (parseAttributes tag.attributes).map Prod.fst = ["k".toList, "data-id".toList] ∧
      (parseAttributes tag.attributes).get? "k".toList = some (.scalar []) ∧
      (parseAttributes tag.attributes).get? "data-id".toList = some (.scalar "k=2 /".toList) := by
  let entries : List WrittenAttribute := [
    ⟨"\n ".toList, "k".toList, " ".toList, " ".toList, "/ id='1'".toList⟩,
    ⟨" ".toList, "data-id".toList, [], [], "k=2 /".toList⟩,
    ⟨"  ".toList, "k".toList, [], [], []⟩]
  have hname : IsComponentName .template "ui/card".toList :=
    ⟨'u', "i".toList, ["card".toList], by decide, by decide, List.all_eq_true.mp rfl,
      List.forall_mem_singleton.mpr ⟨by decide, List.all_eq_true.mp rfl⟩, by decide⟩
  have hentries : ∀ entry ∈ entries, entry.Printable := by
    have hprintable : ∀ entry ∈ entries, isAttributeName entry.name = true ∧
        entry.before ≠ [] ∧ entry.before.all Text.isBlank = true ∧
        entry.left.all Text.isBlank = true ∧ entry.right.all Text.isBlank = true ∧
        '"' ∉ entry.value ∧ '<' ∉ entry.value ∧ '>' ∉ entry.value := by decide
    intro entry hmem
    obtain ⟨hname, hsome, hbefore, hleft, hright, hquote, hopen, hclose⟩ := hprintable entry hmem
    exact ⟨⟨hsome, List.all_eq_true.mp hbefore, hname, List.all_eq_true.mp hleft,
      List.all_eq_true.mp hright, hquote⟩, hopen, hclose⟩
  obtain ⟨tag, hfound, hsame, -, hkeys, hvalues⟩ := @findTags_printTag .template "ui/card".toList
    "\t".toList "a > b ".toList " c/>".toList entries hname (by decide) hentries
    (List.all_eq_true.mp rfl) (by decide) (by decide)
  exact ⟨tag, hfound, hsame, hkeys.trans (by decide), (hvalues _).trans rfl, (hvalues _).trans rfl⟩

end PageLoom.Markup
