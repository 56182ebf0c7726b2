import PageLoom.Proofs.Action
import PageLoom.Proofs.Disk.PathText
import PageLoom.Proofs.Text.Percent
import PageLoom.Proofs.Text.Scan
import PageLoom.Serve.Request

/-!
# Paths of pages

A page is found by decoding a URL path and following its names, but it is told apart from other
pages by the characters of the path. Both agree exactly on paths that spell every name on the way to
the page as it is, once.
-/

namespace PageLoom.Serve

variable {path text page name : Text} {names : List Text} {disk : Disk} {directory file : Location}

/-! ## What a page asks for -/

/-- Characters that a script leaves as they are in a part of a query. -/
def isComponentSafe (c : Char) : Bool :=
  Text.isAsciiLetter c || Text.isAsciiDigit c ||
    ['-', '_', '.', '!', '~', '*', '\'', '(', ')'].contains c

def encodeComponent (text : Text) : Text := Percent.encode isComponentSafe text

/-- The target of the request for events that a page sends from a URL path. -/
def eventsTarget (path : Text) : Text := eventsPath ++ "?path=".toList ++ encodeComponent path

theorem ascii_of_isComponentSafe {c : Char} (hsafe : isComponentSafe c = true) :
    c.toNat < 128 ∧ c ≠ '%' := by
  have hle : ∀ last : Char, c ≤ last → c.toNat ≤ last.toNat := fun last hlast => hlast
  constructor
  · simp only [isComponentSafe, Text.isAsciiLetter, Text.isAsciiDigit, List.contains_eq_mem,
      Bool.or_eq_true, Bool.and_eq_true, decide_eq_true_eq, List.mem_cons, List.not_mem_nil,
      or_false] at hsafe
    rcases hsafe with ((⟨-, hlast⟩ | ⟨-, hlast⟩) | ⟨-, hlast⟩) | hmark
    · exact Nat.lt_of_le_of_lt (hle _ hlast) (by decide)
    · exact Nat.lt_of_le_of_lt (hle _ hlast) (by decide)
    · exact Nat.lt_of_le_of_lt (hle _ hlast) (by decide)
    · rcases hmark with rfl | rfl | rfl | rfl | rfl | rfl | rfl | rfl | rfl <;> decide
  · rintro rfl
    cases hsafe

theorem decode_encodeComponent (text : Text) : Percent.decode (encodeComponent text) = text :=
  Percent.decode_encode (fun _ hsafe => ascii_of_isComponentSafe hsafe) text

/-- Marks of a target do not come up in what is encoded. -/
theorem not_mem_encodeComponent {mark : Char} (hmark : mark ∈ ['+', '&', '=', '#', '?', ':'])
    (text : Text) : mark ∉ encodeComponent text := by
  simp only [List.mem_cons, List.not_mem_nil, or_false] at hmark
  rcases hmark with rfl | rfl | rfl | rfl | rfl | rfl
  all_goals exact Percent.not_mem_encode (by decide) (by decide) (by decide) text

theorem cutAtMark_of_not_mem {mark : Char} (hnone : mark ∉ text) :
    Target.cutAtMark mark text = (text, []) := by
  have hcut : Text.cutAt? [mark] text = none := by
    rw [Text.cutAt?_eq_none, List.singleton_infix_iff]
    exact hnone
  rw [Target.cutAtMark, hcut]
  rfl

theorem cutAtMark_append {mark : Char} {before : Text} (hbefore : mark ∉ before) (after : Text) :
    Target.cutAtMark mark (before ++ mark :: after) = (before, after) := by
  have hcut := @Text.cutAt?_append mark [] before after hbefore
  rw [List.singleton_append] at hcut
  rw [Target.cutAtMark, hcut]
  rfl

theorem encodeComponent_eq_nil : encodeComponent text = [] ↔ text = [] := by
  constructor
  · intro hnone
    rw [← decode_encodeComponent text, hnone]
    rfl
  · rintro rfl
    rfl

theorem decodeField_encodeComponent (text : Text) :
    Target.decodeField (encodeComponent text) = text := by
  have hplus : (encodeComponent text).map (fun c => if c = '+' then ' ' else c) =
      encodeComponent text := by
    calc (encodeComponent text).map (fun c => if c = '+' then ' ' else c)
        = (encodeComponent text).map id := by
          apply List.map_congr_left
          intro c hmem
          refine if_neg ?_
          rintro rfl
          exact not_mem_encodeComponent (by decide) text hmem
      _ = encodeComponent text := List.map_id _
  rw [Target.decodeField, hplus, decode_encodeComponent]

/-- The page that a script sends is read as it is, unless it is empty. -/
theorem eventPage_encodeComponent (path : Text) :
    eventPage ("path=".toList ++ encodeComponent path) = if path = [] then ['/'] else path := by
  have hone : '&' ∉ "path=".toList ++ encodeComponent path := by
    rw [List.mem_append, not_or]
    exact ⟨by decide, not_mem_encodeComponent (by decide) path⟩
  have hname : '=' ∉ "path".toList := by decide
  have hcut : Target.cutAtMark '=' ("path=".toList ++ encodeComponent path) =
      ("path".toList, encodeComponent path) := cutAtMark_append hname _
  have hempty : (encodeComponent path).isEmpty = path.isEmpty := by
    rw [Bool.eq_iff_iff, List.isEmpty_iff, List.isEmpty_iff, encodeComponent_eq_nil]
  rw [eventPage, Target.fields, Text.splitOn_of_not_mem hone]
  simp only [List.filterMap_cons, hcut, hempty, decodeField_encodeComponent, List.filterMap_nil]
  cases path with
  | nil => rfl
  | cons c path => rfl

theorem ofText?_eventsTarget (path : Text) :
    Target.ofText? (eventsTarget path) =
      some ⟨[], [], eventsPath, "path=".toList ++ encodeComponent path, []⟩ := by
  have habsent : ∀ mark ∈ [':', '#'], mark ∉ eventsTarget path := by
    intro mark hmark
    have hencoded : mark ∉ encodeComponent path := by
      rcases List.mem_pair.mp hmark with rfl | rfl
      · exact not_mem_encodeComponent (by decide) path
      · exact not_mem_encodeComponent (by decide) path
    rw [eventsTarget, List.mem_append, not_or]
    refine ⟨?_, hencoded⟩
    rcases List.mem_pair.mp hmark with rfl | rfl <;> decide
  have hcolon : Text.cutAt? [':'] (eventsTarget path) = none := by
    rw [Text.cutAt?_eq_none, List.singleton_infix_iff]
    exact habsent ':' (by decide)
  have hscheme : Target.splitScheme (eventsTarget path) = ([], eventsTarget path) := by
    rw [Target.splitScheme, hcolon]
  have hfragment := cutAtMark_of_not_mem (habsent '#' (by decide))
  have hbefore : '?' ∉ eventsPath := by decide
  have hquery : Target.cutAtMark '?' (eventsTarget path) =
      (eventsPath, "path=".toList ++ encodeComponent path) := cutAtMark_append hbefore _
  have hstart : (eventsTarget path).dropWhile (fun c => decide (c.toNat ≤ 32)) =
      eventsTarget path := rfl
  have hauthority : Target.splitAuthority (eventsTarget path) = ([], eventsTarget path) := rfl
  simp only [Target.ofText?, hstart, hscheme, hauthority, hfragment, hquery]
  rfl

/-- Asking for the events of a page is answered with them, from every directory. -/
theorem answerLive_eventsTarget (disk : Disk) (directory : Location) (path : Text) :
    answerLive disk directory (eventsTarget path) =
      .ok (.events (if path = [] then ['/'] else path)) := by
  rw [answerLive, ofText?_eventsTarget]
  dsimp only
  rw [if_pos rfl, eventPage_encodeComponent]
  rfl

/-! ## Names that a path leads to -/

def namesOf (text : Text) : List Text := (Path.ofText text).names

/-- The names that are left of a URL path when it is decoded and followed. -/
def reachedNames (path : Text) : List Text := Path.follow [] (namesOf (Percent.decode path))

/-- A name that is reached stands between slashes and does not lead up. -/
structure IsName (name : Text) : Prop extends IsPart name where
  downward : name ≠ Path.upward

theorem namesOf_sublist (text : Text) : (namesOf text).Sublist (Text.splitOn '/' text) :=
  List.filter_sublist

theorem namesOf_concat_slash (text : Text) : namesOf (text ++ ['/']) = namesOf text := by
  rw [namesOf, namesOf, Path.ofText, Path.ofText, Text.splitOn_concat, List.filter_append]
  exact List.append_nil _

theorem namesOf_eq_splitOn (hnames : ∀ name ∈ Text.splitOn '/' text, name ≠ [] ∧ name ≠ ['.']) :
    namesOf text = Text.splitOn '/' text := by
  apply List.filter_eq_self.mpr
  intro name hmem
  obtain ⟨hsome, hmoving⟩ := hnames name hmem
  rw [Bool.and_eq_true, Bool.not_eq_true', bne_iff_ne]
  exact ⟨by simpa using hsome, hmoving⟩

/-- Following a text from a directory of names leads to names. -/
theorem isName_of_mem_follow {directory : Location} (hdirectory : ∀ name ∈ directory, IsName name)
    (hmem : name ∈ Path.follow directory (namesOf text)) : IsName name := by
  have hsublist := Path.follow_sublist directory (namesOf text)
  rcases List.mem_append.mp (hsublist.subset hmem) with hbefore | hafter
  · exact hdirectory name hbefore
  · obtain ⟨hsplit, hname⟩ := List.mem_filter.mp hafter
    rw [Bool.and_eq_true, Bool.not_eq_true', bne_iff_ne] at hname
    refine ⟨⟨Text.not_mem_of_mem_splitOn hsplit, ?_, hname.2⟩, ?_⟩
    · rintro rfl
      cases hname.1
    · rintro rfl
      exact Path.upward_not_mem_follow (fun hup => (hdirectory _ hup).downward rfl) _ hmem

theorem isName_of_mem_reachedNames (hmem : name ∈ reachedNames path) : IsName name :=
  isName_of_mem_follow (fun _ hnone => absurd hnone List.not_mem_nil) hmem

theorem weight_reachedNames_le (path : Text) :
    weight (reachedNames path) ≤ (Percent.decode path).length + 1 := by
  have hsublist := (Path.follow_sublist [] (namesOf (Percent.decode path))).trans
    (namesOf_sublist _)
  rw [← weight_splitOn]
  rcases eq_or_weight_lt hsublist with hsame | hlighter
  · rw [reachedNames, hsame]
  · exact Nat.le_of_lt hlighter

/-! ## Literal paths -/

def withoutSlashes (path : Text) : Text := path.dropWhile (· = '/')

/-- What stands between the slashes of a path, those at its beginning apart. -/
def segments (path : Text) : List Text := Text.splitOn '/' (withoutSlashes path)

/-- A path that spells what it leads to: nothing in it is encoded, and none of its names is empty,
but for one at the end, or leads to the same directory or up. -/
structure IsLiteral (path : Text) : Prop where
  decoded : Percent.decode path = path
  named : ∀ name ∈ (segments path).dropLast, name ≠ []
  straight : ∀ name ∈ segments path, name ≠ ['.'] ∧ name ≠ Path.upward

theorem reachedNames_withoutSlashes (path : Text) :
    reachedNames (withoutSlashes path) = reachedNames path := by
  induction path with
  | nil => rfl
  | cons c path ih =>
      by_cases hslash : c = '/'
      · rw [hslash, reachedNames, reachedNames, Percent.decode_slash, namesOf, namesOf,
          Path.names_ofText_slash]
        exact ih
      · rw [withoutSlashes, List.dropWhile_cons_of_neg (by simpa using hslash)]

theorem decode_withoutSlashes (path : Text) :
    Percent.decode (withoutSlashes path) = withoutSlashes path ↔ Percent.decode path = path := by
  induction path with
  | nil => exact Iff.rfl
  | cons c path ih =>
      by_cases hslash : c = '/'
      · rw [hslash, Percent.decode_slash, List.cons_inj_right]
        exact ih
      · rw [withoutSlashes, List.dropWhile_cons_of_neg (by simpa using hslash)]

/-- A path that leads to names which take as much room as all its own spells those. -/
theorem reachedNames_eq (hnames : (namesOf (withoutSlashes path)).Sublist names)
    (hlong : (withoutSlashes path).length ≤ weight names)
    (hweight : weight names ≤ weight (reachedNames path)) :
    Percent.decode path = path ∧ reachedNames path = names := by
  have hreached := weight_reachedNames_le (withoutSlashes path)
  rw [reachedNames_withoutSlashes] at hreached
  rcases Percent.decode_eq_or_length (withoutSlashes path) with hsame | hshorter
  · refine ⟨(decode_withoutSlashes path).mp hsame, ?_⟩
    have hsublist : (reachedNames path).Sublist names := by
      rw [← reachedNames_withoutSlashes, reachedNames, hsame]
      exact (Path.follow_sublist [] _).trans hnames
    rcases eq_or_weight_lt hsublist with hsame | hlighter
    · exact hsame
    · exact absurd hweight (Nat.not_le.mpr hlighter)
  · omega

/-- Names that lead on are reached as they are. -/
theorem reachedNames_of_decoded (hdecoded : Percent.decode path = path)
    (hnames : namesOf (withoutSlashes path) = names) (hdown : Path.upward ∉ names) :
    reachedNames path = names := by
  rw [← reachedNames_withoutSlashes, reachedNames, (decode_withoutSlashes path).mpr hdecoded,
    hnames, Path.follow_of_not_mem hdown]
  rfl

/-! ## Pages by their names -/

theorem getLast?_textOfNames (hnames : ∀ name ∈ names, IsName name) :
    (textOfNames names).getLast? ≠ some '/' := by
  cases names using List.reverseRecOn with
  | nil => nofun
  | append_singleton names last =>
      have hlast := hnames last (by simp)
      have hend : ∃ front, textOfNames (names ++ [last]) = front ++ last := by
        by_cases hnone : names = []
        · exact ⟨[], by rw [hnone]; rfl⟩
        · exact ⟨textOfNames names ++ ['/'], by
            rw [textOfNames_concat hnone, List.append_assoc]; rfl⟩
      obtain ⟨front, hfront⟩ := hend
      rw [hfront, List.getLast?_append_of_ne_nil _ hlast.nonempty]
      exact fun hslash => hlast.whole (List.mem_of_getLast? hslash)

theorem withoutSlashes_textOfNames (hnames : ∀ name ∈ names, IsName name) :
    withoutSlashes (textOfNames names) = textOfNames names := by
  cases names with
  | nil => rfl
  | cons first rest =>
      obtain ⟨c, others, rfl⟩ :=
        List.exists_cons_of_ne_nil (hnames first (List.mem_cons_self ..)).nonempty
      have hc : c ≠ '/' := by
        rintro rfl
        exact (hnames _ (List.mem_cons_self ..)).whole (List.mem_cons_self ..)
      have htext : ∃ more, textOfNames ((c :: others) :: rest) = c :: more := by
        cases rest with
        | nil => exact ⟨others, rfl⟩
        | cons next rest => exact ⟨_, textOfNames_cons (c :: others) next rest⟩
      obtain ⟨more, hmore⟩ := htext
      rw [hmore, withoutSlashes, List.dropWhile_cons_of_neg (by simpa using hc)]

theorem normalizePage_eq (path : Text) :
    normalizePage path =
      if withoutSlashes path = [] ∨ (withoutSlashes path).getLast? = some '/' then
        '/' :: (withoutSlashes path ++ "index.html".toList)
      else '/' :: withoutSlashes path := by
  rw [normalizePage, ← withoutSlashes]
  cases withoutSlashes path with
  | nil => rfl
  | cons c rest =>
      rw [List.getLast?_cons_cons]
      by_cases hlast : (c :: rest).getLast? = some '/'
      · rw [if_pos hlast, if_pos (.inr hlast)]
        rfl
      · rw [if_neg hlast, if_neg (not_or.mpr ⟨List.cons_ne_nil c rest, hlast⟩)]

/-- Names that are reached name a page as they are. -/
theorem normalizePage_textOfNames (hsome : names ≠ []) (hnames : ∀ name ∈ names, IsName name) :
    normalizePage ('/' :: textOfNames names) = '/' :: textOfNames names := by
  have hlast := getLast?_textOfNames hnames
  have htext : textOfNames names ≠ [] := by
    intro hnone
    obtain ⟨first, rest, rfl⟩ := List.exists_cons_of_ne_nil hsome
    have hlong := length_textOfNames hsome
    have hfirst := List.length_pos_iff.mpr (hnames first (List.mem_cons_self ..)).nonempty
    rw [hnone, weight_cons] at hlong
    simp at hlong
    omega
  have hsame : normalizePage ('/' :: textOfNames names) = normalizePage (textOfNames names) := rfl
  rw [hsame, normalizePage_eq, withoutSlashes_textOfNames hnames,
    if_neg (not_or.mpr ⟨htext, hlast⟩)]

theorem weight_reachedNames_le_length (path : Text) :
    weight (reachedNames path) ≤ (withoutSlashes path).length + 1 := by
  have hreached := weight_reachedNames_le (withoutSlashes path)
  rw [reachedNames_withoutSlashes] at hreached
  rcases Percent.decode_eq_or_length (withoutSlashes path) with hsame | hshorter
  · rwa [hsame] at hreached
  · omega

/-- The last segment is empty only behind a slash. -/
theorem ne_nil_of_mem_segments (hliteral : IsLiteral path) (hsome : withoutSlashes path ≠ [])
    (hlast : (withoutSlashes path).getLast? ≠ some '/') (hmem : name ∈ segments path) :
    name ≠ [] := by
  have hparts := List.dropLast_concat_getLast (Text.splitOn_ne_nil '/' (withoutSlashes path))
  have htext := textOfNames_splitOn (withoutSlashes path)
  rw [segments, ← hparts] at hmem
  rcases List.mem_append.mp hmem with hinit | hend
  · exact hliteral.named name hinit
  · rw [List.mem_singleton] at hend
    rintro rfl
    rw [← hparts, ← hend] at htext
    by_cases hone : (Text.splitOn '/' (withoutSlashes path)).dropLast = []
    · rw [hone] at htext
      exact hsome htext.symm
    · rw [textOfNames_concat hone] at htext
      apply hlast
      rw [← htext, List.getLast?_concat]

/-- A path that ends with a name is literal exactly if it is joined from the names that it leads
to. -/
theorem textOfNames_reachedNames_iff (hsome : reachedNames path ≠ [])
    (hlast : (withoutSlashes path).getLast? ≠ some '/') :
    withoutSlashes path = textOfNames (reachedNames path) ↔ IsLiteral path := by
  constructor
  · intro hsame
    have hlong := length_textOfNames hsome
    rw [← hsame] at hlong
    obtain ⟨hdecoded, hnames⟩ := @reachedNames_eq path (segments path) (namesOf_sublist _)
      (by rw [segments, weight_splitOn]; omega) (by rw [segments, weight_splitOn]; omega)
    have hall : ∀ name ∈ segments path, IsName name := by
      rw [← hnames]
      exact fun name hmem => isName_of_mem_reachedNames hmem
    exact ⟨hdecoded, fun name hmem => (hall name (List.mem_of_mem_dropLast hmem)).nonempty,
      fun name hmem => ⟨(hall name hmem).moving, (hall name hmem).downward⟩⟩
  · intro hliteral
    have hpath : withoutSlashes path ≠ [] := by
      intro hnone
      rw [← reachedNames_withoutSlashes, hnone] at hsome
      exact hsome rfl
    have hnames : reachedNames path = segments path := by
      apply reachedNames_of_decoded hliteral.decoded
      · exact namesOf_eq_splitOn fun name hmem =>
          ⟨ne_nil_of_mem_segments hliteral hpath hlast hmem, (hliteral.straight name hmem).1⟩
      · exact fun hmem => (hliteral.straight _ hmem).2 rfl
    rw [hnames, segments, textOfNames_splitOn]

/-- A path that ends with a slash is literal exactly if it is joined from the names that it leads
to, with a slash after each. -/
theorem textOfNames_reachedNames_slash_iff {front : Text}
    (hpath : withoutSlashes path = front ++ ['/']) :
    (reachedNames path ≠ [] ∧ front = textOfNames (reachedNames path)) ↔ IsLiteral path := by
  have hsegments : segments path = Text.splitOn '/' front ++ [[]] := by
    rw [segments, hpath, Text.splitOn_concat]
  have hbase : namesOf (withoutSlashes path) = namesOf front := by
    rw [hpath, namesOf_concat_slash]
  constructor
  · rintro ⟨hsome, hsame⟩
    have hlong := length_textOfNames hsome
    rw [← hsame] at hlong
    obtain ⟨hdecoded, hnames⟩ := @reachedNames_eq path (Text.splitOn '/' front)
      (by rw [hbase]; exact namesOf_sublist front)
      (by rw [hpath, weight_splitOn, List.length_append]; rfl) (by rw [weight_splitOn]; omega)
    have hall : ∀ name ∈ Text.splitOn '/' front, IsName name := by
      rw [← hnames]
      exact fun name hmem => isName_of_mem_reachedNames hmem
    refine ⟨hdecoded, fun name hmem => ?_, fun name hmem => ?_⟩
    · rw [hsegments, List.dropLast_concat] at hmem
      exact (hall name hmem).nonempty
    · rw [hsegments] at hmem
      rcases List.mem_append.mp hmem with hname | hempty
      · exact ⟨(hall name hname).moving, (hall name hname).downward⟩
      · cases List.mem_singleton.mp hempty
        exact ⟨nofun, nofun⟩
  · intro hliteral
    have hall : ∀ name ∈ Text.splitOn '/' front, name ≠ [] ∧ name ≠ ['.'] ∧ name ≠ Path.upward := by
      intro name hmem
      have hnamed := hliteral.named
      rw [hsegments, List.dropLast_concat] at hnamed
      exact ⟨hnamed name hmem, hliteral.straight name (by
        rw [hsegments]
        exact List.mem_append_left _ hmem)⟩
    have hnames : reachedNames path = Text.splitOn '/' front := by
      apply reachedNames_of_decoded hliteral.decoded
      · rw [hbase]
        exact namesOf_eq_splitOn fun name hmem => ⟨(hall name hmem).1, (hall name hmem).2.1⟩
      · exact fun hmem => (hall _ hmem).2.2 rfl
    rw [hnames, textOfNames_splitOn]
    exact ⟨Text.splitOn_ne_nil '/' front, rfl⟩

/-- A file and a path that leads to it name one page exactly if the path is literal and does not end
with a slash. -/
theorem normalizePage_eq_file_iff (hsome : reachedNames path ≠ []) :
    normalizePage path = normalizePage ('/' :: textOfNames (reachedNames path)) ↔
      IsLiteral path ∧ (withoutSlashes path).getLast? ≠ some '/' := by
  have hshown := normalizePage_textOfNames hsome fun name hmem => isName_of_mem_reachedNames hmem
  have hpath : withoutSlashes path ≠ [] := by
    intro hnone
    rw [← reachedNames_withoutSlashes, hnone] at hsome
    exact hsome rfl
  rw [hshown, normalizePage_eq]
  by_cases hlast : (withoutSlashes path).getLast? = some '/'
  · rw [if_pos (.inr hlast)]
    constructor
    · intro hsame
      have hlong := length_textOfNames hsome
      have hreached := weight_reachedNames_le_length path
      have hindex : "index.html".toList.length = 10 := rfl
      have hlength := congrArg List.length (List.cons.inj hsame).2
      rw [List.length_append, hindex] at hlength
      omega
    · exact fun hliteral => absurd hlast hliteral.2
  · rw [if_neg (not_or.mpr ⟨hpath, hlast⟩), List.cons_inj_right,
      textOfNames_reachedNames_iff hsome hlast]
    exact ⟨fun hliteral => ⟨hliteral, hlast⟩, fun hliteral => hliteral.1⟩

theorem getLast?_withoutSlashes (hsome : withoutSlashes path ≠ []) :
    (withoutSlashes path).getLast? = path.getLast? := by
  have hpath : path.takeWhile (· = '/') ++ withoutSlashes path = path :=
    List.takeWhile_append_dropWhile
  rw [← List.getLast?_append_of_ne_nil (path.takeWhile (· = '/')) hsome, hpath]

theorem isName_index : IsName "index.html".toList :=
  ⟨⟨by decide, by decide, by decide⟩, by decide⟩

/-- The index of a directory and a path with a slash that leads to the directory name one page
exactly if the path is literal. -/
theorem normalizePage_eq_index_iff (hslash : endsWithSlash path = true) :
    normalizePage path =
        normalizePage ('/' :: textOfNames (reachedNames path ++ ["index.html".toList])) ↔
      IsLiteral path := by
  have hshown : normalizePage ('/' :: textOfNames (reachedNames path ++ ["index.html".toList])) =
      '/' :: textOfNames (reachedNames path ++ ["index.html".toList]) := by
    apply normalizePage_textOfNames (by simp)
    intro name hmem
    rcases List.mem_append.mp hmem with hname | hindex
    · exact isName_of_mem_reachedNames hname
    · cases List.mem_singleton.mp hindex
      exact isName_index
  rw [hshown, normalizePage_eq]
  by_cases hnone : withoutSlashes path = []
  · have hreached : reachedNames path = [] := by
      rw [← reachedNames_withoutSlashes, hnone]
      rfl
    have hsegments : segments path = [[]] := by
      rw [segments, hnone]
      rfl
    rw [if_pos (.inl hnone), hnone, hreached]
    refine ⟨fun _ => ⟨?_, ?_, ?_⟩, fun _ => rfl⟩
    · rw [← decode_withoutSlashes, hnone]
      rfl
    · rw [hsegments]
      nofun
    · rw [hsegments]
      intro name hmem
      cases List.mem_singleton.mp hmem
      exact ⟨nofun, nofun⟩
  · have hlast : (withoutSlashes path).getLast? = some '/' := by
      rw [getLast?_withoutSlashes hnone]
      exact beq_iff_eq.mp hslash
    obtain ⟨front, hfront⟩ := List.getLast?_eq_some_iff.mp hlast
    rw [if_pos (.inr hlast), List.cons_inj_right, ← textOfNames_reachedNames_slash_iff hfront,
      hfront]
    by_cases hroot : reachedNames path = []
    · constructor
      · intro hsame
        have hlength := congrArg List.length hsame
        rw [hroot, List.length_append, List.length_append] at hlength
        have hindex : (textOfNames ([] ++ ["index.html".toList])).length = 10 := rfl
        have hname : "index.html".toList.length = 10 := rfl
        rw [hindex, hname, List.length_singleton] at hlength
        omega
      · exact fun hnames => absurd hroot hnames.1
    · rw [textOfNames_concat hroot, List.append_assoc]
      constructor
      · exact fun hsame => ⟨hroot, List.append_cancel_right hsame⟩
      · exact fun hnames => by rw [← hnames.2]; rfl

/-! ## Pages that are served -/

/-- A page is served from the place that its path leads to, or from the index there if the path ends
with a slash. -/
theorem of_pageAt (hserved : pageAt disk directory path = .ok (some file)) :
    disk.isFile file = true ∧
      (file = directory ++ reachedNames path ∨ endsWithSlash path = true ∧
        file = directory ++ (reachedNames path ++ ["index.html".toList])) := by
  have hlocation : servedLocation directory path = directory ++ reachedNames path := rfl
  unfold pageAt at hserved
  split at hserved
  · cases hserved
  · obtain ⟨found?, -, hcandidate⟩ := except_bind_eq_ok.mp hserved
    obtain ⟨hcandidate, hfile⟩ := Option.filter_eq_some_iff.mp (Except.ok.inj hcandidate)
    refine ⟨(Bool.and_eq_true_iff.mp hfile).2, ?_⟩
    split at hcandidate
    · split at hcandidate
      · next hslash =>
        cases hcandidate
        exact .inr ⟨hslash, by rw [hlocation, List.append_assoc]⟩
      · cases hcandidate
    · cases hcandidate
      exact .inl hlocation

/-- A page that is served is told apart by its path as it is by its file exactly if the path is
literal, and ends with a slash only if it leads to a directory. -/
theorem normalizePage_eq_served_iff (hdirectory : disk.isDirectory directory = true)
    (hserved : pageAt disk directory path = .ok (some file)) :
    normalizePage path = normalizePage ('/' :: textOfNames (file.drop directory.length)) ↔
      IsLiteral path ∧ (endsWithSlash path = true → file ≠ servedLocation directory path) := by
  have hlocation : servedLocation directory path = directory ++ reachedNames path := rfl
  obtain ⟨hfile, hplace | ⟨hslash, hplace⟩⟩ := of_pageAt hserved
  · have hsome : reachedNames path ≠ [] := by
      intro hnone
      rw [Disk.isDirectory, beq_iff_eq] at hdirectory
      rw [hplace, hnone, List.append_nil, Disk.isFile, hdirectory] at hfile
      cases hfile
    have hpath : withoutSlashes path ≠ [] := by
      intro hnone
      rw [← reachedNames_withoutSlashes, hnone] at hsome
      exact hsome rfl
    rw [hplace, List.drop_left, normalizePage_eq_file_iff hsome, getLast?_withoutSlashes hpath,
      hlocation]
    simp [endsWithSlash]
  · have hother : file ≠ directory ++ reachedNames path := by
      intro hsame
      have hlength := congrArg List.length (hplace.symm.trans hsame)
      simp at hlength
    rw [hlocation, and_iff_left fun _ => hother, hplace, List.drop_left,
      normalizePage_eq_index_iff hslash]

end PageLoom.Serve
