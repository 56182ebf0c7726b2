import PageLoom.Text.Basic

/-!
# Characters in host names

What becomes of characters beyond ASCII in a host name: some are dropped, some refused, some stand
for ASCII characters. Those of scripts that run from right to left are listed too. All ranges are
closed and in increasing order.
-/

namespace PageLoom.Serve

/-- Characters that leave no trace. -/
def droppedRanges : List (Nat × Nat) := [
  (173, 173), (847, 847), (6150, 6150), (6155, 6157), (8203, 8205), (8288, 8288), (65024, 65039),
  (65279, 65279)]

/-- Separators, control characters, private characters and others that no name may hold. -/
def refusedRanges : List (Nat × Nat) := [
  (128, 159), (1757, 1757), (1807, 1807), (5760, 5760), (6158, 6158), (8206, 8207), (8232, 8238),
  (8289, 8291), (8298, 8303), (12272, 12283), (57344, 63743), (64976, 65007), (65529, 65535),
  (119155, 119162), (131070, 131071), (196606, 196607), (262142, 262143), (327678, 327679),
  (393214, 393215), (458750, 458751), (524286, 524287), (589822, 589823), (655358, 655359),
  (720894, 720895), (786430, 786431), (851966, 851967), (917502, 917503), (917505, 917505),
  (917536, 917631), (983038, 1114111)]

def rightToLeftRanges : List (Nat × Nat) := [
  (1470, 1470), (1472, 1472), (1475, 1475), (1488, 1514), (1520, 1524), (1563, 1563),
  (1567, 1567), (1569, 1594), (1600, 1610), (1645, 1647), (1649, 1749), (1757, 1757),
  (1765, 1766), (1786, 1790), (1792, 1805), (1808, 1808), (1810, 1836), (1920, 1957),
  (1969, 1969), (8207, 8207), (8501, 8504), (64285, 64285), (64287, 64296), (64298, 64310),
  (64312, 64316), (64318, 64318), (64320, 64321), (64323, 64324), (64326, 64433), (64467, 64605),
  (64612, 64829), (64848, 64911), (64914, 64967), (65008, 65020), (65137, 65137), (65139, 65139),
  (65143, 65143), (65145, 65145), (65147, 65147), (65149, 65149), (65151, 65276)]

/-- Characters that stand for ASCII characters in rows of a fixed length, each of which begins with
the same one. -/
structure PlainRun where
  first : Nat
  last : Nat
  row : Nat
  start : Nat

def plainRuns : List PlainRun := [
  ⟨160, 160, 1, 32⟩, ⟨170, 170, 1, 97⟩, ⟨178, 179, 2, 50⟩, ⟨185, 185, 1, 49⟩, ⟨186, 186, 1, 111⟩,
  ⟨383, 383, 1, 115⟩, ⟨688, 688, 1, 104⟩, ⟨690, 690, 1, 106⟩, ⟨691, 691, 1, 114⟩,
  ⟨695, 695, 1, 119⟩, ⟨696, 696, 1, 121⟩, ⟨737, 737, 1, 108⟩, ⟨738, 738, 1, 115⟩,
  ⟨739, 739, 1, 120⟩, ⟨894, 894, 1, 59⟩, ⟨8175, 8175, 1, 96⟩, ⟨8192, 8202, 1, 32⟩,
  ⟨8228, 8228, 1, 46⟩, ⟨8239, 8239, 1, 32⟩, ⟨8287, 8287, 1, 32⟩, ⟨8304, 8304, 1, 48⟩,
  ⟨8305, 8305, 1, 105⟩, ⟨8308, 8313, 6, 52⟩, ⟨8314, 8314, 1, 43⟩, ⟨8316, 8316, 1, 61⟩,
  ⟨8317, 8318, 2, 40⟩, ⟨8319, 8319, 1, 110⟩, ⟨8320, 8329, 10, 48⟩, ⟨8330, 8330, 1, 43⟩,
  ⟨8332, 8332, 1, 61⟩, ⟨8333, 8334, 2, 40⟩, ⟨8450, 8450, 1, 99⟩, ⟨8458, 8459, 2, 103⟩,
  ⟨8460, 8462, 1, 104⟩, ⟨8464, 8465, 1, 105⟩, ⟨8466, 8467, 1, 108⟩, ⟨8469, 8469, 1, 110⟩,
  ⟨8473, 8475, 3, 112⟩, ⟨8476, 8477, 1, 114⟩, ⟨8484, 8484, 1, 122⟩, ⟨8488, 8488, 1, 122⟩,
  ⟨8490, 8490, 1, 107⟩, ⟨8492, 8493, 2, 98⟩, ⟨8495, 8495, 1, 101⟩, ⟨8496, 8497, 2, 101⟩,
  ⟨8499, 8499, 1, 109⟩, ⟨8500, 8500, 1, 111⟩, ⟨8505, 8505, 1, 105⟩, ⟨8517, 8517, 1, 100⟩,
  ⟨8518, 8519, 2, 100⟩, ⟨8520, 8521, 2, 105⟩, ⟨8544, 8544, 1, 105⟩, ⟨8548, 8548, 1, 118⟩,
  ⟨8553, 8553, 1, 120⟩, ⟨8556, 8556, 1, 108⟩, ⟨8557, 8558, 2, 99⟩, ⟨8559, 8559, 1, 109⟩,
  ⟨8560, 8560, 1, 105⟩, ⟨8564, 8564, 1, 118⟩, ⟨8569, 8569, 1, 120⟩, ⟨8572, 8572, 1, 108⟩,
  ⟨8573, 8574, 2, 99⟩, ⟨8575, 8575, 1, 109⟩, ⟨9312, 9320, 9, 49⟩, ⟨9398, 9449, 26, 97⟩,
  ⟨9450, 9450, 1, 48⟩, ⟨12288, 12288, 1, 32⟩, ⟨64297, 64297, 1, 43⟩, ⟨65075, 65076, 1, 95⟩,
  ⟨65077, 65078, 2, 40⟩, ⟨65079, 65079, 1, 123⟩, ⟨65080, 65080, 1, 125⟩, ⟨65101, 65103, 1, 95⟩,
  ⟨65104, 65104, 1, 44⟩, ⟨65106, 65106, 1, 46⟩, ⟨65108, 65108, 1, 59⟩, ⟨65109, 65109, 1, 58⟩,
  ⟨65110, 65110, 1, 63⟩, ⟨65111, 65111, 1, 33⟩, ⟨65113, 65114, 2, 40⟩, ⟨65115, 65115, 1, 123⟩,
  ⟨65116, 65116, 1, 125⟩, ⟨65119, 65119, 1, 35⟩, ⟨65120, 65120, 1, 38⟩, ⟨65121, 65122, 2, 42⟩,
  ⟨65123, 65123, 1, 45⟩, ⟨65124, 65124, 1, 60⟩, ⟨65125, 65125, 1, 62⟩, ⟨65126, 65126, 1, 61⟩,
  ⟨65128, 65128, 1, 92⟩, ⟨65129, 65130, 2, 36⟩, ⟨65131, 65131, 1, 64⟩, ⟨65281, 65312, 32, 33⟩,
  ⟨65313, 65338, 26, 97⟩, ⟨65339, 65374, 36, 91⟩, ⟨119808, 120483, 26, 97⟩,
  ⟨120782, 120831, 10, 48⟩]

/-- Characters that stand for several ASCII characters, each followed by these. -/
def spelledText : String :=
  "ßss Ĳij ĳij Ǉlj ǈlj ǉlj Ǌnj ǋnj ǌnj Ǳdz ǲdz ǳdz ẞss ‥.. …... ‼!! ⁇?? ⁈?! ⁉!? ₨rs ℀a/c " ++
  "℁a/s ℅c/o ℆c/u №no ℠sm ℡tel ™tm Ⅱii Ⅲiii Ⅳiv Ⅵvi Ⅶvii Ⅷviii Ⅸix Ⅺxi Ⅻxii ⅱii ⅲiii ⅳiv " ++
  "ⅵvi ⅶvii ⅷviii ⅸix ⅺxi ⅻxii ⑩10 ⑪11 ⑫12 ⑬13 ⑭14 ⑮15 ⑯16 ⑰17 ⑱18 ⑲19 ⑳20 ⑴(1) ⑵(2) ⑶(3) " ++
  "⑷(4) ⑸(5) ⑹(6) ⑺(7) ⑻(8) ⑼(9) ⑽(10) ⑾(11) ⑿(12) ⒀(13) ⒁(14) ⒂(15) ⒃(16) ⒄(17) ⒅(18) " ++
  "⒆(19) ⒇(20) ⒈1. ⒉2. ⒊3. ⒋4. ⒌5. ⒍6. ⒎7. ⒏8. ⒐9. ⒑10. ⒒11. ⒓12. ⒔13. ⒕14. ⒖15. ⒗16. " ++
  "⒘17. ⒙18. ⒚19. ⒛20. ⒜(a) ⒝(b) ⒞(c) ⒟(d) ⒠(e) ⒡(f) ⒢(g) ⒣(h) ⒤(i) ⒥(j) ⒦(k) ⒧(l) ⒨(m) " ++
  "⒩(n) ⒪(o) ⒫(p) ⒬(q) ⒭(r) ⒮(s) ⒯(t) ⒰(u) ⒱(v) ⒲(w) ⒳(x) ⒴(y) ⒵(z) ⩴::= ⩵== ⩶=== ㉑21 ㉒22 " ++
  "㉓23 ㉔24 ㉕25 ㉖26 ㉗27 ㉘28 ㉙29 ㉚30 ㉛31 ㉜32 ㉝33 ㉞34 ㉟35 ㊱36 ㊲37 ㊳38 ㊴39 ㊵40 ㊶41 ㊷42 ㊸43 " ++
  "㊹44 ㊺45 ㊻46 ㊼47 ㊽48 ㊾49 ㊿50 ㍱hpa ㍲da ㍳au ㍴bar ㍵ov ㍶pc ㎀pa ㎁na ㎃ma ㎄ka ㎅kb ㎆mb ㎇gb ㎈cal " ++
  "㎉kcal ㎊pf ㎋nf ㎎mg ㎏kg ㎐hz ㎑khz ㎒mhz ㎓ghz ㎔thz ㎖ml ㎗dl ㎘kl ㎙fm ㎚nm ㎜mm ㎝cm ㎞km ㎟mm2 " ++
  "㎠cm2 ㎡m2 ㎢km2 ㎣mm3 ㎤cm3 ㎥m3 ㎦km3 ㎩pa ㎪kpa ㎫mpa ㎬gpa ㎭rad ㎰ps ㎱ns ㎳ms ㎴pv ㎵nv ㎷mv ㎸kv " ++
  "㎹mv ㎺pw ㎻nw ㎽mw ㎾kw ㎿mw ㏂a.m. ㏃bq ㏄cc ㏅cd ㏇co. ㏈db ㏉gy ㏊ha ㏋hp ㏌in ㏍kk ㏎km ㏏kt ㏐lm ㏑ln " ++
  "㏒log ㏓lx ㏔mb ㏕mil ㏖mol ㏗ph ㏘p.m. ㏙ppm ㏚pr ㏛sr ㏜sv ㏝wb ﬀff ﬁfi ﬂfl ﬃffi ﬄffl ﬅst ﬆst " ++
  "︰.."

def spelledForms : List (Char × Text) :=
  (Text.splitOn ' ' spelledText.toList).filterMap fun
    | c :: form => some (c, form)
    | [] => none

end PageLoom.Serve
