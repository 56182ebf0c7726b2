import Mathlib.Tactic.Common
import PageLoom.Condition.Grammar
import PageLoom.Proofs.Action

/-!
# The layered grammar of conditions

The operators of conditions stand in layers, the loosest binding first. An operand of a layer is an
expression of that layer on the left and of the next tighter one on the right, so that operators of
one layer group to the left. The reader of conditions accepts exactly the token lists that this
grammar derives and answers with the tree that was derived, of which there is only one. A tree is
printed with parentheses only around what binds more loosely than its place asks for, and is read
back from what is printed.

Nesting is bounded by the room there is, in the grammar as in the reader. All that a lack of room
does to a condition of the grammar is that the reader reports it.
-/

namespace PageLoom.Condition

/-! ## The grammar -/

def Connective.layer : Connective → Nat
  | .or => 0
  | .and => 1

def BinaryOp.layer : BinaryOp → Nat
  | .equal | .unequal | .identical | .distinct => 2
  | .less | .atMost | .greater | .atLeast => 3
  | .add | .subtract => 4
  | .multiply | .divide | .modulo => 5

/-- The layer at which a symbol joins two operands, and the tree it makes of them. -/
def joint? : Symbol → Option (Nat × (Expr → Expr → Expr))
  | .connective op => some (op.layer, .logical op)
  | .binary op => some (op.layer, .binary op)
  | .not => none

def enclosed (tokens : List Token) : List Token := .opening :: tokens ++ [.closing]

/-- `Derives room layer tokens expr`: the tokens are an expression of the layer, which means the
tree, and the room suffices for its nesting. Tighter than the layers of all joints are layer 6,
unary operators, and layer 7, literals, names and parentheses. -/
inductive Derives : Nat → Nat → List Token → Expr → Prop
  | literal {room : Nat} {value : Value} : Derives room 7 [.literal value] (.literal value)
  | name {room : Nat} {name : Text} : Derives room 7 [.name name] (.name name)
  | enclosed {room : Nat} {tokens : List Token} {expr : Expr} (hinside : Derives room 0 tokens expr) :
      Derives (room + 11) 7 (enclosed tokens) expr
  | unary {room : Nat} {op : UnaryOp} {tokens : List Token} {operand : Expr}
      (hoperand : Derives room 6 tokens operand) :
      Derives (room + 1) 6 (.symbol (.ofUnary op) :: tokens) (.unary op operand)
  | joint {room layer : Nat} {symbol : Symbol} {build : Expr → Expr → Expr}
      {tokens others : List Token} {left right : Expr}
      (hsymbol : joint? symbol = some (layer, build)) (hleft : Derives room layer tokens left)
      (hright : Derives room (layer + 1) others right) :
      Derives room layer (tokens ++ .symbol symbol :: others) (build left right)
  | tighter {room layer : Nat} {tokens : List Token} {expr : Expr} (hlayer : layer < 7)
      (htighter : Derives room (layer + 1) tokens expr) : Derives room layer tokens expr

section Grammar

variable {room more layer tight : Nat} {tokens : List Token} {expr : Expr}

theorem BinaryOp.layer_lt (op : BinaryOp) : op.layer < 6 := by
  cases op <;> decide

theorem Connective.layer_lt (op : Connective) : op.layer < 6 := by
  cases op <;> decide

theorem joint?_lt {symbol : Symbol} {joint : Nat × (Expr → Expr → Expr)}
    (hsymbol : joint? symbol = some joint) : joint.1 < 6 := by
  cases symbol with
  | binary op =>
      cases hsymbol
      exact op.layer_lt
  | connective op =>
      cases hsymbol
      exact op.layer_lt
  | not => cases hsymbol

theorem Derives.mono (hderives : Derives room layer tokens expr) (hroom : room ≤ more) :
    Derives more layer tokens expr := by
  induction hderives generalizing more with
  | literal => exact .literal
  | name => exact .name
  | enclosed _ ih =>
      obtain ⟨less, rfl⟩ := Nat.exists_eq_add_of_le' (Nat.le_trans (Nat.le_add_left 11 _) hroom)
      exact .enclosed (ih (Nat.le_of_add_le_add_right hroom))
  | unary _ ih =>
      obtain ⟨less, rfl⟩ := Nat.exists_eq_add_of_le' (Nat.le_trans (Nat.le_add_left 1 _) hroom)
      exact .unary (ih (Nat.le_of_add_le_add_right hroom))
  | joint hsymbol _ _ ihLeft ihRight => exact .joint hsymbol (ihLeft hroom) (ihRight hroom)
  | tighter hlayer _ ih => exact .tighter hlayer (ih hroom)

/-- An expression of a layer is one of all looser layers. -/
theorem Derives.loosen (hderives : Derives room tight tokens expr) (htight : tight ≤ 7)
    (hlayer : layer ≤ tight) : Derives room layer tokens expr := by
  obtain ⟨gap, rfl⟩ := Nat.exists_eq_add_of_le' hlayer
  induction gap with
  | zero => simpa using hderives
  | succ gap ih =>
      apply ih _ (by omega) (by omega)
      rw [Nat.add_right_comm] at hderives
      exact .tighter (by omega) hderives

end Grammar

/-! ## Readers of one layer -/

/-- The tokens do not go on with a joint of the layer or of a tighter one. -/
def Ends (layer : Nat) (tokens : List Token) : Prop :=
  ∀ symbol rest joint, tokens = .symbol symbol :: rest → joint? symbol = some joint → joint.1 < layer

/-- A reader takes exactly the expressions of a layer off the front of its tokens. -/
structure Reads (room layer : Nat) (reader : Reader) : Prop where
  sound : ∀ {tokens expr rest}, reader tokens = .ok (expr, rest) →
    ∃ read, tokens = read ++ rest ∧ Derives room layer read expr
  complete : ∀ {read expr rest}, Derives room layer read expr → Ends layer rest →
    reader (read ++ rest) = .ok (expr, rest)

/-- The joints of one layer. -/
def levelOf (layer : Nat) : Level := fun symbol =>
  match joint? symbol with
  | some (other, build) => if other = layer then some build else none
  | none => none

section Readers

variable {room layer steps : Nat} {tokens others read rest : List Token} {left expr : Expr}
variable {operand : Reader}

theorem Ends.mono {more : Nat} (hends : Ends layer rest) (hlayer : layer ≤ more) :
    Ends more rest := fun symbol tail joint htokens hjoint =>
  Nat.lt_of_lt_of_le (hends symbol tail joint htokens hjoint) hlayer

theorem ends_six (tokens : List Token) : Ends 6 tokens := fun _ _ _ _ hjoint => joint?_lt hjoint

theorem levelOf_eq_some {symbol : Symbol} {build : Expr → Expr → Expr} :
    levelOf layer symbol = some build ↔ joint? symbol = some (layer, build) := by
  unfold levelOf
  cases joint? symbol with
  | none => simp
  | some joint => by_cases h : joint.1 = layer <;> simp [h, Prod.ext_iff]

theorem connectiveLevel_eq (op : Connective) : connectiveLevel op = levelOf op.layer := by
  funext symbol
  cases symbol with
  | connective other => cases op <;> cases other <;> rfl
  | binary other => cases op <;> cases other <;> rfl
  | not => rfl

theorem binaryLevel_eq (level : Nat) : binaryLevel level = levelOf (level + 2) := by
  have hlayer : ∀ op : BinaryOp, op.layer = op.level + 2 := by
    intro op
    cases op <;> rfl
  funext symbol
  cases symbol with
  | connective other => cases other <;> simp [binaryLevel, levelOf, joint?, Connective.layer]
  | binary other => simp [binaryLevel, levelOf, joint?, hlayer]
  | not => rfl

theorem Reads.length_le (hoperand : Reads room layer operand)
    (hread : operand tokens = .ok (expr, rest)) : rest.length ≤ tokens.length := by
  obtain ⟨read, rfl, -⟩ := hoperand.sound hread
  simp

/-- Steps beyond the number of tokens do not matter. -/
theorem chainFrom_steps {level : Level} (hoperand : Reads room layer operand) {other : Nat}
    (hsteps : tokens.length ≤ steps) (hother : tokens.length ≤ other) :
    chainFrom level operand steps left tokens = chainFrom level operand other left tokens := by
  induction steps generalizing other left tokens with
  | zero =>
      obtain rfl := List.length_eq_zero_iff.mp (Nat.le_zero.mp hsteps)
      cases other <;> rfl
  | succ steps ih =>
      cases tokens with
      | nil => cases other <;> rfl
      | cons token tokens =>
          obtain ⟨other, rfl⟩ := Nat.exists_eq_add_one_of_ne_zero (Nat.ne_zero_of_lt hother)
          cases token with
          | symbol symbol =>
              rw [chainFrom, chainFrom]
              cases level symbol with
              | none => rfl
              | some build =>
                  dsimp only
                  cases hread : operand tokens with
                  | error failure => rfl
                  | ok result =>
                      obtain ⟨right, rest⟩ := result
                      have hless := hoperand.length_le hread
                      simp only [List.length_cons, Nat.add_le_add_iff_right] at hsteps hother
                      exact ih (Nat.le_trans hless hsteps) (Nat.le_trans hless hother)
          | _ => rfl

/-- Where the tokens do not go on with a joint of the layer, there is no more to read. -/
theorem chainFrom_ends (hends : Ends layer rest) :
    chainFrom (levelOf layer) operand steps left rest = .ok (left, rest) := by
  unfold chainFrom
  split
  · next symbol rest' =>
    cases hlevel : levelOf layer symbol with
    | none => rfl
    | some build =>
        have hjoint := levelOf_eq_some.mp hlevel
        exact absurd (hends symbol rest' _ rfl hjoint) (Nat.lt_irrefl layer)
  · rfl

theorem chainFrom_sound (hoperand : Reads room (layer + 1) operand)
    (hleft : Derives room layer read left)
    (hchain : chainFrom (levelOf layer) operand steps left tokens = .ok (expr, rest)) :
    ∃ more, tokens = more ++ rest ∧ Derives room layer (read ++ more) expr := by
  induction steps generalizing read left tokens with
  | zero =>
      cases hchain
      exact ⟨[], rfl, by rwa [List.append_nil]⟩
  | succ steps ih =>
      have hnone : Except.ok (left, tokens) = (.ok (expr, rest) : Except Failure _) →
          ∃ more, tokens = more ++ rest ∧ Derives room layer (read ++ more) expr := by
        intro hsame
        cases hsame
        exact ⟨[], rfl, by rwa [List.append_nil]⟩
      cases tokens with
      | nil => exact hnone hchain
      | cons token others =>
          cases token with
          | symbol symbol =>
              rw [chainFrom] at hchain
              split at hchain
              · next build hlevel =>
                obtain ⟨⟨right, after⟩, hright, hrest⟩ := except_bind_eq_ok.mp hchain
                obtain ⟨taken, rfl, hderives⟩ := hoperand.sound hright
                obtain ⟨more, rfl, hexpr⟩ :=
                  ih (.joint (levelOf_eq_some.mp hlevel) hleft hderives) hrest
                exact ⟨.symbol symbol :: taken ++ more, by simp, by simpa using hexpr⟩
              · exact hnone hchain
          | _ => exact hnone hchain

/-- What comes after an expression of the layer is read as the continuation of that expression. -/
theorem chain_append (hlayer : layer < 6) (hoperand : Reads room (layer + 1) operand)
    (hread : Derives room layer read expr) (hends : Ends (layer + 1) rest) :
    chain (levelOf layer) operand (read ++ rest) =
      chainFrom (levelOf layer) operand rest.length expr rest := by
  induction hread generalizing rest with
  | literal => omega
  | name => omega
  | enclosed => omega
  | unary => omega
  | @tighter room layer tokens expr _ htighter =>
      have hfirst := hoperand.complete htighter hends
      rw [chain, hfirst]
      rfl
  | @joint room layer symbol build tokens others left right hsymbol _ hright ihLeft _ =>
      have hnext : Ends (layer + 1) (.symbol symbol :: others ++ rest) := by
        intro same tail joint htokens hjoint
        cases htokens
        rw [hsymbol] at hjoint
        cases hjoint
        exact Nat.lt_succ_self layer
      have hrest := hoperand.complete hright hends
      rw [List.append_assoc, ihLeft hlayer hoperand hnext, List.cons_append, List.length_cons,
        chainFrom, levelOf_eq_some.mpr hsymbol]
      dsimp only
      rw [hrest]
      exact chainFrom_steps hoperand (by simp) (Nat.le_refl _)

theorem reads_chain (hlayer : layer < 6) (hoperand : Reads room (layer + 1) operand) :
    Reads room layer (chain (levelOf layer) operand) where
  sound := by
    intro tokens expr rest hchain
    obtain ⟨⟨left, after⟩, hleft, hrest⟩ := except_bind_eq_ok.mp hchain
    obtain ⟨read, rfl, hderives⟩ := hoperand.sound hleft
    obtain ⟨more, rfl, hexpr⟩ := chainFrom_sound hoperand (.tighter (by omega) hderives) hrest
    exact ⟨read ++ more, (List.append_assoc ..).symm, hexpr⟩
  complete := by
    intro read expr rest hread hends
    rw [chain_append hlayer hoperand hread (hends.mono (Nat.le_succ layer))]
    exact chainFrom_ends hends

theorem reads_expressionOver {unary : Reader} (hunary : Reads room 6 unary) :
    Reads room 0 (expressionOver unary) := by
  rw [expressionOver, connectiveLevel_eq, connectiveLevel_eq, binaryLevel_eq, binaryLevel_eq,
    binaryLevel_eq, binaryLevel_eq]
  apply reads_chain (by decide)
  apply reads_chain (by decide)
  apply reads_chain (by decide)
  apply reads_chain (by decide)
  apply reads_chain (by decide)
  exact reads_chain (by decide) hunary

end Readers

/-! ## The reader of conditions -/

section Conditions

variable {room more : Nat} {tokens : List Token} {expr other : Expr}

theorem prefixOp?_eq_some {symbol : Symbol} {op : UnaryOp} :
    prefixOp? symbol = some op ↔ symbol = .ofUnary op := by
  constructor
  · intro hop
    unfold prefixOp? at hop
    split at hop <;> cases hop <;> rfl
  · rintro rfl
    cases op <;> rfl

theorem readUnary_sound (ih : ∀ less < room, Reads less 6 (readUnary less)) {rest : List Token}
    (hread : readUnary room tokens = .ok (expr, rest)) :
    ∃ read, tokens = read ++ rest ∧ Derives room 6 read expr := by
  unfold readUnary at hread
  split at hread
  · cases hread
  · cases hread
    exact ⟨[.literal _], rfl, .tighter (by decide) .literal⟩
  · cases hread
    exact ⟨[.name _], rfl, .tighter (by decide) .name⟩
  · cases hread
  · split at hread
    · cases hread
    · next op hop =>
      split at hread
      · cases hread
      · next room =>
        obtain ⟨⟨operand, after⟩, hoperand, hrest⟩ := except_bind_eq_ok.mp hread
        obtain ⟨read, rfl, hderives⟩ := (ih room (by omega)).sound hoperand
        cases hrest
        rw [prefixOp?_eq_some.mp hop]
        exact ⟨_ :: read, rfl, .unary hderives⟩
  · split at hread
    · next room =>
      obtain ⟨⟨inside, after⟩, hinside, hrest⟩ := except_bind_eq_ok.mp hread
      obtain ⟨read, rfl, hderives⟩ := (reads_expressionOver (ih room (by omega))).sound hinside
      dsimp only at hrest
      split at hrest
      · cases hrest
        exact ⟨enclosed read, by simp [enclosed], .tighter (by decide) (.enclosed hderives)⟩
      · cases hrest
      · cases hrest
    · cases hread

theorem readUnary_complete (ih : ∀ less < room, Reads less 6 (readUnary less)) {read rest}
    (hderives : Derives room 6 read expr) : readUnary room (read ++ rest) = .ok (expr, rest) := by
  cases hderives with
  | @unary room op tokens operand hoperand =>
      have hrest := (ih room (Nat.lt_succ_self room)).complete hoperand (ends_six rest)
      rw [List.cons_append, readUnary, prefixOp?_eq_some.mpr rfl]
      dsimp only
      rw [hrest]
      rfl
  | joint hsymbol => exact absurd (joint?_lt hsymbol) (Nat.lt_irrefl 6)
  | tighter _ htighter =>
      cases htighter with
      | literal => rw [List.cons_append, List.nil_append, readUnary]
      | name => rw [List.cons_append, List.nil_append, readUnary]
      | @enclosed room tokens _ hinside =>
          have hends : Ends 0 (.closing :: rest) := nofun
          have hrest := (reads_expressionOver (ih room (by omega))).complete hinside hends
          have hsplit : enclosed tokens ++ rest = .opening :: (tokens ++ .closing :: rest) := by
            simp [enclosed]
          rw [hsplit, readUnary]
          dsimp only
          rw [hrest]
          rfl
      | joint hsymbol => exact absurd (joint?_lt hsymbol) (Nat.not_lt.mpr (Nat.le_succ 6))
      | tighter hlayer => exact absurd hlayer (by decide)

theorem reads_readUnary (room : Nat) : Reads room 6 (readUnary room) := by
  induction room using Nat.strongRecOn with
  | _ room ih => exact ⟨readUnary_sound ih, fun hderives _ => readUnary_complete ih hderives⟩

theorem Derives.ne_nil {layer : Nat} (hderives : Derives room layer tokens expr) : tokens ≠ [] := by
  induction hderives with
  | tighter _ _ ih => exact ih
  | _ => simp [Condition.enclosed]

/-- A condition is read exactly if it is an expression of the grammar, as the tree that it means. -/
theorem parseTokens_eq_ok_iff : parseTokens room tokens = .ok expr ↔ Derives room 0 tokens expr := by
  have hreads := reads_expressionOver (reads_readUnary room)
  unfold parseTokens
  constructor
  · intro hparse
    split at hparse
    · cases hparse
    · obtain ⟨⟨read, rest⟩, hread, hrest⟩ := except_bind_eq_ok.mp hparse
      obtain ⟨taken, rfl, hderives⟩ := hreads.sound hread
      cases rest with
      | nil =>
          cases hrest
          rwa [List.append_nil]
      | cons => cases hrest
  · intro hderives
    have hends : Ends 0 [] := nofun
    have hread := hreads.complete hderives hends
    rw [List.append_nil] at hread
    rw [if_neg (by simpa using hderives.ne_nil), hread]
    rfl

theorem Derives.unique (hderives : Derives room 0 tokens expr) (hother : Derives more 0 tokens other) :
    other = expr := by
  have hleft := parseTokens_eq_ok_iff.mpr (hderives.mono (Nat.le_max_left room more))
  have hright := parseTokens_eq_ok_iff.mpr (hother.mono (Nat.le_max_right room more))
  rw [hleft] at hright
  exact (Except.ok.inj hright).symm

end Conditions

/-! ## Lack of room -/

/-- A reader does the same as another one, or runs out of room. -/
def Cramped (reader roomy : Reader) : Prop :=
  ∀ tokens, reader tokens = .error .tooDeep ∨ reader tokens = roomy tokens

section Room

variable {level : Level} {operand roomy : Reader}

theorem cramped_chainFrom (hoperand : Cramped operand roomy) (steps : Nat) (left : Expr) :
    Cramped (chainFrom level operand steps left) (chainFrom level roomy steps left) := by
  intro tokens
  induction steps generalizing left tokens with
  | zero => exact Or.inr rfl
  | succ steps ih =>
      cases tokens with
      | nil => exact Or.inr rfl
      | cons token tokens =>
          cases token with
          | symbol symbol =>
              rw [chainFrom, chainFrom]
              cases level symbol with
              | none => exact Or.inr rfl
              | some build =>
                  dsimp only
                  rcases hoperand tokens with hdeep | hsame
                  · rw [hdeep]
                    exact Or.inl rfl
                  · rw [hsame]
                    cases roomy tokens with
                    | error failure => exact Or.inr rfl
                    | ok result => exact ih _ _
          | _ => exact Or.inr rfl

theorem cramped_chain (hoperand : Cramped operand roomy) :
    Cramped (chain level operand) (chain level roomy) := by
  intro tokens
  unfold chain
  rcases hoperand tokens with hdeep | hsame
  · rw [hdeep]
    exact Or.inl rfl
  · rw [hsame]
    cases roomy tokens with
    | error failure => exact Or.inr rfl
    | ok result => exact cramped_chainFrom hoperand _ _ _

theorem cramped_expressionOver (hunary : Cramped operand roomy) :
    Cramped (expressionOver operand) (expressionOver roomy) := by
  apply cramped_chain
  apply cramped_chain
  apply cramped_chain
  apply cramped_chain
  apply cramped_chain
  exact cramped_chain hunary

theorem cramped_readUnary (room more : Nat) :
    Cramped (readUnary room) (readUnary (room + more)) := by
  induction room using Nat.strongRecOn with
  | _ room ih =>
      intro tokens
      cases tokens with
      | nil => exact Or.inr (by rw [readUnary, readUnary])
      | cons token rest =>
          cases token with
          | literal value => exact Or.inr (by rw [readUnary, readUnary])
          | name name => exact Or.inr (by rw [readUnary, readUnary])
          | closing => exact Or.inr (by rw [readUnary, readUnary])
          | symbol symbol =>
              rw [readUnary, readUnary]
              cases prefixOp? symbol with
              | none => exact Or.inr rfl
              | some op =>
                  cases room with
                  | zero => exact Or.inl rfl
                  | succ room =>
                      rw [Nat.add_right_comm]
                      dsimp only
                      rcases ih room (Nat.lt_succ_self room) rest with hdeep | hsame
                      · rw [hdeep]
                        exact Or.inl rfl
                      · rw [hsame]
                        exact Or.inr rfl
          | opening =>
              rcases Nat.lt_or_ge room 11 with hroom | hroom
              · rw [readUnary.eq_7 _ _ (by omega)]
                exact Or.inl rfl
              · obtain ⟨room, rfl⟩ := Nat.exists_eq_add_of_le' hroom
                rw [Nat.add_right_comm, readUnary, readUnary]
                rcases cramped_expressionOver (ih room (by omega)) rest with hdeep | hsame
                · rw [hdeep]
                  exact Or.inl rfl
                · rw [hsame]
                  exact Or.inr rfl

/-- All that a lack of room does to a condition of the grammar is that it is reported. -/
theorem parseTokens_of_derives {room more : Nat} {tokens : List Token} {expr : Expr}
    (hderives : Derives more 0 tokens expr) :
    parseTokens room tokens = .ok expr ∨ parseTokens room tokens = .error .tooDeep := by
  have hroomy := parseTokens_eq_ok_iff.mpr (hderives.mono (Nat.le_add_left more room))
  have hcramped := cramped_expressionOver (cramped_readUnary room more) tokens
  unfold parseTokens at hroomy ⊢
  rw [if_neg (by simpa using hderives.ne_nil)] at hroomy ⊢
  rcases hcramped with hdeep | hsame
  · rw [hdeep]
    exact Or.inr rfl
  · rw [hsame]
    exact Or.inl hroomy

end Room

/-! ## Printing -/

/-- Parentheses around what is looser than its place asks for. -/
def enclosedBelow (least layer : Nat) (tokens : List Token) : List Token :=
  if layer < least then enclosed tokens else tokens

def nestingBelow (least layer nesting : Nat) : Nat :=
  if layer < least then nesting + 11 else nesting

namespace Expr

/-- The layer of the outermost operator. -/
def layer : Expr → Nat
  | literal _ | name _ => 7
  | unary _ _ => 6
  | binary op _ _ => op.layer
  | logical op _ _ => op.layer

/-- The tokens of a tree, with no more parentheses than its layers ask for. -/
def print : Expr → List Token
  | literal value => [.literal value]
  | name word => [.name word]
  | unary op operand => .symbol (.ofUnary op) :: enclosedBelow 6 operand.layer operand.print
  | binary op left right =>
    enclosedBelow op.layer left.layer left.print ++
      .symbol (.binary op) :: enclosedBelow (op.layer + 1) right.layer right.print
  | logical op left right =>
    enclosedBelow op.layer left.layer left.print ++
      .symbol (.connective op) :: enclosedBelow (op.layer + 1) right.layer right.print

/-- The room that the printed tree takes. -/
def nesting : Expr → Nat
  | literal _ | name _ => 0
  | unary _ operand => nestingBelow 6 operand.layer operand.nesting + 1
  | binary op left right =>
    max (nestingBelow op.layer left.layer left.nesting)
      (nestingBelow (op.layer + 1) right.layer right.nesting)
  | logical op left right =>
    max (nestingBelow op.layer left.layer left.nesting)
      (nestingBelow (op.layer + 1) right.layer right.nesting)

end Expr

section Printing

variable {room least layer nesting : Nat} {tokens : List Token} {expr : Expr}

theorem Expr.layer_le (expr : Expr) : expr.layer ≤ 7 := by
  cases expr with
  | literal value => exact Nat.le_refl 7
  | name word => exact Nat.le_refl 7
  | unary op operand => exact Nat.le_succ 6
  | binary op left right => exact Nat.le_trans (Nat.le_of_lt op.layer_lt) (Nat.le_succ 6)
  | logical op left right => exact Nat.le_trans (Nat.le_of_lt op.layer_lt) (Nat.le_succ 6)

theorem derives_enclosedBelow (hleast : least ≤ 7) (hlayer : layer ≤ 7)
    (hderives : ∀ room, nesting ≤ room → Derives room layer tokens expr)
    (hroom : nestingBelow least layer nesting ≤ room) :
    Derives room least (enclosedBelow least layer tokens) expr := by
  unfold nestingBelow at hroom
  unfold enclosedBelow
  split
  · next hloose =>
    rw [if_pos hloose] at hroom
    obtain ⟨less, rfl⟩ := Nat.exists_eq_add_of_le' (Nat.le_trans (Nat.le_add_left 11 _) hroom)
    have hinside := hderives less (Nat.le_of_add_le_add_right hroom)
    exact (Derives.enclosed (hinside.loosen hlayer (Nat.zero_le _))).loosen (Nat.le_refl 7) hleast
  · next htight =>
    rw [if_neg htight] at hroom
    exact (hderives room hroom).loosen hlayer (Nat.not_lt.mp htight)

/-- A printed tree is an expression of its layer, which means the tree. -/
theorem derives_print (hroom : expr.nesting ≤ room) : Derives room expr.layer expr.print expr := by
  induction expr generalizing room with
  | literal value => exact .literal
  | name name => exact .name
  | unary op operand ih =>
      obtain ⟨less, rfl⟩ := Nat.exists_eq_add_of_le' (Nat.le_trans (Nat.le_add_left 1 _) hroom)
      have hless := Nat.le_of_add_le_add_right hroom
      exact .unary (derives_enclosedBelow (by decide) operand.layer_le (fun _ => ih) hless)
  | binary op left right ihLeft ihRight =>
      have hlayer : op.layer + 1 ≤ 7 := Nat.succ_le_succ (Nat.le_of_lt op.layer_lt)
      refine @Derives.joint room op.layer (.binary op) (.binary op) _ _ left right rfl ?_ ?_
      · exact derives_enclosedBelow (Nat.le_of_succ_le hlayer) left.layer_le (fun _ => ihLeft)
          (Nat.le_trans (Nat.le_max_left ..) hroom)
      · exact derives_enclosedBelow hlayer right.layer_le (fun _ => ihRight)
          (Nat.le_trans (Nat.le_max_right ..) hroom)
  | logical op left right ihLeft ihRight =>
      have hlayer : op.layer + 1 ≤ 7 := Nat.succ_le_succ (Nat.le_of_lt op.layer_lt)
      refine @Derives.joint room op.layer (.connective op) (.logical op) _ _ left right rfl ?_ ?_
      · exact derives_enclosedBelow (Nat.le_of_succ_le hlayer) left.layer_le (fun _ => ihLeft)
          (Nat.le_trans (Nat.le_max_left ..) hroom)
      · exact derives_enclosedBelow hlayer right.layer_le (fun _ => ihRight)
          (Nat.le_trans (Nat.le_max_right ..) hroom)

end Printing

/-- A printed tree is read back. What is read at all is an expression of the layered grammar, as the
only tree that it means, and an expression of the grammar is read unless the room is too small. -/
theorem parseTokens_layered (tokens : List Token) (expr : Expr) :
    (∀ room, expr.nesting ≤ room → parseTokens room expr.print = .ok expr) ∧
      (∀ room, parseTokens room tokens = .ok expr ↔ Derives room 0 tokens expr) ∧
      (∀ room more, Derives more 0 tokens expr →
        parseTokens room tokens = .ok expr ∨ parseTokens room tokens = .error .tooDeep) ∧
      ∀ room more other, Derives room 0 tokens expr → Derives more 0 tokens other →
        other = expr := by
  refine ⟨?_, ?_, ?_, ?_⟩
  · intro room hroom
    exact parseTokens_eq_ok_iff.mpr ((derives_print hroom).loosen expr.layer_le (Nat.zero_le _))
  · exact fun room => parseTokens_eq_ok_iff
  · exact fun room more => parseTokens_of_derives
  · exact fun room more other => Derives.unique

/-- The difference of a difference needs parentheses, a negated factor does not: `a - (b - c) * -d`,
without room for parentheses and with it. -/
theorem parseTokens_layered_difference :
    let a := Expr.name ['a']
    let b := Expr.name ['b']
    let c := Expr.name ['c']
    let d := Expr.name ['d']
    let difference := Expr.binary .subtract a
      (.binary .multiply (.binary .subtract b c) (.unary .minus d))
    difference.nesting = 11 ∧
      difference.print = [.name ['a'], .symbol (.binary .subtract), .opening, .name ['b'],
        .symbol (.binary .subtract), .name ['c'], .closing, .symbol (.binary .multiply),
        .symbol (.binary .subtract), .name ['d']] ∧
      parseTokens 11 difference.print = .ok difference ∧
      Derives 11 0 difference.print difference ∧
      parseTokens 10 difference.print = .error .tooDeep ∧
      ∀ more other, Derives more 0 difference.print other → other = difference := by
  intro a b c d difference
  obtain ⟨hprint, hderives, hroom, hunique⟩ := parseTokens_layered difference.print difference
  have hread := hprint 11 (by decide)
  have hderived := (hderives 11).mp hread
  have hdeep : parseTokens 10 difference.print = .error .tooDeep := by
    apply (hroom 10 11 hderived).resolve_left
    intro hsome
    cases hsome
  exact ⟨by decide, rfl, hread, hderived, hdeep, fun more other => hunique 11 more other hderived⟩

end PageLoom.Condition
