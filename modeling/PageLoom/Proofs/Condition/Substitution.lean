import PageLoom.Condition.Grammar
import PageLoom.Proofs.Condition.Faults

/-!
# Props in conditions

Props take the places of names before a condition is read. It makes no difference to read the
condition first, with no props at all, and to fill the names in its tree then. So what the texts of
props hold, quotes, operators or parentheses, changes neither whether a condition can be read nor
the shape of its tree.
-/

namespace PageLoom.Condition

/-! ## Filling names -/

/-- The names of props give way to literals of their texts. -/
def Token.fill (scope : Props) : Token → Token
  | .name word =>
    match scope.get? word with
    | some value => .literal (.text value.asText)
    | none => .name word
  | token => token

def Expr.fill (scope : Props) : Expr → Expr
  | .literal value => .literal value
  | .name word =>
    match scope.get? word with
    | some value => .literal (.text value.asText)
    | none => .name word
  | .unary op operand => .unary op (operand.fill scope)
  | .binary op left right => .binary op (left.fill scope) (right.fill scope)
  | .logical op left right => .logical op (left.fill scope) (right.fill scope)

/-- A refusal shows the token that it is about. -/
def Failure.fill (scope : Props) : Failure → Failure
  | .refused (.unexpectedToken token) => .refused (.unexpectedToken (token.fill scope))
  | failure => failure

/-- Trees with the same operators that have the same leaves, except for the literals that two scopes
put in the places of the same names. -/
inductive SameBut (scope other : Props) : Expr → Expr → Prop
  | literal {value : Value} : SameBut scope other (.literal value) (.literal value)
  | name {name : Text} : SameBut scope other (.name name) (.name name)
  | prop {name : Text} {value partner : PropValue} (hvalue : scope.get? name = some value)
      (hpartner : other.get? name = some partner) :
      SameBut scope other (.literal (.text value.asText)) (.literal (.text partner.asText))
  | unary {op : UnaryOp} {operand partner : Expr} (hoperand : SameBut scope other operand partner) :
      SameBut scope other (.unary op operand) (.unary op partner)
  | binary {op : BinaryOp} {left right first second : Expr} (hleft : SameBut scope other left first)
      (hright : SameBut scope other right second) :
      SameBut scope other (.binary op left right) (.binary op first second)
  | logical {op : Connective} {left right first second : Expr}
      (hleft : SameBut scope other left first) (hright : SameBut scope other right second) :
      SameBut scope other (.logical op left right) (.logical op first second)

variable {scope other : Props}

@[simp]
theorem fill_literal (value : Value) : (Token.literal value).fill scope = .literal value := rfl

@[simp]
theorem fill_symbol (symbol : Symbol) : (Token.symbol symbol).fill scope = .symbol symbol := rfl

@[simp]
theorem fill_opening : Token.opening.fill scope = .opening := rfl

@[simp]
theorem fill_closing : Token.closing.fill scope = .closing := rfl

/-- A name becomes a literal or stays, before reading as after it. -/
theorem fill_name (scope : Props) (word : Text) :
    (∃ value, (Token.name word).fill scope = .literal value ∧
        (Expr.name word).fill scope = .literal value) ∨
      (Token.name word).fill scope = .name word ∧ (Expr.name word).fill scope = .name word := by
  rw [Expr.fill, Token.fill]
  cases scope.get? word with
  | none => exact Or.inr ⟨rfl, rfl⟩
  | some value => exact Or.inl ⟨_, rfl, rfl⟩

theorem substitute_eq (tokens : List Token) :
    substitute scope tokens = tokens.map (Token.fill scope) := by
  apply List.map_congr_left
  intro token _
  cases token <;> rfl

theorem sameBut_fill (hkeys : ∀ name, (scope.get? name).isSome = (other.get? name).isSome)
    (expr : Expr) : SameBut scope other (expr.fill scope) (expr.fill other) := by
  induction expr with
  | literal value => exact .literal
  | name word =>
      have hkey := hkeys word
      unfold Expr.fill
      cases hvalue : scope.get? word with
      | none =>
          rw [hvalue] at hkey
          cases hpartner : other.get? word with
          | none => exact .name
          | some partner => simp [hpartner] at hkey
      | some value =>
          rw [hvalue] at hkey
          cases hpartner : other.get? word with
          | none => simp [hpartner] at hkey
          | some partner => exact .prop hvalue hpartner
  | unary op operand ih => exact .unary ih
  | binary op left right ihLeft ihRight => exact .binary ihLeft ihRight
  | logical op left right ihLeft ihRight => exact .logical ihLeft ihRight

/-! ## Readers -/

/-- The outcome of a reader on the tokens in which names are filled. -/
def fillRead (scope : Props) :
    Except Failure (Expr × List Token) → Except Failure (Expr × List Token)
  | .ok (expr, rest) => .ok (expr.fill scope, rest.map (Token.fill scope))
  | .error failure => .error (failure.fill scope)

/-- Names can be filled before or after reading. -/
def FillsThrough (scope : Props) (reader : Reader) : Prop :=
  ∀ tokens, reader (tokens.map (Token.fill scope)) = fillRead scope (reader tokens)

/-- The trees of a level are made of their operands as they are. -/
def Joins (scope : Props) (level : Level) : Prop :=
  ∀ symbol build, level symbol = some build →
    ∀ left right, (build left right).fill scope = build (left.fill scope) (right.fill scope)

variable {level : Level} {operand : Reader}

theorem joins_connectiveLevel (op : Connective) : Joins scope (connectiveLevel op) := by
  intro symbol build hbuild left right
  unfold connectiveLevel at hbuild
  split at hbuild
  · split at hbuild
    · cases hbuild
      rfl
    · cases hbuild
  · cases hbuild

theorem joins_binaryLevel (level : Nat) : Joins scope (binaryLevel level) := by
  intro symbol build hbuild left right
  unfold binaryLevel at hbuild
  split at hbuild
  · split at hbuild
    · cases hbuild
      rfl
    · cases hbuild
  · cases hbuild

/-- What is no operator ends a chain. -/
theorem chainFrom_stop {token : Token} (htoken : ∀ symbol, token ≠ .symbol symbol) (steps : Nat)
    (left : Expr) (rest : List Token) :
    chainFrom level operand steps left (token :: rest) = .ok (left, token :: rest) := by
  cases steps with
  | zero =>
      rw [chainFrom]
      intro _ _ _ hsteps
      cases hsteps
  | succ steps =>
      cases token with
      | symbol symbol => exact absurd rfl (htoken symbol)
      | _ => rfl

theorem chainFrom_fill (hlevel : Joins scope level) (hoperand : FillsThrough scope operand)
    (steps : Nat) (left : Expr) (tokens : List Token) :
    chainFrom level operand steps (left.fill scope) (tokens.map (Token.fill scope)) =
      fillRead scope (chainFrom level operand steps left tokens) := by
  induction steps generalizing left tokens with
  | zero => rfl
  | succ steps ih =>
      cases tokens with
      | nil => rfl
      | cons token tokens =>
          cases token with
          | symbol symbol =>
              rw [List.map_cons, fill_symbol, chainFrom, chainFrom]
              cases hbuild : level symbol with
              | none => rfl
              | some build =>
                  dsimp only
                  rw [hoperand]
                  cases operand tokens with
                  | error failure => rfl
                  | ok read =>
                      have hrest := ih (build left read.1) read.2
                      rw [hlevel symbol build hbuild] at hrest
                      exact hrest
          | name word =>
              have hname : ∀ symbol, (Token.name word).fill scope ≠ .symbol symbol := by
                obtain ⟨value, hfill, -⟩ | ⟨hfill, -⟩ := fill_name scope word
                · rw [hfill]
                  exact fun _ => Token.noConfusion
                · rw [hfill]
                  exact fun _ => Token.noConfusion
              rw [List.map_cons, chainFrom_stop hname]
              rfl
          | _ => rfl

theorem fillsThrough_chain (hlevel : Joins scope level) (hoperand : FillsThrough scope operand) :
    FillsThrough scope (chain level operand) := by
  intro tokens
  unfold chain
  rw [hoperand]
  cases operand tokens with
  | error failure => rfl
  | ok read =>
      obtain ⟨left, rest⟩ := read
      change chainFrom level operand (rest.map (Token.fill scope)).length (left.fill scope) _ = _
      rw [List.length_map]
      exact chainFrom_fill hlevel hoperand rest.length left rest

theorem fillsThrough_expressionOver {unary : Reader} (hunary : FillsThrough scope unary) :
    FillsThrough scope (expressionOver unary) := by
  apply fillsThrough_chain (joins_connectiveLevel .or)
  apply fillsThrough_chain (joins_connectiveLevel .and)
  apply fillsThrough_chain (joins_binaryLevel 0)
  apply fillsThrough_chain (joins_binaryLevel 1)
  apply fillsThrough_chain (joins_binaryLevel 2)
  exact fillsThrough_chain (joins_binaryLevel 3) hunary

theorem fillsThrough_readUnary (room : Nat) : FillsThrough scope (readUnary room) := by
  induction room using Nat.strongRecOn with
  | _ room ih =>
      intro tokens
      cases tokens with
      | nil =>
          rw [List.map_nil, readUnary]
          rfl
      | cons token rest =>
          cases token with
          | literal value =>
              rw [List.map_cons, fill_literal, readUnary, readUnary]
              rfl
          | closing =>
              rw [List.map_cons, fill_closing, readUnary, readUnary]
              rfl
          | name word =>
              obtain ⟨value, hfill, hexpr⟩ | ⟨hfill, hexpr⟩ := fill_name scope word
              · rw [List.map_cons, hfill, readUnary, readUnary, fillRead, hexpr]
              · rw [List.map_cons, hfill, readUnary, readUnary, fillRead, hexpr]
          | symbol symbol =>
              rw [List.map_cons, fill_symbol, readUnary, readUnary]
              cases prefixOp? symbol with
              | none => rfl
              | some op =>
                  cases room with
                  | zero => rfl
                  | succ room =>
                      dsimp only
                      rw [ih room (Nat.lt_succ_self room)]
                      cases readUnary room rest <;> rfl
          | opening =>
              rw [List.map_cons, fill_opening]
              rcases Nat.lt_or_ge room 11 with hroom | hroom
              · rw [readUnary.eq_7 _ _ (by omega), readUnary.eq_7 _ _ (by omega)]
                rfl
              · obtain ⟨room, rfl⟩ := Nat.exists_eq_add_of_le' hroom
                rw [readUnary, readUnary, fillsThrough_expressionOver (ih room (by omega))]
                cases expressionOver (readUnary room) rest with
                | error failure => rfl
                | ok read =>
                    obtain ⟨inside, after⟩ := read
                    cases after with
                    | nil => rfl
                    | cons token after =>
                        cases token with
                        | name word =>
                            obtain ⟨value, hfill, -⟩ | ⟨hfill, -⟩ := fill_name scope word
                            · rw [fillRead, List.map_cons, hfill]
                              rfl
                            · rw [fillRead, List.map_cons, hfill]
                              rfl
                        | _ => rfl

/-- A refusal of a token shows what the token is filled with. -/
theorem parseTokens_fill (room : Nat) (tokens : List Token) :
    parseTokens room (tokens.map (Token.fill scope)) =
      ((parseTokens room tokens).map (Expr.fill scope)).mapError (Failure.fill scope) := by
  unfold parseTokens
  rw [List.isEmpty_map]
  split
  · rfl
  · rw [fillsThrough_expressionOver (fillsThrough_readUnary room)]
    cases expressionOver (readUnary room) tokens with
    | error failure => rfl
    | ok read =>
        obtain ⟨expr, rest⟩ := read
        cases rest <;> rfl

/-! ## Conditions -/

/-- Before there are tokens, none is refused. -/
theorem tokenAt_error {position : Nat} {c : Char} {text : Text} {failure : Failure}
    (hfails : tokenAt position c text = .error failure) : failure.fill scope = failure := by
  have hnumeral : ∀ {whole fraction? change}, (numeralToken whole fraction?).map change =
      (.error failure : Except Failure (Option Token × Nat)) → failure.fill scope = failure := by
    intro whole fraction? change hnone
    rw [map_eq_error_iff] at hnone
    unfold numeralToken at hnone
    split at hnone
    · cases hnone
    · split at hnone <;> cases hnone
      rfl
  unfold tokenAt at hfails
  dsimp only at hfails
  split at hfails
  · cases hfails
  split at hfails
  · split at hfails
    · exact hnumeral hfails
    · exact hnumeral hfails
  split at hfails
  · split at hfails
    · cases hfails
      rfl
    · exact hnumeral hfails
  split at hfails
  · split at hfails <;> cases hfails
    rfl
  split at hfails
  · cases hfails
  split at hfails
  · cases hfails
  split at hfails
  · cases hfails
  · split at hfails <;> cases hfails
    rfl

theorem tokensFrom_error {skip position : Nat} {text : Text} {failure : Failure}
    (hfails : tokensFrom skip position text = .error failure) : failure.fill scope = failure := by
  induction text generalizing skip position with
  | nil => cases skip <;> cases hfails
  | cons c text ih =>
      cases skip with
      | succ skip => exact ih hfails
      | zero =>
          rw [tokensFrom, except_bind_eq_error] at hfails
          obtain hfails | ⟨⟨token?, more⟩, -, hfails⟩ := hfails
          · exact tokenAt_error hfails
          · obtain hfails | ⟨tokens, -, hnone⟩ := except_bind_eq_error.mp hfails
            · exact ih hfails
            · cases hnone

theorem parse_eq_fill (source : Text) (scope : Props) :
    parse source scope =
      ((parse source []).map (Expr.fill scope)).mapError (Failure.fill scope) := by
  have hnone : ∀ tokens, substitute [] tokens = tokens := by
    intro tokens
    rw [substitute_eq]
    apply List.map_id''
    intro token
    cases token <;> rfl
  unfold parse
  cases htokens : tokens source with
  | error failure => exact congrArg Except.error (tokensFrom_error htokens).symm
  | ok tokens =>
      change parseTokens nestingRoom (substitute scope tokens) =
        ((parseTokens nestingRoom (substitute [] tokens)).map _).mapError _
      rw [hnone, substitute_eq]
      exact parseTokens_fill nestingRoom tokens

/-- Reading a condition with props is reading it with none and filling the names of props: it fails
exactly if that fails. So scopes with the same keys give trees that differ in those literals only. -/
theorem parse_fill (source : Text) (scope : Props) :
    parse source scope =
        ((parse source []).map (Expr.fill scope)).mapError (Failure.fill scope) ∧
      ∀ other : Props, (∀ name, (scope.get? name).isSome = (other.get? name).isSome) →
        Option.Rel (SameBut scope other) (parse source scope).toOption
          (parse source other).toOption := by
  refine ⟨parse_eq_fill source scope, fun other hkeys => ?_⟩
  rw [parse_eq_fill source scope, parse_eq_fill source other]
  cases parse source [] with
  | error failure => exact .none
  | ok expr => exact .some (sameBut_fill hkeys expr)

/-- A text that looks like an operator between two quotes stays one literal. -/
theorem parse_fill_quotes :
    let source := "p == 'a' && q".toList
    let scope : Props := [(['p'], .scalar "' || '".toList)]
    let other : Props := [(['p'], .scalar [])]
    parse source scope = .ok (.logical .and
        (.binary .equal (.literal (.text "' || '".toList)) (.literal (.text ['a']))) (.name ['q'])) ∧
      (∀ name, (scope.get? name).isSome = (other.get? name).isSome) ∧
      Option.Rel (SameBut scope other) (parse source scope).toOption
        (parse source other).toOption := by
  intro source scope other
  have hkeys : ∀ name, (scope.get? name).isSome = (other.get? name).isSome := by
    intro name
    simp only [scope, other, Props.get?, List.lookup]
    cases name == ['p'] <;> rfl
  obtain ⟨hfill, hsame⟩ := parse_fill source scope
  exact ⟨by rw [hfill]; rfl, hkeys, hsame other hkeys⟩

end PageLoom.Condition
