import ContractGen.Source.Declarations

/-!
# Reading stays within the tokens

Every reader of the grammar takes tokens off the front of what it is given. What it leaves is the
end of its input, so no reader goes past the last token, and where it fails there is a token of its
input or the end of the text. The readers of loops and recursions are measured by the number of
tokens that are left; this is what makes them functions on every input.

**Definitions.**
* `Within`: what is left is the end of the input, and a failure is at a place of it.
* `Advances`: in addition, at least one token was taken off.
* `GrammarReader`: the readers of the grammar.

**Results.**
* `Within.bind`: readers one after the other stay within the input.
* `readItems_within`: a whole file is read to the last token, or fails at one of its tokens.
* `GrammarReader.advances`: every reader of the grammar takes off a token, or fails at one.
-/

namespace ContractGen
namespace Source

open Target

/-! ## Staying within the input -/

/-- Where reading can fail: at a token of the input, or at the end of the text. -/
inductive FailsAt (src : SourceText) (input : List Lexeme) : SyntaxError → Prop
  | expected (what : String) (found : Token) {p : Position} :
      (p = src.stop ∨ ∃ l ∈ input, p = l.start) → FailsAt src input (.expected what found p)
  | unexpectedEnd (context : String) :
      FailsAt src input (.unexpectedEnd context src.stop)

/-- What is left is the end of the input, and a failure is at a place of it. -/
def Within {γ : Type} (src : SourceText) (input : List Lexeme) (rest : γ → List Lexeme) :
    Except SyntaxError γ → Prop
  | .ok value => rest value <:+ input
  | .error e => FailsAt src input e

section Composition

variable {γ δ : Type} {src : SourceText} {input input' : List Lexeme} {rest : γ → List Lexeme}
  {rest' : δ → List Lexeme}

/-- A place of the end of an input is a place of the input. -/
theorem FailsAt.mono
    {e : SyntaxError}
    (h : FailsAt src input e)
    (hsuffix : input <:+ input') :
    FailsAt src input' e := by
  cases h with
  | expected what found hp =>
      exact .expected what found (hp.imp_right fun ⟨l, hl, he⟩ => ⟨l, hsuffix.mem hl, he⟩)
  | unexpectedEnd context =>
      exact .unexpectedEnd context

/-- What stays within the end of an input stays within the input. -/
theorem Within.mono
    {result : Except SyntaxError γ}
    (h : Within src input rest result)
    (hsuffix : input <:+ input') :
    Within src input' rest result := by
  cases result with
  | ok value =>
      exact List.IsSuffix.trans h hsuffix
  | error e =>
      exact FailsAt.mono h hsuffix

/-- What goes on with what is left stays within the input. -/
theorem Within.bind
    {result : Except SyntaxError γ} {next : γ → Except SyntaxError δ}
    (h : Within src input rest result)
    (hnext : ∀ value, Within src (rest value) rest' (next value)) :
    Within src input rest' (result >>= next) := by
  cases result with
  | ok value =>
      exact (hnext value).mono h
  | error e =>
      exact h

/-- A reader that finds another token than it expects fails at this token. -/
theorem within_expected
    (what : String) :
    Within src input rest (.error (src.expected what input)) := by
  cases input with
  | nil =>
      exact .expected what _ (Or.inl rfl)
  | cons t later =>
      exact .expected what _ (Or.inr ⟨t, List.mem_cons_self, rfl⟩)

theorem within_unexpectedEnd
    (context : String) :
    Within src input rest (.error (src.unexpectedEnd context)) :=
  FailsAt.unexpectedEnd context

end Composition

/-- The tokens that are left after something that may be absent. -/
abbrev leftOver {α : Type} {input : List Lexeme} (g : α × Left input) : List Lexeme :=
  g.2.1

/-! ## Single tokens -/

section Cursor

variable {src : SourceText}

/-- A symbol is taken off, or the failure is at what stands in its place. -/
theorem readSymbol_within
    (symbol : String)
    (input : List Lexeme) :
    Within src input Taken.rest (readSymbol src symbol input) := by
  cases input with
  | nil =>
      exact within_expected _
  | cons t rest =>
      rw [readSymbol]
      split
      · exact List.suffix_cons t rest
      · exact within_expected _

theorem readKeyword_within
    (word : String)
    (input : List Lexeme) :
    Within src input Taken.rest (readKeyword src word input) := by
  cases input with
  | nil =>
      exact within_expected _
  | cons t rest =>
      rw [readKeyword]
      split
      · exact List.suffix_cons t rest
      · exact within_expected _

/-- An identifier is taken off, or the failure is at what stands in its place. -/
theorem readIdentifier_within
    (what : String)
    (input : List Lexeme) :
    Within src input Taken.rest (readIdentifier src what input) := by
  cases input with
  | nil =>
      exact within_expected _
  | cons t rest =>
      rw [readIdentifier]
      split
      · exact List.suffix_cons t rest
      · exact within_expected _

/-- What is left once a keyword may have been skipped is the end of the input. -/
theorem skipKeyword_suffix
    (word : String)
    (input : List Lexeme) :
    (skipKeyword word input).1 <:+ input := by
  cases input with
  | nil =>
      exact List.suffix_rfl
  | cons t rest =>
      rw [skipKeyword]
      split
      · exact List.suffix_cons t rest
      · exact List.suffix_rfl

/-- What is left once an identifier may have been taken is the end of the input. -/
theorem takeIdentifier?_suffix
    (input : List Lexeme) :
    (takeIdentifier? input).2.1 <:+ input := by
  cases input with
  | nil =>
      exact List.suffix_rfl
  | cons t rest =>
      rw [takeIdentifier?]
      split
      · exact List.suffix_cons t rest
      · exact List.suffix_rfl

/-- What is left once a data location may have been taken is the end of the input. -/
theorem takeLocation?_suffix
    (input : List Lexeme) :
    (takeLocation? input).2.1 <:+ input := by
  cases input with
  | nil =>
      exact List.suffix_rfl
  | cons t rest =>
      rw [takeLocation?]
      split
      · split
        · exact List.suffix_cons t rest
        · exact List.suffix_rfl
      · exact List.suffix_rfl

/-- A qualified name is taken off, however many dots it has. -/
theorem readQualifiedName_within
    (what : String)
    (input : List Lexeme) :
    Within src input Taken.rest (readQualifiedName src what input) := by
  fun_induction readQualifiedName src what input with
  | case1 =>
      exact within_expected _
  | case2 t name hname =>
      exact List.nil_suffix
  | case3 t hother =>
      exact within_expected _
  | case4 t dot rest name hname hdot ih =>
      have hrest : rest <:+ t :: dot :: rest :=
        (List.suffix_cons dot rest).trans (List.suffix_cons t _)
      refine Within.mono ?_ hrest
      exact ih.bind fun _ => List.suffix_rfl
  | case5 t dot rest name hname hdot =>
      exact List.suffix_cons t _
  | case6 t dot rest hother =>
      exact within_expected _

end Cursor

/-! ## Bracketed stretches -/

section Nesting

variable {src : SourceText}

/-- Passing over nested braces stays within the input, at every depth. -/
theorem skipToClose_within
    (context : String)
    (depth : Nat)
    (input : List Lexeme) :
    Within src input Taken.rest (skipToClose src context depth input) := by
  induction input generalizing depth with
  | nil =>
      exact within_unexpectedEnd context
  | cons t rest ih =>
      rw [skipToClose]
      split
      · exact List.suffix_cons t rest
      · refine Within.mono ?_ (List.suffix_cons t rest)
        exact (ih _).bind fun _ => List.suffix_rfl

/-- Passing over arguments in parentheses stays within the input, and so does their absence. -/
theorem skipArguments_within
    (context : String)
    (input : List Lexeme) :
    Within src input Subtype.val (skipArguments src context input) := by
  rw [skipArguments]
  split
  · exact (skipToClose_within context 0 input).bind fun _ => List.suffix_rfl
  · exact List.suffix_rfl

/-- Passing over a declaration up to its semicolon or its braces stays within the input. -/
theorem skipDeclaration_within
    (context : String)
    (depth : Nat)
    (input : List Lexeme) :
    Within src input Taken.rest (skipDeclaration src context depth input) := by
  induction input generalizing depth with
  | nil =>
      exact within_unexpectedEnd context
  | cons t rest ih =>
      rw [skipDeclaration]
      split
      · exact List.suffix_cons t rest
      · split
        · exact skipToClose_within context 0 (t :: rest)
        · refine Within.mono ?_ (List.suffix_cons t rest)
          exact (ih _).bind fun _ => List.suffix_rfl

/-- The search for a closing symbol outside all brackets stays within the input. -/
theorem findClose_within
    (close context : String)
    (depth stop : Nat)
    (input : List Lexeme) :
    Within src input Taken.rest (findClose src close context depth stop input) := by
  induction input generalizing depth stop with
  | nil =>
      exact within_unexpectedEnd context
  | cons t rest ih =>
      rw [findClose]
      split
      · exact List.suffix_cons t rest
      · refine Within.mono ?_ (List.suffix_cons t rest)
        exact (ih _ _).bind fun _ => List.suffix_rfl

/-- A text that is taken as it is written stays within the input. -/
theorem readRawUntil_within
    (close context : String)
    (input : List Lexeme) :
    Within src input Taken.rest (readRawUntil src close context input) :=
  (findClose_within close context 0 _ input).bind fun _ => List.suffix_rfl

end Nesting

/-! ## Types and parameters -/

section Types

variable {src : SourceText}

/-- What is left after a marker that may be absent. -/
theorem marker_suffix
    (input : List Lexeme)
    (marked : Bool) :
    (if marked = true then Left.tail input else Left.whole input).1 <:+ input := by
  cases marked with
  | true =>
      exact List.tail_suffix input
  | false =>
      exact List.suffix_rfl

/-- The brackets behind a type are taken off one pair after the other. -/
theorem readBrackets_within
    (type : TypeExpr)
    (input : List Lexeme) :
    Within src input leftOver (readBrackets src type input) := by
  induction hn : input.length using Nat.strongRecOn generalizing type input with
  | ind n ih =>
      subst hn
      cases input with
      | nil =>
          rw [readBrackets]
          exact List.suffix_rfl
      | cons t rest =>
          rw [readBrackets]
          split
          · refine Within.mono ?_ (List.suffix_cons t rest)
            split
            · refine Within.mono ?_ (List.tail_suffix rest)
              have hlt : rest.tail.length < (t :: rest).length :=
                Reading.lt_cons_of_le Reading.tail_le
              exact (ih _ hlt (.array type) rest.tail rfl).bind fun _ => List.suffix_rfl
            · refine (readRawUntil_within "]" "array size" rest).bind ?_
              rintro ⟨size, next, h⟩
              exact (ih _ (Reading.lt_cons_of_lt h) _ next rfl).bind fun _ => List.suffix_rfl
          · exact List.suffix_rfl

/-- A type is taken off, also when it is a mapping that holds types itself. -/
theorem readType_within
    (input : List Lexeme) :
    Within src input Taken.rest (readType src input) := by
  induction hn : input.length using Nat.strongRecOn generalizing input with
  | ind n ih =>
      subst hn
      cases input with
      | nil =>
          rw [readType]
          exact within_expected _
      | cons t rest =>
          rw [readType]
          split
          · refine Within.mono ?_ (List.suffix_cons t rest)
            refine (readSymbol_within "(" rest).bind ?_
            rintro ⟨_, r₁, h₁⟩
            refine (ih _ (Reading.lt_cons_of_lt h₁) r₁ rfl).bind ?_
            rintro ⟨key, r₂, h₂⟩
            have hkeyName := takeIdentifier?_suffix r₂
            dsimp only
            generalize takeIdentifier? r₂ = keyName at hkeyName ⊢
            obtain ⟨_, r₃, h₃⟩ := keyName
            refine Within.mono ?_ hkeyName
            refine (readSymbol_within "=>" r₃).bind ?_
            rintro ⟨_, r₄, h₄⟩
            have hlt : r₄.length < (t :: rest).length := by
              rw [List.length_cons]
              omega
            refine (ih _ hlt r₄ rfl).bind ?_
            rintro ⟨value, r₅, h₅⟩
            have hvalueName := takeIdentifier?_suffix r₅
            dsimp only
            generalize takeIdentifier? r₅ = valueName at hvalueName ⊢
            obtain ⟨_, r₆, h₆⟩ := valueName
            refine Within.mono ?_ hvalueName
            refine (readSymbol_within ")" r₆).bind ?_
            rintro ⟨_, r₇, h₇⟩
            exact (readBrackets_within _ r₇).bind fun _ => List.suffix_rfl
          · refine (readQualifiedName_within "a type" (t :: rest)).bind ?_
            rintro ⟨base, r₁, h₁⟩
            dsimp only
            have hmarker := marker_suffix r₁ (decide (base = "address") && atKeyword "payable" r₁)
            generalize (if (decide (base = "address") && atKeyword "payable" r₁) = true
                then Left.tail r₁ else Left.whole r₁) = marker at hmarker ⊢
            obtain ⟨r₂, h₂⟩ := marker
            refine Within.mono ?_ hmarker
            exact (readBrackets_within _ r₂).bind fun _ => List.suffix_rfl

/-- A parameter takes off its type, data location and name. -/
theorem readParameter_within
    (input : List Lexeme) :
    Within src input Taken.rest (readParameter src input) := by
  refine (readType_within input).bind ?_
  rintro ⟨type, r₁, h₁⟩
  have hlocation := takeLocation?_suffix r₁
  dsimp only
  generalize takeLocation? r₁ = location at hlocation ⊢
  obtain ⟨_, r₂, h₂⟩ := location
  have hindexed := skipKeyword_suffix "indexed" r₂
  dsimp only
  generalize skipKeyword "indexed" r₂ = indexed at hindexed ⊢
  obtain ⟨r₃, h₃⟩ := indexed
  have hname := takeIdentifier?_suffix r₃
  exact (hname.trans hindexed).trans hlocation

/-- Parameters are taken off up to the closing parenthesis. -/
theorem readParametersToClose_within
    (input : List Lexeme) :
    Within src input Taken.rest (readParametersToClose src input) := by
  induction hn : input.length using Nat.strongRecOn generalizing input with
  | ind n ih =>
      subst hn
      rw [readParametersToClose]
      refine (readParameter_within input).bind ?_
      rintro ⟨parameter, rest, h⟩
      dsimp only
      split
      · refine Within.mono ?_ (List.tail_suffix rest)
        exact (ih _ (Reading.lt_of_lt_le h Reading.tail_le) rest.tail rfl).bind
          fun _ => List.suffix_rfl
      · exact (readSymbol_within ")" rest).bind fun _ => List.suffix_rfl

/-- A list of parameters is taken off up to its closing parenthesis; it may be empty. -/
theorem readParameterList_within
    (input : List Lexeme) :
    Within src input Taken.rest (readParameterList src input) := by
  refine (readSymbol_within "(" input).bind ?_
  rintro ⟨_, rest, h⟩
  dsimp only
  split
  · exact List.tail_suffix rest
  · exact (readParametersToClose_within rest).bind fun _ => List.suffix_rfl

theorem readParameters_within
    (input : List Lexeme) :
    Within src input Taken.rest (readParameters src input) :=
  (readParameterList_within input).bind fun _ => List.suffix_rfl

/-- The arguments of an event or error are taken off like parameters. -/
theorem readLocalFields_within
    (input : List Lexeme) :
    Within src input Taken.rest (readLocalFields src input) :=
  (readParameterList_within input).bind fun _ => List.suffix_rfl

end Types

/-! ## Members of a contract -/

section Members

variable {src : SourceText}

/-- The bases of a contract are taken off with the arguments that they are given. -/
theorem readBaseList_within
    (input : List Lexeme) :
    Within src input Taken.rest (readBaseList src input) := by
  induction hn : input.length using Nat.strongRecOn generalizing input with
  | ind n ih =>
      subst hn
      rw [readBaseList]
      refine (readQualifiedName_within "a base name" input).bind ?_
      rintro ⟨name, r₁, h₁⟩
      refine (skipArguments_within "inheritance list" r₁).bind ?_
      rintro ⟨r₂, h₂⟩
      have hbase := Reading.lt_of_lt_le h₁ h₂
      dsimp only
      split
      · refine Within.mono ?_ (List.tail_suffix r₂)
        exact (ih _ (Reading.lt_of_lt_le hbase Reading.tail_le) r₂.tail rfl).bind
          fun _ => List.suffix_rfl
      · exact List.suffix_rfl

/-- A contract without bases leaves the input as it is. -/
theorem readBases_within
    (input : List Lexeme) :
    Within src input leftOver (readBases src input) := by
  rw [readBases]
  split
  · refine Within.mono ?_ (List.tail_suffix input)
    exact (readBaseList_within input.tail).bind fun _ => List.suffix_rfl
  · exact List.suffix_rfl

/-- What follows the type of a state variable is taken off up to the semicolon. -/
theorem readFieldTail_within
    (field : Field)
    (input : List Lexeme) :
    Within src input Taken.rest (readFieldTail src field input) := by
  induction hn : input.length using Nat.strongRecOn generalizing field input with
  | ind n ih =>
      subst hn
      cases input with
      | nil =>
          rw [readFieldTail]
          exact within_expected _
      | cons t rest =>
          rw [readFieldTail]
          split
          · split
            · refine Within.mono ?_ (List.suffix_cons t rest)
              exact (ih _ Reading.rest_lt _ rest rfl).bind fun _ => List.suffix_rfl
            · split
              · refine Within.mono ?_ (List.suffix_cons t rest)
                refine (skipArguments_within "override list" rest).bind ?_
                rintro ⟨next, h⟩
                exact (ih _ (Reading.lt_cons_of_le h) _ next rfl).bind fun _ => List.suffix_rfl
              · refine Within.mono ?_ (List.suffix_cons t rest)
                split
                · exact (ih _ Reading.rest_lt _ rest rfl).bind fun _ => List.suffix_rfl
                · split
                  · refine Within.mono ?_ (List.tail_suffix rest)
                    exact (readRawUntil_within ";" _ rest.tail).bind fun _ => List.suffix_rfl
                  · exact (readSymbol_within ";" rest).bind fun _ => List.suffix_rfl
          · exact within_expected _

/-- A state variable is taken off with its semicolon. -/
theorem readField_within
    (input : List Lexeme) :
    Within src input Taken.rest (readField src input) :=
  (readType_within input).bind fun ⟨_, rest, _⟩ =>
    (readFieldTail_within _ rest).bind fun _ => List.suffix_rfl

/-- The arguments of a word in a header are passed over, if there are any. -/
theorem skipQualifierArguments_within
    (context word : String)
    (input : List Lexeme) :
    Within src input Subtype.val (skipQualifierArguments src context word input) := by
  rw [skipQualifierArguments]
  split
  · exact skipArguments_within _ input
  · split
    · exact List.suffix_rfl
    · exact skipArguments_within _ input

/-- What follows the parameters of a function is taken off up to its body or semicolon. -/
theorem readFunctionTail_within
    (context : String)
    (f : Function)
    (input : List Lexeme) :
    Within src input Taken.rest (readFunctionTail src context f input) := by
  induction hn : input.length using Nat.strongRecOn generalizing f input with
  | ind n ih =>
      subst hn
      cases input with
      | nil =>
          rw [readFunctionTail]
          exact within_unexpectedEnd context
      | cons t rest =>
          rw [readFunctionTail]
          split
          · exact List.suffix_cons t rest
          · exact (skipToClose_within context 0 (t :: rest)).bind fun _ => List.suffix_rfl
          · refine Within.mono ?_ (List.suffix_cons t rest)
            refine (readParameterList_within rest).bind ?_
            rintro ⟨raw, next, h⟩
            exact (ih _ (Reading.lt_cons_of_lt h) _ next rfl).bind fun _ => List.suffix_rfl
          · refine Within.mono ?_ (List.suffix_cons t rest)
            refine (skipQualifierArguments_within context _ rest).bind ?_
            rintro ⟨next, h⟩
            exact (ih _ (Reading.lt_cons_of_le h) _ next rfl).bind fun _ => List.suffix_rfl
          · exact within_expected _

/-- A function is taken off with its body, of which nothing is looked at but the braces. -/
theorem readFunction_within
    (visibility : Visibility)
    (input : List Lexeme) :
    Within src input Taken.rest (readFunction src visibility input) := by
  refine (readIdentifier_within "a function name" input).bind ?_
  rintro ⟨name, r₁, h₁⟩
  refine (readParameters_within r₁).bind ?_
  rintro ⟨parameters, r₂, h₂⟩
  exact (readFunctionTail_within _ _ r₂).bind fun _ => List.suffix_rfl

/-- What follows the name of a modifier is taken off up to its body or semicolon. -/
theorem readModifierTail_within
    (m : Modifier)
    (input : List Lexeme) :
    Within src input Taken.rest (readModifierTail src m input) := by
  induction hn : input.length using Nat.strongRecOn generalizing m input with
  | ind n ih =>
      subst hn
      cases input with
      | nil =>
          rw [readModifierTail]
          exact within_expected _
      | cons t rest =>
          rw [readModifierTail]
          split
          · refine Within.mono ?_ (List.suffix_cons t rest)
            exact (ih _ Reading.rest_lt _ rest rfl).bind fun _ => List.suffix_rfl
          · refine Within.mono ?_ (List.suffix_cons t rest)
            refine (skipArguments_within "override list" rest).bind ?_
            rintro ⟨next, h⟩
            exact (ih _ (Reading.lt_cons_of_le h) _ next rfl).bind fun _ => List.suffix_rfl
          · exact List.suffix_cons t rest
          · exact (skipToClose_within _ 0 (t :: rest)).bind fun _ => List.suffix_rfl
          · exact within_expected _

theorem readModifier_within
    (input : List Lexeme) :
    Within src input Taken.rest (readModifier src input) := by
  refine (readIdentifier_within "a modifier name" input).bind ?_
  rintro ⟨name, r₁, h₁⟩
  dsimp only
  split
  · refine (readParameters_within r₁).bind ?_
    rintro ⟨parameters, r₂, h₂⟩
    exact (readModifierTail_within _ r₂).bind fun _ => List.suffix_rfl
  · exact (readModifierTail_within _ r₁).bind fun _ => List.suffix_rfl

/-- The members of a struct are taken off up to the closing brace. -/
theorem readStructMembers_within
    (context : String)
    (input : List Lexeme) :
    Within src input Taken.rest (readStructMembers src context input) := by
  induction hn : input.length using Nat.strongRecOn generalizing input with
  | ind n ih =>
      subst hn
      cases input with
      | nil =>
          rw [readStructMembers]
          exact within_unexpectedEnd context
      | cons t rest =>
          rw [readStructMembers]
          split
          · exact List.suffix_cons t rest
          · refine (readType_within (t :: rest)).bind ?_
            rintro ⟨type, r₁, h₁⟩
            refine (readIdentifier_within "a struct member name" r₁).bind ?_
            rintro ⟨name, r₂, h₂⟩
            refine (readSymbol_within ";" r₂).bind ?_
            rintro ⟨_, r₃, h₃⟩
            have hlt := Reading.lt_of_lt_lt (Reading.lt_of_lt_lt h₁ h₂) h₃
            exact (ih _ hlt r₃ rfl).bind fun _ => List.suffix_rfl

/-- A struct is taken off with all of its members. -/
theorem readStruct_within
    (input : List Lexeme) :
    Within src input Taken.rest (readStruct src input) := by
  refine (readIdentifier_within "a struct name" input).bind ?_
  rintro ⟨name, r₁, h₁⟩
  refine (readSymbol_within "\x7b" r₁).bind ?_
  rintro ⟨_, r₂, h₂⟩
  exact (readStructMembers_within _ r₂).bind fun _ => List.suffix_rfl

/-- The values of an enum are taken off up to the closing brace. -/
theorem readEnumValues_within
    (input : List Lexeme) :
    Within src input Taken.rest (readEnumValues src input) := by
  induction hn : input.length using Nat.strongRecOn generalizing input with
  | ind n ih =>
      subst hn
      rw [readEnumValues]
      split
      · exact List.tail_suffix input
      · refine (readIdentifier_within "an enum value" input).bind ?_
        rintro ⟨value, r₁, h₁⟩
        dsimp only
        split
        · refine Within.mono ?_ (List.tail_suffix r₁)
          exact (ih _ (Reading.lt_of_lt_le h₁ Reading.tail_le) r₁.tail rfl).bind
            fun _ => List.suffix_rfl
        · exact (readSymbol_within "\x7d" r₁).bind fun _ => List.suffix_rfl

/-- An enum is taken off with all of its values. -/
theorem readEnum_within
    (input : List Lexeme) :
    Within src input Taken.rest (readEnum src input) := by
  refine (readIdentifier_within "an enum name" input).bind ?_
  rintro ⟨name, r₁, h₁⟩
  refine (readSymbol_within "\x7b" r₁).bind ?_
  rintro ⟨_, r₂, h₂⟩
  exact (readEnumValues_within r₂).bind fun _ => List.suffix_rfl

/-- An event is taken off with its semicolon, whether or not it is anonymous. -/
theorem readEvent_within
    (input : List Lexeme) :
    Within src input Taken.rest (readEvent src input) := by
  refine (readIdentifier_within "an event name" input).bind ?_
  rintro ⟨name, r₁, h₁⟩
  refine (readLocalFields_within r₁).bind ?_
  rintro ⟨parameters, r₂, h₂⟩
  have hanonymous := skipKeyword_suffix "anonymous" r₂
  dsimp only
  generalize skipKeyword "anonymous" r₂ = anonymous at hanonymous ⊢
  obtain ⟨r₃, h₃⟩ := anonymous
  refine Within.mono ?_ hanonymous
  exact (readSymbol_within ";" r₃).bind fun _ => List.suffix_rfl

theorem readErrorDefinition_within
    (input : List Lexeme) :
    Within src input Taken.rest (readErrorDefinition src input) := by
  refine (readIdentifier_within "an error name" input).bind ?_
  rintro ⟨name, r₁, h₁⟩
  refine (readLocalFields_within r₁).bind ?_
  rintro ⟨parameters, r₂, h₂⟩
  exact (readSymbol_within ";" r₂).bind fun _ => List.suffix_rfl

end Members

/-! ## Declarations of a file -/

section Declarations

variable {src : SourceText}

/-- A reader that follows a token stays within the input that starts at the token. -/
theorem readAfter_within
    {α : Type} {reader : Reader α}
    (t : Lexeme)
    (wrap : α → Item)
    {rest : List Lexeme}
    (h : Within src rest Taken.rest (reader rest)) :
    Within src (t :: rest) Taken.rest (readAfter t wrap reader rest) := by
  refine Within.mono ?_ (List.suffix_cons t rest)
  exact h.bind fun _ => List.suffix_rfl

theorem readSkipped_within
    (context : String)
    (input : List Lexeme) :
    Within src input Taken.rest (readSkipped src context input) :=
  (skipDeclaration_within context 0 input).bind fun _ => List.suffix_rfl

/-- What stands next in a contract is taken off as a member or passed over. -/
theorem readContractMember_within
    (context : String)
    (input : List Lexeme) :
    Within src input Taken.rest (readContractMember src context input) := by
  cases input with
  | nil =>
      exact within_unexpectedEnd context
  | cons t rest =>
      rw [readContractMember]
      split
      · exact readAfter_within t _ (readFunction_within _ rest)
      · exact readAfter_within t _ (readModifier_within rest)
      · exact readAfter_within t _ (readStruct_within rest)
      · exact readAfter_within t _ (readEnum_within rest)
      · exact readAfter_within t _ (readEvent_within rest)
      · exact readSkipped_within context (t :: rest)
      · exact readSkipped_within context (t :: rest)
      · exact readSkipped_within context (t :: rest)
      · exact readSkipped_within context (t :: rest)
      · split
        · exact readAfter_within t _ (readErrorDefinition_within rest)
        · exact (readField_within (t :: rest)).bind fun _ => List.suffix_rfl

/-- What stands next in an interface is taken off as a member or passed over. -/
theorem readInterfaceMember_within
    (context : String)
    (input : List Lexeme) :
    Within src input Taken.rest (readInterfaceMember src context input) := by
  cases input with
  | nil =>
      exact within_unexpectedEnd context
  | cons t rest =>
      rw [readInterfaceMember]
      split
      · exact readAfter_within t _ (readFunction_within _ rest)
      · exact readAfter_within t _ (readStruct_within rest)
      · exact readAfter_within t _ (readEnum_within rest)
      · exact readAfter_within t _ (readEvent_within rest)
      · exact readAfter_within t _ (readErrorDefinition_within rest)
      · exact readSkipped_within context (t :: rest)

/-- Members are taken off one after the other up to the closing brace. -/
theorem readMembers_within
    {member : Reader Item}
    (hmember : ∀ input, Within src input Taken.rest (member input))
    (context : String)
    (input : List Lexeme) :
    Within src input Taken.rest (readMembers src context member input) := by
  induction hn : input.length using Nat.strongRecOn generalizing input with
  | ind n ih =>
      subst hn
      cases input with
      | nil =>
          rw [readMembers]
          exact within_unexpectedEnd context
      | cons t rest =>
          rw [readMembers]
          split
          · exact List.suffix_cons t rest
          · refine (hmember (t :: rest)).bind ?_
            rintro ⟨item, r₁, h₁⟩
            exact (ih _ h₁ r₁ rfl).bind fun _ => List.suffix_rfl

/-- A contract is taken off with its closing brace. -/
theorem readContract_within
    (isAbstract : Bool)
    (input : List Lexeme) :
    Within src input Taken.rest (readContract src isAbstract input) := by
  refine (readIdentifier_within "a contract name" input).bind ?_
  rintro ⟨name, r₁, h₁⟩
  refine (readBases_within r₁).bind ?_
  rintro ⟨parents, r₂, h₂⟩
  refine (readSymbol_within "\x7b" r₂).bind ?_
  rintro ⟨_, r₃, h₃⟩
  exact (readMembers_within (readContractMember_within _) _ r₃).bind fun _ => List.suffix_rfl

/-- An interface is taken off with its closing brace. -/
theorem readInterface_within
    (input : List Lexeme) :
    Within src input Taken.rest (readInterface src input) := by
  refine (readIdentifier_within "an interface name" input).bind ?_
  rintro ⟨name, r₁, h₁⟩
  refine (readBases_within r₁).bind ?_
  rintro ⟨parents, r₂, h₂⟩
  refine (readSymbol_within "\x7b" r₂).bind ?_
  rintro ⟨_, r₃, h₃⟩
  exact (readMembers_within (readInterfaceMember_within _) _ r₃).bind fun _ => List.suffix_rfl

/-- The path of an import is the first string before the semicolon. -/
theorem readImportPath_within
    (path : Option String)
    (input : List Lexeme) :
    Within src input Taken.rest (readImportPath src path input) := by
  induction input generalizing path with
  | nil =>
      exact within_unexpectedEnd "import"
  | cons t rest ih =>
      rw [readImportPath]
      split
      · exact List.suffix_cons t rest
      · refine Within.mono ?_ (List.suffix_cons t rest)
        exact (ih _).bind fun _ => List.suffix_rfl
      · refine Within.mono ?_ (List.suffix_cons t rest)
        exact (ih _).bind fun _ => List.suffix_rfl

theorem readImport_within
    (input : List Lexeme) :
    Within src input Taken.rest (readImport src input) := by
  have hpath : Within src input Taken.rest (readImportPath src none input) :=
    readImportPath_within none input
  rw [readImport]
  cases hread : readImportPath src none input with
  | error e =>
      rw [hread] at hpath
      exact hpath
  | ok found =>
      rw [hread] at hpath
      obtain ⟨path, rest, h⟩ := found
      cases path with
      | some path =>
          exact hpath
      | none =>
          -- The place is the one where the import began, not where it ends.
          refine FailsAt.expected _ _ ?_
          cases input with
          | nil =>
              exact Or.inl rfl
          | cons t later =>
              exact Or.inr ⟨t, List.mem_cons_self, rfl⟩

/-- A pragma is taken off with its semicolon. -/
theorem readPragma_within
    (input : List Lexeme) :
    Within src input Taken.rest (readPragma src input) := by
  rw [readPragma]
  split
  · refine Within.mono ?_ (List.tail_suffix input)
    exact (readRawUntil_within ";" "pragma" input.tail).bind fun _ => List.suffix_rfl
  · exact readSkipped_within "pragma" input

/-- What stands next at the top of a file is taken off as a definition or passed over. -/
theorem readItem_within
    (input : List Lexeme) :
    Within src input Taken.rest (readItem src input) := by
  cases input with
  | nil =>
      exact within_expected _
  | cons t rest =>
      rw [readItem]
      split
      · exact readAfter_within t _ (readPragma_within rest)
      · exact readAfter_within t _ (readImport_within rest)
      · refine Within.mono ?_ (List.suffix_cons t rest)
        refine (readKeyword_within "contract" rest).bind ?_
        rintro ⟨_, r₁, h₁⟩
        exact (readContract_within true r₁).bind fun _ => List.suffix_rfl
      · exact readAfter_within t _ (readContract_within false rest)
      · exact readAfter_within t _ (readInterface_within rest)
      · exact readAfter_within t _ (readStruct_within rest)
      · exact readAfter_within t _ (readEnum_within rest)
      · exact readAfter_within t _ (readEvent_within rest)
      · exact readAfter_within t _ (readErrorDefinition_within rest)
      · exact readAfter_within t _ (readFunction_within _ rest)
      · exact readSkipped_within _ (t :: rest)
      · exact within_expected _

/-- A list of declarations uses up all tokens, or fails at one of them. -/
theorem readItems_within
    (input : List Lexeme) :
    Within src input (fun _ => []) (readItems src input) := by
  induction hn : input.length using Nat.strongRecOn generalizing input with
  | ind n ih =>
      subst hn
      cases input with
      | nil =>
          rw [readItems]
          exact List.suffix_rfl
      | cons t rest =>
          rw [readItems]
          refine (readItem_within (t :: rest)).bind ?_
          rintro ⟨item, left, h⟩
          exact (ih _ h left rfl).bind fun _ => List.suffix_rfl

end Declarations

/-! ## All readers -/

/-- At least one token is taken off the front, and a failure is at a place of the input. -/
def Advances {α : Type} (src : SourceText) (input : List Lexeme) :
    Except SyntaxError (Taken α input) → Prop
  | .ok taken => ∃ read, read ≠ [] ∧ input = read ++ taken.rest
  | .error e => FailsAt src input e

/-- Progress follows from staying within the input, because a reader leaves fewer tokens. -/
theorem Within.advances
    {α : Type} {src : SourceText} {input : List Lexeme}
    {result : Except SyntaxError (Taken α input)}
    (h : Within src input Taken.rest result) :
    Advances src input result := by
  cases result with
  | error e =>
      exact h
  | ok taken =>
      obtain ⟨read, happ⟩ := h
      refine ⟨read, ?_, happ.symm⟩
      rintro rfl
      exact absurd (congrArg List.length happ) (Nat.ne_of_lt taken.lt)

/-- The readers of the grammar, the loops and recursions among them. -/
inductive GrammarReader (src : SourceText) : {α : Type} → Reader α → Prop
  | symbol (text : String) : GrammarReader src (readSymbol src text)
  | keyword (word : String) : GrammarReader src (readKeyword src word)
  | identifier (what : String) : GrammarReader src (readIdentifier src what)
  | qualifiedName (what : String) : GrammarReader src (readQualifiedName src what)
  | toClose (context : String) (depth : Nat) : GrammarReader src (skipToClose src context depth)
  | declaration (context : String) (depth : Nat) :
      GrammarReader src (skipDeclaration src context depth)
  | close (close context : String) (depth stop : Nat) :
      GrammarReader src (findClose src close context depth stop)
  | rawUntil (close context : String) : GrammarReader src (readRawUntil src close context)
  | type : GrammarReader src (readType src)
  | parameter : GrammarReader src (readParameter src)
  | parametersToClose : GrammarReader src (readParametersToClose src)
  | parameterList : GrammarReader src (readParameterList src)
  | parameters : GrammarReader src (readParameters src)
  | localFields : GrammarReader src (readLocalFields src)
  | baseList : GrammarReader src (readBaseList src)
  | fieldTail (field : Field) : GrammarReader src (readFieldTail src field)
  | field : GrammarReader src (readField src)
  | functionTail (context : String) (f : Function) :
      GrammarReader src (readFunctionTail src context f)
  | function (visibility : Visibility) : GrammarReader src (readFunction src visibility)
  | modifierTail (m : Modifier) : GrammarReader src (readModifierTail src m)
  | modifier : GrammarReader src (readModifier src)
  | structMembers (context : String) : GrammarReader src (readStructMembers src context)
  | struct : GrammarReader src (readStruct src)
  | enumValues : GrammarReader src (readEnumValues src)
  | enumeration : GrammarReader src (readEnum src)
  | event : GrammarReader src (readEvent src)
  | error : GrammarReader src (readErrorDefinition src)
  | skipped (context : String) : GrammarReader src (readSkipped src context)
  | contractMember (context : String) : GrammarReader src (readContractMember src context)
  | interfaceMember (context : String) : GrammarReader src (readInterfaceMember src context)
  | contractMembers (context : String) :
      GrammarReader src (readMembers src context (readContractMember src context))
  | interfaceMembers (context : String) :
      GrammarReader src (readMembers src context (readInterfaceMember src context))
  | contract (isAbstract : Bool) : GrammarReader src (readContract src isAbstract)
  | interface : GrammarReader src (readInterface src)
  | importPath (path : Option String) : GrammarReader src (readImportPath src path)
  | importing : GrammarReader src (readImport src)
  | pragma : GrammarReader src (readPragma src)
  | item : GrammarReader src (readItem src)

/-- Every reader of the grammar stays within its input. -/
theorem GrammarReader.within
    {src : SourceText} {α : Type} {reader : Reader α}
    (h : GrammarReader src reader)
    (input : List Lexeme) :
    Within src input Taken.rest (reader input) := by
  cases h with
  | symbol text =>
      exact readSymbol_within text input
  | keyword word =>
      exact readKeyword_within word input
  | identifier what =>
      exact readIdentifier_within what input
  | qualifiedName what =>
      exact readQualifiedName_within what input
  | toClose context depth =>
      exact skipToClose_within context depth input
  | declaration context depth =>
      exact skipDeclaration_within context depth input
  | close close context depth stop =>
      exact findClose_within close context depth stop input
  | rawUntil close context =>
      exact readRawUntil_within close context input
  | type =>
      exact readType_within input
  | parameter =>
      exact readParameter_within input
  | parametersToClose =>
      exact readParametersToClose_within input
  | parameterList =>
      exact readParameterList_within input
  | parameters =>
      exact readParameters_within input
  | localFields =>
      exact readLocalFields_within input
  | baseList =>
      exact readBaseList_within input
  | fieldTail field =>
      exact readFieldTail_within field input
  | field =>
      exact readField_within input
  | functionTail context f =>
      exact readFunctionTail_within context f input
  | function visibility =>
      exact readFunction_within visibility input
  | modifierTail m =>
      exact readModifierTail_within m input
  | modifier =>
      exact readModifier_within input
  | structMembers context =>
      exact readStructMembers_within context input
  | struct =>
      exact readStruct_within input
  | enumValues =>
      exact readEnumValues_within input
  | enumeration =>
      exact readEnum_within input
  | event =>
      exact readEvent_within input
  | error =>
      exact readErrorDefinition_within input
  | skipped context =>
      exact readSkipped_within context input
  | contractMember context =>
      exact readContractMember_within context input
  | interfaceMember context =>
      exact readInterfaceMember_within context input
  | contractMembers context =>
      exact readMembers_within (readContractMember_within context) context input
  | interfaceMembers context =>
      exact readMembers_within (readInterfaceMember_within context) context input
  | contract isAbstract =>
      exact readContract_within isAbstract input
  | interface =>
      exact readInterface_within input
  | importPath path =>
      exact readImportPath_within path input
  | importing =>
      exact readImport_within input
  | pragma =>
      exact readPragma_within input
  | item =>
      exact readItem_within input

/-- Every reader of the grammar takes off a token, or fails at a place of its input. -/
theorem GrammarReader.advances
    {src : SourceText} {α : Type} {reader : Reader α}
    (h : GrammarReader src reader)
    (input : List Lexeme) :
    Advances src input (reader input) :=
  (h.within input).advances

end Source
end ContractGen
