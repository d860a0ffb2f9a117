import ContractGen.Proofs.SameTokens

/-!
# Reading the same declarations in two texts

The same tokens declare the same in two texts, up to the texts that are kept as they are written:
pragmas, initializers of state variables and sizes of arrays. A view of declarations says what
becomes of these; declarations are the same if they look the same in the view.

**Definitions.**
* `Likeness.View`: what is looked at in types and in texts.
* `SameMember`, `SameItem`: members and declarations that look the same.

**Results.**
* `readFunction_continues`, `readContractMember_continues`: the same tokens declare the same
  members.
* `readMembers_continues`, `readItem_continues`: so do blocks of members and the declarations of a
  file.
-/

namespace ContractGen
namespace Source

open Target

/-! ## Views -/

/-- A view of types and texts that does not tell apart what the same tokens are read as. -/
structure Likeness.View (k : Likeness) where
  type : TypeExpr → TypeExpr
  text : String → String
  type_eq : ∀ {a b : TypeExpr}, k.Alike a b → type a = type b
  text_eq : ∀ {s t : String}, k.SameText s t → text s = text t

section Views

variable {k : Likeness}

/-- A view of a state variable. -/
def Likeness.View.field (v : k.View) (f : Field) : Field :=
  { f with type := v.type f.type, initializer := f.initializer.map v.text }

/-- A view of a contract. -/
def Likeness.View.contract (v : k.View) (c : Contract) : Contract :=
  { c with fields := c.fields.map v.field, definitions := c.definitions.mapTypes v.type }

/-- Members of contracts and interfaces that look the same. -/
inductive SameMember (v : k.View) : Item → Item → Prop
  | field {f f' : Field} (h : v.field f = v.field f') : SameMember v (.field f) (.field f')
  | struct {s s' : Structure} (h : s.mapTypes v.type = s'.mapTypes v.type) :
      SameMember v (.struct s) (.struct s')
  | enumeration (e : Enumeration) : SameMember v (.enumeration e) (.enumeration e)
  | event {e e' : Event} (h : e.mapTypes v.type = e'.mapTypes v.type) :
      SameMember v (.event e) (.event e')
  | error {e e' : ErrorDefinition} (h : e.mapTypes v.type = e'.mapTypes v.type) :
      SameMember v (.error e) (.error e')
  | function {f f' : Function} (h : f.mapTypes v.type = f'.mapTypes v.type) :
      SameMember v (.function f) (.function f')
  | modifier {m m' : Modifier} (h : m.mapTypes v.type = m'.mapTypes v.type) :
      SameMember v (.modifier m) (.modifier m')
  | skipped : SameMember v .skipped .skipped

/-- Declarations of a file that look the same. -/
inductive SameItem (v : k.View) : Item → Item → Prop
  | member {i i' : Item} (h : SameMember v i i') : SameItem v i i'
  | pragma {text text' : String} (h : v.text text = v.text text') :
      SameItem v (.pragma text) (.pragma text')
  | importing (path : String) : SameItem v (.importing path) (.importing path)
  | contract {c c' : Contract} (h : v.contract c = v.contract c') :
      SameItem v (.contract c) (.contract c')
  | interface {i i' : Interface} (h : i.mapTypes v.type = i'.mapTypes v.type) :
      SameItem v (.interface i) (.interface i')

end Views

/-! ## Parameters and bases -/

section Parameters

variable {k : Likeness} {p : Pairing k} {input input' : List Lexeme}

theorem Likeness.AlikeReading.parameterType
    {a b : TypeReading}
    (h : k.AlikeReading a b) :
    k.Alike a.parameterType b.parameterType := by
  rw [TypeReading.parameterType, TypeReading.parameterType, h.payable]
  split
  · exact .payable h.type
  · exact h.type

/-- Alike lists of parameters look the same if alike parameters do. -/
theorem map_eq_of_alike
    {α : Type}
    {f : RawParameter → α}
    {raw raw' : List RawParameter}
    (hf : ∀ a b, k.AlikeParameter a b → f a = f b)
    (h : List.Forall₂ k.AlikeParameter raw raw') :
    raw.map f = raw'.map f := by
  induction h with
  | nil =>
      rfl
  | cons hhead htail ih =>
      rw [List.map_cons, List.map_cons, hf _ _ hhead, ih]

theorem readParameters_continues
    (v : k.View)
    {taken : Taken (List Parameter) input}
    (hs : p.Shares input input')
    (h : readParameters p.src input = .ok taken)
    (hin : p.later.length ≤ taken.rest.length) :
    p.Continues (fun ps ps' =>
      ps.map (Parameter.mapType v.type) = ps'.map (Parameter.mapType v.type)) taken
      (readParameters p.src' input') := by
  obtain ⟨⟨raw, r₁, h₁⟩, hraw, h⟩ := bind_eq_ok_iff.mp h
  cases h
  obtain ⟨⟨raw', r₁', h₁'⟩, hraw', halike, hs⟩ := readParameterList_continues hs hraw hin
  refine .bind hraw' ⟨_, rfl, ?_, hs⟩
  dsimp only
  rw [List.map_map, List.map_map]
  refine map_eq_of_alike (fun a b hab => ?_) halike
  simp only [Function.comp, Parameter.mapType, hab.name, hab.location,
    v.type_eq hab.type.parameterType]

theorem readLocalFields_continues
    (v : k.View)
    {taken : Taken (List LocalField) input}
    (hs : p.Shares input input')
    (h : readLocalFields p.src input = .ok taken)
    (hin : p.later.length ≤ taken.rest.length) :
    p.Continues (fun fs fs' =>
      fs.map (LocalField.mapType v.type) = fs'.map (LocalField.mapType v.type)) taken
      (readLocalFields p.src' input') := by
  obtain ⟨⟨raw, r₁, h₁⟩, hraw, h⟩ := bind_eq_ok_iff.mp h
  cases h
  obtain ⟨⟨raw', r₁', h₁'⟩, hraw', halike, hs⟩ := readParameterList_continues hs hraw hin
  refine .bind hraw' ⟨_, rfl, ?_, hs⟩
  dsimp only
  rw [List.map_map, List.map_map]
  refine map_eq_of_alike (fun a b hab => ?_) halike
  simp only [Function.comp, LocalField.mapType, hab.name, hab.type.payable,
    v.type_eq hab.type.type]

theorem readBaseList_continues
    {taken : Taken (List String) input}
    (hs : p.Shares input input')
    (h : readBaseList p.src input = .ok taken)
    (hin : p.later.length < taken.rest.length) :
    p.Continues Eq taken (readBaseList p.src' input') := by
  obtain ⟨n, hn⟩ : ∃ n, input.length = n := ⟨_, rfl⟩
  induction n using Nat.strongRecOn generalizing input input' with
  | ind n ih =>
      subst hn
      rw [readBaseList] at h ⊢
      obtain ⟨⟨name, r₁, h₁⟩, hname, h⟩ := bind_eq_ok_iff.mp h
      obtain ⟨⟨r₂, h₂⟩, harguments, h⟩ := bind_eq_ok_iff.mp h
      dsimp only at h
      have hfirst (hin₂ : p.later.length < r₂.length) :
          ∃ r₁' h₁' r₂' h₂', readQualifiedName p.src' "a base name" input' = .ok ⟨name, r₁', h₁'⟩ ∧
            skipArguments p.src' "inheritance list" r₁' = .ok ⟨r₂', h₂'⟩ ∧ p.Shares r₂ r₂' := by
        obtain ⟨⟨name', r₁', h₁'⟩, hname', ⟨heq, -⟩, hs₁⟩ :=
          readQualifiedName_continues hs hname (Nat.lt_of_lt_of_le hin₂ h₂)
        obtain ⟨⟨r₂', h₂'⟩, harguments', hs₂⟩ := skipArguments_continues hs₁ harguments hin₂
        dsimp only at heq
        subst heq
        exact ⟨r₁', h₁', r₂', h₂', hname', harguments', hs₂⟩
      split at h
      · rename_i hcomma
        obtain ⟨⟨names, r₃, h₃⟩, hnames, h⟩ := bind_eq_ok_iff.mp h
        cases h
        have hin₂ : p.later.length < r₂.length := Nat.lt_trans hin (Reading.lt_of_lt_tail h₃)
        obtain ⟨r₁', h₁', r₂', h₂', hname', harguments', hs₂⟩ := hfirst hin₂
        refine .bind hname' (.bind harguments' ?_)
        dsimp only
        rw [hs₂.atSymbol hin₂ ",", if_pos hcomma]
        have hlt : r₂.tail.length < input.length :=
          Reading.lt_of_lt_le (Reading.lt_of_lt_le h₁ h₂) Reading.tail_le
        obtain ⟨⟨names', r₃', h₃'⟩, hnames', heq, hs₃⟩ := ih _ hlt (hs₂.tail hin₂) hnames hin rfl
        exact .bind hnames' ⟨_, rfl, congrArg (name :: ·) heq, hs₃⟩
      · rename_i hcomma
        cases h
        obtain ⟨r₁', h₁', r₂', h₂', hname', harguments', hs₂⟩ := hfirst hin
        refine .bind hname' (.bind harguments' ?_)
        dsimp only
        rw [hs₂.atSymbol hin ",", if_neg hcomma]
        exact ⟨_, rfl, rfl, hs₂⟩

theorem readBases_continues
    {names : List String}
    {left : Left input}
    (hs : p.Shares input input')
    (h : readBases p.src input = .ok (names, left))
    (hin : p.later.length < left.1.length) :
    ∃ left', readBases p.src' input' = .ok (names, left') ∧ p.Shares left.1 left'.1 := by
  have hin₀ : p.later.length < input.length := Nat.lt_of_lt_of_le hin left.2
  rw [readBases] at h
  rw [readBases, hs.atKeyword hin₀]
  split at h
  · rename_i his
    obtain ⟨⟨names, rest, hrest⟩, hnames, h⟩ := bind_eq_ok_iff.mp h
    cases h
    obtain ⟨⟨names', rest', hrest'⟩, hnames', rfl, hs₁⟩ :=
      readBaseList_continues (hs.tail hin₀) hnames hin
    refine ⟨⟨rest', Reading.le_of_lt (Reading.lt_of_lt_tail hrest')⟩, ?_, hs₁⟩
    rw [if_pos his]
    exact bind_eq_ok_iff.mpr ⟨_, hnames', rfl⟩
  · rename_i his
    cases h
    exact ⟨.whole input', by rw [if_neg his]; rfl, hs⟩

end Parameters

/-! ## State variables -/

section Fields

variable {k : Likeness} {v : k.View} {p : Pairing k} {input input' : List Lexeme}

theorem readFieldTail_continues
    {f f' : Field}
    {taken : Taken Field input}
    (hs : p.Shares input input')
    (hf : v.field f = v.field f')
    (h : readFieldTail p.src f input = .ok taken)
    (hin : p.later.length ≤ taken.rest.length) :
    p.Continues (fun f f' => v.field f = v.field f') taken (readFieldTail p.src' f' input') := by
  obtain ⟨n, hn⟩ : ∃ n, input.length = n := ⟨_, rfl⟩
  induction n using Nat.strongRecOn generalizing f f' input input' with
  | ind n ih =>
      subst hn
      obtain ⟨t, rest, t', rest', rfl, rfl, htoken, hrest⟩ :=
        hs.uncons (Nat.lt_of_le_of_lt hin taken.lt)
      rw [readFieldTail] at h ⊢
      rw [htoken]
      split at h
      · split at h
        · rename_i visibility _
          obtain ⟨⟨f₁, left, hleft⟩, htail, h⟩ := bind_eq_ok_iff.mp h
          cases h
          have hwith : v.field { f with visibility } = v.field { f' with visibility } :=
            congrArg (fun g : Field => { g with visibility }) hf
          obtain ⟨⟨f₁', left', hleft'⟩, htail', hsame, hs₁⟩ :=
            ih _ Reading.rest_lt hrest hwith htail hin rfl
          exact .bind htail' ⟨_, rfl, hsame, hs₁⟩
        · split at h
          · rename_i hoverride
            rw [if_pos hoverride]
            obtain ⟨⟨next, hnext⟩, harguments, h⟩ := bind_eq_ok_iff.mp h
            obtain ⟨⟨f₁, left, hleft⟩, htail, h⟩ := bind_eq_ok_iff.mp h
            cases h
            obtain ⟨⟨next', hnext'⟩, harguments', hs₁⟩ :=
              skipArguments_continues hrest harguments (Nat.lt_of_le_of_lt hin hleft)
            obtain ⟨⟨f₁', left', hleft'⟩, htail', hsame, hs₂⟩ :=
              ih _ (Reading.lt_cons_of_le hnext) hs₁ hf htail hin rfl
            exact .bind harguments' (.bind htail' ⟨_, rfl, hsame, hs₂⟩)
          · rename_i hoverride
            rw [if_neg hoverride]
            split at h
            · rename_i hmark
              rw [if_pos hmark]
              obtain ⟨⟨f₁, left, hleft⟩, htail, h⟩ := bind_eq_ok_iff.mp h
              cases h
              obtain ⟨⟨f₁', left', hleft'⟩, htail', hsame, hs₁⟩ :=
                ih _ Reading.rest_lt hrest hf htail hin rfl
              exact .bind htail' ⟨_, rfl, hsame, hs₁⟩
            · rename_i word _ _ _ hmark
              rw [if_neg hmark]
              split at h
              · rename_i hequals
                obtain ⟨⟨value, left, hleft⟩, hvalue, h⟩ := bind_eq_ok_iff.mp h
                cases h
                have hin₁ : p.later.length < rest.length :=
                  Nat.lt_of_le_of_lt hin (Reading.lt_of_lt_tail hleft)
                rw [hrest.atSymbol hin₁ "=", if_pos hequals]
                obtain ⟨⟨value', left', hleft'⟩, hvalue', hsame, hs₁⟩ :=
                  readRawUntil_continues (hrest.tail hin₁) hvalue hin
                have hwith : v.field { f with name := word, initializer := some value } =
                    v.field { f' with name := word, initializer := some value' } := by
                  change { v.field f with name := word, initializer := some (v.text value) } =
                    { v.field f' with name := word, initializer := some (v.text value') }
                  rw [hf, v.text_eq hsame]
                exact .bind hvalue' ⟨_, rfl, hwith, hs₁⟩
              · rename_i hequals
                obtain ⟨⟨_, left, hleft⟩, hend, h⟩ := bind_eq_ok_iff.mp h
                cases h
                rw [hrest.atSymbol (Nat.lt_of_le_of_lt hin hleft) "=", if_neg hequals]
                obtain ⟨⟨_, left', hleft'⟩, hend', -, hs₁⟩ := readSymbol_continues hrest hend hin
                have hwith : v.field { f with name := word } = v.field { f' with name := word } :=
                  congrArg (fun g : Field => { g with name := word }) hf
                exact .bind hend' ⟨_, rfl, hwith, hs₁⟩
      · cases h

theorem readField_continues
    {taken : Taken Field input}
    (hs : p.Shares input input')
    (h : readField p.src input = .ok taken)
    (hin : p.later.length ≤ taken.rest.length) :
    p.Continues (fun f f' => v.field f = v.field f') taken (readField p.src' input') := by
  obtain ⟨⟨type, r₁, h₁⟩, htype, h⟩ := bind_eq_ok_iff.mp h
  obtain ⟨⟨f, r₂, h₂⟩, htail, h⟩ := bind_eq_ok_iff.mp h
  cases h
  obtain ⟨⟨type', r₁', h₁'⟩, htype', halike, hs₁⟩ :=
    readType_continues hs htype (Nat.lt_of_le_of_lt hin h₂)
  have hfield :
      v.field
          { name := "", type := type.type, visibility := .internally, payable := type.payable } =
        v.field
          { name := "", type := type'.type, visibility := .internally, payable := type'.payable } := by
    dsimp only at halike
    simp only [Likeness.View.field, v.type_eq halike.type, halike.payable]
  obtain ⟨⟨f', r₂', h₂'⟩, htail', hsame, hs₂⟩ := readFieldTail_continues hs₁ hfield htail hin
  exact .bind htype' (.bind htail' ⟨_, rfl, hsame, hs₂⟩)

end Fields

/-! ## Functions and modifiers -/

section Functions

variable {k : Likeness} {v : k.View} {p : Pairing k} {input input' : List Lexeme}

theorem skipQualifierArguments_shares
    {context word : String}
    {left : Left input}
    (hs : p.Shares input input')
    (hsymbol : atSymbol "(" input' = atSymbol "(" input)
    (h : skipQualifierArguments p.src context word input = .ok left)
    (hin : p.later.length ≤ left.1.length) :
    ∃ left', skipQualifierArguments p.src' context word input' = .ok left' ∧
      p.Shares left.1 left'.1 := by
  rw [skipQualifierArguments] at h ⊢
  split at h
  · rename_i hoverride
    rw [if_pos hoverride]
    exact skipArguments_shares hs hsymbol h hin
  · rename_i hoverride
    rw [if_neg hoverride]
    split at h
    · rename_i hplain
      rw [if_pos hplain]
      cases h
      exact ⟨_, rfl, hs⟩
    · rename_i hplain
      rw [if_neg hplain]
      exact skipArguments_shares hs hsymbol h hin

theorem qualify_mapTypes
    (type : TypeExpr → TypeExpr)
    (f : Function)
    (word : String) :
    (qualify f word).mapTypes type = qualify (f.mapTypes type) word := by
  unfold qualify
  split_ifs <;> rfl

theorem mapTypes_returns
    {type : TypeExpr → TypeExpr}
    {f f' : Function}
    {returns returns' : List TypeExpr}
    (hf : f.mapTypes type = f'.mapTypes type)
    (hreturns : returns.map type = returns'.map type) :
    Function.mapTypes type { f with returns } =
      Function.mapTypes type { f' with returns := returns' } := by
  calc Function.mapTypes type { f with returns }
      = { f'.mapTypes type with returns := returns.map type } :=
        congrArg (fun g : Function => { g with returns := returns.map type }) hf
    _ = { f'.mapTypes type with returns := returns'.map type } := by rw [hreturns]

/-- Return values of alike types look the same. -/
theorem returns_eq_of_alike
    {raw raw' : List RawParameter}
    (h : List.Forall₂ k.AlikeParameter raw raw') :
    (raw.map fun q => q.type.parameterType).map v.type =
      (raw'.map fun q => q.type.parameterType).map v.type := by
  rw [List.map_map, List.map_map]
  exact map_eq_of_alike (fun a b hab => v.type_eq hab.type.parameterType) h

/--
What follows the parameters of a function is read alike in both texts, qualifier by qualifier, with
the bodies skipped.
-/
theorem readFunctionTail_continues
    {context : String}
    {f f' : Function}
    {taken : Taken Function input}
    (hs : p.Shares input input')
    (hf : f.mapTypes v.type = f'.mapTypes v.type)
    (h : readFunctionTail p.src context f input = .ok taken)
    (hin : p.later.length ≤ taken.rest.length) :
    p.Continues (fun f f' => f.mapTypes v.type = f'.mapTypes v.type) taken
      (readFunctionTail p.src' context f' input') := by
  obtain ⟨n, hn⟩ : ∃ n, input.length = n := ⟨_, rfl⟩
  induction n using Nat.strongRecOn generalizing f f' input input' with
  | ind n ih =>
      subst hn
      obtain ⟨t, rest, t', rest', rfl, rfl, htoken, hrest⟩ :=
        hs.uncons (Nat.lt_of_le_of_lt hin taken.lt)
      rw [readFunctionTail] at h ⊢
      rw [htoken]
      split at h
      · cases h
        exact ⟨_, rfl, hf, hrest⟩
      · obtain ⟨⟨_, left, hleft⟩, hskip, h⟩ := bind_eq_ok_iff.mp h
        cases h
        obtain ⟨⟨_, left', hleft'⟩, hskip', -, hs₁⟩ := skipToClose_continues hs hskip hin
        exact .bind hskip' ⟨_, rfl, hf, hs₁⟩
      · obtain ⟨⟨raw, next, hnext⟩, hraw, h⟩ := bind_eq_ok_iff.mp h
        obtain ⟨⟨f₁, left, hleft⟩, htail, h⟩ := bind_eq_ok_iff.mp h
        cases h
        obtain ⟨⟨raw', next', hnext'⟩, hraw', halike, hs₁⟩ :=
          readParameterList_continues hrest hraw (Nat.le_trans hin (Nat.le_of_lt hleft))
        have hwith : Function.mapTypes v.type
              { f with returns := raw.map fun q => q.type.parameterType } =
            Function.mapTypes v.type
              { f' with returns := raw'.map fun q => q.type.parameterType } :=
          mapTypes_returns hf (returns_eq_of_alike halike)
        obtain ⟨⟨f₁', left', hleft'⟩, htail', hsame, hs₂⟩ :=
          ih _ (Reading.lt_cons_of_lt hnext) hs₁ hwith htail hin rfl
        exact .bind hraw' (.bind htail' ⟨_, rfl, hsame, hs₂⟩)
      · rename_i word _ _
        obtain ⟨⟨next, hnext⟩, harguments, h⟩ := bind_eq_ok_iff.mp h
        obtain ⟨⟨f₁, left, hleft⟩, htail, h⟩ := bind_eq_ok_iff.mp h
        cases h
        have hin₁ : p.later.length < next.length := Nat.lt_of_le_of_lt hin hleft
        obtain ⟨⟨next', hnext'⟩, harguments', hs₁⟩ :=
          skipQualifierArguments_shares hrest
            (hrest.atSymbol (Nat.lt_of_lt_of_le hin₁ hnext) "(") harguments (Nat.le_of_lt hin₁)
        have hqualify : (qualify f word).mapTypes v.type = (qualify f' word).mapTypes v.type := by
          rw [qualify_mapTypes, qualify_mapTypes, hf]
        obtain ⟨⟨f₁', left', hleft'⟩, htail', hsame, hs₂⟩ :=
          ih _ (Reading.lt_cons_of_le hnext) hs₁ hqualify htail hin rfl
        exact .bind harguments' (.bind htail' ⟨_, rfl, hsame, hs₂⟩)
      · cases h

/-- A function is read alike in both texts up to its body. -/
theorem readFunction_continues
    {visibility : Visibility}
    {taken : Taken Function input}
    (hs : p.Shares input input')
    (h : readFunction p.src visibility input = .ok taken)
    (hin : p.later.length ≤ taken.rest.length) :
    p.Continues (fun f f' => f.mapTypes v.type = f'.mapTypes v.type) taken
      (readFunction p.src' visibility input') := by
  obtain ⟨⟨name, r₁, h₁⟩, hname, h⟩ := bind_eq_ok_iff.mp h
  obtain ⟨⟨parameters, r₂, h₂⟩, hparameters, h⟩ := bind_eq_ok_iff.mp h
  obtain ⟨⟨f, r₃, h₃⟩, htail, h⟩ := bind_eq_ok_iff.mp h
  cases h
  have hin₂ : p.later.length ≤ r₂.length := Nat.le_trans hin (Nat.le_of_lt h₃)
  have hin₁ : p.later.length ≤ r₁.length := Nat.le_trans hin₂ (Nat.le_of_lt h₂)
  obtain ⟨⟨name', r₁', h₁'⟩, hname', heq, hs₁⟩ := readIdentifier_continues hs hname hin₁
  obtain ⟨⟨parameters', r₂', h₂'⟩, hparameters', hsame, hs₂⟩ :=
    readParameters_continues v hs₁ hparameters hin₂
  dsimp only at heq hsame
  subst heq
  have hstart : Function.mapTypes v.type { name, visibility, parameters } =
      Function.mapTypes v.type { name, visibility, parameters := parameters' } := by
    simp only [Function.mapTypes, hsame]
  obtain ⟨⟨f', r₃', h₃'⟩, htail', hfun, hs₃⟩ := readFunctionTail_continues hs₂ hstart htail hin
  exact .bind hname' (.bind hparameters' (.bind htail' ⟨_, rfl, hfun, hs₃⟩))

theorem mapTypes_isVirtual
    {type : TypeExpr → TypeExpr}
    {m m' : Modifier}
    (h : m.mapTypes type = m'.mapTypes type) :
    Modifier.mapTypes type { m with isVirtual := true } =
      Modifier.mapTypes type { m' with isVirtual := true } :=
  congrArg (fun g : Modifier => { g with isVirtual := true }) h

theorem mapTypes_isOverride
    {type : TypeExpr → TypeExpr}
    {m m' : Modifier}
    (h : m.mapTypes type = m'.mapTypes type) :
    Modifier.mapTypes type { m with isOverride := true } =
      Modifier.mapTypes type { m' with isOverride := true } :=
  congrArg (fun g : Modifier => { g with isOverride := true }) h

theorem readModifierTail_continues
    {m m' : Modifier}
    {taken : Taken Modifier input}
    (hs : p.Shares input input')
    (hm : m.mapTypes v.type = m'.mapTypes v.type)
    (h : readModifierTail p.src m input = .ok taken)
    (hin : p.later.length ≤ taken.rest.length) :
    p.Continues (fun m m' => m.mapTypes v.type = m'.mapTypes v.type) taken
      (readModifierTail p.src' m' input') := by
  obtain ⟨n, hn⟩ : ∃ n, input.length = n := ⟨_, rfl⟩
  induction n using Nat.strongRecOn generalizing m m' input input' with
  | ind n ih =>
      subst hn
      obtain ⟨t, rest, t', rest', rfl, rfl, htoken, hrest⟩ :=
        hs.uncons (Nat.lt_of_le_of_lt hin taken.lt)
      rw [readModifierTail] at h ⊢
      rw [htoken]
      split at h
      · obtain ⟨⟨m₁, left, hleft⟩, htail, h⟩ := bind_eq_ok_iff.mp h
        cases h
        obtain ⟨⟨m₁', left', hleft'⟩, htail', hsame, hs₁⟩ :=
          ih _ Reading.rest_lt hrest (mapTypes_isVirtual hm) htail hin rfl
        exact .bind htail' ⟨_, rfl, hsame, hs₁⟩
      · obtain ⟨⟨next, hnext⟩, harguments, h⟩ := bind_eq_ok_iff.mp h
        obtain ⟨⟨m₁, left, hleft⟩, htail, h⟩ := bind_eq_ok_iff.mp h
        cases h
        obtain ⟨⟨next', hnext'⟩, harguments', hs₁⟩ :=
          skipArguments_continues hrest harguments (Nat.lt_of_le_of_lt hin hleft)
        obtain ⟨⟨m₁', left', hleft'⟩, htail', hsame, hs₂⟩ :=
          ih _ (Reading.lt_cons_of_le hnext) hs₁ (mapTypes_isOverride hm) htail hin rfl
        exact .bind harguments' (.bind htail' ⟨_, rfl, hsame, hs₂⟩)
      · cases h
        exact ⟨_, rfl, hm, hrest⟩
      · obtain ⟨⟨_, left, hleft⟩, hskip, h⟩ := bind_eq_ok_iff.mp h
        cases h
        have hname : m'.name = m.name := (congrArg Modifier.name hm).symm
        obtain ⟨⟨_, left', hleft'⟩, hskip', -, hs₁⟩ := skipToClose_continues hs hskip hin
        rw [hname]
        exact .bind hskip' ⟨_, rfl, hm, hs₁⟩
      · cases h

/-- A modifier is read alike in both texts up to its body. -/
theorem readModifier_continues
    {taken : Taken Modifier input}
    (hs : p.Shares input input')
    (h : readModifier p.src input = .ok taken)
    (hin : p.later.length ≤ taken.rest.length) :
    p.Continues (fun m m' => m.mapTypes v.type = m'.mapTypes v.type) taken
      (readModifier p.src' input') := by
  obtain ⟨⟨name, r₁, h₁⟩, hname, h⟩ := bind_eq_ok_iff.mp h
  dsimp only at h
  split at h
  · rename_i hopen
    obtain ⟨⟨parameters, r₂, h₂⟩, hparameters, h⟩ := bind_eq_ok_iff.mp h
    obtain ⟨⟨m, r₃, h₃⟩, htail, h⟩ := bind_eq_ok_iff.mp h
    cases h
    have hin₂ : p.later.length ≤ r₂.length := Nat.le_trans hin (Nat.le_of_lt h₃)
    have hin₁ : p.later.length < r₁.length := Nat.lt_of_le_of_lt hin₂ h₂
    obtain ⟨⟨name', r₁', h₁'⟩, hname', heq, hs₁⟩ :=
      readIdentifier_continues hs hname (Nat.le_of_lt hin₁)
    obtain ⟨⟨parameters', r₂', h₂'⟩, hparameters', hsame, hs₂⟩ :=
      readParameters_continues v hs₁ hparameters hin₂
    dsimp only at heq hsame
    subst heq
    have hstart : Modifier.mapTypes v.type { name, parameters } =
        Modifier.mapTypes v.type { name, parameters := parameters' } := by
      simp only [Modifier.mapTypes, hsame]
    obtain ⟨⟨m', r₃', h₃'⟩, htail', hmod, hs₃⟩ := readModifierTail_continues hs₂ hstart htail hin
    refine .bind hname' ?_
    dsimp only
    rw [hs₁.atSymbol hin₁ "(", if_pos hopen]
    exact .bind hparameters' (.bind htail' ⟨_, rfl, hmod, hs₃⟩)
  · rename_i hopen
    obtain ⟨⟨m, r₂, h₂⟩, htail, h⟩ := bind_eq_ok_iff.mp h
    cases h
    have hin₁ : p.later.length < r₁.length := Nat.lt_of_le_of_lt hin h₂
    obtain ⟨⟨name', r₁', h₁'⟩, hname', heq, hs₁⟩ :=
      readIdentifier_continues hs hname (Nat.le_of_lt hin₁)
    dsimp only at heq
    subst heq
    obtain ⟨⟨m', r₂', h₂'⟩, htail', hmod, hs₂⟩ := readModifierTail_continues hs₁ rfl htail hin
    refine .bind hname' ?_
    dsimp only
    rw [hs₁.atSymbol hin₁ "(", if_neg hopen]
    exact .bind htail' ⟨_, rfl, hmod, hs₂⟩

end Functions

/-! ## Structs, enums, events and errors -/

section Data

variable {k : Likeness} {v : k.View} {p : Pairing k} {input input' : List Lexeme}

/-- The members of a struct are read alike in both texts, one after the other. -/
theorem readStructMembers_continues
    {context : String}
    {taken : Taken (List LocalField) input}
    (hs : p.Shares input input')
    (h : readStructMembers p.src context input = .ok taken)
    (hin : p.later.length ≤ taken.rest.length) :
    p.Continues (fun fs fs' =>
      fs.map (LocalField.mapType v.type) = fs'.map (LocalField.mapType v.type)) taken
      (readStructMembers p.src' context input') := by
  obtain ⟨n, hn⟩ : ∃ n, input.length = n := ⟨_, rfl⟩
  induction n using Nat.strongRecOn generalizing input input' with
  | ind n ih =>
      subst hn
      obtain ⟨t, rest, t', rest', rfl, rfl, htoken, hrest⟩ :=
        hs.uncons (Nat.lt_of_le_of_lt hin taken.lt)
      rw [readStructMembers] at h ⊢
      rw [htoken]
      split at h
      · rename_i hclose
        rw [if_pos hclose]
        cases h
        exact ⟨_, rfl, rfl, hrest⟩
      · rename_i hclose
        rw [if_neg hclose]
        obtain ⟨⟨type, r₁, h₁⟩, htype, h⟩ := bind_eq_ok_iff.mp h
        obtain ⟨⟨name, r₂, h₂⟩, hname, h⟩ := bind_eq_ok_iff.mp h
        obtain ⟨⟨_, r₃, h₃⟩, hend, h⟩ := bind_eq_ok_iff.mp h
        obtain ⟨⟨fields, r₄, h₄⟩, hfields, h⟩ := bind_eq_ok_iff.mp h
        cases h
        have hin₃ : p.later.length ≤ r₃.length := Nat.le_trans hin (Nat.le_of_lt h₄)
        have hin₂ : p.later.length ≤ r₂.length := Nat.le_trans hin₃ (Nat.le_of_lt h₃)
        obtain ⟨⟨type', r₁', h₁'⟩, htype', halike, hs₁⟩ :=
          readType_continues hs htype (Nat.lt_of_le_of_lt hin₂ h₂)
        obtain ⟨⟨name', r₂', h₂'⟩, hname', heq, hs₂⟩ := readIdentifier_continues hs₁ hname hin₂
        obtain ⟨⟨_, r₃', h₃'⟩, hend', -, hs₃⟩ := readSymbol_continues hs₂ hend hin₃
        have hlt : r₃.length < (t :: rest).length :=
          Reading.lt_of_lt_lt (Reading.lt_of_lt_lt h₁ h₂) h₃
        obtain ⟨⟨fields', r₄', h₄'⟩, hfields', hsame, hs₄⟩ := ih _ hlt hs₃ hfields hin rfl
        refine .bind htype' (.bind hname' (.bind hend' (.bind hfields' ⟨_, rfl, ?_, hs₄⟩)))
        dsimp only at halike heq hsame ⊢
        rw [List.map_cons, List.map_cons, hsame]
        simp only [LocalField.mapType, heq, v.type_eq halike.type, halike.payable]

theorem readStruct_continues
    {taken : Taken Structure input}
    (hs : p.Shares input input')
    (h : readStruct p.src input = .ok taken)
    (hin : p.later.length ≤ taken.rest.length) :
    p.Continues (fun s s' => s.mapTypes v.type = s'.mapTypes v.type) taken
      (readStruct p.src' input') := by
  obtain ⟨⟨name, r₁, h₁⟩, hname, h⟩ := bind_eq_ok_iff.mp h
  obtain ⟨⟨_, r₂, h₂⟩, hopen, h⟩ := bind_eq_ok_iff.mp h
  obtain ⟨⟨fields, r₃, h₃⟩, hfields, h⟩ := bind_eq_ok_iff.mp h
  cases h
  have hin₂ : p.later.length ≤ r₂.length := Nat.le_trans hin (Nat.le_of_lt h₃)
  have hin₁ : p.later.length ≤ r₁.length := Nat.le_trans hin₂ (Nat.le_of_lt h₂)
  obtain ⟨⟨name', r₁', h₁'⟩, hname', heq, hs₁⟩ := readIdentifier_continues hs hname hin₁
  dsimp only at heq
  subst heq
  obtain ⟨⟨_, r₂', h₂'⟩, hopen', -, hs₂⟩ := readSymbol_continues hs₁ hopen hin₂
  obtain ⟨⟨fields', r₃', h₃'⟩, hfields', hsame, hs₃⟩ :=
    readStructMembers_continues (v := v) hs₂ hfields hin
  refine .bind hname' (.bind hopen' (.bind hfields' ⟨_, rfl, ?_, hs₃⟩))
  simp only [Structure.mapTypes, hsame]

theorem readEnumValues_continues
    {taken : Taken (List String) input}
    (hs : p.Shares input input')
    (h : readEnumValues p.src input = .ok taken)
    (hin : p.later.length ≤ taken.rest.length) :
    p.Continues Eq taken (readEnumValues p.src' input') := by
  obtain ⟨n, hn⟩ : ∃ n, input.length = n := ⟨_, rfl⟩
  induction n using Nat.strongRecOn generalizing input input' with
  | ind n ih =>
      subst hn
      have hin₀ : p.later.length < input.length := Nat.lt_of_le_of_lt hin taken.lt
      rw [readEnumValues] at h ⊢
      split at h
      · rename_i hclose
        cases h
        rw [dif_pos ((hs.atSymbol hin₀ _).trans hclose)]
        exact ⟨_, rfl, rfl, hs.tail hin₀⟩
      · rename_i hclose
        rw [dif_neg (by rw [hs.atSymbol hin₀]; exact hclose)]
        obtain ⟨⟨value, r₁, h₁⟩, hvalue, h⟩ := bind_eq_ok_iff.mp h
        dsimp only at h
        split at h
        · rename_i hcomma
          obtain ⟨⟨values, r₂, h₂⟩, hvalues, h⟩ := bind_eq_ok_iff.mp h
          cases h
          have hin₁ : p.later.length < r₁.length := Nat.lt_of_le_of_lt hin (Reading.lt_of_lt_tail h₂)
          obtain ⟨⟨value', r₁', h₁'⟩, hvalue', heq, hs₁⟩ :=
            readIdentifier_continues hs hvalue (Nat.le_of_lt hin₁)
          refine .bind hvalue' ?_
          dsimp only at heq hs₁ ⊢
          rw [hs₁.atSymbol hin₁ ",", if_pos hcomma]
          obtain ⟨⟨values', r₂', h₂'⟩, hvalues', heqs, hs₂⟩ :=
            ih _ (Reading.lt_of_lt_le h₁ Reading.tail_le) (hs₁.tail hin₁) hvalues hin rfl
          exact .bind hvalues' ⟨_, rfl, congr (congrArg List.cons heq) heqs, hs₂⟩
        · rename_i hcomma
          obtain ⟨⟨_, r₂, h₂⟩, hend, h⟩ := bind_eq_ok_iff.mp h
          cases h
          have hin₁ : p.later.length < r₁.length := Nat.lt_of_le_of_lt hin h₂
          obtain ⟨⟨value', r₁', h₁'⟩, hvalue', heq, hs₁⟩ :=
            readIdentifier_continues hs hvalue (Nat.le_of_lt hin₁)
          refine .bind hvalue' ?_
          dsimp only at heq hs₁ ⊢
          rw [hs₁.atSymbol hin₁ ",", if_neg hcomma]
          obtain ⟨⟨_, r₂', h₂'⟩, hend', -, hs₂⟩ := readSymbol_continues hs₁ hend hin
          exact .bind hend' ⟨_, rfl, congrArg (fun value => [value]) heq, hs₂⟩

theorem readEnum_continues
    {taken : Taken Enumeration input}
    (hs : p.Shares input input')
    (h : readEnum p.src input = .ok taken)
    (hin : p.later.length ≤ taken.rest.length) :
    p.Continues Eq taken (readEnum p.src' input') := by
  obtain ⟨⟨name, r₁, h₁⟩, hname, h⟩ := bind_eq_ok_iff.mp h
  obtain ⟨⟨_, r₂, h₂⟩, hopen, h⟩ := bind_eq_ok_iff.mp h
  obtain ⟨⟨values, r₃, h₃⟩, hvalues, h⟩ := bind_eq_ok_iff.mp h
  cases h
  have hin₂ : p.later.length ≤ r₂.length := Nat.le_trans hin (Nat.le_of_lt h₃)
  have hin₁ : p.later.length ≤ r₁.length := Nat.le_trans hin₂ (Nat.le_of_lt h₂)
  obtain ⟨⟨name', r₁', h₁'⟩, hname', heq, hs₁⟩ := readIdentifier_continues hs hname hin₁
  obtain ⟨⟨_, r₂', h₂'⟩, hopen', -, hs₂⟩ := readSymbol_continues hs₁ hopen hin₂
  obtain ⟨⟨values', r₃', h₃'⟩, hvalues', heqs, hs₃⟩ := readEnumValues_continues hs₂ hvalues hin
  exact .bind hname' (.bind hopen' (.bind hvalues'
    ⟨_, rfl, congr (congrArg Enumeration.mk heq) heqs, hs₃⟩))

theorem readEvent_continues
    {taken : Taken Event input}
    (hs : p.Shares input input')
    (h : readEvent p.src input = .ok taken)
    (hin : p.later.length ≤ taken.rest.length) :
    p.Continues (fun e e' => e.mapTypes v.type = e'.mapTypes v.type) taken
      (readEvent p.src' input') := by
  obtain ⟨⟨name, r₁, h₁⟩, hname, h⟩ := bind_eq_ok_iff.mp h
  obtain ⟨⟨parameters, r₂, h₂⟩, hparameters, h⟩ := bind_eq_ok_iff.mp h
  dsimp only at h
  generalize hanonymous : skipKeyword "anonymous" r₂ = anonymous at h
  obtain ⟨r₃, h₃⟩ := anonymous
  obtain ⟨⟨_, r₄, h₄⟩, hend, h⟩ := bind_eq_ok_iff.mp h
  cases h
  have hin₃ : p.later.length < r₃.length := Nat.lt_of_le_of_lt hin h₄
  have hin₂ : p.later.length < r₂.length := Nat.lt_of_lt_of_le hin₃ h₃
  have hin₁ : p.later.length < r₁.length := Nat.lt_trans hin₂ h₂
  obtain ⟨⟨name', r₁', h₁'⟩, hname', heq, hs₁⟩ :=
    readIdentifier_continues hs hname (Nat.le_of_lt hin₁)
  obtain ⟨⟨parameters', r₂', h₂'⟩, hparameters', hsame, hs₂⟩ :=
    readLocalFields_continues v hs₁ hparameters (Nat.le_of_lt hin₂)
  refine .bind hname' (.bind hparameters' ?_)
  have hs₃ := skipKeyword_shares hs₂ hin₂ "anonymous"
  rw [hanonymous] at hs₃
  dsimp only at heq hsame hs₃ ⊢
  generalize skipKeyword "anonymous" r₂' = anonymous' at hs₃ ⊢
  obtain ⟨r₃', h₃'⟩ := anonymous'
  obtain ⟨⟨_, r₄', h₄'⟩, hend', -, hs₄⟩ := readSymbol_continues hs₃ hend hin
  refine .bind hend' ⟨_, rfl, ?_, hs₄⟩
  simp only [Event.mapTypes, heq, hsame]

theorem readErrorDefinition_continues
    {taken : Taken ErrorDefinition input}
    (hs : p.Shares input input')
    (h : readErrorDefinition p.src input = .ok taken)
    (hin : p.later.length ≤ taken.rest.length) :
    p.Continues (fun e e' => e.mapTypes v.type = e'.mapTypes v.type) taken
      (readErrorDefinition p.src' input') := by
  obtain ⟨⟨name, r₁, h₁⟩, hname, h⟩ := bind_eq_ok_iff.mp h
  obtain ⟨⟨parameters, r₂, h₂⟩, hparameters, h⟩ := bind_eq_ok_iff.mp h
  obtain ⟨⟨_, r₃, h₃⟩, hend, h⟩ := bind_eq_ok_iff.mp h
  cases h
  have hin₂ : p.later.length ≤ r₂.length := Nat.le_trans hin (Nat.le_of_lt h₃)
  have hin₁ : p.later.length ≤ r₁.length := Nat.le_trans hin₂ (Nat.le_of_lt h₂)
  obtain ⟨⟨name', r₁', h₁'⟩, hname', heq, hs₁⟩ := readIdentifier_continues hs hname hin₁
  obtain ⟨⟨parameters', r₂', h₂'⟩, hparameters', hsame, hs₂⟩ :=
    readLocalFields_continues v hs₁ hparameters hin₂
  obtain ⟨⟨_, r₃', h₃'⟩, hend', -, hs₃⟩ := readSymbol_continues hs₂ hend hin
  refine .bind hname' (.bind hparameters' (.bind hend' ⟨_, rfl, ?_, hs₃⟩))
  dsimp only at heq hsame ⊢
  simp only [ErrorDefinition.mapTypes, heq, hsame]

end Data

/-! ## Members -/

section Members

variable {k : Likeness} {v : k.View} {p : Pairing k} {input input' : List Lexeme}

/-- What follows a keyword is read as the same, and so is the item that begins with the keyword. -/
theorem readAfter_continues
    {α : Type}
    {Same : α → α → Prop}
    {SameItems : Item → Item → Prop}
    {wrap : α → Item}
    {reader reader' : Reader α}
    {t t' : Lexeme}
    {rest rest' : List Lexeme}
    {taken : Taken Item (t :: rest)}
    (hwrap : ∀ a b, Same a b → SameItems (wrap a) (wrap b))
    (hreader : ∀ own : Taken α rest, reader rest = .ok own → p.later.length ≤ own.rest.length →
      p.Continues Same own (reader' rest'))
    (h : readAfter t wrap reader rest = .ok taken)
    (hin : p.later.length ≤ taken.rest.length) :
    p.Continues SameItems taken (readAfter t' wrap reader' rest') := by
  obtain ⟨⟨value, left, hleft⟩, hvalue, h⟩ := bind_eq_ok_iff.mp h
  cases h
  obtain ⟨⟨value', left', hleft'⟩, hvalue', hsame, hs⟩ := hreader _ hvalue hin
  exact .bind hvalue' ⟨_, rfl, hwrap _ _ hsame, hs⟩

theorem readSkipped_continues
    {context : String}
    {taken : Taken Item input}
    (hs : p.Shares input input')
    (h : readSkipped p.src context input = .ok taken)
    (hin : p.later.length ≤ taken.rest.length) :
    p.Continues (SameMember v) taken (readSkipped p.src' context input') := by
  obtain ⟨⟨_, left, hleft⟩, hskip, h⟩ := bind_eq_ok_iff.mp h
  cases h
  obtain ⟨⟨_, left', hleft'⟩, hskip', -, hs⟩ := skipDeclaration_continues hs hskip hin
  exact .bind hskip' ⟨_, rfl, .skipped, hs⟩

/-- An error consists of more than a keyword and a name. -/
theorem readAfter_error_lt
    {src : SourceText}
    {t : Lexeme}
    {rest : List Lexeme}
    {taken : Taken Item (t :: rest)}
    (h : readAfter t .error (readErrorDefinition src) rest = .ok taken) :
    taken.rest.length < rest.tail.length := by
  obtain ⟨⟨e, left, hleft⟩, herror, h⟩ := bind_eq_ok_iff.mp h
  cases h
  obtain ⟨⟨name, r₁, h₁⟩, -, h⟩ := bind_eq_ok_iff.mp herror
  obtain ⟨⟨parameters, r₂, h₂⟩, -, h⟩ := bind_eq_ok_iff.mp h
  obtain ⟨⟨_, r₃, h₃⟩, -, h⟩ := bind_eq_ok_iff.mp h
  cases h
  have hlt : left.length < r₁.length := Nat.lt_trans h₃ h₂
  rw [List.length_tail]
  exact Nat.lt_of_lt_of_le hlt (Nat.le_sub_one_of_lt h₁)

/-- A state variable has more than a name after its type. -/
theorem readFieldTail_lt
    {src : SourceText}
    {f : Field}
    {taken : Taken Field input}
    (h : readFieldTail src f input = .ok taken) :
    taken.rest.length < input.tail.length := by
  cases input with
  | nil =>
      rw [readFieldTail] at h
      cases h
  | cons t rest =>
      rw [List.tail_cons]
      rw [readFieldTail] at h
      split at h
      · split at h
        · obtain ⟨⟨f₁, left, hleft⟩, -, h⟩ := bind_eq_ok_iff.mp h
          cases h
          exact hleft
        · split at h
          · obtain ⟨⟨next, hnext⟩, -, h⟩ := bind_eq_ok_iff.mp h
            obtain ⟨⟨f₁, left, hleft⟩, -, h⟩ := bind_eq_ok_iff.mp h
            cases h
            exact Nat.lt_of_lt_of_le hleft hnext
          · split at h
            · obtain ⟨⟨f₁, left, hleft⟩, -, h⟩ := bind_eq_ok_iff.mp h
              cases h
              exact hleft
            · split at h
              · obtain ⟨⟨value, left, hleft⟩, -, h⟩ := bind_eq_ok_iff.mp h
                cases h
                exact Reading.lt_of_lt_tail hleft
              · obtain ⟨⟨_, left, hleft⟩, -, h⟩ := bind_eq_ok_iff.mp h
                cases h
                exact hleft
      · cases h

/-- A state variable takes more than its first token. -/
theorem readField_lt
    {src : SourceText}
    {t : Lexeme}
    {rest : List Lexeme}
    {taken : Taken Field (t :: rest)}
    (h : readField src (t :: rest) = .ok taken) :
    taken.rest.length < rest.tail.length := by
  obtain ⟨⟨type, r₁, h₁⟩, -, h⟩ := bind_eq_ok_iff.mp h
  obtain ⟨⟨f, r₂, h₂⟩, htail, h⟩ := bind_eq_ok_iff.mp h
  cases h
  have hle : r₁.tail.length ≤ rest.tail.length := by
    rw [List.length_tail, List.length_tail]
    exact Nat.sub_le_sub_right (Nat.le_of_lt_succ h₁) 1
  have hlt : r₂.length < r₁.tail.length := readFieldTail_lt htail
  exact Nat.lt_of_lt_of_le hlt hle

/-- A member of a contract is read alike in both texts, whichever reader its first token picks. -/
theorem readContractMember_continues
    {context : String}
    {taken : Taken Item input}
    (hs : p.Shares input input')
    (h : readContractMember p.src context input = .ok taken)
    (hin : p.later.length ≤ taken.rest.length) :
    p.Continues (SameMember v) taken (readContractMember p.src' context input') := by
  obtain ⟨t, rest, t', rest', rfl, rfl, htoken, hrest⟩ :=
    hs.uncons (Nat.lt_of_le_of_lt hin taken.lt)
  rw [readContractMember] at h ⊢
  rw [htoken]
  split at h
  · exact readAfter_continues (fun _ _ => .function)
      (fun _ => readFunction_continues hrest) h hin
  · exact readAfter_continues (fun _ _ => .modifier)
      (fun _ => readModifier_continues hrest) h hin
  · exact readAfter_continues (fun _ _ => .struct)
      (fun _ => readStruct_continues hrest) h hin
  · exact readAfter_continues (by rintro e _ rfl; exact .enumeration e)
      (fun _ => readEnum_continues hrest) h hin
  · exact readAfter_continues (fun _ _ => .event)
      (fun _ => readEvent_continues hrest) h hin
  · exact readSkipped_continues hs h hin
  · exact readSkipped_continues hs h hin
  · exact readSkipped_continues hs h hin
  · exact readSkipped_continues hs h hin
  · -- Whether a parenthesis follows the name after `error` decides between an error and a field.
    have hsymbol (hlt : p.later.length < rest.tail.length) :
        atSymbol "(" rest'.tail = atSymbol "(" rest.tail :=
      (hrest.tail (Nat.lt_of_lt_of_le hlt Reading.tail_le)).atSymbol hlt "("
    split at h
    · rename_i herror
      have hlt : p.later.length < rest.tail.length :=
        Nat.lt_of_le_of_lt hin (readAfter_error_lt h)
      rw [hsymbol hlt, if_pos herror]
      exact readAfter_continues (fun _ _ => .error)
        (fun _ => readErrorDefinition_continues hrest) h hin
    · rename_i herror
      obtain ⟨⟨f, left, hleft⟩, hfield, h⟩ := bind_eq_ok_iff.mp h
      cases h
      have hlt : p.later.length < rest.tail.length :=
        Nat.lt_of_le_of_lt hin (readField_lt hfield)
      rw [hsymbol hlt, if_neg herror]
      obtain ⟨⟨f', left', hleft'⟩, hfield', hsame, hs₁⟩ := readField_continues (v := v) hs hfield hin
      exact .bind hfield' ⟨_, rfl, .field hsame, hs₁⟩

/-- A member of an interface is read alike in both texts, whichever reader its first token picks. -/
theorem readInterfaceMember_continues
    {context : String}
    {taken : Taken Item input}
    (hs : p.Shares input input')
    (h : readInterfaceMember p.src context input = .ok taken)
    (hin : p.later.length ≤ taken.rest.length) :
    p.Continues (SameMember v) taken (readInterfaceMember p.src' context input') := by
  obtain ⟨t, rest, t', rest', rfl, rfl, htoken, hrest⟩ :=
    hs.uncons (Nat.lt_of_le_of_lt hin taken.lt)
  rw [readInterfaceMember] at h ⊢
  rw [htoken]
  split at h
  · exact readAfter_continues (fun _ _ => .function)
      (fun _ => readFunction_continues hrest) h hin
  · exact readAfter_continues (fun _ _ => .struct)
      (fun _ => readStruct_continues hrest) h hin
  · exact readAfter_continues (by rintro e _ rfl; exact .enumeration e)
      (fun _ => readEnum_continues hrest) h hin
  · exact readAfter_continues (fun _ _ => .event)
      (fun _ => readEvent_continues hrest) h hin
  · exact readAfter_continues (fun _ _ => .error)
      (fun _ => readErrorDefinition_continues hrest) h hin
  · exact readSkipped_continues hs h hin

/-- Members are read as the same if each of them is. -/
theorem readMembers_continues
    {context : String}
    {member member' : Reader Item}
    (hmember : ∀ (input input' : List Lexeme) (taken : Taken Item input), p.Shares input input' →
      member input = .ok taken → p.later.length ≤ taken.rest.length →
      p.Continues (SameMember v) taken (member' input'))
    {taken : Taken (List Item) input}
    (hs : p.Shares input input')
    (h : readMembers p.src context member input = .ok taken)
    (hin : p.later.length ≤ taken.rest.length) :
    p.Continues (List.Forall₂ (SameMember v)) taken
      (readMembers p.src' context member' input') := by
  obtain ⟨n, hn⟩ : ∃ n, input.length = n := ⟨_, rfl⟩
  induction n using Nat.strongRecOn generalizing input input' with
  | ind n ih =>
      subst hn
      obtain ⟨t, rest, t', rest', rfl, rfl, htoken, hrest⟩ :=
        hs.uncons (Nat.lt_of_le_of_lt hin taken.lt)
      rw [readMembers] at h ⊢
      rw [htoken]
      split at h
      · rename_i hclose
        rw [if_pos hclose]
        cases h
        exact ⟨_, rfl, .nil, hrest⟩
      · rename_i hclose
        rw [if_neg hclose]
        obtain ⟨⟨item, r₁, h₁⟩, hitem, h⟩ := bind_eq_ok_iff.mp h
        obtain ⟨⟨items, r₂, h₂⟩, hitems, h⟩ := bind_eq_ok_iff.mp h
        cases h
        obtain ⟨⟨item', r₁', h₁'⟩, hitem', hsame, hs₁⟩ :=
          hmember _ _ _ hs hitem (Nat.le_trans hin (Nat.le_of_lt h₂))
        obtain ⟨⟨items', r₂', h₂'⟩, hitems', hsames, hs₂⟩ := ih _ h₁ hs₁ hitems hin rfl
        exact .bind hitem' (.bind hitems' ⟨_, rfl, .cons hsame hsames, hs₂⟩)

end Members

/-! ## Contracts and interfaces -/

section Contracts

variable {k : Likeness} {v : k.View} {p : Pairing k} {input input' : List Lexeme}

/-- Definitions look the same after members were added that do. -/
theorem addTo_mapTypes_eq
    {d d' : Definitions}
    {i i' : Item}
    (hd : d.mapTypes v.type = d'.mapTypes v.type)
    (h : SameMember v i i') :
    (i.addTo d).mapTypes v.type = (i'.addTo d').mapTypes v.type := by
  obtain ⟨contracts, interfaces, structures, enumerations, events, errors, functions, modifiers⟩ := d
  obtain ⟨contracts', interfaces', structures', enumerations', events', errors', functions',
    modifiers'⟩ := d'
  simp only [Definitions.mapTypes, Definitions.mk.injEq] at hd
  obtain ⟨hcontracts, hinterfaces, hstructures, henumerations, hevents, herrors, hfunctions,
    hmodifiers⟩ := hd
  cases h with
  | field h =>
      simp only [Item.addTo, Definitions.mapTypes, *]
  | struct h =>
      simp only [Item.addTo, Definitions.mapTypes, List.map_append, List.map_cons, List.map_nil, *]
  | enumeration e =>
      simp only [Item.addTo, Definitions.mapTypes, *]
  | event h =>
      simp only [Item.addTo, Definitions.mapTypes, List.map_append, List.map_cons, List.map_nil, *]
  | error h =>
      simp only [Item.addTo, Definitions.mapTypes, List.map_append, List.map_cons, List.map_nil, *]
  | function h =>
      simp only [Item.addTo, Definitions.mapTypes, List.map_append, List.map_cons, List.map_nil, *]
  | modifier h =>
      simp only [Item.addTo, Definitions.mapTypes, List.map_append, List.map_cons, List.map_nil, *]
  | skipped =>
      simp only [Item.addTo, Definitions.mapTypes, *]

/-- Members that are alike add up to definitions that are alike. -/
theorem foldl_addTo_mapTypes_eq
    {d d' : Definitions}
    {items items' : List Item}
    (hd : d.mapTypes v.type = d'.mapTypes v.type)
    (h : List.Forall₂ (SameMember v) items items') :
    (items.foldl Item.addTo d).mapTypes v.type = (items'.foldl Item.addTo d').mapTypes v.type := by
  induction h generalizing d d' with
  | nil =>
      exact hd
  | cons hhead htail ih =>
      exact ih (addTo_mapTypes_eq hd hhead)

theorem map_fields_eq
    {items items' : List Item}
    (h : List.Forall₂ (SameMember v) items items') :
    (items.filterMap Item.field?).map v.field = (items'.filterMap Item.field?).map v.field := by
  induction h with
  | nil =>
      rfl
  | cons hhead htail ih =>
      cases hhead with
      | field hfield =>
          simp only [Item.field?, List.filterMap_cons, List.map_cons, hfield, ih]
      | _ =>
          simpa only [Item.field?, List.filterMap_cons] using ih

/-- A contract is read alike in both texts once its members are. -/
theorem readContract_continues
    {isAbstract : Bool}
    {taken : Taken Contract input}
    (hs : p.Shares input input')
    (h : readContract p.src isAbstract input = .ok taken)
    (hin : p.later.length ≤ taken.rest.length) :
    p.Continues (fun c c' => v.contract c = v.contract c') taken
      (readContract p.src' isAbstract input') := by
  obtain ⟨⟨name, r₁, h₁⟩, hname, h⟩ := bind_eq_ok_iff.mp h
  obtain ⟨⟨parents, ⟨r₂, h₂⟩⟩, hparents, h⟩ := bind_eq_ok_iff.mp h
  obtain ⟨⟨_, r₃, h₃⟩, hopen, h⟩ := bind_eq_ok_iff.mp h
  obtain ⟨⟨items, r₄, h₄⟩, hitems, h⟩ := bind_eq_ok_iff.mp h
  cases h
  have hin₃ : p.later.length ≤ r₃.length := Nat.le_trans hin (Nat.le_of_lt h₄)
  have hin₂ : p.later.length < r₂.length := Nat.lt_of_le_of_lt hin₃ h₃
  have hin₁ : p.later.length ≤ r₁.length := Nat.le_trans (Nat.le_of_lt hin₂) h₂
  obtain ⟨⟨name', r₁', h₁'⟩, hname', heq, hs₁⟩ := readIdentifier_continues hs hname hin₁
  dsimp only at heq
  subst heq
  obtain ⟨⟨r₂', h₂'⟩, hparents', hs₂⟩ := readBases_continues hs₁ hparents hin₂
  obtain ⟨⟨_, r₃', h₃'⟩, hopen', -, hs₃⟩ := readSymbol_continues hs₂ hopen hin₃
  obtain ⟨⟨items', r₄', h₄'⟩, hitems', hsame, hs₄⟩ :=
    readMembers_continues (v := v) (fun _ _ _ => readContractMember_continues) hs₃ hitems hin
  refine .bind hname' (.bind hparents' (.bind hopen' (.bind hitems' ⟨_, rfl, ?_, hs₄⟩)))
  dsimp only at hsame
  simp only [Likeness.View.contract, map_fields_eq hsame, foldl_addTo_mapTypes_eq rfl hsame]

theorem readInterface_continues
    {taken : Taken Interface input}
    (hs : p.Shares input input')
    (h : readInterface p.src input = .ok taken)
    (hin : p.later.length ≤ taken.rest.length) :
    p.Continues (fun i i' => i.mapTypes v.type = i'.mapTypes v.type) taken
      (readInterface p.src' input') := by
  obtain ⟨⟨name, r₁, h₁⟩, hname, h⟩ := bind_eq_ok_iff.mp h
  obtain ⟨⟨parents, ⟨r₂, h₂⟩⟩, hparents, h⟩ := bind_eq_ok_iff.mp h
  obtain ⟨⟨_, r₃, h₃⟩, hopen, h⟩ := bind_eq_ok_iff.mp h
  obtain ⟨⟨items, r₄, h₄⟩, hitems, h⟩ := bind_eq_ok_iff.mp h
  cases h
  have hin₃ : p.later.length ≤ r₃.length := Nat.le_trans hin (Nat.le_of_lt h₄)
  have hin₂ : p.later.length < r₂.length := Nat.lt_of_le_of_lt hin₃ h₃
  have hin₁ : p.later.length ≤ r₁.length := Nat.le_trans (Nat.le_of_lt hin₂) h₂
  obtain ⟨⟨name', r₁', h₁'⟩, hname', heq, hs₁⟩ := readIdentifier_continues hs hname hin₁
  dsimp only at heq
  subst heq
  obtain ⟨⟨r₂', h₂'⟩, hparents', hs₂⟩ := readBases_continues hs₁ hparents hin₂
  obtain ⟨⟨_, r₃', h₃'⟩, hopen', -, hs₃⟩ := readSymbol_continues hs₂ hopen hin₃
  obtain ⟨⟨items', r₄', h₄'⟩, hitems', hsame, hs₄⟩ :=
    readMembers_continues (v := v) (fun _ _ _ => readInterfaceMember_continues) hs₃ hitems hin
  refine .bind hname' (.bind hparents' (.bind hopen' (.bind hitems' ⟨_, rfl, ?_, hs₄⟩)))
  dsimp only at hsame
  simp only [Interface.mapTypes, foldl_addTo_mapTypes_eq rfl hsame]

end Contracts

/-! ## Files -/

section Files

variable {k : Likeness} {v : k.View} {p : Pairing k} {input input' : List Lexeme}

theorem readImportPath_continues
    {path : Option String}
    {taken : Taken (Option String) input}
    (hs : p.Shares input input')
    (h : readImportPath p.src path input = .ok taken)
    (hin : p.later.length ≤ taken.rest.length) :
    p.Continues Eq taken (readImportPath p.src' path input') := by
  induction input generalizing path input' with
  | nil =>
      cases h
  | cons t rest ih =>
      obtain ⟨t', rest', rfl, htoken, -, hrest⟩ :=
        hs.cons (Nat.le_trans hin (Nat.le_of_lt_succ taken.lt))
      rw [readImportPath] at h ⊢
      rw [htoken]
      split at h
      · cases h
        exact ⟨_, rfl, rfl, hrest⟩
      · obtain ⟨⟨found, left, hleft⟩, hfound, h⟩ := bind_eq_ok_iff.mp h
        cases h
        obtain ⟨⟨found', left', hleft'⟩, hfound', heq, hs₁⟩ := ih hrest hfound hin
        exact .bind hfound' ⟨_, rfl, heq, hs₁⟩
      · obtain ⟨⟨found, left, hleft⟩, hfound, h⟩ := bind_eq_ok_iff.mp h
        cases h
        obtain ⟨⟨found', left', hleft'⟩, hfound', heq, hs₁⟩ := ih hrest hfound hin
        exact .bind hfound' ⟨_, rfl, heq, hs₁⟩

theorem readImport_continues
    {taken : Taken String input}
    (hs : p.Shares input input')
    (h : readImport p.src input = .ok taken)
    (hin : p.later.length ≤ taken.rest.length) :
    p.Continues Eq taken (readImport p.src' input') := by
  obtain ⟨⟨path, rest, hrest⟩, hpath, h⟩ := bind_eq_ok_iff.mp h
  cases path with
  | none =>
      cases h
  | some path =>
      cases h
      obtain ⟨⟨path', rest', hrest'⟩, hpath', heq, hs₁⟩ := readImportPath_continues hs hpath hin
      dsimp only at heq
      subst heq
      exact .bind hpath' ⟨_, rfl, rfl, hs₁⟩

theorem readPragma_continues
    {taken : Taken Item input}
    (hs : p.Shares input input')
    (h : readPragma p.src input = .ok taken)
    (hin : p.later.length ≤ taken.rest.length) :
    p.Continues (SameItem v) taken (readPragma p.src' input') := by
  have hin₀ : p.later.length < input.length := Nat.lt_of_le_of_lt hin taken.lt
  rw [readPragma] at h ⊢
  rw [hs.atKeyword hin₀]
  split at h
  · rename_i hsolidity
    rw [if_pos hsolidity]
    obtain ⟨⟨text, rest, hrest⟩, htext, h⟩ := bind_eq_ok_iff.mp h
    cases h
    obtain ⟨⟨text', rest', hrest'⟩, htext', hsame, hs₁⟩ :=
      readRawUntil_continues (hs.tail hin₀) htext hin
    exact .bind htext' ⟨_, rfl, .pragma (v.text_eq hsame), hs₁⟩
  · rename_i hsolidity
    rw [if_neg hsolidity]
    obtain ⟨taken', hskip', hsame, hs₁⟩ := readSkipped_continues (v := v) hs h hin
    exact ⟨taken', hskip', .member hsame, hs₁⟩

/-- A file-level item is read alike in both texts, whichever reader its first token picks. -/
theorem readItem_continues
    {taken : Taken Item input}
    (hs : p.Shares input input')
    (h : readItem p.src input = .ok taken)
    (hin : p.later.length ≤ taken.rest.length) :
    p.Continues (SameItem v) taken (readItem p.src' input') := by
  obtain ⟨t, rest, t', rest', rfl, rfl, htoken, hrest⟩ :=
    hs.uncons (Nat.lt_of_le_of_lt hin taken.lt)
  rw [readItem] at h ⊢
  rw [htoken]
  split at h
  · exact readAfter_continues (fun _ _ => id) (fun _ => readPragma_continues hrest) h hin
  · exact readAfter_continues (by rintro path _ rfl; exact .importing path)
      (fun _ => readImport_continues hrest) h hin
  · obtain ⟨⟨_, r₁, h₁⟩, hkeyword, h⟩ := bind_eq_ok_iff.mp h
    obtain ⟨⟨c, r₂, h₂⟩, hcontract, h⟩ := bind_eq_ok_iff.mp h
    cases h
    obtain ⟨⟨_, r₁', h₁'⟩, hkeyword', -, hs₁⟩ :=
      readKeyword_continues hrest hkeyword (Nat.le_trans hin (Nat.le_of_lt h₂))
    obtain ⟨⟨c', r₂', h₂'⟩, hcontract', hsame, hs₂⟩ :=
      readContract_continues (v := v) hs₁ hcontract hin
    exact .bind hkeyword' (.bind hcontract' ⟨_, rfl, .contract hsame, hs₂⟩)
  · exact readAfter_continues (fun _ _ => .contract) (fun _ => readContract_continues hrest) h hin
  · exact readAfter_continues (fun _ _ => .interface) (fun _ => readInterface_continues hrest) h hin
  · exact readAfter_continues (fun _ _ h => .member (.struct h))
      (fun _ => readStruct_continues hrest) h hin
  · exact readAfter_continues (by rintro e _ rfl; exact .member (.enumeration e))
      (fun _ => readEnum_continues hrest) h hin
  · exact readAfter_continues (fun _ _ h => .member (.event h))
      (fun _ => readEvent_continues hrest) h hin
  · exact readAfter_continues (fun _ _ h => .member (.error h))
      (fun _ => readErrorDefinition_continues hrest) h hin
  · exact readAfter_continues (fun _ _ h => .member (.function h))
      (fun _ => readFunction_continues hrest) h hin
  · obtain ⟨taken', hskip', hsame, hs₁⟩ := readSkipped_continues (v := v) hs h hin
    exact ⟨taken', hskip', .member hsame, hs₁⟩
  · cases h

end Files

end Source
end ContractGen
