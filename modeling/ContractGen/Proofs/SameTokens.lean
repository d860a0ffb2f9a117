import ContractGen.Proofs.ReadingWithin
import ContractGen.Proofs.ReadTypes
import Mathlib.Data.List.Forall2

/-!
# Reading the same tokens in two texts

Two texts may have the same tokens in different places, with other blanks and comments between
them, and only up to some point. What a reader makes of such tokens is the same in both texts, as
long as it does not look past that point. Only pragmas, initializers and the sizes of arrays are
taken from the text itself; they are related like the excerpts between the tokens.

**Definitions.**
* `Likeness`: how excerpts of two texts between the same tokens are related.
* `Pairing`: two texts and the tokens from which on they may differ.
* `Pairing.Shares`: what is left of the tokens of both texts, with the same tokens in front.
* `Likeness.Alike`: types that differ only in the sizes of arrays.
* `Pairing.Continues`: a reader of the second text takes off what one of the first text took off.

**Results.**
* `readRawUntil_continues`: excerpts between the same tokens are related.
* `readType_continues`, `readParameterList_continues`: the same tokens are read as alike types and
  parameters.
-/

namespace ContractGen
namespace Source

open Target

/-! ## Two texts with the same tokens -/

/-- The trimmed text from the first of some tokens to the last one. -/
def SourceText.excerpt (src : SourceText) (own : List Lexeme) : String :=
  String.ofList (Text.trim (src.span own))

/-- How two texts with the same tokens are related. -/
structure Likeness where
  /-- How excerpts of the two texts between the same tokens are related. -/
  SameText : String → String → Prop
  /-- What is known of the identifiers that both texts have. -/
  IsName : String → Prop

/-- Two texts that are read side by side. -/
structure Pairing (k : Likeness) where
  src : SourceText
  src' : SourceText
  /-- The tokens of the first text from which on the two may differ. -/
  later : List Lexeme
  /-- The tokens of the second text from which on the two may differ. -/
  later' : List Lexeme

namespace Pairing

variable {k : Likeness} {p : Pairing k} {input input' : List Lexeme}

/-- The same tokens in both texts, with related excerpts between any two of them. -/
structure Twins (p : Pairing k) (own own' : List Lexeme) : Prop where
  tokens : own'.map Lexeme.token = own.map Lexeme.token
  names : ∀ l ∈ own, ∀ name, l.token = .identifier name → k.IsName name
  texts : ∀ skipped taken, k.SameText (p.src.excerpt ((own.drop skipped).take taken))
    (p.src'.excerpt ((own'.drop skipped).take taken))

/-- What is left of the tokens of both texts: the same tokens up to where the texts may differ. -/
def Shares (p : Pairing k) (input input' : List Lexeme) : Prop :=
  ∃ own own', input = own ++ p.later ∧ input' = own' ++ p.later' ∧ p.Twins own own'

theorem Twins.cons
    {l : Lexeme}
    {own own' : List Lexeme}
    (h : p.Twins (l :: own) own') :
    ∃ l' rest', own' = l' :: rest' ∧ l'.token = l.token ∧
      (∀ name, l.token = .identifier name → k.IsName name) ∧ p.Twins own rest' := by
  obtain ⟨htokens, hnames, htexts⟩ := h
  obtain ⟨l', rest', rfl, hl, hrest⟩ := List.map_eq_cons_iff.mp htokens
  exact ⟨l', rest', rfl, hl, hnames l List.mem_cons_self, hrest,
    fun m hm => hnames m (List.mem_cons_of_mem l hm),
    fun skipped taken => htexts (skipped + 1) taken⟩

/-- A token before the point where the texts may differ is in both texts. -/
theorem Shares.cons
    {l : Lexeme}
    {rest : List Lexeme}
    (h : p.Shares (l :: rest) input')
    (hin : p.later.length ≤ rest.length) :
    ∃ l' rest', input' = l' :: rest' ∧ l'.token = l.token ∧
      (∀ name, l.token = .identifier name → k.IsName name) ∧ p.Shares rest rest' := by
  obtain ⟨own, own', hinput, rfl, htwins⟩ := h
  cases own with
  | nil =>
      rw [List.nil_append] at hinput
      rw [← hinput, List.length_cons] at hin
      omega
  | cons _ own =>
      obtain ⟨rfl, rfl⟩ := List.cons.inj hinput
      obtain ⟨l', rest', rfl, hl, hname, hrest⟩ := htwins.cons
      exact ⟨l', rest' ++ p.later', rfl, hl, hname, own, rest', rfl, rfl, hrest⟩

/-- There is a token before the point where the texts may differ. -/
theorem Shares.uncons
    (h : p.Shares input input')
    (hin : p.later.length < input.length) :
    ∃ l rest l' rest', input = l :: rest ∧ input' = l' :: rest' ∧ l'.token = l.token ∧
      p.Shares rest rest' := by
  cases input with
  | nil =>
      cases hin
  | cons l rest =>
      obtain ⟨l', rest', rfl, hl, -, hrest⟩ := h.cons (Nat.le_of_lt_succ hin)
      exact ⟨l, rest, l', rest', rfl, rfl, hl, hrest⟩

/-- Two inputs that share their tokens share them behind the first one. -/
theorem Shares.tail
    (h : p.Shares input input')
    (hin : p.later.length < input.length) :
    p.Shares input.tail input'.tail := by
  obtain ⟨l, rest, l', rest', rfl, rfl, -, hrest⟩ := h.uncons hin
  exact hrest

theorem Shares.atSymbol
    (h : p.Shares input input')
    (hin : p.later.length < input.length)
    (symbol : String) :
    atSymbol symbol input' = atSymbol symbol input := by
  obtain ⟨l, rest, l', rest', rfl, rfl, hl, -⟩ := h.uncons hin
  rw [Source.atSymbol, Source.atSymbol, hl]

theorem Shares.atKeyword
    (h : p.Shares input input')
    (hin : p.later.length < input.length)
    (word : String) :
    atKeyword word input' = atKeyword word input := by
  obtain ⟨l, rest, l', rest', rfl, rfl, hl, -⟩ := h.uncons hin
  rw [Source.atKeyword, Source.atKeyword, hl]

/-- A reader of the second text takes off the tokens that one of the first text took off. -/
def Continues {α β : Type} (p : Pairing k) (Same : α → β → Prop) (taken : Taken α input)
    (result : Except SyntaxError (Taken β input')) : Prop :=
  ∃ taken', result = .ok taken' ∧ Same taken.value taken'.value ∧ p.Shares taken.rest taken'.rest

/-- The second text is read on after a step that succeeded. -/
theorem Continues.bind
    {α β γ : Type}
    {Same : α → β → Prop}
    {taken : Taken α input}
    {result : Except SyntaxError γ}
    {next : γ → Except SyntaxError (Taken β input')}
    {value : γ}
    (hresult : result = .ok value)
    (h : p.Continues Same taken (next value)) :
    p.Continues Same taken (result >>= next) := by
  rw [hresult]
  exact h

end Pairing

/-! ## Single tokens -/

section Cursor

variable {k : Likeness} {p : Pairing k} {input input' : List Lexeme}

theorem readSymbol_continues
    {symbol : String}
    {taken : Taken Unit input}
    (hs : p.Shares input input')
    (h : readSymbol p.src symbol input = .ok taken)
    (hin : p.later.length ≤ taken.rest.length) :
    p.Continues Eq taken (readSymbol p.src' symbol input') := by
  cases input with
  | nil =>
      cases h
  | cons t rest =>
      rw [readSymbol] at h
      split at h
      · rename_i ht
        cases h
        obtain ⟨t', rest', rfl, htoken, -, hrest⟩ := hs.cons hin
        exact ⟨⟨(), rest', Reading.rest_lt⟩, by rw [readSymbol, if_pos (htoken.trans ht)], rfl,
          hrest⟩
      · cases h

theorem readKeyword_continues
    {word : String}
    {taken : Taken Unit input}
    (hs : p.Shares input input')
    (h : readKeyword p.src word input = .ok taken)
    (hin : p.later.length ≤ taken.rest.length) :
    p.Continues Eq taken (readKeyword p.src' word input') := by
  cases input with
  | nil =>
      cases h
  | cons t rest =>
      rw [readKeyword] at h
      split at h
      · rename_i ht
        cases h
        obtain ⟨t', rest', rfl, htoken, -, hrest⟩ := hs.cons hin
        exact ⟨⟨(), rest', Reading.rest_lt⟩, by rw [readKeyword, if_pos (htoken.trans ht)], rfl,
          hrest⟩
      · cases h

/-- An identifier is read alike in both texts. -/
theorem readIdentifier_continues
    {what : String}
    {taken : Taken String input}
    (hs : p.Shares input input')
    (h : readIdentifier p.src what input = .ok taken)
    (hin : p.later.length ≤ taken.rest.length) :
    p.Continues Eq taken (readIdentifier p.src' what input') := by
  cases input with
  | nil =>
      cases h
  | cons t rest =>
      rw [readIdentifier] at h
      split at h
      · rename_i name ht
        cases h
        obtain ⟨t', rest', rfl, htoken, -, hrest⟩ := hs.cons hin
        exact ⟨⟨name, rest', Reading.rest_lt⟩, by rw [readIdentifier, htoken, ht], rfl, hrest⟩
      · cases h

theorem skipKeyword_shares
    (hs : p.Shares input input')
    (hin : p.later.length < input.length)
    (word : String) :
    p.Shares (skipKeyword word input).1 (skipKeyword word input').1 := by
  obtain ⟨t, rest, t', rest', rfl, rfl, htoken, hrest⟩ := hs.uncons hin
  rw [skipKeyword, skipKeyword, htoken]
  split
  · exact hrest
  · exact hs

theorem takeIdentifier?_shares
    (hs : p.Shares input input')
    (hin : p.later.length < input.length) :
    (takeIdentifier? input').1 = (takeIdentifier? input).1 ∧
      p.Shares (takeIdentifier? input).2.1 (takeIdentifier? input').2.1 := by
  obtain ⟨t, rest, t', rest', rfl, rfl, htoken, hrest⟩ := hs.uncons hin
  rw [takeIdentifier?, takeIdentifier?, htoken]
  split
  · exact ⟨rfl, hrest⟩
  · exact ⟨rfl, hs⟩

theorem takeLocation?_shares
    (hs : p.Shares input input')
    (hin : p.later.length < input.length) :
    (takeLocation? input').1 = (takeLocation? input).1 ∧
      p.Shares (takeLocation? input).2.1 (takeLocation? input').2.1 := by
  obtain ⟨t, rest, t', rest', rfl, rfl, htoken, hrest⟩ := hs.uncons hin
  rw [takeLocation?, takeLocation?, htoken]
  split
  · split
    · exact ⟨rfl, hrest⟩
    · exact ⟨rfl, hs⟩
  · exact ⟨rfl, hs⟩

/-- Names joined by dots. -/
inductive IsQualified (IsName : String → Prop) : String → Prop
  | one {name : String} (h : IsName name) : IsQualified IsName name
  | dot {name tail : String} (h : IsName name) (htail : IsQualified IsName tail) :
      IsQualified IsName (name ++ "." ++ tail)

/-- A dotted name is read alike in both texts, and its parts are names. -/
theorem readQualifiedName_continues
    {what : String}
    {taken : Taken String input}
    (hs : p.Shares input input')
    (h : readQualifiedName p.src what input = .ok taken)
    (hin : p.later.length < taken.rest.length) :
    p.Continues (fun name name' => name' = name ∧ IsQualified k.IsName name) taken
      (readQualifiedName p.src' what input') := by
  fun_induction readQualifiedName p.src what input generalizing input' with
  | case1 =>
      cases h
  | case2 t name hname =>
      cases h
      cases hin
  | case3 t hother =>
      cases h
  | case4 t dot rest name hname hdot ih =>
      obtain ⟨⟨tail, left, hleft⟩, htail, hvalue⟩ := bind_eq_ok_iff.mp h
      cases hvalue
      dsimp only at hin
      obtain ⟨t', rest₁, rfl, ht, hn, hs⟩ := hs.cons (by rw [List.length_cons]; omega)
      obtain ⟨dot', rest', rfl, hd, -, hs⟩ := hs.cons (by omega)
      obtain ⟨⟨tail', left', hleft'⟩, htail', ⟨rfl, hqualified⟩, hshares⟩ := ih hs htail hin
      refine ⟨⟨_, left', Reading.lt_cons_of_lt (Reading.lt_cons_of_lt hleft')⟩, ?_,
        ⟨rfl, .dot (hn name hname) hqualified⟩, hshares⟩
      simp [readQualifiedName, ht, hname, hd, hdot, htail', bind, Except.bind, pure, Except.pure]
  | case5 t dot rest name hname hdot =>
      cases h
      obtain ⟨t', rest₁, rfl, ht, hn, hs⟩ := hs.cons (Nat.le_of_lt hin)
      obtain ⟨dot', rest', rfl, hd, -, -⟩ := hs.cons (Nat.le_of_lt_succ hin)
      refine ⟨⟨name, dot' :: rest', Reading.rest_lt⟩, ?_, ⟨rfl, .one (hn name hname)⟩, hs⟩
      simp [readQualifiedName, ht, hname, hd, hdot]
  | case6 t dot rest hother =>
      cases h

end Cursor

/-! ## Bracketed stretches -/

section Nesting

variable {k : Likeness} {p : Pairing k} {input input' : List Lexeme} {context : String}

/-- Both texts are skipped up to the same closing brace. -/
theorem skipToClose_continues
    {depth : Nat}
    {taken : Taken Unit input}
    (hs : p.Shares input input')
    (h : skipToClose p.src context depth input = .ok taken)
    (hin : p.later.length ≤ taken.rest.length) :
    p.Continues Eq taken (skipToClose p.src' context depth input') := by
  induction input generalizing depth input' with
  | nil =>
      cases h
  | cons t rest ih =>
      rw [skipToClose] at h
      split at h
      · rename_i hclose
        cases h
        obtain ⟨t', rest', rfl, htoken, -, hs⟩ := hs.cons hin
        refine ⟨⟨(), rest', Reading.rest_lt⟩, ?_, rfl, hs⟩
        rw [skipToClose, htoken, if_pos hclose]
      · rename_i hclose
        obtain ⟨⟨_, left, hleft⟩, hskip, hvalue⟩ := bind_eq_ok_iff.mp h
        cases hvalue
        dsimp only at hin
        obtain ⟨t', rest', rfl, htoken, -, hs⟩ := hs.cons (by omega)
        obtain ⟨⟨_, left', hleft'⟩, hskip', -, hs⟩ := ih hs hskip hin
        refine ⟨⟨(), left', Reading.lt_cons_of_lt hleft'⟩, ?_, rfl, hs⟩
        rw [skipToClose, htoken, if_neg hclose, hskip']
        rfl

/-- Arguments are skipped in both texts if both have them. -/
theorem skipArguments_shares
    {left : Left input}
    (hs : p.Shares input input')
    (hsymbol : atSymbol "(" input' = atSymbol "(" input)
    (h : skipArguments p.src context input = .ok left)
    (hin : p.later.length ≤ left.1.length) :
    ∃ left', skipArguments p.src' context input' = .ok left' ∧ p.Shares left.1 left'.1 := by
  rw [skipArguments] at h ⊢
  rw [hsymbol]
  split at h
  · rename_i hopen
    rw [if_pos hopen]
    obtain ⟨⟨_, next, hnext⟩, hskip, h⟩ := bind_eq_ok_iff.mp h
    cases h
    obtain ⟨⟨_, next', hnext'⟩, hskip', -, hs₁⟩ := skipToClose_continues hs hskip hin
    exact ⟨⟨next', Nat.le_of_lt hnext'⟩, bind_eq_ok_iff.mpr ⟨_, hskip', rfl⟩, hs₁⟩
  · rename_i hopen
    rw [if_neg hopen]
    cases h
    exact ⟨_, rfl, hs⟩

theorem skipArguments_continues
    {left : Left input}
    (hs : p.Shares input input')
    (h : skipArguments p.src context input = .ok left)
    (hin : p.later.length < left.1.length) :
    ∃ left', skipArguments p.src' context input' = .ok left' ∧ p.Shares left.1 left'.1 :=
  skipArguments_shares hs (hs.atSymbol (Nat.lt_of_lt_of_le hin left.2) "(") h (Nat.le_of_lt hin)

theorem skipDeclaration_continues
    {depth : Nat}
    {taken : Taken Unit input}
    (hs : p.Shares input input')
    (h : skipDeclaration p.src context depth input = .ok taken)
    (hin : p.later.length ≤ taken.rest.length) :
    p.Continues Eq taken (skipDeclaration p.src' context depth input') := by
  induction input generalizing depth input' with
  | nil =>
      cases h
  | cons t rest ih =>
      have hlater : p.later.length ≤ rest.length :=
        Nat.le_trans hin (Nat.le_of_lt_succ taken.lt)
      obtain ⟨t', rest', rfl, htoken, -, hrest⟩ := hs.cons hlater
      rw [skipDeclaration] at h
      split at h
      · rename_i hend
        cases h
        refine ⟨⟨(), rest', Reading.rest_lt⟩, ?_, rfl, hrest⟩
        rw [skipDeclaration, htoken, if_pos hend]
      · rename_i hend
        split at h
        · rename_i hopen
          obtain ⟨taken', hskip', -, hs⟩ := skipToClose_continues hs h hin
          refine ⟨taken', ?_, rfl, hs⟩
          rw [skipDeclaration, htoken, if_neg hend, if_pos hopen]
          exact hskip'
        · rename_i hopen
          obtain ⟨⟨_, left, hleft⟩, hskip, hvalue⟩ := bind_eq_ok_iff.mp h
          cases hvalue
          obtain ⟨⟨_, left', hleft'⟩, hskip', -, hs⟩ := ih hrest hskip hin
          refine ⟨⟨(), left', Reading.lt_cons_of_lt hleft'⟩, ?_, rfl, hs⟩
          rw [skipDeclaration, htoken, if_neg hend, if_neg hopen]
          exact bind_eq_ok_iff.mpr ⟨_, hskip', rfl⟩

/-- The tokens up to a token are in both texts, and so is the token. -/
theorem Pairing.Shares.split
    {own rest : List Lexeme}
    {l : Lexeme}
    (hs : p.Shares (own ++ l :: rest) input')
    (hin : p.later.length ≤ rest.length) :
    ∃ own' l' rest', input' = own' ++ l' :: rest' ∧ own'.map Lexeme.token = own.map Lexeme.token ∧
      l'.token = l.token ∧ k.SameText (p.src.excerpt own) (p.src'.excerpt own') ∧
      p.Shares rest rest' := by
  obtain ⟨all, all', hall, rfl, htwins⟩ := hs
  -- What the texts share reaches past the token.
  have hle : (own ++ [l]).length ≤ all.length := by
    have hlength := congrArg List.length hall
    simp only [List.length_append, List.length_cons, List.length_nil] at hlength ⊢
    omega
  have hfront : own ++ [l] <+: all := by
    refine List.prefix_of_prefix_length_le ⟨rest, ?_⟩ (List.prefix_append all p.later) hle
    rw [← hall, List.append_assoc]
    rfl
  obtain ⟨more, rfl⟩ := hfront
  obtain rfl : rest = more ++ p.later := by
    simpa using hall
  have htokens := htwins.tokens
  rw [List.map_append, List.map_append] at htokens
  obtain ⟨own₁, more', rfl, hown₁, hmore⟩ := List.map_eq_append_iff.mp htokens
  obtain ⟨own', last, rfl, hown', hlast⟩ := List.map_eq_append_iff.mp hown₁
  obtain ⟨l', nil', rfl, hl', hnil⟩ := List.map_eq_cons_iff.mp hlast
  obtain rfl := List.map_eq_nil_iff.mp hnil
  have hlength : own'.length = own.length := by
    simpa using congrArg List.length hown'
  refine ⟨own', l', more' ++ p.later', by simp, hown', hl', ?_, more, more', rfl, rfl, hmore, ?_, ?_⟩
  · have htext := htwins.texts 0 own.length
    rw [List.drop_zero, List.drop_zero, List.append_assoc, List.append_assoc, List.take_left,
      ← hlength, List.take_left] at htext
    exact htext
  · exact fun m hm => htwins.names m (List.mem_append_right _ hm)
  · intro skipped taken
    have htext := htwins.texts ((own ++ [l]).length + skipped) taken
    have hlength' : (own ++ [l]).length = (own' ++ [l']).length := by
      simp [hlength]
    rw [← List.drop_drop, List.drop_left, hlength', ← List.drop_drop, List.drop_left] at htext
    exact htext

/-- The text up to a close is that of the tokens before it. -/
theorem readRawUntil_eq_ok_iff
    {src : SourceText}
    {close : String}
    {taken : Taken String input} :
    readRawUntil src close context input = .ok taken ↔
      ∃ own l, input = own ++ l :: taken.rest ∧ l.token = .symbol close ∧
        depthPast? close 0 (own.map Lexeme.token) = some 0 ∧ taken.value = src.excerpt own := by
  obtain ⟨text, rest, hrest⟩ := taken
  constructor
  · intro h
    obtain ⟨⟨stop, left, hleft⟩, hclose, hvalue⟩ := bind_eq_ok_iff.mp h
    obtain ⟨own, l, hinput, hl, hpast, hstop⟩ := findClose_split hclose
    cases hvalue
    refine ⟨own, l, hinput, hl, hpast, ?_⟩
    dsimp only at hinput hstop ⊢
    rw [hstop, hinput, slice_stopAfter, SourceText.excerpt]
  · rintro ⟨own, l, hinput, hl, hpast, htext⟩
    dsimp only at hinput htext
    subst hinput
    have hclose : findClose src close context 0
        (stopAfter (src.nextOffset (own ++ l :: rest)) own) (l :: rest) =
          .ok ⟨stopAfter (src.nextOffset (own ++ l :: rest)) own, rest, Reading.rest_lt⟩ := by
      simp [findClose, hl]
    obtain ⟨hlt, hok⟩ := findClose_past hpast hclose
    refine bind_eq_ok_iff.mpr ⟨_, hok, ?_⟩
    dsimp only
    rw [slice_stopAfter, htext]
    rfl

/--
The verbatim text up to a closing symbol is the same, as far as the likeness compares such texts.
-/
theorem readRawUntil_continues
    {close : String}
    {taken : Taken String input}
    (hs : p.Shares input input')
    (h : readRawUntil p.src close context input = .ok taken)
    (hin : p.later.length ≤ taken.rest.length) :
    p.Continues k.SameText taken (readRawUntil p.src' close context input') := by
  obtain ⟨own, l, hinput, hl, hpast, htext⟩ := readRawUntil_eq_ok_iff.mp h
  rw [hinput] at hs
  obtain ⟨own', l', rest', rfl, hown, hl', hsame, hs⟩ := hs.split hin
  refine ⟨⟨p.src'.excerpt own', rest', by simp; omega⟩, ?_, htext ▸ hsame, hs⟩
  exact readRawUntil_eq_ok_iff.mpr ⟨own', l', rfl, hl'.trans hl, hown ▸ hpast, rfl⟩

end Nesting

/-! ## Types and parameters -/

/-- Types that two texts with the same tokens may have in the same place. -/
inductive Likeness.Alike (k : Likeness) : TypeExpr → TypeExpr → Prop
  | named {name : String} (h : IsQualified k.IsName name) : k.Alike (.named name) (.named name)
  | sized {a b : TypeExpr} {size size' : String} (h : k.Alike a b)
      (hsize : k.SameText size size') :
      k.Alike (.named (a.text ++ "[" ++ size ++ "]")) (.named (b.text ++ "[" ++ size' ++ "]"))
  | mapping {key key' value value' : TypeExpr} (hkey : k.Alike key key')
      (hvalue : k.Alike value value') : k.Alike (.mapping key value) (.mapping key' value')
  | array {a b : TypeExpr} (h : k.Alike a b) : k.Alike (.array a) (.array b)
  | payable {a b : TypeExpr} (h : k.Alike a b) :
      k.Alike (.named (a.text ++ " payable")) (.named (b.text ++ " payable"))

/-- The same for a type with its marker. -/
structure Likeness.AlikeReading (k : Likeness) (a b : TypeReading) : Prop where
  type : k.Alike a.type b.type
  payable : b.payable = a.payable

/-- The same for a parameter. -/
structure Likeness.AlikeParameter (k : Likeness) (a b : RawParameter) : Prop where
  type : k.AlikeReading a.type b.type
  location : b.location = a.location
  name : b.name = a.name

section Types

variable {k : Likeness} {p : Pairing k} {input input' : List Lexeme}

/-- Brackets behind alike types are read alike in both texts. -/
theorem readBrackets_continues
    {a b type : TypeExpr}
    {left : Left input}
    (hs : p.Shares input input')
    (hab : k.Alike a b)
    (h : readBrackets p.src a input = .ok (type, left))
    (hin : p.later.length < left.1.length) :
    ∃ type' left', readBrackets p.src' b input' = .ok (type', left') ∧ k.Alike type type' ∧
      p.Shares left.1 left'.1 := by
  obtain ⟨n, hn⟩ : ∃ n, input.length = n := ⟨_, rfl⟩
  induction n using Nat.strongRecOn generalizing a b input input' left with
  | ind n ih =>
      subst hn
      obtain ⟨t, rest, t', rest', rfl, rfl, htoken, hrest⟩ :=
        hs.uncons (Nat.lt_of_lt_of_le hin left.2)
      rw [readBrackets] at h
      split at h
      · rename_i hopen
        split at h
        · rename_i hclose
          obtain ⟨⟨inner, left₁, hleft₁⟩, hinner, hvalue⟩ := bind_eq_ok_iff.mp h
          cases hvalue
          dsimp only at hin
          have hlt : p.later.length < rest.length := by
            have : rest.tail.length ≤ rest.length := Reading.tail_le
            omega
          obtain ⟨type', ⟨left', hleft'⟩, hok, halike, hs⟩ :=
            ih rest.tail.length (Reading.lt_cons_of_le Reading.tail_le) (hrest.tail hlt)
              (.array hab) hinner hin rfl
          have hleft : left'.length ≤ (t' :: rest').length :=
            Nat.le_trans hleft' (Nat.le_of_lt (Reading.lt_cons_of_le Reading.tail_le))
          refine ⟨type', ⟨left', hleft⟩, ?_, halike, hs⟩
          rw [readBrackets, if_pos (htoken.trans hopen),
            if_pos ((hrest.atSymbol hlt "]").trans hclose),
            hok]
          rfl
        · rename_i hclose
          obtain ⟨⟨size, next, hnext⟩, hsize, h⟩ := bind_eq_ok_iff.mp h
          obtain ⟨⟨inner, left₁, hleft₁⟩, hinner, hvalue⟩ := bind_eq_ok_iff.mp h
          cases hvalue
          dsimp only at hin
          obtain ⟨⟨size', next', hnext'⟩, hsize', hsame, hs⟩ :=
            readRawUntil_continues hrest hsize (by dsimp only; omega)
          obtain ⟨type', ⟨left', hleft'⟩, hok, halike, hs⟩ :=
            ih next.length (Reading.lt_cons_of_lt hnext) hs (.sized hab hsame) hinner hin rfl
          have hleft := Reading.lt_of_lt_le hnext' hleft'
          refine ⟨type', ⟨left', Nat.le_of_lt (Reading.lt_cons_of_lt hleft)⟩, ?_, halike, hs⟩
          rw [readBrackets, if_pos (htoken.trans hopen),
            if_neg (by rw [hrest.atSymbol (by omega)]; exact hclose), hsize']
          dsimp only [bind, Except.bind]
          rw [hok]
          rfl
      · rename_i hopen
        cases h
        refine ⟨b, ⟨t' :: rest', Nat.le_refl _⟩, ?_, hab, hs⟩
        rw [readBrackets, if_neg (by rw [htoken]; exact hopen)]
        rfl

/-- A marker that may be absent is passed over in both texts or in none. -/
theorem Pairing.Shares.marker
    (hs : p.Shares input input')
    (hin : p.later.length < input.length)
    (marked : Bool) :
    p.Shares (if marked = true then Left.tail input else Left.whole input).1
      (if marked = true then Left.tail input' else Left.whole input').1 := by
  cases marked with
  | true =>
      exact hs.tail hin
  | false =>
      exact hs

/-- A mapping is read from both texts if its key and value are. -/
theorem readMapping_continues
    {t : Lexeme}
    {rest : List Lexeme}
    {taken : Taken TypeReading (t :: rest)}
    (hmapping : t.token = .identifier "mapping")
    (hs : p.Shares (t :: rest) input')
    (h : readType p.src (t :: rest) = .ok taken)
    (hin : p.later.length < taken.rest.length)
    (hparts : ∀ (next next' : List Lexeme) (part : Taken TypeReading next),
      next.length ≤ rest.length → p.Shares next next' → readType p.src next = .ok part →
      p.later.length < part.rest.length →
      p.Continues k.AlikeReading part (readType p.src' next')) :
    p.Continues k.AlikeReading taken (readType p.src' input') := by
  obtain ⟨t', rest', rfl, htoken, -, hrest⟩ :=
    hs.cons (Nat.le_of_lt_succ (Nat.lt_trans hin taken.lt))
  rw [readType, if_pos hmapping] at h
  rw [readType, if_pos (htoken.trans hmapping)]
  obtain ⟨⟨_, r₁, h₁⟩, hopen, h⟩ := bind_eq_ok_iff.mp h
  obtain ⟨⟨key, r₂, h₂⟩, hkey, h⟩ := bind_eq_ok_iff.mp h
  dsimp only at h
  generalize hkeyName : takeIdentifier? r₂ = keyName at h
  obtain ⟨_, r₃, h₃⟩ := keyName
  obtain ⟨⟨_, r₄, h₄⟩, harrow, h⟩ := bind_eq_ok_iff.mp h
  obtain ⟨⟨value, r₅, h₅⟩, hvalue, h⟩ := bind_eq_ok_iff.mp h
  dsimp only at h
  generalize hvalueName : takeIdentifier? r₅ = valueName at h
  obtain ⟨_, r₆, h₆⟩ := valueName
  obtain ⟨⟨_, r₇, h₇⟩, hclose, h⟩ := bind_eq_ok_iff.mp h
  obtain ⟨⟨type, r₈, h₈⟩, hbrackets, h⟩ := bind_eq_ok_iff.mp h
  cases h
  -- The texts do not differ before the end of the type, so they do not between its parts.
  have hin₇ : p.later.length < r₇.length := Nat.lt_of_lt_of_le hin h₈
  have hin₆ : p.later.length < r₆.length := Nat.lt_trans hin₇ h₇
  have hin₅ : p.later.length < r₅.length := Nat.lt_of_lt_of_le hin₆ h₆
  have hin₄ : p.later.length < r₄.length := Nat.lt_trans hin₅ h₅
  have hin₃ : p.later.length < r₃.length := Nat.lt_trans hin₄ h₄
  have hin₂ : p.later.length < r₂.length := Nat.lt_of_lt_of_le hin₃ h₃
  have hin₁ : p.later.length < r₁.length := Nat.lt_trans hin₂ h₂
  obtain ⟨⟨_, r₁', h₁'⟩, hopen', -, hs⟩ := readSymbol_continues hrest hopen (Nat.le_of_lt hin₁)
  obtain ⟨⟨key', r₂', h₂'⟩, hkey', hkeys, hs⟩ := hparts _ _ _ (Nat.le_of_lt h₁) hs hkey hin₂
  refine .bind hopen' (.bind hkey' ?_)
  obtain ⟨-, hs⟩ := takeIdentifier?_shares hs hin₂
  rw [hkeyName] at hs
  dsimp only at hs ⊢
  generalize takeIdentifier? r₂' = keyName' at hs ⊢
  obtain ⟨_, r₃', h₃'⟩ := keyName'
  obtain ⟨⟨_, r₄', h₄'⟩, harrow', -, hs⟩ := readSymbol_continues hs harrow (Nat.le_of_lt hin₄)
  have hkeyLeft : r₃.length < rest.length := Reading.lt_of_lt_le (Reading.lt_of_lt_lt h₁ h₂) h₃
  obtain ⟨⟨value', r₅', h₅'⟩, hvalue', hvalues, hs⟩ :=
    hparts _ _ _ (Nat.le_of_lt (Reading.lt_of_lt_lt hkeyLeft h₄)) hs hvalue hin₅
  refine .bind harrow' (.bind hvalue' ?_)
  obtain ⟨-, hs⟩ := takeIdentifier?_shares hs hin₅
  rw [hvalueName] at hs
  dsimp only at hs ⊢
  generalize takeIdentifier? r₅' = valueName' at hs ⊢
  obtain ⟨_, r₆', h₆'⟩ := valueName'
  obtain ⟨⟨_, r₇', h₇'⟩, hclose', -, hs⟩ := readSymbol_continues hs hclose (Nat.le_of_lt hin₇)
  obtain ⟨type', ⟨r₈', h₈'⟩, hbrackets', halike, hs⟩ :=
    readBrackets_continues hs (.mapping hkeys.type hvalues.type) hbrackets hin
  refine .bind hclose' (.bind hbrackets' ?_)
  exact ⟨_, rfl, ⟨halike, rfl⟩, hs⟩

/-- A type with a name is read from both texts. -/
theorem readNamedType_continues
    {t : Lexeme}
    {rest : List Lexeme}
    {taken : Taken TypeReading (t :: rest)}
    (hmapping : t.token ≠ .identifier "mapping")
    (hs : p.Shares (t :: rest) input')
    (h : readType p.src (t :: rest) = .ok taken)
    (hin : p.later.length < taken.rest.length) :
    p.Continues k.AlikeReading taken (readType p.src' input') := by
  obtain ⟨t', rest', rfl, htoken, -, -⟩ :=
    hs.cons (Nat.le_of_lt_succ (Nat.lt_trans hin taken.lt))
  rw [readType, if_neg hmapping] at h
  rw [readType, if_neg (htoken ▸ hmapping)]
  obtain ⟨⟨base, r₁, h₁⟩, hbase, h⟩ := bind_eq_ok_iff.mp h
  dsimp only at h
  generalize hmarker : (if (decide (base = "address") && atKeyword "payable" r₁) = true
    then Left.tail r₁ else Left.whole r₁) = marker at h
  obtain ⟨r₂, h₂⟩ := marker
  obtain ⟨⟨type, r₃, h₃⟩, hbrackets, h⟩ := bind_eq_ok_iff.mp h
  cases h
  have hin₂ : p.later.length < r₂.length := Nat.lt_of_lt_of_le hin h₃
  have hin₁ : p.later.length < r₁.length := Nat.lt_of_lt_of_le hin₂ h₂
  obtain ⟨⟨base', r₁', h₁'⟩, hbase', ⟨hname, hqualified⟩, hs₁⟩ :=
    readQualifiedName_continues hs hbase hin₁
  refine .bind hbase' ?_
  dsimp only at hname hqualified hs₁ ⊢
  have hs₂ := hs₁.marker hin₁ (decide (base = "address") && atKeyword "payable" r₁)
  rw [hmarker] at hs₂
  rw [hname, hs₁.atKeyword hin₁]
  generalize (if (decide (base = "address") && atKeyword "payable" r₁) = true
    then Left.tail r₁' else Left.whole r₁') = marker' at hs₂ ⊢
  obtain ⟨r₂', h₂'⟩ := marker'
  obtain ⟨type', ⟨r₃', h₃'⟩, hbrackets', halike, hs⟩ :=
    readBrackets_continues hs₂ (.named hqualified) hbrackets hin
  exact .bind hbrackets' ⟨_, rfl, ⟨halike, rfl⟩, hs⟩

/-- A type is read alike in both texts. -/
theorem readType_continues
    {taken : Taken TypeReading input}
    (hs : p.Shares input input')
    (h : readType p.src input = .ok taken)
    (hin : p.later.length < taken.rest.length) :
    p.Continues k.AlikeReading taken (readType p.src' input') := by
  obtain ⟨n, hn⟩ : ∃ n, input.length = n := ⟨_, rfl⟩
  induction n using Nat.strongRecOn generalizing input input' with
  | ind n ih =>
      subst hn
      cases input with
      | nil =>
          exact absurd taken.lt (Nat.not_lt_zero _)
      | cons t rest =>
          by_cases hmapping : t.token = .identifier "mapping"
          · refine readMapping_continues hmapping hs h hin ?_
            intro next next' part hle hnext hpart hlater
            exact ih next.length (Nat.lt_succ_of_le hle) hnext hpart hlater rfl
          · exact readNamedType_continues hmapping hs h hin

/-- A parameter is read alike in both texts. -/
theorem readParameter_continues
    {taken : Taken RawParameter input}
    (hs : p.Shares input input')
    (h : readParameter p.src input = .ok taken)
    (hin : p.later.length < taken.rest.length) :
    p.Continues k.AlikeParameter taken (readParameter p.src' input') := by
  obtain ⟨⟨type, r₁, h₁⟩, htype, h⟩ := bind_eq_ok_iff.mp h
  dsimp only at h
  generalize hlocation : takeLocation? r₁ = location at h
  obtain ⟨location, r₂, h₂⟩ := location
  dsimp only at h
  generalize hindexed : skipKeyword "indexed" r₂ = indexed at h
  obtain ⟨r₃, h₃⟩ := indexed
  dsimp only at h
  generalize hname : takeIdentifier? r₃ = name at h
  obtain ⟨name, r₄, h₄⟩ := name
  cases h
  have hin₃ : p.later.length < r₃.length := Nat.lt_of_lt_of_le hin h₄
  have hin₂ : p.later.length < r₂.length := Nat.lt_of_lt_of_le hin₃ h₃
  have hin₁ : p.later.length < r₁.length := Nat.lt_of_lt_of_le hin₂ h₂
  obtain ⟨⟨type', r₁', h₁'⟩, htype', htypes, hs⟩ := readType_continues hs htype hin₁
  refine .bind htype' ?_
  obtain ⟨hlocations, hs⟩ := takeLocation?_shares hs hin₁
  rw [hlocation] at hlocations hs
  dsimp only at hlocations hs ⊢
  generalize takeLocation? r₁' = location' at hlocations hs ⊢
  obtain ⟨location', r₂', h₂'⟩ := location'
  have hs := skipKeyword_shares hs hin₂ "indexed"
  rw [hindexed] at hs
  dsimp only at hs ⊢
  generalize skipKeyword "indexed" r₂' = indexed' at hs ⊢
  obtain ⟨r₃', h₃'⟩ := indexed'
  obtain ⟨hnames, hs⟩ := takeIdentifier?_shares hs hin₃
  rw [hname] at hnames hs
  dsimp only at hnames hs ⊢
  generalize takeIdentifier? r₃' = name' at hnames hs ⊢
  obtain ⟨name', r₄', h₄'⟩ := name'
  exact ⟨_, rfl, ⟨htypes, hlocations, congrArg (Option.getD · "") hnames⟩, hs⟩

theorem readParametersToClose_continues
    {taken : Taken (List RawParameter) input}
    (hs : p.Shares input input')
    (h : readParametersToClose p.src input = .ok taken)
    (hin : p.later.length ≤ taken.rest.length) :
    p.Continues (List.Forall₂ k.AlikeParameter) taken (readParametersToClose p.src' input') := by
  obtain ⟨n, hn⟩ : ∃ n, input.length = n := ⟨_, rfl⟩
  induction n using Nat.strongRecOn generalizing input input' with
  | ind n ih =>
      subst hn
      rw [readParametersToClose] at h ⊢
      obtain ⟨⟨parameter, r₁, h₁⟩, hparameter, h⟩ := bind_eq_ok_iff.mp h
      dsimp only at h
      split at h
      · rename_i hcomma
        obtain ⟨⟨parameters, r₂, h₂⟩, hparameters, h⟩ := bind_eq_ok_iff.mp h
        cases h
        have hin₁ : p.later.length < r₁.length :=
          Nat.lt_of_le_of_lt hin (Reading.lt_of_lt_tail h₂)
        obtain ⟨⟨parameter', r₁', h₁'⟩, hparameter', halike, hs₁⟩ :=
          readParameter_continues hs hparameter hin₁
        refine .bind hparameter' ?_
        dsimp only at hs₁ ⊢
        rw [hs₁.atSymbol hin₁ ",", if_pos hcomma]
        obtain ⟨⟨parameters', r₂', h₂'⟩, hparameters', halikes, hs₂⟩ :=
          ih _ (Reading.lt_of_lt_le h₁ Reading.tail_le) (hs₁.tail hin₁) hparameters hin rfl
        exact .bind hparameters' ⟨_, rfl, .cons halike halikes, hs₂⟩
      · rename_i hcomma
        obtain ⟨⟨_, r₂, h₂⟩, hclose, h⟩ := bind_eq_ok_iff.mp h
        cases h
        have hin₁ : p.later.length < r₁.length := Nat.lt_of_le_of_lt hin h₂
        obtain ⟨⟨parameter', r₁', h₁'⟩, hparameter', halike, hs₁⟩ :=
          readParameter_continues hs hparameter hin₁
        refine .bind hparameter' ?_
        dsimp only at hs₁ ⊢
        rw [hs₁.atSymbol hin₁ ",", if_neg hcomma]
        obtain ⟨⟨_, r₂', h₂'⟩, hclose', -, hs₂⟩ := readSymbol_continues hs₁ hclose hin
        exact .bind hclose' ⟨_, rfl, .cons halike .nil, hs₂⟩

theorem readParameterList_continues
    {taken : Taken (List RawParameter) input}
    (hs : p.Shares input input')
    (h : readParameterList p.src input = .ok taken)
    (hin : p.later.length ≤ taken.rest.length) :
    p.Continues (List.Forall₂ k.AlikeParameter) taken (readParameterList p.src' input') := by
  obtain ⟨⟨_, r₁, h₁⟩, hopen, h⟩ := bind_eq_ok_iff.mp h
  dsimp only at h
  split at h
  · rename_i hclose
    cases h
    have hin₁ : p.later.length < r₁.length :=
      Nat.lt_of_le_of_lt hin (tail_lt_of_atSymbol hclose)
    obtain ⟨⟨_, r₁', h₁'⟩, hopen', -, hs₁⟩ := readSymbol_continues hs hopen (Nat.le_of_lt hin₁)
    refine .bind hopen' ?_
    dsimp only at hs₁ ⊢
    rw [hs₁.atSymbol hin₁ ")", if_pos hclose]
    exact ⟨_, rfl, .nil, hs₁.tail hin₁⟩
  · rename_i hclose
    obtain ⟨⟨parameters, r₂, h₂⟩, hparameters, h⟩ := bind_eq_ok_iff.mp h
    cases h
    have hin₁ : p.later.length < r₁.length := Nat.lt_of_le_of_lt hin h₂
    obtain ⟨⟨_, r₁', h₁'⟩, hopen', -, hs₁⟩ := readSymbol_continues hs hopen (Nat.le_of_lt hin₁)
    refine .bind hopen' ?_
    dsimp only at hs₁ ⊢
    rw [hs₁.atSymbol hin₁ ")", if_neg hclose]
    obtain ⟨⟨parameters', r₂', h₂'⟩, hparameters', halikes, hs₂⟩ :=
      readParametersToClose_continues hs₁ hparameters hin
    exact .bind hparameters' ⟨_, rfl, halikes, hs₂⟩

end Types

end Source
end ContractGen
