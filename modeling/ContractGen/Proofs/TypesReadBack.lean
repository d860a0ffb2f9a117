import ContractGen.Proofs.Excerpts
import ContractGen.Proofs.ReadDeclarations
import ContractGen.Proofs.ReadingWithin

/-!
# Types that are read are read back

A type that was read off the tokens of a text has a text of its own, which need not be the one it
was read from: names of keys and values are gone, and so are blanks and comments. Reading this text
gives the same type again. The size of an array is kept as it was written, so it is an excerpt of
the text that was read.

**Definitions.**
* `Gives`: what is true of the value of a computation that succeeds.
* `IsInput`: tokens that are left of those of a text.
* `TypeExpr.ReadsBack`: the text of a type is read back as the type.
* `TypeReading.IsSound`: what reading a type gives.

**Results.**
* `readType_gives`: types that are read are read back.
* `readFunction_gives`: so are those of the parameters and return values of a function.
-/

namespace ContractGen
namespace Source

open Target
open Domain (reservedWords)

/-! ## What readers give -/

section Gives

variable {γ δ : Type} {src : SourceText} {input rest : List Lexeme}

/-- What is true of the value of a computation, if it succeeds. -/
def Gives (result : Except SyntaxError γ) (P : γ → Prop) : Prop :=
  ∀ value, result = .ok value → P value

theorem gives_ok
    {P : γ → Prop} {value : γ}
    (h : P value) :
    Gives (.ok value) P := by
  rintro _ ⟨rfl⟩
  exact h

theorem gives_error
    {P : γ → Prop}
    (e : SyntaxError) :
    Gives (.error e) P := by
  rintro _ ⟨⟩

/-- Where the first step gives `P` and the second gives `Q` from it, both in sequence give `Q`. -/
theorem Gives.bind
    {P : γ → Prop} {Q : δ → Prop} {result : Except SyntaxError γ} {next : γ → Except SyntaxError δ}
    (h : Gives result P)
    (hnext : ∀ value, P value → Gives (next value) Q) :
    Gives (result >>= next) Q := by
  cases result with
  | error e =>
      exact gives_error e
  | ok value =>
      exact hnext value (h value rfl)

/-- Tokens that are left of the readable tokens of a text. -/
def IsInput (src : SourceText) (input : List Lexeme) : Prop :=
  ∃ lexemes, Tiles src.chars lexemes ∧ input <:+ lexemes.filter Lexeme.isReadable

theorem IsInput.suffix
    (h : IsInput src input)
    (hsuffix : rest <:+ input) :
    IsInput src rest := by
  obtain ⟨lexemes, htiles, hinput⟩ := h
  exact ⟨lexemes, htiles, hsuffix.trans hinput⟩

/-- What stays within the input leaves input. -/
theorem IsInput.within
    {left : γ → List Lexeme} {result : Except SyntaxError γ}
    (h : IsInput src input)
    (hwithin : Within src input left result) :
    Gives result fun value => IsInput src (left value) := by
  rintro value rfl
  exact h.suffix hwithin

/-- The identifiers of a text are written like identifiers. -/
theorem IsInput.isIdentifier
    {l : Lexeme} {name : String}
    (h : IsInput src input)
    (hl : l ∈ input)
    (hname : l.token = .identifier name) :
    isIdentifier name = true := by
  obtain ⟨lexemes, htiles, hinput⟩ := h
  have hspelled := htiles.spelled l (List.mem_filter.mp (hinput.mem hl)).1
  rw [hname, spelled_identifier_iff] at hspelled
  exact hspelled.2.1

end Gives

/-! ## Excerpts that end with a close -/

section Excerpts

variable {src : SourceText} {input : List Lexeme}

/-- A text that is passed over as a whole in front of a close, and is kept as it is written. -/
def IsExcerpt (close text : String) : Prop :=
  ∃ ts, ts ≠ [] ∧ Text.trimmed text = text ∧ depthPast? close 0 ts = some 0 ∧
    SpellsApart text [.stretch text ts]

/-- The text up to the next close is an excerpt, if the close does not come first. -/
theorem readRawUntil_gives
    {close : String}
    (context : String)
    (h : IsInput src input)
    (hfirst : atSymbol close input = false) :
    Gives (readRawUntil src close context input) fun t =>
      IsExcerpt close t.value ∧ IsInput src t.rest := by
  intro taken hread
  obtain ⟨⟨stop, rest, hlt⟩, hclose, hvalue⟩ := bind_eq_ok_iff.mp hread
  cases hvalue
  obtain ⟨own, l, happ, hl, hpast, hstop⟩ := findClose_split hclose
  dsimp only at happ hstop
  have hrest : IsInput src rest := by
    refine h.suffix ?_
    rw [happ]
    exact (List.suffix_cons l rest).trans (List.suffix_append own _)
  have hne : own ≠ [] := by
    rintro rfl
    rw [happ] at hfirst
    simp [atSymbol, hl] at hfirst
  obtain ⟨lexemes, htiles, before, hbefore⟩ := h
  rw [happ] at hbefore
  obtain ⟨htrim, hspells⟩ := spellsApart_excerpt htiles hbefore.symm hne
  have htext : String.ofList (Text.trim (src.slice (src.nextOffset input) stop)) =
      String.ofList (src.span own) := by
    rw [hstop, happ, slice_stopAfter, htrim]
  refine ⟨⟨own.map Lexeme.token, by simpa using hne, ?_, hpast, ?_⟩, hrest⟩
  · dsimp only
    rw [htext, Text.trimmed, String.toList_ofList, htrim]
  · dsimp only
    rw [htext]
    exact hspells

end Excerpts

/-! ## Types that are read back -/

section Types

variable {src : SourceText} {gs : List Glyph} {type : TypeExpr}

/-- An array with a size becomes a named type. -/
theorem readBrackets_sized
    {type' : TypeExpr} {l : Lexeme} {rest left next : List Lexeme} {size : String}
    {hnext : next.length < rest.length} {hleft : left.length ≤ next.length}
    (hl : l.token = .symbol "[")
    (hfirst : atSymbol "]" rest = false)
    (hsize : readRawUntil src "]" "array size" rest = .ok ⟨size, next, hnext⟩)
    (h : readBrackets src (.named (type.text ++ "[" ++ size ++ "]")) next =
      .ok (type', ⟨left, hleft⟩)) :
    ∃ hleft', readBrackets src type (l :: rest) = .ok (type', ⟨left, hleft'⟩) := by
  refine ⟨by simp only [List.length_cons]; omega, ?_⟩
  rw [readBrackets]
  simp [hl, hfirst, hsize, h, bind, Except.bind, pure, Except.pure]

theorem readsClosed_sized
    {size : String} {ts : List Token}
    (h : ReadsType src gs type)
    (hne : ts ≠ [])
    (htrim : Text.trimmed size = size)
    (hpast : depthPast? "]" 0 ts = some 0) :
    ReadsClosed src (gs ++ [sign "[", .stretch size ts, sign "]"])
      (.named (type.text ++ "[" ++ size ++ "]")) := by
  intro hs input hshows
  rw [List.append_assoc] at hshows
  obtain ⟨rest, hrest, hdone⟩ :=
    h _ input (leads_token (t := .symbol "[") (by simp [EndsName])) hshows
  obtain ⟨l, rest, rfl, hl, hrest⟩ := shows_token.mp hrest
  -- The size does not begin with a close, so these are no empty brackets.
  have hfirst : atSymbol "]" rest = false := by
    obtain ⟨t, ts, rfl⟩ := List.exists_cons_of_ne_nil hne
    obtain ⟨own, later, rfl, hown, -, -⟩ := shows_stretch.mp hrest
    obtain ⟨k, own, rfl, hk, -⟩ := List.map_eq_cons_iff.mp hown
    rw [depthPast?] at hpast
    split at hpast
    · cases hpast
    · rename_i hplain
      simpa [atSymbol, hk] using hplain
  obtain ⟨next, hnext, hsize, hshown⟩ :=
    readRawUntil_stretch "]" "array size" htrim hpast rest hrest
  refine ⟨next, hshown, fun type' left hleft hbrackets => ?_⟩
  obtain ⟨hleft', hok⟩ := readBrackets_sized hl hfirst hsize hbrackets
  exact hdone type' left hleft' hok

/-- The text of a type is read back as the type. -/
def ReadsBack (type : TypeExpr) : Prop :=
  ∃ first gs, SpellsApart type.text (word first :: gs) ∧
    ∀ src, ReadsType src (word first :: gs) type

/-- The text of a type ends with a bracket and is read back as the type, whatever follows. -/
def ReadsBackClosed (type : TypeExpr) : Prop :=
  (∃ text, type.text = text ++ "]") ∧
    ∃ first gs, SpellsApart type.text (word first :: gs) ∧
      ∀ src, ReadsClosed src (word first :: gs) type

theorem ReadsBackClosed.readsBack
    (h : ReadsBackClosed type) :
    ReadsBack type := by
  obtain ⟨-, first, gs, hspells, hreads⟩ := h
  exact ⟨first, gs, hspells, fun src => (hreads src).readsType⟩

/-- A mapping reads back if its key and its value type do. -/
theorem readsBack_mapping
    {key value : TypeExpr}
    (hkey : ReadsBack key)
    (hvalue : ReadsBack value) :
    ReadsBack (.mapping key value) := by
  obtain ⟨k, kg, hspellsKey, hreadsKey⟩ := hkey
  obtain ⟨v, vg, hspellsValue, hreadsValue⟩ := hvalue
  refine ⟨"mapping", _, ?_, fun src => readsType_mapping (hreadsKey src) (hreadsValue src)⟩
  have hopen := (spells_mappingOpen.appendApart hspellsKey).close closes_mapsTo
  have hclose := (hopen.appendApart hspellsValue).close closes_close
  simpa [TypeExpr.text] using hclose.apart

theorem readsBackClosed_array
    (h : ReadsBack type) :
    ReadsBackClosed (.array type) := by
  obtain ⟨first, gs, hspells, hreads⟩ := h
  refine ⟨⟨type.text ++ "[", by simp [TypeExpr.text, String.append_assoc]⟩,
    first, gs ++ [sign "[", sign "]"], ?_, fun src => readsClosed_array (hreads src)⟩
  exact (hspells.close closes_brackets).apart

/-- A sized array reads back from the verbatim text of its size. -/
theorem readsBackClosed_sized
    {size : String}
    (h : ReadsBack type)
    (hsize : IsExcerpt "]" size) :
    ReadsBackClosed (.named (type.text ++ "[" ++ size ++ "]")) := by
  obtain ⟨first, gs, hspells, hreads⟩ := h
  obtain ⟨ts, hne, htrim, hpast, hstretch⟩ := hsize
  refine ⟨⟨_, rfl⟩, first, gs ++ [sign "[", .stretch size ts, sign "]"], ?_,
    fun src => readsClosed_sized (hreads src) hne htrim hpast⟩
  have hopen := (hspells.close closes_openBracket).appendApart hstretch
  have hclose := hopen.close closes_closeBracket
  simpa [TypeExpr.text] using hclose.apart

end Types

/-! ## Types as they are read -/

section Readings

variable {src : SourceText} {input : List Lexeme}

/-- A name and a dot before a text that is spelled. -/
theorem spellsApart_dot
    {name tail : String} {gs : List Glyph}
    (hname : isIdentifier name = true)
    (h : SpellsApart tail gs) :
    SpellsApart (name ++ "." ++ tail) (word name :: sign "." :: gs) := by
  intro rest hs hbreak hrest
  have hdot : Scans ('.' :: (tail.toList ++ rest)) (sign "." :: (gs ++ hs)) :=
    spells_sign (c := '.') (by decide) _ _ (h rest hs hbreak hrest)
  have hword := hdot.word hname (by simp; decide)
  simpa using hword

/-- A dotted name that is read back, and that no bracket is part of. -/
def IsNameReading (first name : String) : Prop :=
  ']' ∉ name.toList ∧ ∃ gs, SpellsApart name (word first :: gs) ∧
    ∀ src what hs, Leads (· ≠ .symbol ".") hs →
      Yields src (readQualifiedName src what) (word first :: (gs ++ hs)) name hs

theorem isNameReading_one
    {name : String}
    (h : isIdentifier name = true) :
    IsNameReading name name :=
  ⟨not_mem_of_isIdentifier h (by decide), [], spellsApart_word name h,
    fun _ _ _ hlead => readQualifiedName_one hlead⟩

theorem IsNameReading.cons
    {name first tail : String}
    (hname : isIdentifier name = true)
    (h : IsNameReading first tail) :
    IsNameReading name (name ++ "." ++ tail) := by
  obtain ⟨hbracket, gs, hspells, hreads⟩ := h
  refine ⟨?_, sign "." :: word first :: gs, spellsApart_dot hname hspells,
    fun src what hs hlead => readQualifiedName_cons name (hreads src what hs hlead)⟩
  simp [not_mem_of_isIdentifier (c := ']') hname (by decide), hbracket]

/-- A dotted name that was read is read back. -/
theorem readQualifiedName_gives
    (what : String)
    (h : IsInput src input) :
    Gives (readQualifiedName src what input) fun t =>
      IsInput src t.rest ∧
        ∃ l ∈ input.head?, ∃ first, l.token = .identifier first ∧ IsNameReading first t.value := by
  fun_induction readQualifiedName src what input with
  | case1 =>
      exact gives_error _
  | case2 t name hname =>
      exact gives_ok ⟨h.suffix List.nil_suffix, t, rfl, name, hname,
        isNameReading_one (h.isIdentifier List.mem_cons_self hname)⟩
  | case3 t hother =>
      exact gives_error _
  | case4 t dot rest name hname hdot ih =>
      have hrest : IsInput src rest :=
        h.suffix ((List.suffix_cons dot rest).trans (List.suffix_cons t _))
      refine (ih hrest).bind ?_
      rintro ⟨tail, left, hleft⟩ ⟨hinput, -, -, first, -, htail⟩
      exact gives_ok ⟨hinput, t, rfl, name, hname,
        htail.cons (h.isIdentifier List.mem_cons_self hname)⟩
  | case5 t dot rest name hname hdot =>
      exact gives_ok ⟨h.suffix (List.suffix_cons t _), t, rfl, name, hname,
        isNameReading_one (h.isIdentifier List.mem_cons_self hname)⟩
  | case6 t dot rest hother =>
      exact gives_error _

/-- Brackets behind a type that reads back make a type that reads back, bracket after bracket. -/
theorem readBrackets_gives
    {type : TypeExpr}
    (h : IsInput src input)
    (htype : ReadsBack type) :
    Gives (readBrackets src type input) fun g =>
      IsInput src (leftOver g) ∧ (g.1 = type ∨ ReadsBackClosed g.1) := by
  induction hn : input.length using Nat.strongRecOn generalizing type input with
  | ind n ih =>
      subst hn
      cases input with
      | nil =>
          rw [readBrackets]
          exact gives_ok ⟨h, Or.inl rfl⟩
      | cons t rest =>
          rw [readBrackets]
          have hrest : IsInput src rest := h.suffix (List.suffix_cons t rest)
          split
          · split
            · have hlt : rest.tail.length < (t :: rest).length :=
                Reading.lt_cons_of_le Reading.tail_le
              have harray := readsBackClosed_array htype
              refine (ih _ hlt (hrest.suffix (List.tail_suffix rest)) harray.readsBack rfl).bind ?_
              rintro ⟨type', left, hleft⟩ ⟨hinput, hclosed⟩
              exact gives_ok ⟨hinput, Or.inr (hclosed.elim (fun he => he ▸ harray) id)⟩
            · rename_i hfirst
              refine (readRawUntil_gives "array size" hrest (by simpa using hfirst)).bind ?_
              rintro ⟨size, next, hnext⟩ ⟨hsize, hinput⟩
              have hsized := readsBackClosed_sized htype hsize
              refine (ih _ (Reading.lt_cons_of_lt hnext) hinput hsized.readsBack rfl).bind ?_
              rintro ⟨type', left, hleft⟩ ⟨hinput', hclosed⟩
              exact gives_ok ⟨hinput', Or.inr (hclosed.elim (fun he => he ▸ hsized) id)⟩
          · exact gives_ok ⟨h, Or.inl rfl⟩

/-- The payable marker after the brackets of an array of addresses. -/
def IsPayableArray : TypeExpr → Prop
  | .named name => "] payable".toList <:+ name.toList
  | _ => False

instance (type : TypeExpr) : Decidable (IsPayableArray type) :=
  match type with
  | .named name => inferInstanceAs (Decidable ("] payable".toList <:+ name.toList))
  | .enumeration _ => isFalse id
  | .mapping _ _ => isFalse id
  | .array _ => isFalse id

/-- What reading a type gives. -/
structure TypeReading.IsSound (t : TypeReading) : Prop where
  type : ReadsBack t.type
  plain : ¬ IsPayableArray t.type
  payable : t.payable = true → t.type = .named "address" ∨ ReadsBackClosed t.type

theorem ReadsBackClosed.plain
    {type : TypeExpr}
    (h : ReadsBackClosed type) :
    ¬ IsPayableArray type := by
  obtain ⟨⟨text, htext⟩, -⟩ := h
  cases type with
  | named name =>
      rintro ⟨front, hfront⟩
      have hlast := congrArg List.getLast? (hfront.trans (congrArg String.toList htext))
      simp at hlast
  | enumeration name =>
      exact id
  | mapping key value =>
      exact id
  | array element =>
      exact id

/-- A dotted name reads back and is no array of payable addresses. -/
theorem readsBack_named
    {first name : String}
    (hfirst : first ≠ "mapping")
    (h : IsNameReading first name) :
    ReadsBack (.named name) ∧ ¬ IsPayableArray (.named name) := by
  obtain ⟨hbracket, gs, hspells, hreads⟩ := h
  refine ⟨⟨first, gs, hspells, fun src => readsType_name hfirst (hreads src "a type")⟩, ?_⟩
  intro hsuffix
  exact hbracket (hsuffix.mem (by decide))

/-- Brackets leave a sound reading sound. -/
theorem isSound_of_brackets
    {base type : TypeExpr} {payable : Bool}
    (hbase : ReadsBack base)
    (hplain : ¬ IsPayableArray base)
    (htype : type = base ∨ ReadsBackClosed type)
    (hpayable : payable = true → base = .named "address") :
    TypeReading.IsSound { type, payable } := by
  rcases htype with rfl | hclosed
  · exact ⟨hbase, hplain, fun h => Or.inl (hpayable h)⟩
  · exact ⟨hclosed.readsBack, hclosed.plain, fun _ => Or.inr hclosed⟩

/-- A type that was read is read back. -/
theorem readType_gives
    (h : IsInput src input) :
    Gives (readType src input) fun t => IsInput src t.rest ∧ t.value.IsSound := by
  induction hn : input.length using Nat.strongRecOn generalizing input with
  | ind n ih =>
      subst hn
      cases input with
      | nil =>
          rw [readType]
          exact gives_error _
      | cons t rest =>
          rw [readType]
          have hrest : IsInput src rest := h.suffix (List.suffix_cons t rest)
          split
          · refine (hrest.within (readSymbol_within "(" rest)).bind ?_
            rintro ⟨_, r₁, h₁⟩ hr₁
            refine (ih _ (Reading.lt_cons_of_lt h₁) hr₁ rfl).bind ?_
            rintro ⟨key, r₂, h₂⟩ ⟨hr₂, hkey⟩
            have hr₃ : IsInput src (takeIdentifier? r₂).2.1 := hr₂.suffix (takeIdentifier?_suffix r₂)
            dsimp only
            generalize takeIdentifier? r₂ = keyName at hr₃ ⊢
            obtain ⟨_, r₃, h₃⟩ := keyName
            refine (hr₃.within (readSymbol_within "=>" r₃)).bind ?_
            rintro ⟨_, r₄, h₄⟩ hr₄
            have hkeyLeft := Reading.lt_of_lt_le (Reading.lt_of_lt_lt h₁ h₂) h₃
            have hlt : r₄.length < (t :: rest).length :=
              Reading.lt_cons_of_lt (Reading.lt_of_lt_lt hkeyLeft h₄)
            refine (ih _ hlt hr₄ rfl).bind ?_
            rintro ⟨value, r₅, h₅⟩ ⟨hr₅, hvalue⟩
            have hr₆ : IsInput src (takeIdentifier? r₅).2.1 := hr₅.suffix (takeIdentifier?_suffix r₅)
            dsimp only
            generalize takeIdentifier? r₅ = valueName at hr₆ ⊢
            obtain ⟨_, r₆, h₆⟩ := valueName
            refine (hr₆.within (readSymbol_within ")" r₆)).bind ?_
            rintro ⟨_, r₇, h₇⟩ hr₇
            have hmapping := readsBack_mapping hkey.type hvalue.type
            refine (readBrackets_gives hr₇ hmapping).bind ?_
            rintro ⟨type, r₈, h₈⟩ ⟨hr₈, hclosed⟩
            refine gives_ok ⟨hr₈, isSound_of_brackets hmapping id hclosed ?_⟩
            rintro ⟨⟩
          · rename_i hname
            refine (readQualifiedName_gives "a type" h).bind ?_
            rintro ⟨base, r₁, h₁⟩ ⟨hr₁, l, hl, first, htoken, hbase⟩
            have hfirst : first ≠ "mapping" := by
              rintro rfl
              cases hl
              exact hname htoken
            obtain ⟨hnamed, hplain⟩ := readsBack_named hfirst hbase
            dsimp only
            have hr₂ := hr₁.suffix
              (marker_suffix r₁ (decide (base = "address") && atKeyword "payable" r₁))
            generalize (if (decide (base = "address") && atKeyword "payable" r₁) = true
                then Left.tail r₁ else Left.whole r₁) = marker at hr₂ ⊢
            obtain ⟨r₂, h₂⟩ := marker
            refine (readBrackets_gives hr₂ hnamed).bind ?_
            rintro ⟨type, r₃, h₃⟩ ⟨hr₃, hclosed⟩
            refine gives_ok ⟨hr₃, isSound_of_brackets hnamed hplain hclosed fun hpayable => ?_⟩
            rw [Bool.and_eq_true, decide_eq_true_eq] at hpayable
            rw [hpayable.1]

end Readings

/-! ## Parameters and functions as they are read -/

section Functions

variable {src : SourceText} {input : List Lexeme}

/-- What reading a parameter gives. -/
structure RawParameter.IsSound (p : RawParameter) : Prop where
  type : p.type.IsSound
  name : p.name = "" ∨ isIdentifier p.name = true

theorem takeIdentifier?_name
    (h : IsInput src input) :
    (takeIdentifier? input).1.getD "" = "" ∨
      isIdentifier ((takeIdentifier? input).1.getD "") = true := by
  cases input with
  | nil =>
      exact Or.inl rfl
  | cons t rest =>
      rw [takeIdentifier?]
      split
      · rename_i name hname
        exact Or.inr (h.isIdentifier List.mem_cons_self hname)
      · exact Or.inl rfl

/--
Every parameter that is read has a type that reads back and an identifier or nothing as its name.
-/
theorem readParameter_gives
    (h : IsInput src input) :
    Gives (readParameter src input) fun t => IsInput src t.rest ∧ t.value.IsSound := by
  refine (readType_gives h).bind ?_
  rintro ⟨type, r₁, h₁⟩ ⟨hr₁, htype⟩
  have hr₂ : IsInput src (takeLocation? r₁).2.1 := hr₁.suffix (takeLocation?_suffix r₁)
  dsimp only
  generalize takeLocation? r₁ = location at hr₂ ⊢
  obtain ⟨_, r₂, h₂⟩ := location
  have hr₃ : IsInput src (skipKeyword "indexed" r₂).1 :=
    hr₂.suffix (skipKeyword_suffix "indexed" r₂)
  dsimp only
  generalize skipKeyword "indexed" r₂ = indexed at hr₃ ⊢
  obtain ⟨r₃, h₃⟩ := indexed
  have hname := takeIdentifier?_name hr₃
  have hr₄ : IsInput src (takeIdentifier? r₃).2.1 := hr₃.suffix (takeIdentifier?_suffix r₃)
  exact gives_ok ⟨hr₄, htype, hname⟩

theorem readParametersToClose_gives
    (h : IsInput src input) :
    Gives (readParametersToClose src input) fun t =>
      IsInput src t.rest ∧ ∀ p ∈ t.value, p.IsSound := by
  induction hn : input.length using Nat.strongRecOn generalizing input with
  | ind n ih =>
      subst hn
      rw [readParametersToClose]
      refine (readParameter_gives h).bind ?_
      rintro ⟨parameter, rest, hlt⟩ ⟨hrest, hparameter⟩
      dsimp only
      split
      · have hshort : rest.tail.length < input.length := Reading.lt_of_lt_le hlt Reading.tail_le
        refine (ih _ hshort (hrest.suffix (List.tail_suffix rest)) rfl).bind ?_
        rintro ⟨parameters, left, hleft⟩ ⟨hinput, hparameters⟩
        exact gives_ok ⟨hinput, List.forall_mem_cons.mpr ⟨hparameter, hparameters⟩⟩
      · refine (hrest.within (readSymbol_within ")" rest)).bind ?_
        rintro ⟨_, left, hleft⟩ hinput
        exact gives_ok ⟨hinput, List.forall_mem_singleton.mpr hparameter⟩

theorem readParameterList_gives
    (h : IsInput src input) :
    Gives (readParameterList src input) fun t =>
      IsInput src t.rest ∧ ∀ p ∈ t.value, p.IsSound := by
  refine (h.within (readSymbol_within "(" input)).bind ?_
  rintro ⟨_, rest, hlt⟩ hrest
  dsimp only
  split
  · exact gives_ok ⟨hrest.suffix (List.tail_suffix rest), List.forall_mem_nil _⟩
  · refine (readParametersToClose_gives hrest).bind ?_
    rintro ⟨parameters, left, hleft⟩ hparameters
    exact gives_ok hparameters

/-- A type as parameters and return values have it. -/
def IsPassed (type : TypeExpr) : Prop :=
  ∃ t : TypeReading, t.IsSound ∧ t.parameterType = type

/-- What reading a function gives. -/
structure IsReadFunction (f : Function) : Prop where
  name : isIdentifier f.name = true
  parameters : ∀ p ∈ f.parameters, IsPassed p.type ∧ (p.name = "" ∨ isIdentifier p.name = true)
  returns : ∀ type ∈ f.returns, IsPassed type
  statements : f.statements = []

theorem qualify_keeps
    (f : Function)
    (word : String) :
    (qualify f word).name = f.name ∧ (qualify f word).parameters = f.parameters ∧
      (qualify f word).returns = f.returns ∧ (qualify f word).statements = f.statements := by
  unfold qualify
  split_ifs <;> exact ⟨rfl, rfl, rfl, rfl⟩

/-- A qualifier keeps a function one that can be read. -/
theorem IsReadFunction.qualify
    {f : Function}
    (h : IsReadFunction f)
    (word : String) :
    IsReadFunction (qualify f word) := by
  obtain ⟨hname, hparameters, hreturns, hstatements⟩ := qualify_keeps f word
  refine ⟨by rw [hname]; exact h.name, by rw [hparameters]; exact h.parameters,
    by rw [hreturns]; exact h.returns, by rw [hstatements]; exact h.statements⟩

/-- The end of a function keeps its parameters. -/
theorem readFunctionTail_gives
    {f : Function}
    (context : String)
    (h : IsInput src input)
    (hf : IsReadFunction f) :
    Gives (readFunctionTail src context f input) fun t =>
      IsReadFunction t.value ∧ t.value.parameters = f.parameters := by
  induction hn : input.length using Nat.strongRecOn generalizing f input with
  | ind n ih =>
      subst hn
      cases input with
      | nil =>
          rw [readFunctionTail]
          exact gives_error _
      | cons t rest =>
          rw [readFunctionTail]
          have hrest : IsInput src rest := h.suffix (List.suffix_cons t rest)
          split
          · exact gives_ok ⟨hf, rfl⟩
          · refine (h.within (skipToClose_within context 0 (t :: rest))).bind ?_
            intro skipped _
            exact gives_ok ⟨hf, rfl⟩
          · refine (readParameterList_gives hrest).bind ?_
            rintro ⟨raw, next, hnext⟩ ⟨hinput, hraw⟩
            have hreturns : IsReadFunction
                { f with returns := raw.map fun p => p.type.parameterType } := by
              refine ⟨hf.name, hf.parameters, fun type htype => ?_, hf.statements⟩
              obtain ⟨p, hp, rfl⟩ := List.mem_map.mp htype
              exact ⟨p.type, (hraw p hp).type, rfl⟩
            refine (ih _ (Reading.lt_cons_of_lt hnext) hinput hreturns rfl).bind ?_
            rintro ⟨f', left, hleft⟩ hf'
            exact gives_ok hf'
          · rename_i word _ _
            refine (hrest.within (skipQualifierArguments_within context word rest)).bind ?_
            rintro ⟨next, hnext⟩ hinput
            refine (ih _ (Reading.lt_cons_of_le hnext) hinput (hf.qualify word) rfl).bind ?_
            rintro ⟨f', left, hleft⟩ ⟨hread, hkept⟩
            exact gives_ok ⟨hread, hkept.trans (qualify_keeps f word).2.1⟩
          · exact gives_error _

theorem readIdentifier_gives
    (what : String)
    (h : IsInput src input) :
    Gives (readIdentifier src what input) fun t =>
      IsInput src t.rest ∧ isIdentifier t.value = true := by
  cases input with
  | nil =>
      exact gives_error _
  | cons t rest =>
      rw [readIdentifier]
      split
      · rename_i name hname
        exact gives_ok
          ⟨h.suffix (List.suffix_cons t rest), h.isIdentifier List.mem_cons_self hname⟩
      · exact gives_error _

theorem readParameters_gives
    (h : IsInput src input) :
    Gives (readParameters src input) fun t =>
      IsInput src t.rest ∧
        ∀ p ∈ t.value, IsPassed p.type ∧ (p.name = "" ∨ isIdentifier p.name = true) := by
  refine (readParameterList_gives h).bind ?_
  rintro ⟨raw, rest, hlt⟩ ⟨hinput, hraw⟩
  refine gives_ok ⟨hinput, fun p hp => ?_⟩
  obtain ⟨r, hr, rfl⟩ := List.mem_map.mp hp
  exact ⟨⟨r.type, (hraw r hr).type, rfl⟩, (hraw r hr).name⟩

/-- A function that was read has types that are read back. -/
theorem readFunction_gives
    (visibility : Visibility)
    (h : IsInput src input) :
    Gives (readFunction src visibility input) fun t => IsReadFunction t.value := by
  refine (readIdentifier_gives "a function name" h).bind ?_
  rintro ⟨name, r₁, h₁⟩ ⟨hr₁, hname⟩
  refine (readParameters_gives hr₁).bind ?_
  rintro ⟨parameters, r₂, h₂⟩ ⟨hr₂, hparameters⟩
  have hstart : IsReadFunction { name, visibility, parameters } :=
    ⟨hname, hparameters, List.forall_mem_nil _, rfl⟩
  refine (readFunctionTail_gives _ hr₂ hstart).bind ?_
  rintro ⟨f, r₃, h₃⟩ ⟨hread, -⟩
  exact gives_ok hread

end Functions

end Source
end ContractGen
