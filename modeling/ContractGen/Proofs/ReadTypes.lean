import ContractGen.Proofs.Printed

/-!
# Reading glyphs back

What readers make of the glyphs of printed types and parameters. A reader *yields* a value from
glyphs if it reads it off any tokens that show them, and leaves tokens that show the rest. Enums are
read as plain names; they are told apart when the whole unit is known.

**Results.**
* `skipBalanced_yields`, `readRawUntil_yields`: bodies and stretches are passed over.
* `readType_yields`: a type is read up to its enums.
* `readParameters_yields`, `readLocalFields_yields`: so are parameters and arguments.
-/

namespace ContractGen
namespace Source

open Target
open Domain (reservedWords)

/-! ## Readers and glyphs -/

section Yields

variable {α : Type} {src : SourceText} {gs hs : List Glyph} {input : List Lexeme} {t : Token}

/-- A reader reads a value off tokens that show `gs`, and leaves tokens that show `hs`. -/
def Yields (src : SourceText) (reader : Reader α) (gs : List Glyph) (value : α)
    (hs : List Glyph) : Prop :=
  ∀ input, Shows src gs input →
    ∃ rest h, reader input = .ok ⟨value, rest, h⟩ ∧ Shows src hs rest

/-- The first glyph is a token with some property. -/
def Leads (P : Token → Prop) (gs : List Glyph) : Prop :=
  ∃ t rest, gs = .token t :: rest ∧ P t

theorem leads_token
    {P : Token → Prop}
    (h : P t) :
    Leads P (.token t :: gs) :=
  ⟨t, gs, rfl, h⟩

theorem Leads.mono
    {P Q : Token → Prop}
    (h : Leads P gs)
    (hPQ : ∀ t, P t → Q t) :
    Leads Q gs := by
  obtain ⟨t, rest, rfl, ht⟩ := h
  exact ⟨t, rest, rfl, hPQ t ht⟩

theorem readSymbol_yields
    (symbol : String) :
    Yields src (readSymbol src symbol) (sign symbol :: gs) () gs := by
  intro input h
  obtain ⟨l, rest, rfl, hl, hrest⟩ := shows_token.mp h
  exact ⟨rest, by simp, by simp [readSymbol, hl], hrest⟩

theorem readKeyword_yields
    (name : String) :
    Yields src (readKeyword src name) (word name :: gs) () gs := by
  intro input h
  obtain ⟨l, rest, rfl, hl, hrest⟩ := shows_token.mp h
  exact ⟨rest, by simp, by simp [readKeyword, hl], hrest⟩

theorem readIdentifier_yields
    (what name : String) :
    Yields src (readIdentifier src what) (word name :: gs) name gs := by
  intro input h
  obtain ⟨l, rest, rfl, hl, hrest⟩ := shows_token.mp h
  exact ⟨rest, by simp, by simp [readIdentifier, hl], hrest⟩

theorem atSymbol_eq
    (h : Shows src (.token t :: gs) input)
    (symbol : String) :
    atSymbol symbol input = decide (t = .symbol symbol) := by
  obtain ⟨l, rest, rfl, rfl, -⟩ := shows_token.mp h
  rfl

theorem atKeyword_eq
    (h : Shows src (.token t :: gs) input)
    (name : String) :
    atKeyword name input = decide (t = .identifier name) := by
  obtain ⟨l, rest, rfl, rfl, -⟩ := shows_token.mp h
  rfl

theorem shows_tail
    (h : Shows src (.token t :: gs) input) :
    Shows src gs input.tail := by
  obtain ⟨l, rest, rfl, -, hrest⟩ := shows_token.mp h
  exact hrest

theorem atSymbol_false
    {symbol : String}
    (hlead : Leads (· ≠ .symbol symbol) gs)
    (h : Shows src gs input) :
    atSymbol symbol input = false := by
  obtain ⟨t, rest, rfl, ht⟩ := hlead
  simp [atSymbol_eq h, ht]

/-- Input that is read and does not begin with a symbol begins with another token. -/
theorem cons_of_atSymbol_false
    {symbol : String} {rest : List Lexeme}
    (hlt : rest.length < input.length)
    (h : atSymbol symbol input = false) :
    ∃ l later, input = l :: later ∧ l.token ≠ .symbol symbol := by
  cases input with
  | nil =>
      cases hlt
  | cons l later =>
      exact ⟨l, later, rfl, by simpa [atSymbol] using h⟩

theorem atKeyword_false
    {name : String}
    (hlead : Leads (· ≠ .identifier name) gs)
    (h : Shows src gs input) :
    atKeyword name input = false := by
  obtain ⟨t, rest, rfl, ht⟩ := hlead
  simp [atKeyword_eq h, ht]

/-- What is not there is not skipped. -/
theorem skipArguments_none
    {context : String}
    (hlead : Leads (· ≠ .symbol "(") gs)
    (h : Shows src gs input) :
    skipArguments src context input = .ok (.whole input) := by
  simp [skipArguments, atSymbol_false hlead h]
  rfl

end Yields

/-! ## Bracketed tokens -/

section Nesting

variable {src : SourceText} {gs hs : List Glyph} {context : String}

theorem openAfter?_append
    (d : Nat)
    (ts us : List Token) :
    openAfter? d (ts ++ us) = (openAfter? d ts).bind fun e => openAfter? e us := by
  induction ts generalizing d with
  | nil =>
      rfl
  | cons t ts ih =>
      simp only [List.cons_append, openAfter?, ih]
      split
      · rfl
      · split
        · split <;> rfl
        · rfl

theorem Nests.append
    {ts us : List Token}
    (ht : Nests ts)
    (hu : Nests us) :
    Nests (ts ++ us) := by
  unfold Nests at *
  rw [openAfter?_append, ht]
  exact hu

/-- Nested tokens are passed over with their brackets. -/
theorem skipToClose_nested
    (context : String)
    {own later left : List Lexeme}
    {d e : Nat}
    {hleft : left.length < later.length}
    (hopen : openAfter? d (own.map Lexeme.token) = some e)
    (h : skipToClose src context (e + 1) later = .ok ⟨(), left, hleft⟩) :
    ∃ hleft', skipToClose src context (d + 1) (own ++ later) = .ok ⟨(), left, hleft'⟩ := by
  induction own generalizing d with
  | nil =>
      cases hopen
      exact ⟨hleft, h⟩
  | cons l own ih =>
      -- a token that does not close the outer bracket is one step of the loop
      have hstep : ∀ d', openAfter? d' (own.map Lexeme.token) = some e →
          depthAfter (d + 1) l.token = d' + 1 →
          ∃ hleft', skipToClose src context (d + 1) (l :: own ++ later) =
            .ok ⟨(), left, hleft'⟩ := by
        intro d' hd' hdepth
        obtain ⟨hleft', hok⟩ := ih hd'
        refine ⟨Reading.lt_cons_of_lt hleft', ?_⟩
        simp [skipToClose, hdepth, hok, bind, Except.bind, pure, Except.pure]
      rw [List.map_cons, openAfter?] at hopen
      split at hopen
      · rename_i ho
        exact hstep (d + 1) hopen (by simp [depthAfter, ho])
      · rename_i ho
        split at hopen
        · rename_i hc
          split at hopen
          · cases hopen
          · rename_i hd
            exact hstep (d - 1) hopen (by simp [depthAfter, ho, hc]; omega)
        · rename_i hc
          exact hstep d hopen (by simp [depthAfter, ho, hc])

/-- A braced body is skipped, whatever it says. -/
theorem skipBalanced_body
    (context : String)
    {brace close : Lexeme}
    {body rest : List Lexeme}
    (hbrace : brace.token = .symbol "\x7b")
    (hclose : close.token = .symbol "\x7d")
    (hnests : Nests (body.map Lexeme.token)) :
    ∃ hrest,
      skipBalanced src context (brace :: (body ++ close :: rest)) = .ok ⟨(), rest, hrest⟩ := by
  have hend :
      skipToClose src context (0 + 1) (close :: rest) = .ok ⟨(), rest, Reading.rest_lt⟩ := by
    simp [skipToClose, hclose, depthAfter, Token.isOpening, Token.isClosing]
  obtain ⟨hrest, hok⟩ := skipToClose_nested context hnests hend
  refine ⟨Reading.lt_cons_of_lt hrest, ?_⟩
  have hdepth : depthAfter 0 brace.token = 0 + 1 := by
    rw [hbrace]
    rfl
  have hclosing : brace.token.isClosing = false := by
    rw [hbrace]
    rfl
  simp [skipBalanced, skipToClose, hdepth, hclosing, hok, bind, Except.bind, pure, Except.pure]

/-- A body with balanced braces is skipped up to its closing brace. -/
theorem skipBalanced_yields
    (context : String)
    {ts : List Token}
    (hnests : Nests ts) :
    Yields src (skipBalanced src context)
      (sign "\x7b" :: (ts.map Glyph.token ++ sign "\x7d" :: hs)) () hs := by
  intro input h
  obtain ⟨brace, tail, rfl, hbrace, htail⟩ := shows_token.mp h
  obtain ⟨own, last, rfl, rfl, hlast⟩ := shows_map_token.mp htail
  obtain ⟨close, rest, rfl, hclose, hrest⟩ := shows_token.mp hlast
  obtain ⟨hleft, hok⟩ : ∃ hrest, skipBalanced src context (brace :: (own ++ close :: rest)) =
      .ok ⟨(), rest, hrest⟩ := skipBalanced_body context hbrace hclose hnests
  exact ⟨rest, hleft, hok, hrest⟩

/-- The offset one past the last of some tokens. -/
def stopAfter (stop : Nat) (own : List Lexeme) : Nat :=
  (own.getLast?.map Lexeme.stop).getD stop

theorem stopAfter_cons
    (stop : Nat)
    (l : Lexeme)
    (own : List Lexeme) :
    stopAfter stop (l :: own) = stopAfter l.stop own := by
  cases own with
  | nil =>
      rfl
  | cons k own =>
      simp [stopAfter, List.getLast?_cons]

/-- The number of open brackets after some tokens, none if `close` comes outside all brackets. -/
def depthPast? (close : String) : Nat → List Token → Option Nat
  | depth, [] => some depth
  | depth, t :: ts =>
    if t = .symbol close ∧ depth = 0 then none else depthPast? close (depthAfter depth t) ts

/-- Nested tokens are passed over if none of them is `close`. -/
theorem depthPast?_of_openAfter?
    {close : String} {ts : List Token} {d e : Nat}
    (hplain : ∀ t ∈ ts, t ≠ .symbol close)
    (hopen : openAfter? d ts = some e) :
    depthPast? close d ts = some e := by
  induction ts generalizing d with
  | nil =>
      exact hopen
  | cons t ts ih =>
      have hstep : openAfter? (depthAfter d t) ts = some e := by
        rw [openAfter?] at hopen
        unfold depthAfter
        split at hopen
        · rename_i ho
          simpa [ho] using hopen
        · rename_i ho
          split at hopen
          · rename_i hc
            split at hopen
            · cases hopen
            · simpa [ho, hc] using hopen
          · rename_i hc
            simpa [ho, hc] using hopen
      rw [depthPast?, if_neg fun h => hplain t List.mem_cons_self h.1]
      exact ih (fun u hu => hplain u (List.mem_cons_of_mem t hu)) hstep

/-- Tokens without `close` outside all brackets are passed over, and the last is remembered. -/
theorem findClose_past
    {close : String} {own : List Lexeme} {d e : Nat}
    (hpast : depthPast? close d (own.map Lexeme.token) = some e)
    {stop stop' : Nat} {rest left : List Lexeme} {hleft : left.length < rest.length}
    (h : findClose src close context e (stopAfter stop own) rest = .ok ⟨stop', left, hleft⟩) :
    ∃ hleft', findClose src close context d stop (own ++ rest) = .ok ⟨stop', left, hleft'⟩ := by
  induction own generalizing d stop with
  | nil =>
      cases hpast
      exact ⟨hleft, h⟩
  | cons l own ih =>
      rw [stopAfter_cons] at h
      rw [List.map_cons, depthPast?] at hpast
      split at hpast
      · cases hpast
      · rename_i hpass
        obtain ⟨hleft', hok⟩ := ih hpast h
        refine ⟨Reading.lt_cons_of_lt hleft', ?_⟩
        simp [findClose, hpass, hok, bind, Except.bind, pure, Except.pure]

/-- A close that is found stands outside all brackets, and the text before it was passed over. -/
theorem findClose_split
    {close : String} {d stop : Nat} {input : List Lexeme} {taken : Taken Nat input}
    (h : findClose src close context d stop input = .ok taken) :
    ∃ own l, input = own ++ l :: taken.rest ∧ l.token = .symbol close ∧
      depthPast? close d (own.map Lexeme.token) = some 0 ∧ taken.value = stopAfter stop own := by
  induction input generalizing d stop with
  | nil =>
      cases h
  | cons t rest ih =>
      rw [findClose] at h
      split at h
      · rename_i hclose
        cases h
        exact ⟨[], t, rfl, hclose.1, congrArg some hclose.2, rfl⟩
      · rename_i hpass
        obtain ⟨later, hlater, hvalue⟩ := bind_eq_ok_iff.mp h
        cases hvalue
        obtain ⟨own, l, happ, hl, hpast, hstop⟩ := ih hlater
        refine ⟨t :: own, l, congrArg (t :: ·) happ, hl, ?_, ?_⟩
        · rw [List.map_cons, depthPast?, if_neg hpass]
          exact hpast
        · rw [stopAfter_cons]
          exact hstop

/-- The text from the next token up to the end of some tokens is their span. -/
theorem slice_stopAfter
    (own later : List Lexeme) :
    src.slice (src.nextOffset (own ++ later)) (stopAfter (src.nextOffset (own ++ later)) own) =
      src.span own := by
  cases own with
  | nil =>
      simp [stopAfter, SourceText.slice, SourceText.span]
  | cons k own =>
      simp [stopAfter, SourceText.nextOffset, SourceText.span, List.getLast?_cons]

/-- A trimmed text up to the next `close` outside all brackets is read back as it is written. -/
theorem readRawUntil_stretch
    (close context : String)
    {text : String} {ts : List Token}
    (htrim : Text.trimmed text = text)
    (hpast : depthPast? close 0 ts = some 0) :
    Yields src (readRawUntil src close context) (.stretch text ts :: sign close :: hs) text hs := by
  intro input h
  obtain ⟨own, rest, rfl, rfl, hspan, hrest⟩ := shows_stretch.mp h
  obtain ⟨l, left, rfl, hl, hleft⟩ := shows_token.mp hrest
  have hclose : findClose src close context 0
      (stopAfter (src.nextOffset (own ++ l :: left)) own) (l :: left) =
        .ok ⟨stopAfter (src.nextOffset (own ++ l :: left)) own, left, by simp⟩ := by
    simp [findClose, hl]
  obtain ⟨hlt, hok⟩ := findClose_past hpast hclose
  refine ⟨left, hlt, ?_, hleft⟩
  have htext : String.ofList (Text.trim text.toList) = text := htrim
  simp [readRawUntil, hok, slice_stopAfter, hspan, htext, bind, Except.bind, pure, Except.pure]

/-- A stretch is read back as it is written. -/
theorem readRawUntil_yields
    (context : String)
    {text : String}
    (hstretch : IsStretch text) :
    Yields src (readRawUntil src ";" context) (stretchGlyph text :: sign ";" :: hs) text hs := by
  refine readRawUntil_stretch ";" context hstretch.trimmed ?_
  refine depthPast?_of_openAfter? (fun t ht => ?_) hstretch.nests
  exact (hstretch.plain t (List.mem_filter.mp ht).1).2

end Nesting

/-! ## Names and types -/

section Types

variable {src : SourceText} {hs : List Glyph} {enums : List String}

/-- A dotted name is read one part at a time. -/
theorem readQualifiedName_cons
    (name : String)
    {what tail : String} {gs : List Glyph}
    (h : Yields src (readQualifiedName src what) gs tail hs) :
    Yields src (readQualifiedName src what) (word name :: sign "." :: gs)
      (name ++ "." ++ tail) hs := by
  intro input hshows
  obtain ⟨l, rest, rfl, hl, hrest⟩ := shows_token.mp hshows
  obtain ⟨k, rest, rfl, hk, hrest⟩ := shows_token.mp hrest
  obtain ⟨left, hleft, hok, hshown⟩ := h rest hrest
  refine ⟨left, Reading.lt_cons_of_lt (Reading.lt_cons_of_lt hleft), ?_, hshown⟩
  simp [readQualifiedName, hl, hk, hok, bind, Except.bind, pure, Except.pure]

theorem readQualifiedName_one
    {what name : String}
    (hlead : Leads (· ≠ .symbol ".") hs) :
    Yields src (readQualifiedName src what) (word name :: hs) name hs := by
  intro input hshows
  obtain ⟨t, gs, rfl, ht⟩ := hlead
  obtain ⟨l, rest, rfl, hl, hrest⟩ := shows_token.mp hshows
  obtain ⟨k, rest', rfl, rfl, -⟩ := shows_token.mp hrest
  exact ⟨k :: rest', by simp, by simp [readQualifiedName, hl, ht], hrest⟩

/-- A dotted name is read back as it is written. -/
theorem readQualifiedName_yields
    (what : String)
    {name : String}
    (hlead : Leads (· ≠ .symbol ".") hs) :
    Yields src (readQualifiedName src what) (dottedGlyphs (nameParts name) ++ hs) name hs := by
  suffices hchars : ∀ cs : List Char,
      Yields src (readQualifiedName src what)
        (dottedGlyphs ((Text.splitAt '.' cs).map String.ofList) ++ hs) (String.ofList cs) hs by
    simpa [nameParts] using hchars name.toList
  intro cs
  induction hn : cs.length using Nat.strongRecOn generalizing cs with
  | ind n ih =>
      rcases splitAt_cases '.' cs with ⟨hsplit, -⟩ | ⟨part, tail, rfl, hsplit⟩
      · rw [hsplit]
        exact readQualifiedName_one hlead
      · have htail := ih tail.length (by simp at hn; omega) tail rfl
        have hall := readQualifiedName_cons (String.ofList part) htail
        have hjoin : String.ofList (part ++ '.' :: tail) =
            String.ofList part ++ "." ++ String.ofList tail := by
          rw [← String.toList_inj]
          simp
        rw [hsplit, hjoin]
        cases hlater : Text.splitAt '.' tail with
        | nil =>
            exact absurd hlater (Files.Disk.splitAt_ne_nil '.' tail)
        | cons later laters =>
            rw [hlater] at hall
            exact hall

/-- A token that does not continue a dotted name and is no payable marker. -/
def EndsName (t : Token) : Prop :=
  t ≠ .symbol "." ∧ t ≠ .identifier "payable"

/-- A token that does not continue a type. -/
def EndsType (t : Token) : Prop :=
  t ≠ .symbol "[" ∧ EndsName t

/-- Where no opening bracket follows, the type is complete. -/
theorem readBrackets_none
    (type : TypeExpr)
    {input : List Lexeme}
    (hlead : Leads (· ≠ .symbol "[") hs)
    (h : Shows src hs input) :
    readBrackets src type input = .ok (type, ⟨input, Nat.le_refl _⟩) := by
  obtain ⟨t, gs, rfl, ht⟩ := hlead
  obtain ⟨l, rest, rfl, rfl, -⟩ := shows_token.mp h
  rw [readBrackets]
  simp [ht, pure, Except.pure]

/-- An empty pair of brackets makes the type an array and the reading goes on behind it. -/
theorem readBrackets_cons
    {type type' : TypeExpr} {l k : Lexeme} {rest left : List Lexeme}
    (hl : l.token = .symbol "[")
    (hk : k.token = .symbol "]")
    {hleft : left.length ≤ rest.length}
    (h : readBrackets src (.array type) rest = .ok (type', ⟨left, hleft⟩)) :
    ∃ hleft', readBrackets src type (l :: k :: rest) = .ok (type', ⟨left, hleft'⟩) := by
  refine ⟨by simp only [List.length_cons]; omega, ?_⟩
  rw [readBrackets]
  simp [hl, hk, atSymbol, h, bind, Except.bind, pure, Except.pure]

/-- The glyphs of a type are read up to the brackets that may still follow it. -/
def ReadsType (src : SourceText) (gs : List Glyph) (type : TypeExpr) : Prop :=
  ∀ hs input, Leads EndsName hs → Shows src (gs ++ hs) input →
    ∃ rest, Shows src hs rest ∧
      ∀ type' left hleft, readBrackets src type rest = .ok (type', ⟨left, hleft⟩) →
        ∃ hlt, readType src input = .ok ⟨{ type := type' }, left, hlt⟩

theorem ReadsType.yields
    {gs : List Glyph} {type : TypeExpr}
    (h : ReadsType src gs type)
    (hlead : Leads EndsType hs) :
    Yields src (readType src) (gs ++ hs) { type } hs := by
  intro input hshows
  obtain ⟨rest, hrest, hdone⟩ := h hs input (hlead.mono fun _ h => h.2) hshows
  obtain ⟨hlt, hok⟩ := hdone type rest (Nat.le_refl _)
    (readBrackets_none type (hlead.mono fun _ h => h.1) hrest)
  exact ⟨rest, hlt, hok, hrest⟩

theorem readsType_name
    {name first : String} {gs : List Glyph}
    (hfirst : first ≠ "mapping")
    (hread : ∀ hs, Leads (· ≠ .symbol ".") hs →
      Yields src (readQualifiedName src "a type") (word first :: (gs ++ hs)) name hs) :
    ReadsType src (word first :: gs) (.named name) := by
  intro hs input hlead h
  obtain ⟨rest, hlt, hok, hrest⟩ := hread hs (hlead.mono fun _ h => h.1) input h
  obtain ⟨l, tail, rfl, hl, -⟩ := shows_token.mp h
  refine ⟨rest, hrest, fun type left hleft hbrackets => ⟨Reading.lt_of_lt_le hlt hleft, ?_⟩⟩
  have hkeyword : atKeyword "payable" rest = false :=
    atKeyword_false (hlead.mono fun _ h => h.2) hrest
  have hskip : (if (decide (name = "address") && atKeyword "payable" rest) = true
      then Left.tail rest else Left.whole rest) = Left.whole rest :=
    if_neg (by simp [hkeyword])
  rw [readType, if_neg (by simp [hl, hfirst])]
  simp only [hok, bind, Except.bind]
  rw [hskip]
  simp [Left.whole, hbrackets, hkeyword, pure, Except.pure]

theorem takeIdentifier?_none
    {symbol : String} {input : List Lexeme}
    (h : Shows src (sign symbol :: hs) input) :
    takeIdentifier? input = (none, Left.whole input) := by
  obtain ⟨l, rest, rfl, hl, -⟩ := shows_token.mp h
  simp [takeIdentifier?, hl]

theorem endsType_sign
    {symbol : String}
    (hdot : symbol ≠ ".")
    (hopen : symbol ≠ "[") :
    Leads EndsType (sign symbol :: hs) :=
  leads_token ⟨by simpa using hopen, by simpa using hdot, by simp⟩

/-- A mapping type is read from its key and its value type. -/
theorem readsType_mapping
    {key value : TypeExpr} {kg vg : List Glyph}
    (hkey : ReadsType src kg key)
    (hvalue : ReadsType src vg value) :
    ReadsType src (word "mapping" :: sign "(" :: (kg ++ sign "=>" :: (vg ++ [sign ")"])))
      (.mapping key value) := by
  intro hs input hlead h
  simp only [List.cons_append, List.append_assoc, List.nil_append] at h
  obtain ⟨l, r₀, rfl, hl, hs₀⟩ := shows_token.mp h
  obtain ⟨r₁, h₁, hok₁, hs₁⟩ := readSymbol_yields "(" r₀ hs₀
  obtain ⟨r₂, h₂, hok₂, hs₂⟩ := hkey.yields (endsType_sign (by decide) (by decide)) r₁ hs₁
  obtain ⟨r₄, h₄, hok₄, hs₄⟩ := readSymbol_yields "=>" r₂ hs₂
  obtain ⟨r₅, h₅, hok₅, hs₅⟩ := hvalue.yields (endsType_sign (by decide) (by decide)) r₄ hs₄
  obtain ⟨r₇, h₇, hok₇, hs₇⟩ := readSymbol_yields ")" r₅ hs₅
  refine ⟨r₇, hs₇, fun type left hleft hbrackets => ?_⟩
  have hlt : left.length < (l :: r₀).length := by
    rw [List.length_cons]
    omega
  refine ⟨hlt, ?_⟩
  -- no name stands after the key or the value
  rw [readType, if_pos hl]
  simp only [hok₁, hok₂, bind, Except.bind]
  rw [takeIdentifier?_none hs₂]
  simp only [Left.whole, hok₄, hok₅]
  rw [takeIdentifier?_none hs₅]
  simp [Left.whole, hok₇, hbrackets, pure, Except.pure]

/-- The glyphs of a type are read whatever follows, up to the brackets that may still follow. -/
def ReadsClosed (src : SourceText) (gs : List Glyph) (type : TypeExpr) : Prop :=
  ∀ hs input, Shows src (gs ++ hs) input →
    ∃ rest, Shows src hs rest ∧
      ∀ type' left hleft, readBrackets src type rest = .ok (type', ⟨left, hleft⟩) →
        ∃ hlt, readType src input = .ok ⟨{ type := type' }, left, hlt⟩

theorem ReadsClosed.readsType
    {type : TypeExpr} {gs : List Glyph}
    (h : ReadsClosed src gs type) :
    ReadsType src gs type :=
  fun hs input _ hshows => h hs input hshows

theorem readsClosed_array
    {type : TypeExpr} {gs : List Glyph}
    (h : ReadsType src gs type) :
    ReadsClosed src (gs ++ [sign "[", sign "]"]) (.array type) := by
  intro hs input hshows
  rw [List.append_assoc] at hshows
  obtain ⟨rest, hrest, hdone⟩ :=
    h _ input (leads_token (t := .symbol "[") (by simp [EndsName])) hshows
  obtain ⟨l, rest, rfl, hl, hrest⟩ := shows_token.mp hrest
  obtain ⟨k, rest, rfl, hk, hrest⟩ := shows_token.mp hrest
  refine ⟨rest, hrest, fun type' left hleft hbrackets => ?_⟩
  obtain ⟨hleft', hok⟩ := readBrackets_cons hl hk hbrackets
  exact hdone type' left hleft' hok

/-- A printable type is read back from what it prints, enumerations as plain names. -/
theorem readsType_glyphs
    (henums : ∀ name ∈ enums, IsDeclarable name)
    {type : TypeExpr}
    (h : type.Printable enums) :
    ReadsType src type.glyphs type.forget := by
  induction type with
  | named name =>
      obtain ⟨first, gs, hgs, hfirst⟩ := h.1.leads
      have hne : first ≠ "mapping" := by
        rintro rfl
        revert hfirst
        decide
      rw [TypeExpr.glyphs, hgs]
      refine readsType_name hne fun hs hlead => ?_
      rw [← List.cons_append, ← hgs]
      exact readQualifiedName_yields _ hlead
  | enumeration name =>
      have hne : name ≠ "mapping" := by
        rintro rfl
        exact (henums _ h).spec.2.1 (by decide)
      exact readsType_name hne fun hs hlead => readQualifiedName_one hlead
  | mapping key value ihkey ihvalue =>
      exact readsType_mapping (ihkey h.1) (ihvalue h.2)
  | array element ih =>
      exact (readsClosed_array (ih h)).readsType

/-- A type is read up to its enums. -/
theorem readType_yields
    (henums : ∀ name ∈ enums, IsDeclarable name)
    {type : TypeExpr}
    (h : type.Printable enums)
    (hlead : Leads EndsType hs) :
    Yields src (readType src) (type.glyphs ++ hs) { type := type.forget } hs :=
  (readsType_glyphs henums h).yields hlead

/-- The marker behind an address is kept apart from the type. -/
theorem readType_payable
    (hlead : Leads (· ≠ .symbol "[") hs) :
    Yields src (readType src) (word "address" :: word "payable" :: hs)
      { type := .named "address", payable := true } hs := by
  intro input h
  have hname : Yields src (readQualifiedName src "a type")
      (word "address" :: word "payable" :: hs) "address" (word "payable" :: hs) :=
    readQualifiedName_one (leads_token (by simp))
  obtain ⟨rest, hlt, hok, hrest⟩ := hname input h
  obtain ⟨l, tail, rfl, hl, -⟩ := shows_token.mp h
  have hkeyword : atKeyword "payable" rest = true := by
    simp [atKeyword_eq hrest]
  have hskip : (if (decide ("address" = "address") && atKeyword "payable" rest) = true
      then Left.tail rest else Left.whole rest) = Left.tail rest :=
    if_pos (by simp [hkeyword])
  have hbrackets := readBrackets_none (.named "address") hlead (shows_tail hrest)
  refine ⟨rest.tail, Reading.lt_of_lt_le hlt Reading.tail_le, ?_, shows_tail hrest⟩
  rw [readType, if_neg (by simp [hl])]
  simp only [hok, bind, Except.bind]
  rw [hskip]
  simp [Left.tail, hbrackets, hkeyword, pure, Except.pure]

end Types

/-! ## Parameters and arguments -/

section Parameters

variable {src : SourceText} {hs : List Glyph} {enums : List String}

/-- A token that ends a parameter. -/
def EndsParameter (t : Token) : Prop :=
  t = .symbol "," ∨ t = .symbol ")"

theorem ne_of_not_mem_reserved
    {name keyword : String}
    (h : name ∉ reservedWords)
    (hkeyword : keyword ∈ reservedWords) :
    name ≠ keyword := by
  rintro rfl
  exact h hkeyword

theorem not_mem_reserved
    {name keyword : String}
    (h : IsDeclarable name)
    (hkeyword : keyword ∈ reservedWords) :
    name ≠ keyword :=
  ne_of_not_mem_reserved h.spec.2.1 hkeyword

/-- A name that may be empty is no reserved word. -/
theorem not_mem_reserved_of_optional
    {name : String}
    (h : name = "" ∨ IsDeclarable name) :
    name ∉ reservedWords := by
  rcases h with rfl | h
  · decide
  · exact h.spec.2.1

theorem ofKeyword?_location_none
    {name : String}
    (h : name ∉ reservedWords) :
    DataLocation.ofKeyword? name = none := by
  have hmemory : name ≠ "memory" := ne_of_not_mem_reserved h (by decide)
  have hstorage : name ≠ "storage" := ne_of_not_mem_reserved h (by decide)
  have hcalldata : name ≠ "calldata" := ne_of_not_mem_reserved h (by decide)
  simp [DataLocation.ofKeyword?, DataLocation.all, DataLocation.keyword, hmemory.symm,
    hstorage.symm, hcalldata.symm]

/-- What follows the type of a parameter does not continue the type. -/
theorem leads_afterType
    {location : Option DataLocation} {name : String}
    (hname : name ∉ reservedWords)
    (hlead : Leads EndsParameter hs) :
    Leads EndsType (locationGlyphs location ++ nameGlyphs name ++ hs) := by
  cases location with
  | some location =>
      cases location <;> exact leads_token ⟨by simp, by simp, by simp [DataLocation.keyword]⟩
  | none =>
      by_cases he : name = ""
      · subst he
        refine hlead.mono fun t ht => ?_
        rcases ht with rfl | rfl <;> exact ⟨by simp, by simp, by simp⟩
      · have hpayable : name ≠ "payable" := ne_of_not_mem_reserved hname (by decide)
        simp only [locationGlyphs, nameGlyphs, if_neg he, List.nil_append, List.cons_append]
        exact leads_token ⟨by simp, by simp, by simpa using hpayable⟩

/-- A name, or none, is not taken for a data location or another marker. -/
theorem nameEnd_glyphs
    {name : String}
    (hname : name ∉ reservedWords)
    (hlead : Leads EndsParameter hs)
    {input : List Lexeme}
    (h : Shows src (nameGlyphs name ++ hs) input) :
    takeLocation? input = (none, .whole input) ∧
      skipKeyword "indexed" input = .whole input ∧
      ∃ name' left hleft, takeIdentifier? input = (name', ⟨left, hleft⟩) ∧
        name'.getD "" = name ∧ Shows src hs left := by
  by_cases he : name = ""
  · subst he
    obtain ⟨t, gs, rfl, ht⟩ := hlead
    obtain ⟨l, rest, rfl, rfl, -⟩ := shows_token.mp h
    rcases ht with ht | ht
    · exact ⟨by simp [takeLocation?, ht], by simp [skipKeyword, ht], none, _, _,
        by simp [takeIdentifier?, ht]; rfl, rfl, h⟩
    · exact ⟨by simp [takeLocation?, ht], by simp [skipKeyword, ht], none, _, _,
        by simp [takeIdentifier?, ht]; rfl, rfl, h⟩
  · have hindexed : name ≠ "indexed" := ne_of_not_mem_reserved hname (by decide)
    rw [nameGlyphs, if_neg he] at h
    obtain ⟨l, rest, rfl, hl, hrest⟩ := shows_token.mp h
    exact ⟨by simp [takeLocation?, hl, ofKeyword?_location_none hname],
      by simp [skipKeyword, hl, hindexed], some name, rest, _,
      by simp [takeIdentifier?, hl]; rfl, rfl, hrest⟩

/-- The end of a parameter: data location and name. -/
theorem parameterEnd_glyphs
    {location : Option DataLocation} {name : String}
    (hname : name ∉ reservedWords)
    (hlead : Leads EndsParameter hs)
    {input : List Lexeme}
    (h : Shows src (locationGlyphs location ++ nameGlyphs name ++ hs) input) :
    ∃ r₂ h₂ name' r₄ h₄, takeLocation? input = (location, ⟨r₂, h₂⟩) ∧
      skipKeyword "indexed" r₂ = .whole r₂ ∧ takeIdentifier? r₂ = (name', ⟨r₄, h₄⟩) ∧
      name'.getD "" = name ∧ Shows src hs r₄ := by
  cases location with
  | none =>
      obtain ⟨hlocation, hindexed, name', r₄, h₄, hok, hget, hshown⟩ :=
        nameEnd_glyphs hname hlead h
      exact ⟨input, _, name', r₄, h₄, hlocation, hindexed, hok, hget, hshown⟩
  | some location =>
      obtain ⟨l, rest, rfl, hl, hrest⟩ := shows_token.mp h
      obtain ⟨-, hindexed, name', r₄, h₄, hok, hget, hshown⟩ :=
        nameEnd_glyphs hname hlead hrest
      exact ⟨rest, _, name', r₄, h₄,
        by simp [takeLocation?, hl, DataLocation.ofKeyword?_keyword]; rfl, hindexed, hok, hget,
        hshown⟩

/-- A parameter is read from its type, its data location and its name. -/
theorem readParameter_yields
    (location : Option DataLocation)
    {reading : TypeReading} {tg : List Glyph} {name : String}
    (htype : ∀ hs, Leads EndsType hs → Yields src (readType src) (tg ++ hs) reading hs)
    (hname : name ∉ reservedWords)
    (hlead : Leads EndsParameter hs) :
    Yields src (readParameter src) (tg ++ locationGlyphs location ++ nameGlyphs name ++ hs)
      { type := reading, location, name } hs := by
  intro input h
  rw [List.append_assoc, List.append_assoc, ← List.append_assoc (locationGlyphs location)] at h
  obtain ⟨r₁, h₁, hok₁, hs₁⟩ := htype _ (leads_afterType hname hlead) input h
  obtain ⟨r₂, h₂, name', r₄, h₄, hlocation, hindexed, hidentifier, hget, hs₄⟩ :=
    parameterEnd_glyphs hname hlead hs₁
  refine ⟨r₄, by omega, ?_, hs₄⟩
  simp only [readParameter, hok₁, bind, Except.bind, pure, Except.pure]
  rw [hlocation]
  dsimp only
  rw [hindexed]
  simp [Left.whole, hidentifier, hget]

/-- One or more parameters are read up to the closing parenthesis. -/
theorem readParametersToClose_yields
    {α : Type} {glyphs : α → List Glyph} {raw : α → RawParameter} {x : α} {xs : List α}
    (h : ∀ y ∈ x :: xs, ∀ hs, Leads EndsParameter hs →
      Yields src (readParameter src) (glyphs y ++ hs) (raw y) hs) :
    Yields src (readParametersToClose src) (commaGlyphs ((x :: xs).map glyphs) ++ sign ")" :: hs)
      ((x :: xs).map raw) hs := by
  induction xs generalizing x with
  | nil =>
      intro input hshows
      obtain ⟨r₁, h₁, hok₁, hs₁⟩ := h x (by simp) _ (leads_token (Or.inr rfl)) input hshows
      obtain ⟨r₂, h₂, hok₂, hs₂⟩ := readSymbol_yields ")" r₁ hs₁
      refine ⟨r₂, Reading.lt_of_lt_lt h₁ h₂, ?_, hs₂⟩
      rw [readParametersToClose]
      simp [hok₁, hok₂, atSymbol_eq hs₁, bind, Except.bind, pure, Except.pure]
  | cons y ys ih =>
      intro input hshows
      have hx : Shows src (glyphs x ++ sign "," ::
          (commaGlyphs ((y :: ys).map glyphs) ++ sign ")" :: hs)) input := by
        simpa [commaGlyphs] using hshows
      obtain ⟨r₁, h₁, hok₁, hs₁⟩ := h x (by simp) _ (leads_token (Or.inl rfl)) input hx
      obtain ⟨r₂, h₂, hok₂, hs₂⟩ :=
        ih (fun z hz => h z (List.mem_cons_of_mem x hz)) r₁.tail (shows_tail hs₁)
      refine ⟨r₂, Reading.lt_of_lt_lt h₁ (Reading.lt_of_lt_tail h₂), ?_, hs₂⟩
      rw [readParametersToClose]
      simp [hok₁, hok₂, atSymbol_eq hs₁, bind, Except.bind, pure, Except.pure]

theorem leads_commaGlyphs
    {P : Token → Prop} {first : List Glyph} {gss : List (List Glyph)}
    (h : ∀ hs, Leads P (first ++ hs)) :
    Leads P (commaGlyphs (first :: gss) ++ hs) := by
  cases gss with
  | nil =>
      exact h hs
  | cons next gss =>
      simpa [commaGlyphs] using h (sign "," :: (commaGlyphs (next :: gss) ++ hs))

/-- A parenthesized list is read item by item. -/
theorem readParameterList_yields
    {α : Type} {glyphs : α → List Glyph} {raw : α → RawParameter} {xs : List α}
    (hlead : ∀ x ∈ xs, ∀ hs, Leads (· ≠ .symbol ")") (glyphs x ++ hs))
    (h : ∀ x ∈ xs, ∀ hs, Leads EndsParameter hs →
      Yields src (readParameter src) (glyphs x ++ hs) (raw x) hs) :
    Yields src (readParameterList src)
      (sign "(" :: (commaGlyphs (xs.map glyphs) ++ sign ")" :: hs)) (xs.map raw) hs := by
  intro input hshows
  obtain ⟨r₁, h₁, hok₁, hs₁⟩ := readSymbol_yields "(" input hshows
  cases xs with
  | nil =>
      refine ⟨r₁.tail, Reading.lt_of_lt_le h₁ Reading.tail_le, ?_, shows_tail hs₁⟩
      simp [readParameterList, hok₁, atSymbol_eq hs₁, bind, Except.bind, pure, Except.pure]
  | cons x xs =>
      have hfirst : Leads (· ≠ .symbol ")")
          (commaGlyphs ((x :: xs).map glyphs) ++ sign ")" :: hs) :=
        leads_commaGlyphs (hlead x (by simp))
      obtain ⟨r₂, h₂, hok₂, hs₂⟩ := readParametersToClose_yields h r₁ hs₁
      refine ⟨r₂, Reading.lt_of_lt_lt h₁ h₂, ?_, hs₂⟩
      simp [readParameterList, hok₁, hok₂, atSymbol_false hfirst hs₁, bind, Except.bind, pure,
        Except.pure]

/-- The reading of a type of a parameter or return value. -/
def passedReading (type : TypeExpr) : TypeReading :=
  if type = payableAddress then { type := .named "address", payable := true }
  else { type := type.forget }

/-- What is read of a passed type gives it back as names. -/
theorem parameterType_passedReading
    (type : TypeExpr) :
    (passedReading type).parameterType = type.forget := by
  unfold passedReading
  split
  · rename_i he
    subst he
    rfl
  · rfl

/-- A type that may be a parameter is read back, marker included. -/
theorem readType_passed
    (henums : ∀ name ∈ enums, IsDeclarable name)
    {type : TypeExpr}
    (h : type.Passable enums)
    (hlead : Leads EndsType hs) :
    Yields src (readType src) (type.passedGlyphs ++ hs) (passedReading type) hs := by
  unfold TypeExpr.passedGlyphs passedReading
  split
  · exact readType_payable (hlead.mono fun _ h => h.1)
  · rename_i hne
    exact readType_yields henums (h.resolve_left hne) hlead

theorem leads_passed
    (henums : ∀ name ∈ enums, IsDeclarable name)
    {type : TypeExpr}
    (h : type.Passable enums)
    {symbol : String} :
    Leads (· ≠ .symbol symbol) (type.passedGlyphs ++ hs) := by
  unfold TypeExpr.passedGlyphs
  split
  · exact leads_token (by simp)
  · rename_i hne
    obtain ⟨first, gs, hgs, -⟩ := TypeExpr.leads henums (h.resolve_left hne)
    rw [hgs]
    exact leads_token (by simp)

/-- The parameters of a function or modifier are read up to their enums. -/
theorem readParameters_yields
    (henums : ∀ name ∈ enums, IsDeclarable name)
    {ps : List Parameter}
    (h : ∀ p ∈ ps, p.Printable enums) :
    Yields src (readParameters src) (sign "(" :: (parameterGlyphs ps ++ sign ")" :: hs))
      (ps.map (Parameter.mapType TypeExpr.forget)) hs := by
  intro input hshows
  have hlist : Yields src (readParameterList src)
      (sign "(" :: (commaGlyphs (ps.map Parameter.glyphs) ++ sign ")" :: hs))
      (ps.map fun p => { type := passedReading p.type, location := p.location, name := p.name })
      hs := by
    refine readParameterList_yields (fun p hp hs => ?_) fun p hp hs hlead => ?_
    · rw [Parameter.glyphs, List.append_assoc, List.append_assoc]
      exact leads_passed henums (h p hp).type
    · exact readParameter_yields p.location
        (fun hs hlead => readType_passed henums (h p hp).type hlead)
        (not_mem_reserved_of_optional (h p hp).name) hlead
  obtain ⟨rest, hlt, hok, hrest⟩ := hlist input hshows
  refine ⟨rest, hlt, ?_, hrest⟩
  simp [readParameters, hok, parameterType_passedReading, Parameter.mapType, bind, Except.bind,
    pure, Except.pure]

/-- The reading of a type with a payable marker. -/
theorem readType_marked
    (henums : ∀ name ∈ enums, IsDeclarable name)
    {type : TypeExpr} {payable : Bool}
    (h : type.Printable enums)
    (hpayable : payable = true → type = .named "address")
    (hlead : Leads EndsType hs) :
    Yields src (readType src) (markedGlyphs type payable ++ hs) { type := type.forget, payable }
      hs := by
  cases payable with
  | false =>
      simpa [markedGlyphs] using readType_yields henums h hlead
  | true =>
      obtain rfl := hpayable rfl
      exact readType_payable (hlead.mono fun _ h => h.1)

theorem leads_marked
    (symbol : String)
    (henums : ∀ name ∈ enums, IsDeclarable name)
    {type : TypeExpr}
    (h : type.Printable enums)
    {payable : Bool} :
    Leads (· ≠ .symbol symbol) (markedGlyphs type payable ++ hs) := by
  obtain ⟨first, gs, hgs, -⟩ := TypeExpr.leads henums h
  rw [markedGlyphs, hgs]
  exact leads_token (by simp)

/-- The arguments of an event or error are read up to their enums. -/
theorem readLocalFields_yields
    (henums : ∀ name ∈ enums, IsDeclarable name)
    {fs : List LocalField}
    (h : ∀ f ∈ fs, f.PrintableArgument enums) :
    Yields src (readLocalFields src)
      (sign "(" :: (commaGlyphs (fs.map LocalField.glyphs) ++ sign ")" :: hs))
      (fs.map (LocalField.mapType TypeExpr.forget)) hs := by
  intro input hshows
  have hlist : Yields src (readParameterList src)
      (sign "(" :: (commaGlyphs (fs.map LocalField.glyphs) ++ sign ")" :: hs))
      (fs.map fun f =>
        { type := { type := f.type.forget, payable := f.payable }, location := none,
          name := f.name }) hs := by
    refine readParameterList_yields (fun f hf hs => ?_) fun f hf hs hlead => ?_
    · rw [LocalField.glyphs, List.append_assoc]
      exact leads_marked _ henums (h f hf).typed.type
    · have hread : Yields src (readParameter src)
          (markedGlyphs f.type f.payable ++ locationGlyphs none ++ nameGlyphs f.name ++ hs) _ hs :=
        readParameter_yields none
          (fun hs hlead => readType_marked henums (h f hf).typed.type (h f hf).typed.payable hlead)
          (not_mem_reserved_of_optional (h f hf).name) hlead
      simpa [LocalField.glyphs, locationGlyphs] using hread
  obtain ⟨rest, hlt, hok, hrest⟩ := hlist input hshows
  refine ⟨rest, hlt, ?_, hrest⟩
  simp [readLocalFields, hok, LocalField.mapType, bind, Except.bind, pure, Except.pure]

/-- Return types are read up to their enums. -/
theorem readReturns_yields
    (src : SourceText)
    (hs : List Glyph)
    (henums : ∀ name ∈ enums, IsDeclarable name)
    {types : List TypeExpr}
    (h : ∀ type ∈ types, type.Passable enums) :
    ∃ raw : List RawParameter, raw.map (fun p => p.type.parameterType) = types.map TypeExpr.forget ∧
      Yields src (readParameterList src)
        (sign "(" :: (commaGlyphs (types.map returnGlyphs) ++ sign ")" :: hs)) raw hs := by
  let location (type : TypeExpr) : Option DataLocation :=
    if type.isReference then some .memory else none
  refine ⟨types.map fun type => ⟨passedReading type, location type, ""⟩, ?_, ?_⟩
  · simp [parameterType_passedReading]
  · refine readParameterList_yields (fun type ht hs => ?_) fun type ht hs hlead => ?_
    · rw [returnGlyphs, List.append_assoc]
      exact leads_passed henums (h type ht)
    · have hread : Yields src (readParameter src)
          (type.passedGlyphs ++ locationGlyphs (location type) ++ nameGlyphs "" ++ hs) _ hs :=
        readParameter_yields (location type)
          (fun hs hlead => readType_passed henums (h type ht) hlead) (by decide) hlead
      simpa [returnGlyphs, nameGlyphs, location] using hread

end Parameters

end Source
end ContractGen
