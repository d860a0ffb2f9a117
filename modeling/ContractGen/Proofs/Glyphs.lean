import ContractGen.Proofs.Scanning
import ContractGen.Source.Declarations

/-!
# Glyphs: between text and tokens

A glyph is what a reader of declarations finds in a text: a token, or a stretch of text that is
kept as it is written. Lists of glyphs connect a printer with a reader. A text *spells* glyphs if
scanning it, whatever comes next, gives tokens that *show* these glyphs and then those of the rest.

**Results.**
* `Spells.append`, `SpellsApart.close`: texts spell their glyphs one after the other.
* `spellsApart_word`, `spells_sign`, `spells_literal`: the texts of single tokens.
* `spellsApart_stretch`: a stretch is spelled as a whole.
* `spells_tokens`: a text that ends its last line spells its own tokens.
-/

namespace ContractGen
namespace Source

open Text (isBlank isLetter isDigit)

/-- A token, or a stretch of text with its tokens. -/
inductive Glyph
  | token (t : Token)
  | stretch (text : String) (tokens : List Token)
deriving DecidableEq, Repr

/-- The glyph of an identifier or keyword. -/
def word (name : String) : Glyph :=
  .token (.identifier name)

/-- The glyph of a symbol. -/
def sign (symbol : String) : Glyph :=
  .token (.symbol symbol)

/-! ## Tokens that show glyphs -/

section Shows

/-- The source text from the first of some tokens to the last one. -/
def SourceText.span (src : SourceText) (ls : List Lexeme) : List Char :=
  match ls.head?, ls.getLast? with
  | some first, some last => src.slice first.start.offset last.stop
  | _, _ => []

/-- The tokens of a source text show a list of glyphs. -/
inductive Shows (src : SourceText) : List Glyph → List Lexeme → Prop
  | nil : Shows src [] []
  | token {l : Lexeme} {gs : List Glyph} {ls : List Lexeme} :
      Shows src gs ls → Shows src (.token l.token :: gs) (l :: ls)
  | stretch {text : String} {gs : List Glyph} {own ls : List Lexeme} :
      src.span own = text.toList → Shows src gs ls →
      Shows src (.stretch text (own.map Lexeme.token) :: gs) (own ++ ls)

variable {src : SourceText} {gs : List Glyph} {input : List Lexeme}

theorem shows_nil :
    Shows src [] input ↔ input = [] := by
  constructor
  · intro h
    cases h
    rfl
  · rintro rfl
    exact .nil

theorem shows_token
    {t : Token} :
    Shows src (.token t :: gs) input ↔
      ∃ l rest, input = l :: rest ∧ l.token = t ∧ Shows src gs rest := by
  constructor
  · intro h
    cases h with
    | @token l _ ls h =>
        exact ⟨l, ls, rfl, rfl, h⟩
  · rintro ⟨l, rest, rfl, rfl, h⟩
    exact .token h

theorem shows_stretch
    {text : String} {ts : List Token} :
    Shows src (.stretch text ts :: gs) input ↔
      ∃ own rest, input = own ++ rest ∧ own.map Lexeme.token = ts ∧
        src.span own = text.toList ∧ Shows src gs rest := by
  constructor
  · intro h
    cases h with
    | @stretch _ _ own ls hspan h =>
        exact ⟨own, ls, rfl, rfl, hspan, h⟩
  · rintro ⟨own, rest, rfl, rfl, hspan, h⟩
    exact .stretch hspan h

/-- Tokens show themselves. -/
theorem shows_tokens
    {ls rest : List Lexeme}
    (h : Shows src gs rest) :
    Shows src (ls.map (fun l => .token l.token) ++ gs) (ls ++ rest) := by
  induction ls with
  | nil =>
      exact h
  | cons l ls ih =>
      exact .token ih

theorem shows_map_token
    {ts : List Token} :
    Shows src (ts.map Glyph.token ++ gs) input ↔
      ∃ own rest, input = own ++ rest ∧ own.map Lexeme.token = ts ∧ Shows src gs rest := by
  constructor
  · intro h
    induction ts generalizing input with
    | nil =>
        exact ⟨[], input, rfl, rfl, h⟩
    | cons t ts ih =>
        obtain ⟨l, tail, rfl, rfl, htail⟩ := shows_token.mp h
        obtain ⟨own, rest, rfl, rfl, hrest⟩ := ih htail
        exact ⟨l :: own, rest, rfl, rfl, hrest⟩
  · rintro ⟨own, rest, rfl, rfl, h⟩
    rw [List.map_map]
    exact shows_tokens h

end Shows

/-! ## Texts that spell glyphs -/

section Spells

variable {gs hs : List Glyph} {a b text : String}

/-- Scanning a text to its end gives tokens that show the glyphs, wherever the text stands. -/
def Scans (cs : List Char) (gs : List Glyph) : Prop :=
  ∀ (p : Position) (before : List Char) (src : SourceText),
    p.offset = before.length → src.chars = before ++ cs →
    ∃ ls, scanFrom p cs = .ok ls ∧ Shows src gs (ls.filter Lexeme.isReadable)

/-- A text spells glyphs, whatever comes next. -/
def Spells (text : String) (gs : List Glyph) : Prop :=
  ∀ rest hs, Scans rest hs → Scans (text.toList ++ rest) (gs ++ hs)

/-- A text spells glyphs if it stands apart from what comes next. -/
def SpellsApart (text : String) (gs : List Glyph) : Prop :=
  ∀ rest hs, Breaks rest → Scans rest hs → Scans (text.toList ++ rest) (gs ++ hs)

theorem scans_nil :
    Scans [] [] := by
  intro p before src _ _
  exact ⟨_, scanFrom_nil p, by simpa [Lexeme.isReadable, Token.isComment] using Shows.nil⟩

/-- The tokens of a whole text show the glyphs that it scans to. -/
theorem Scans.scan_eq
    (h : Scans text.toList gs) :
    ∃ ls, scan text = .ok ls ∧
      ∀ stop, Shows ⟨text.toList, stop⟩ gs (ls.filter Lexeme.isReadable) := by
  obtain ⟨ls, hls, -⟩ := h {} [] ⟨text.toList, {}⟩ rfl rfl
  refine ⟨ls, hls, fun stop => ?_⟩
  obtain ⟨ls', hls', hshows⟩ := h {} [] ⟨text.toList, stop⟩ rfl rfl
  rw [hls] at hls'
  cases hls'
  exact hshows

theorem Spells.apart
    (h : Spells text gs) :
    SpellsApart text gs :=
  fun rest hs _ => h rest hs

theorem spells_empty :
    Spells "" [] :=
  fun _ _ h => h

theorem Spells.append
    (ha : Spells a gs)
    (hb : Spells b hs) :
    Spells (a ++ b) (gs ++ hs) := by
  intro rest later h
  rw [String.toList_append, List.append_assoc, List.append_assoc]
  exact ha _ _ (hb _ _ h)

theorem Spells.appendApart
    (ha : Spells a gs)
    (hb : SpellsApart b hs) :
    SpellsApart (a ++ b) (gs ++ hs) := by
  intro rest later hrest h
  rw [String.toList_append, List.append_assoc, List.append_assoc]
  exact ha _ _ (hb _ _ hrest h)

/-- A text that spells glyphs and ends the token in front of it. -/
structure Closes (text : String) (gs : List Glyph) : Prop where
  spells : Spells text gs
  breaks : ∃ c cs, text.toList = c :: cs ∧ isBreak c = true

theorem Closes.append
    (ha : Closes a gs)
    (hb : Spells b hs) :
    Closes (a ++ b) (gs ++ hs) := by
  obtain ⟨c, cs, he, hc⟩ := ha.breaks
  exact ⟨ha.spells.append hb, c, cs ++ b.toList, by rw [String.toList_append, he]; rfl, hc⟩

/-- A text that ends the token in front of it sets the text before it apart. -/
theorem SpellsApart.close
    (ha : SpellsApart a gs)
    (hb : Closes b hs) :
    Spells (a ++ b) (gs ++ hs) := by
  intro rest later h
  rw [String.toList_append, List.append_assoc, List.append_assoc]
  refine ha _ _ ?_ (hb.spells _ _ h)
  obtain ⟨c, cs, he, hc⟩ := hb.breaks
  rw [he, List.cons_append, breaks_cons]
  exact hc

end Spells

/-! ## Texts of single tokens -/

section Tokens

variable {gs hs : List Glyph}

theorem Scans.blanks
    {w rest : List Char}
    (hw : ∀ c ∈ w, isBlank c = true)
    (h : Scans rest gs) :
    Scans (w ++ rest) gs := by
  intro p before src hoffset hchars
  rw [scanFrom_blanks hw]
  refine h (p.after w) (before ++ w) src ?_ ?_
  · rw [Position.offset_after, hoffset, List.length_append]
  · rw [hchars, List.append_assoc]

/-- A token in front of a text is the first of its glyphs, unless it is a comment. -/
theorem Scans.token
    {c : Char} {cs : List Char} {piece : Piece}
    (hc : isBlank c = false)
    (hpiece : takeToken c cs = .ok piece)
    (hcomment : piece.token.isComment = false)
    (hend : piece.token ≠ .endOfInput)
    (h : Scans piece.rest gs) :
    Scans (c :: cs) (.token piece.token :: gs) := by
  intro p before src hoffset hchars
  obtain ⟨ls, hls, hshows⟩ := h (p.after piece.text) (before ++ piece.text) src
    (by rw [Position.offset_after, hoffset, List.length_append])
    (by rw [hchars, List.append_assoc, (takeToken_spec hpiece).1])
  refine ⟨piece.lexeme p :: ls, ?_, ?_⟩
  · rw [scanFrom_cons hc hpiece, hls]
    rfl
  · have hread : (piece.lexeme p).isReadable = true := by
      simp [Piece.lexeme, Lexeme.isReadable, hcomment, hend]
    rw [List.filter_cons_of_pos hread]
    exact Shows.token (l := piece.lexeme p) hshows

theorem spells_blanks
    {w : String}
    (hw : ∀ c ∈ w.toList, isBlank c = true) :
    Spells w [] :=
  fun _ _ h => h.blanks hw

theorem closes_blank
    {c : Char}
    (hc : isBlank c = true) :
    Closes c.toString [] := by
  have he : c.toString.toList = [c] := by
    simp [Char.toString]
  refine ⟨spells_blanks ?_, c, [], he, by simp [isBreak, hc]⟩
  rw [he]
  simpa using hc

theorem closes_space :
    Closes " " [] :=
  closes_blank (c := ' ') rfl

theorem closes_newline :
    Closes "\n" [] :=
  closes_blank (c := '\n') rfl

/-- Whether a text is one identifier or keyword. -/
def isIdentifier (name : String) : Bool :=
  match name.toList with
  | [] => false
  | c :: cs => isIdentifierStart c && cs.all isIdentifierPart

theorem isIdentifier_iff
    {name : String} :
    isIdentifier name = true ↔
      ∃ c cs, name.toList = c :: cs ∧ isIdentifierStart c = true ∧
        ∀ d ∈ cs, isIdentifierPart d = true := by
  unfold isIdentifier
  cases name.toList with
  | nil =>
      simp
  | cons c cs =>
      simp only [Bool.and_eq_true, List.all_eq_true]
      constructor
      · rintro ⟨hc, hcs⟩
        exact ⟨c, cs, rfl, hc, hcs⟩
      · rintro ⟨_, _, ⟨rfl, rfl⟩, hc, hcs⟩
        exact ⟨hc, hcs⟩

theorem isIdentifierPart_of_isIdentifierStart
    {c : Char}
    (h : isIdentifierStart c = true) :
    isIdentifierPart c = true := by
  simp only [isIdentifierStart, isIdentifierPart, Bool.or_eq_true] at h ⊢
  rcases h with (h | h) | h <;> simp [h]

theorem forall_isIdentifierPart
    {name : String}
    (h : isIdentifier name = true) :
    ∀ c ∈ name.toList, isIdentifierPart c = true := by
  obtain ⟨first, rest, hname, hfirst, hrest⟩ := isIdentifier_iff.mp h
  rw [hname]
  exact List.forall_mem_cons.mpr ⟨isIdentifierPart_of_isIdentifierStart hfirst, hrest⟩

theorem not_mem_of_isIdentifier
    {name : String} {c : Char}
    (h : isIdentifier name = true)
    (hc : isIdentifierPart c = false) :
    c ∉ name.toList := by
  intro hmem
  rw [forall_isIdentifierPart h c hmem] at hc
  cases hc

/-- A character that starts an identifier starts nothing else. -/
theorem not_other_of_isIdentifierStart
    {c : Char}
    (h : isIdentifierStart c = true) :
    c ≠ '/' ∧ c ≠ '"' ∧ c ≠ '\'' ∧ isDigit c = false := by
  have hne : ∀ d, isIdentifierStart d = false → c ≠ d := by
    rintro d hd rfl
    rw [hd] at h
    cases h
  refine ⟨hne '/' rfl, hne '"' rfl, hne '\'' rfl, ?_⟩
  simp only [isIdentifierStart, isLetter, isDigit, Bool.or_eq_true, Bool.and_eq_true,
    decide_eq_true_eq, Bool.and_eq_false_iff, decide_eq_false_iff_not, Char.le_def,
    UInt32.le_iff_toNat_le, Char.ext_iff, ← UInt32.toNat_inj] at h ⊢
  simp at h ⊢
  omega

/-- An identifier ends where no character continues it. -/
theorem Scans.word
    {name : String} {rest : List Char}
    (hname : isIdentifier name = true)
    (hrest : ∀ c ∈ rest.head?, isIdentifierPart c = false)
    (h : Scans rest hs) :
    Scans (name.toList ++ rest) (word name :: hs) := by
  obtain ⟨c, cs, he, hc, -⟩ := isIdentifier_iff.mp hname
  obtain ⟨hslash, hquote, htick, hdigit⟩ := not_other_of_isIdentifierStart hc
  have hall : ∀ d ∈ c :: cs, isIdentifierPart d = true := he ▸ forall_isIdentifierPart hname
  have hrun : takeRun .identifier isIdentifierPart (c :: (cs ++ rest)) =
      ⟨.identifier name, name.toList, rest⟩ := by
    obtain ⟨htake, hdrop⟩ :
        ([] ++ rest).takeWhile isIdentifierPart = [] ∧
          ([] ++ rest).dropWhile isIdentifierPart = [] ++ rest :=
      run_append (Or.inr hrest)
    rw [List.nil_append] at htake hdrop
    rw [takeRun, ← List.cons_append, List.takeWhile_append_of_pos hall,
      List.dropWhile_append_of_pos hall, htake, hdrop]
    simp [← he]
  have hpiece : takeToken c (cs ++ rest) = .ok ⟨.identifier name, name.toList, rest⟩ := by
    rw [takeToken_eq (fun h => absurd h hslash)]
    simp [hquote, htick, hdigit, hc, hrun]
  have hblank : isBlank c = false := isBlank_eq_false_of_isIdentifierPart (hall c (by simp))
  rw [he]
  exact Scans.token hblank hpiece rfl (by simp) h

theorem spellsApart_word
    (name : String)
    (hname : isIdentifier name = true) :
    SpellsApart name [word name] :=
  fun _ _ hrest h =>
    h.word hname fun c hc => isIdentifierPart_eq_false_of_isBreak (hrest c hc)

/-- A keyword and the space after it. -/
theorem spells_keyword
    (name : String)
    (hname : isIdentifier name = true) :
    Spells (name ++ " ") [word name] :=
  (spellsApart_word name hname).close closes_space

theorem SpellsApart.mark
    {text : String}
    (h : SpellsApart text gs)
    {name : String}
    (hname : isIdentifier name = true) :
    SpellsApart (text ++ " " ++ name) (gs ++ [word name]) := by
  have hspace := h.close closes_space
  simpa using hspace.appendApart (spellsApart_word name hname)

/-- A space and the keyword after it. -/
theorem SpellsApart.keyword
    {text : String}
    (h : SpellsApart text gs)
    (name : String)
    (hname : isIdentifier name = true) :
    SpellsApart (text ++ (" " ++ name)) (gs ++ [word name]) := by
  rw [← String.append_assoc]
  exact h.mark hname

end Tokens

/-! ## Symbols and literals -/

section Signs

variable {hs : List Glyph}

theorem dropStart?_eq_none
    {c : Char} {start text : List Char}
    (h : start.head? ≠ some c)
    (hne : start ≠ []) :
    Text.dropStart? start (c :: text) = none := by
  cases start with
  | nil =>
      exact absurd rfl hne
  | cons a start =>
      have ha : a ≠ c := by
        rintro rfl
        exact h rfl
      simp [Text.dropStart?, ha]

theorem takeOperator_eq_none
    {c : Char} {text : List Char} {ops : List String}
    (h : ∀ op ∈ ops, op.toList.head? ≠ some c ∧ op.toList ≠ []) :
    takeOperator (c :: text) ops = none := by
  induction ops with
  | nil =>
      rfl
  | cons op ops ih =>
      obtain ⟨hhead, hne⟩ := h op (by simp)
      rw [takeOperator, dropStart?_eq_none hhead hne]
      exact ih fun op hop => h op (by simp [hop])

/-- The symbols that are never the beginning of a longer one. -/
def lonelySigns : List Char :=
  ['(', ')', '[', ']', '\x7b', '\x7d', ',', ';', '.']

/-- A lonely sign starts no other token, and no operator begins with it. -/
theorem plain_of_mem_lonelySigns
    {c : Char}
    (hc : c ∈ lonelySigns) :
    isBlank c = false ∧ c ≠ '/' ∧ c ≠ '"' ∧ c ≠ '\'' ∧ isDigit c = false ∧
      isIdentifierStart c = false ∧ c ∈ singleSymbols ∧
        ∀ op ∈ operators, op.toList.head? ≠ some c ∧ op.toList ≠ [] := by
  simp only [lonelySigns, List.mem_cons, List.not_mem_nil, or_false] at hc
  rcases hc with rfl | rfl | rfl | rfl | rfl | rfl | rfl | rfl | rfl <;> decide

theorem takeToken_sign
    {c : Char}
    (hc : c ∈ lonelySigns)
    (rest : List Char) :
    takeToken c rest = .ok ⟨.symbol c.toString, [c], rest⟩ := by
  obtain ⟨-, hslash, hquote, htick, hdigit, hstart, hsingle, hops⟩ := plain_of_mem_lonelySigns hc
  rw [takeToken_eq (fun h => absurd h hslash)]
  simp [hquote, htick, hdigit, hstart, takeSymbol, takeOperator_eq_none hops, hsingle]

theorem spells_sign
    {c : Char}
    (hc : c ∈ lonelySigns) :
    Spells c.toString [sign c.toString] := by
  intro rest hs h
  have he : c.toString.toList = [c] := by
    simp [Char.toString]
  rw [he]
  exact Scans.token (plain_of_mem_lonelySigns hc).1 (takeToken_sign hc rest) rfl (by simp) h

/-- A lonely sign that is no dot ends the token in front of it. -/
theorem closes_sign
    {c : Char}
    (hc : c ∈ lonelySigns)
    (hbreak : isBreak c = true) :
    Closes c.toString [sign c.toString] :=
  ⟨spells_sign hc, c, [], by simp [Char.toString], hbreak⟩

theorem spells_arrow :
    Spells "=>" [sign "=>"] := by
  intro rest hs h
  have hpiece : takeToken '=' ('>' :: rest) = .ok ⟨.symbol "=>", ['=', '>'], rest⟩ := by
    simp [takeToken, takeSymbol, takeOperator, operators, Text.dropStart?, isDigit,
      isIdentifierStart, isLetter]
  exact Scans.token rfl hpiece rfl (by simp) h

theorem spellsApart_equals :
    SpellsApart "=" [sign "="] := by
  intro rest hs hbreak h
  have halone : takeToken '=' [] = .ok ⟨.symbol "=", ['='], []⟩ :=
    rfl
  have hpiece : takeToken '=' rest = .ok ⟨.symbol "=", ['='], rest⟩ :=
    takeToken_longer halone (Or.inr ⟨hbreak, rfl⟩)
  exact Scans.token rfl hpiece rfl (by simp) h

/-- A text that can stand between quotes as it is. -/
def IsQuotable (text : String) : Prop :=
  ∀ c ∈ text.toList, c ≠ '"' ∧ c ≠ '\\' ∧ c ≠ '\n'

instance (text : String) : Decidable (IsQuotable text) :=
  List.decidableBAll _ _

theorem takeString_plain
    {text rest : List Char}
    (h : ∀ c ∈ text, c ≠ '"' ∧ c ≠ '\\' ∧ c ≠ '\n') :
    takeString '"' (text ++ '"' :: rest) = some (text, rest) := by
  induction text with
  | nil =>
      rw [List.nil_append, takeString_cons (by decide)]
      rfl
  | cons c text ih =>
      obtain ⟨hquote, hslash, hline⟩ := h c (by simp)
      rw [List.cons_append, takeString_cons hslash, if_neg hquote, if_neg hline,
        ih fun d hd => h d (by simp [hd])]
      rfl

theorem spells_literal
    {text : String}
    (h : IsQuotable text) :
    Spells ("\"" ++ text ++ "\"") [.token (.stringLiteral text)] := by
  intro rest hs hrest
  have hpiece : takeToken '"' (text.toList ++ '"' :: rest) =
      .ok ⟨.stringLiteral text, '"' :: text.toList ++ ['"'], rest⟩ := by
    rw [takeToken_eq (fun h => absurd h (by decide)), if_pos (Or.inl rfl), takeQuoted,
      takeString_plain h]
    simp
  have he : ("\"" ++ text ++ "\"").toList ++ rest = '"' :: (text.toList ++ '"' :: rest) := by
    simp
  rw [he]
  exact Scans.token rfl hpiece rfl (by simp) hrest

end Signs

/-! ## Texts of many tokens -/

section Texts

variable {text : String} {ls : List Lexeme}

theorem takeToken_ne_end
    {c : Char} {cs : List Char} {piece : Piece}
    (h : takeToken c cs = .ok piece) :
    piece.token ≠ .endOfInput := by
  unfold takeToken at h
  split at h
  · cases h
    simp [takeLineComment]
  · unfold takeBlock at h
    split at h <;> cases h
    simp
  · split at h
    · unfold takeQuoted at h
      split at h <;> cases h
      simp
    · split at h
      · cases h
        simp [takeRun]
      · split at h
        · cases h
          simp [takeRun]
        · unfold takeSymbol at h
          split at h
          · cases h
            simp
          · split at h <;> cases h
            simp

/-- The end of the input is the last token and no other. -/
theorem scanFrom_ends
    {p : Position} {cs : List Char}
    (h : scanFrom p cs = .ok ls) :
    ∃ own q, ls = own ++ [endLexeme q] ∧ ∀ l ∈ own, l.token ≠ .endOfInput := by
  refine scanFrom_induction
    (motive := fun _ _ ls => ∃ own q, ls = own ++ [endLexeme q] ∧
      ∀ l ∈ own, l.token ≠ .endOfInput) ?_ ?_ h
  · intro p w _
    exact ⟨[], p.after w, rfl, by simp⟩
  · rintro p w c tail piece _ - - hpiece - ⟨own, q, rfl, hown⟩
    refine ⟨piece.lexeme (p.after w) :: own, q, rfl, ?_⟩
    intro l hl
    rcases List.mem_cons.mp hl with rfl | hl
    · exact takeToken_ne_end hpiece
    · exact hown l hl

/-- Whether a token is read as part of a declaration. -/
def Token.isReadable (t : Token) : Bool :=
  !t.isComment && t ≠ .endOfInput

/-- The tokens of a text; none if it cannot be split into tokens. -/
def tokensOf (text : String) : List Token :=
  match scan text with
  | .ok ls => ls.map Lexeme.token
  | .error _ => []

/-- The tokens of a text that are read as part of a declaration. -/
def readableTokens (text : String) : List Token :=
  (tokensOf text).filter Token.isReadable

theorem map_token_filter
    (ls : List Lexeme) :
    (ls.filter Lexeme.isReadable).map Lexeme.token =
      (ls.map Lexeme.token).filter Token.isReadable := by
  rw [List.filter_map]
  rfl

/--
A text of tokens in front of a longer text: its own tokens come first, and those that are read are
the readable tokens of the text.
-/
theorem scanFrom_tokens
    (rest : List Char)
    (hscan : scan text = .ok ls)
    (hrest : (∀ d ∈ text.toList.getLast?, d = '\n') ∨ (Breaks rest ∧
      ∀ l ∈ ls, l.token.isComment = false))
    (p : Position) :
    ∃ own q, scanFrom p text.toList = .ok (own ++ [endLexeme q]) ∧
      (own ++ [endLexeme q]).map Lexeme.token = ls.map Lexeme.token ∧
      (∀ l ∈ own, l.token ≠ .endOfInput) ∧
      (own.filter Lexeme.isReadable).map Lexeme.token = readableTokens text ∧
      scanFrom p (text.toList ++ rest) =
        (scanFrom (p.after text.toList) rest).map (own ++ ·) := by
  obtain ⟨ls', hls', htokens⟩ := scanFrom_shift hscan p
  obtain ⟨own, q, rfl, hown⟩ := scanFrom_ends hls'
  refine ⟨own, q, hls', htokens, hown, ?_, ?_⟩
  · have hfilter : own.filter Lexeme.isReadable =
        (own ++ [endLexeme q]).filter Lexeme.isReadable := by
      simp [endLexeme, Lexeme.isReadable]
    rw [hfilter, map_token_filter, htokens, readableTokens, tokensOf, hscan]
  · have happ : scanFrom p (text.toList ++ rest) =
        (scanFrom (p.after text.toList) rest).map ((own ++ [endLexeme q]).dropLast ++ ·) := by
      refine scanFrom_append hls' (hrest.imp id ?_)
      rintro ⟨hbreak, hcomment⟩
      refine ⟨hbreak, fun l hl => ?_⟩
      have hmem : l.token ∈ ls.map Lexeme.token := by
        rw [← htokens]
        exact List.mem_map_of_mem hl
      obtain ⟨k, hk, he⟩ := List.mem_map.mp hmem
      rw [← he]
      exact hcomment k hk
    rw [happ, List.dropLast_concat]

/-- A text that ends its last line spells its own tokens. -/
theorem spells_tokens
    (hscan : scan text = .ok ls)
    (hline : ∀ d ∈ text.toList.getLast?, d = '\n') :
    Spells text ((readableTokens text).map Glyph.token) := by
  intro rest hs h p before src hoffset hchars
  obtain ⟨own, q, -, -, -, hread, hscanned⟩ :=
    scanFrom_tokens rest hscan (Or.inl hline) p
  obtain ⟨later, hlater, hshows⟩ := h (p.after text.toList) (before ++ text.toList) src
    (by rw [Position.offset_after, hoffset, List.length_append])
    (by rw [hchars, List.append_assoc])
  refine ⟨own ++ later, ?_, ?_⟩
  · rw [hscanned, hlater]
    rfl
  · have hmap : (readableTokens text).map Glyph.token =
        (own.filter Lexeme.isReadable).map fun l => Glyph.token l.token := by
      rw [← hread, List.map_map]
      rfl
    rw [List.filter_append, hmap]
    exact shows_tokens hshows

theorem isBlank_head?_dropWhile
    (cs : List Char) :
    ∀ c ∈ (cs.dropWhile isBlank).head?, isBlank c = false := by
  intro c hc
  have hhead := List.head?_dropWhile_not isBlank cs
  rw [Option.mem_def.mp hc] at hhead
  simpa using hhead

/-- A trimmed text has no blanks at its ends. -/
theorem not_blank_of_trim
    {cs : List Char}
    (h : Text.trim cs = cs) :
    (∀ c ∈ cs.head?, isBlank c = false) ∧ ∀ c ∈ cs.getLast?, isBlank c = false := by
  have hback : (Text.trimStart cs).reverse.dropWhile isBlank = cs.reverse := by
    rw [← List.reverse_inj, List.reverse_reverse]
    exact h
  constructor
  · intro c hc
    have hprefix : cs <+: Text.trimStart cs := by
      rw [← List.reverse_suffix, ← hback]
      exact List.dropWhile_suffix isBlank
    obtain ⟨rest, hrest⟩ := hprefix
    refine isBlank_head?_dropWhile cs c ?_
    change c ∈ (Text.trimStart cs).head?
    rw [← hrest, List.head?_append, Option.mem_def.mp hc]
    rfl
  · intro c hc
    rw [← List.head?_reverse, ← hback] at hc
    exact isBlank_head?_dropWhile _ c hc

/-- A text without blanks at its ends is trimmed. -/
theorem trim_of_not_blank
    {cs : List Char}
    (hhead : ∀ c ∈ cs.head?, isBlank c = false)
    (hlast : ∀ c ∈ cs.getLast?, isBlank c = false) :
    Text.trim cs = cs := by
  have hdrop : ∀ ds : List Char, (∀ c ∈ ds.head?, isBlank c = false) →
      ds.dropWhile isBlank = ds := by
    intro ds hds
    cases ds with
    | nil =>
        rfl
    | cons d ds =>
        simp [hds d rfl]
  rw [Text.trim, Text.trimStart, hdrop cs hhead, Text.trimEnd, Text.dropEndWhile,
    hdrop cs.reverse (by simpa using hlast), List.reverse_reverse]

/-- The text between the ends of its own tokens. -/
theorem slice_eq
    (src : SourceText)
    {before cs rest : List Char}
    (hchars : src.chars = before ++ (cs ++ rest)) :
    src.slice before.length (before.length + cs.length) = cs := by
  rw [SourceText.slice, hchars, List.drop_left, Nat.add_sub_cancel_left, List.take_left]

/-- The tokens of a trimmed text reach from its first character to its last. -/
theorem span_eq
    {src : SourceText} {before cs rest : List Char} {p : Position} {own : List Lexeme}
    {q : Position}
    (htrim : Text.trim cs = cs)
    (hscan : scanFrom p cs = .ok (own ++ [endLexeme q]))
    (hoffset : p.offset = before.length)
    (hchars : src.chars = before ++ (cs ++ rest)) :
    src.span own = cs := by
  obtain ⟨hhead, hlast⟩ := not_blank_of_trim htrim
  cases cs with
  | nil =>
      rw [scanFrom_nil] at hscan
      have hown : own = [] := by
        have hlength := congrArg List.length (Except.ok.inj hscan)
        simpa using hlength.symm
      rw [hown]
      rfl
  | cons c tail =>
      obtain ⟨first, later, he, hne, hstart⟩ := scanFrom_start hscan (hhead c rfl)
      have hown : own ≠ [] := by
        rintro rfl
        simp only [List.nil_append, List.cons.injEq] at he
        exact hne he.2.symm
      obtain ⟨l, hl, hstop⟩ := scanFrom_stop hscan (by simpa using hown) hlast
      rw [List.dropLast_concat] at hl
      have hfirst : own.head? = some first := by
        cases own with
        | nil =>
            exact absurd rfl hown
        | cons k own =>
            simp only [List.cons_append, List.cons.injEq] at he
            rw [he.1]
            rfl
      simp only [SourceText.span, hfirst, hl]
      rw [hstart, hstop, Position.offset_after, hoffset]
      exact slice_eq src hchars

/-- A trimmed text without comments is spelled as a whole. -/
theorem spellsApart_stretch
    (htrim : Text.trimmed text = text)
    (hscan : scan text = .ok ls)
    (hcomment : ∀ l ∈ ls, l.token.isComment = false) :
    SpellsApart text [.stretch text (readableTokens text)] := by
  intro rest hs hbreak h p before src hoffset hchars
  obtain ⟨own, q, hown, htokens, hend, hread, hscanned⟩ :=
    scanFrom_tokens rest hscan (Or.inr ⟨hbreak, hcomment⟩) p
  obtain ⟨later, hlater, hshows⟩ := h (p.after text.toList) (before ++ text.toList) src
    (by rw [Position.offset_after, hoffset, List.length_append])
    (by rw [hchars, List.append_assoc])
  refine ⟨own ++ later, ?_, ?_⟩
  · rw [hscanned, hlater]
    rfl
  · -- every token of the stretch is read
    have hall : own.filter Lexeme.isReadable = own := by
      refine List.filter_eq_self.mpr fun l hl => ?_
      have hmem : l.token ∈ ls.map Lexeme.token := by
        rw [← htokens, List.map_append]
        exact List.mem_append_left _ (List.mem_map_of_mem hl)
      obtain ⟨k, hk, he⟩ := List.mem_map.mp hmem
      have hplain : l.token.isComment = false := by
        rw [← he]
        exact hcomment k hk
      simp [Lexeme.isReadable, hend l hl, hplain]
    have hspan : src.span own = text.toList := by
      refine span_eq ?_ hown hoffset hchars
      rw [← String.ofList_inj, String.ofList_toList]
      exact htrim
    rw [hall] at hread
    rw [List.filter_append, hall, ← hread]
    exact Shows.stretch hspan hshows

end Texts

end Source
end ContractGen
