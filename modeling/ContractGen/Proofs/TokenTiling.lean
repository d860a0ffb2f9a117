import ContractGen.Proofs.Glyphs
import Mathlib.Data.List.Chain

/-!
# Tokens tile their text

What it means that a list of tokens covers a text, said without scanning: where tokens stand, what
lies between them, and which characters each of them has. Every token reaches as far as it can, so
such a cover is unique and scanning finds it.

**Definitions.**
* `Token.Spelled`: a token has some characters, in front of others.
* `Position.IsPlaceIn`: line and column are those of the offset.
* `TilesFrom`: tokens cover a text from an offset on.

**Results.**
* `takeToken_spelled`, `takeToken_of_spelled`: one token is taken off exactly if it is spelled.
* `TilesFrom.ordered`: tokens stand one after the other.
* `scan_eq_ok_iff_tiles`: scanning succeeds with some tokens exactly if they tile the text.
-/

namespace ContractGen
namespace Source

open Text (isBlank isLetter isDigit)

/-! ## How tokens are spelled -/

/-- The characters between two offsets of a text. -/
def charsBetween (chars : List Char) (start stop : Nat) : List Char :=
  (chars.drop start).take (stop - start)

/-- Characters of a class, as many as there are, the first of a smaller class. -/
structure IsRun (start part : Char → Bool) (text rest : List Char) : Prop where
  starts : ∃ c cs, text = c :: cs ∧ start c = true
  parts : ∀ c ∈ text, part c = true
  /-- No longer run stands here. -/
  maximal : ∀ c ∈ rest.head?, part c = false

/-- What can stand in a literal: no bare quote or newline, and a backslash keeps what follows it. -/
def IsLiteralBody (quote : Char) : List Char → Prop
  | [] => True
  | '\\' :: _ :: cs => IsLiteralBody quote cs
  | c :: cs => c ≠ quote ∧ c ≠ '\n' ∧ c ≠ '\\' ∧ IsLiteralBody quote cs

/-- Whether a text begins with a comment. -/
def OpensComment (text : List Char) : Prop :=
  ['/', '/'] <+: text ∨ ['/', '*'] <+: text

/-- A line comment goes to the end of its line, a block comment to the first end of a block. -/
def IsComment (content : String) (text rest : List Char) : Prop :=
  (∃ body, text = '/' :: '/' :: body ∧ '\n' ∉ body ∧ (∀ c ∈ rest.head?, c = '\n') ∧
      content = String.ofList (Text.trim body)) ∨
    ∃ body, text = '/' :: '*' :: (body ++ ['*', '/']) ∧ ¬ ['*', '/'] <:+: body ++ ['*'] ∧
      content = String.ofList (Text.trim body)

/-- Every symbol: the operators and the characters that are a symbol on their own. -/
def symbols : List String :=
  operators ++ singleSymbols.map Char.toString

/-- A token has the characters `text` where `rest` follows. -/
def Token.Spelled (text rest : List Char) : Token → Prop
  | identifier name =>
    text = name.toList ∧ IsRun isIdentifierStart isIdentifierPart text rest
  | number digits =>
    text = digits.toList ∧ IsRun isDigit isNumberPart text rest
  | stringLiteral body =>
    ∃ quote, (quote = '"' ∨ quote = '\'') ∧ text = quote :: (body.toList ++ [quote]) ∧
      IsLiteralBody quote body.toList
  | comment content => IsComment content text rest
  | symbol s =>
    text = s.toList ∧ s ∈ symbols ∧ ¬ OpensComment (text ++ rest) ∧
      ∀ s' ∈ symbols, s'.toList <+: text ++ rest → s'.toList.length ≤ s.toList.length
  | endOfInput => text = [] ∧ rest = []

/-! ## Places and covers -/

/-- Line and column are those of the offset: newlines before it, and characters since the last. -/
structure Position.IsPlaceIn (chars : List Char) (p : Position) : Prop where
  within : p.offset ≤ chars.length
  line : p.line = 1 + (chars.take p.offset).count '\n'
  column : p.column = 1 + ((chars.take p.offset).reverse.takeWhile (· != '\n')).length

/-- Two offsets in this order with nothing but blanks between them. -/
def BlankBetween (chars : List Char) (start stop : Nat) : Prop :=
  start ≤ stop ∧ ∀ c ∈ charsBetween chars start stop, isBlank c = true

/-- Tokens that cover a text from an offset on, the end of the input after all others. -/
structure TilesFrom (chars : List Char) (start : Nat) (ls : List Lexeme) : Prop where
  ends : ∃ own p, ls = own ++ [endLexeme p] ∧ p.offset = chars.length ∧
    ∀ l ∈ own, l.token ≠ .endOfInput ∧ l.start.offset < l.stop
  front : ∀ l ∈ ls.head?, BlankBetween chars start l.start.offset
  gaps : ls.IsChain fun l next => BlankBetween chars l.stop next.start.offset
  spelled : ∀ l ∈ ls,
    l.token.Spelled (charsBetween chars l.start.offset l.stop) (chars.drop l.stop)
  placed : ∀ l ∈ ls, l.start.IsPlaceIn chars

/-- Tokens that cover a whole text. -/
def Tiles (chars : List Char) (ls : List Lexeme) : Prop :=
  TilesFrom chars 0 ls

/-! ## Literals and comments -/

section Bodies

theorem isLiteralBody_cons
    {quote c : Char}
    (hc : c ≠ '\\')
    (cs : List Char) :
    IsLiteralBody quote (c :: cs) ↔ c ≠ quote ∧ c ≠ '\n' ∧ IsLiteralBody quote cs := by
  rw [IsLiteralBody]
  · simp [hc]
  · rintro d ds rfl
    exact absurd rfl hc

theorem takeString_isLiteralBody
    {quote : Char} {cs body rest : List Char}
    (h : takeString quote cs = some (body, rest)) :
    IsLiteralBody quote body := by
  fun_induction takeString quote cs generalizing body with
  | case1 =>
      cases h
  | case2 c cs ih =>
      obtain ⟨⟨b, r⟩, hb, he⟩ := Option.map_eq_some_iff.mp h
      cases he
      rw [IsLiteralBody]
      exact ih hb
  | case3 =>
      cases h
      trivial
  | case4 =>
      cases h
  | case5 c cs hescape hc hline ih =>
      obtain ⟨⟨b, r⟩, hb, he⟩ := Option.map_eq_some_iff.mp h
      cases he
      -- A backslash at the end of the text would leave the literal open.
      have hslash : c ≠ '\\' := by
        rintro rfl
        cases cs with
        | nil =>
            cases hb
        | cons d ds =>
            exact hescape d ds rfl rfl
      exact (isLiteralBody_cons hslash b).mpr ⟨hc, hline, ih hb⟩

theorem takeString_of_isLiteralBody
    {quote : Char} {body : List Char}
    (hquote : quote ≠ '\\')
    (h : IsLiteralBody quote body)
    (rest : List Char) :
    takeString quote (body ++ quote :: rest) = some (body, rest) := by
  fun_induction IsLiteralBody quote body with
  | case1 =>
      simp [takeString_cons hquote]
  | case2 c cs ih =>
      simp [takeString, ih h]
  | case3 c cs _ ih =>
      obtain ⟨hc, hline, hslash, hcs⟩ := h
      simp [takeString_cons hslash, hc, hline, ih hcs]

theorem takeBlockComment_shortest
    {cs body rest : List Char}
    (h : takeBlockComment cs = some (body, rest)) :
    ¬ ['*', '/'] <:+: body ++ ['*'] := by
  fun_induction takeBlockComment cs generalizing body with
  | case1 =>
      cases h
  | case2 =>
      cases h
      decide
  | case3 c cs hend ih =>
      obtain ⟨⟨b, r⟩, hb, he⟩ := Option.map_eq_some_iff.mp h
      cases he
      rw [List.cons_append, List.infix_cons_iff, not_or]
      refine ⟨?_, ih hb⟩
      -- An end of the block here would be in the text that was read.
      rintro ⟨tail, htail⟩
      rw [← takeBlockComment_append hb] at hend
      cases b with
      | nil =>
          simp at htail
      | cons d b =>
          simp only [List.cons_append, List.nil_append, List.cons.injEq] at htail
          obtain ⟨rfl, rfl, -⟩ := htail
          exact hend _ rfl rfl

theorem takeBlockComment_of_shortest
    {body : List Char}
    (h : ¬ ['*', '/'] <:+: body ++ ['*'])
    (rest : List Char) :
    takeBlockComment (body ++ '*' :: '/' :: rest) = some (body, rest) := by
  induction body with
  | nil =>
      rfl
  | cons c body ih =>
      rw [List.cons_append, List.infix_cons_iff, not_or] at h
      rw [List.cons_append, takeBlockComment, ih h.2]
      · rfl
      · rintro tail rfl htail
        refine h.1 ?_
        cases body with
        | nil =>
            simp at htail
        | cons d body =>
            simp only [List.cons_append, List.cons.injEq] at htail
            rw [htail.1]
            exact ⟨body ++ ['*'], rfl⟩

end Bodies

/-! ## Symbols -/

section Symbols

theorem isPrefix_iff_dropStart?
    {start text : List Char} :
    start <+: text ↔ ∃ rest, Text.dropStart? start text = some rest := by
  constructor
  · rintro ⟨rest, rfl⟩
    refine ⟨rest, ?_⟩
    induction start with
    | nil =>
        rfl
    | cons c start ih =>
        simp [Text.dropStart?, ih]
  · rintro ⟨rest, hrest⟩
    exact ⟨rest, append_of_dropStart? hrest⟩

theorem takeOperator_eq_none_iff
    {text : List Char} {ops : List String} :
    takeOperator text ops = none ↔ ∀ op ∈ ops, ¬ op.toList <+: text := by
  induction ops with
  | nil =>
      simp [takeOperator]
  | cons op ops ih =>
      rw [takeOperator, List.forall_mem_cons, isPrefix_iff_dropStart?]
      cases Text.dropStart? op.toList text with
      | none =>
          simpa using ih
      | some rest =>
          simp

/-- The first operator of a list that fits is the longest one, if longer ones come first. -/
theorem takeOperator_longest
    {text rest : List Char} {ops : List String} {op : String}
    (hsorted : ops.Pairwise fun a b => b.toList.length ≤ a.toList.length)
    (h : takeOperator text ops = some (op, rest)) :
    ∀ op' ∈ ops, op'.toList <+: text → op'.toList.length ≤ op.toList.length := by
  induction ops with
  | nil =>
      cases h
  | cons first ops ih =>
      obtain ⟨hfirst, hops⟩ := List.pairwise_cons.mp hsorted
      rw [takeOperator] at h
      intro op' hop' hfits
      cases hdrop : Text.dropStart? first.toList text with
      | some left =>
          rw [hdrop] at h
          cases h
          rcases List.mem_cons.mp hop' with rfl | hlater
          · exact Nat.le_refl _
          · exact hfirst op' hlater
      | none =>
          rw [hdrop] at h
          rcases List.mem_cons.mp hop' with rfl | hlater
          · obtain ⟨left, hleft⟩ := isPrefix_iff_dropStart?.mp hfits
            rw [hdrop] at hleft
            cases hleft
          · exact ih hops h op' hlater hfits

theorem operators_sorted :
    operators.Pairwise fun a b => b.toList.length ≤ a.toList.length := by
  decide

theorem length_symbol
    {s : String}
    (h : s ∈ symbols) :
    (s ∈ operators ∧ 2 ≤ s.toList.length) ∨ ∃ c ∈ singleSymbols, s = c.toString := by
  have hlong : ∀ op ∈ operators, 2 ≤ op.toList.length := by
    decide
  rcases List.mem_append.mp h with hop | hsingle
  · exact Or.inl ⟨hop, hlong s hop⟩
  · obtain ⟨c, hc, rfl⟩ := List.mem_map.mp hsingle
    exact Or.inr ⟨c, hc, rfl⟩

@[simp] theorem toList_toString
    (c : Char) :
    c.toString.toList = [c] := by
  simp [Char.toString]

/-- No other token begins like a symbol. -/
theorem symbol_starts
    {s : String}
    (h : s ∈ symbols) :
    ∃ c cs, s.toList = c :: cs ∧ c ≠ '"' ∧ c ≠ '\'' ∧ isDigit c = false ∧
      isIdentifierStart c = false ∧ isBlank c = false := by
  have hall : ∀ s ∈ symbols, s.toList.head?.all (fun c => c ≠ '"' && c ≠ '\'' && !isDigit c &&
      !isIdentifierStart c && !isBlank c) = true := by
    decide
  have hne : ∀ s ∈ symbols, s.toList ≠ [] := by
    decide
  obtain ⟨c, cs, hs⟩ := List.exists_cons_of_ne_nil (hne s h)
  have hfirst := hall s h
  rw [hs] at hfirst
  exact ⟨c, cs, hs, by simpa [and_assoc] using hfirst⟩

end Symbols

/-! ## Taking one token off -/

section OneToken

theorem takeRun_isRun
    {start part : Char → Bool} {c : Char}
    (token : String → Token)
    (hstart : start c = true)
    (hpart : part c = true)
    (cs : List Char) :
    IsRun start part (takeRun token part (c :: cs)).text (takeRun token part (c :: cs)).rest where
  starts := ⟨c, cs.takeWhile part, by simp [takeRun, hpart], hstart⟩
  parts := List.all_eq_true.mp List.all_takeWhile
  maximal := by
    intro d hd
    have hhead := List.head?_dropWhile_not part (c :: cs)
    rw [show (c :: cs).dropWhile part = (takeRun token part (c :: cs)).rest from rfl,
      Option.mem_def.mp hd] at hhead
    simpa using hhead

/-- A run is found again where it stands. -/
theorem split_run
    {part : Char → Bool} {text rest : List Char}
    (hall : ∀ c ∈ text, part c = true)
    (hstop : ∀ c ∈ rest.head?, part c = false) :
    (text ++ rest).takeWhile part = text ∧ (text ++ rest).dropWhile part = rest := by
  obtain ⟨htake, hdrop⟩ :
      ([] ++ rest).takeWhile part = [] ∧ ([] ++ rest).dropWhile part = [] ++ rest :=
    run_append (Or.inr hstop)
  rw [List.nil_append] at htake hdrop
  rw [List.takeWhile_append_of_pos hall, List.dropWhile_append_of_pos hall, htake, hdrop]
  simp

theorem takeRun_of_isRun
    {start part : Char → Bool} {text rest : List Char}
    (token : String → Token)
    (h : IsRun start part text rest) :
    takeRun token part (text ++ rest) = ⟨token (String.ofList text), text, rest⟩ := by
  obtain ⟨htake, hdrop⟩ := split_run h.parts h.maximal
  rw [takeRun, htake, hdrop]

/-- An identifier is spelled by its own characters, where no character continues it. -/
theorem spelled_identifier_iff
    {name : String} {text rest : List Char} :
    (Token.identifier name).Spelled text rest ↔
      text = name.toList ∧
        isIdentifier name = true ∧
        ∀ c ∈ rest.head?, isIdentifierPart c = false := by
  constructor
  · rintro ⟨rfl, ⟨c, cs, hname, hstart⟩, hparts, hmaximal⟩
    rw [hname] at hparts
    refine ⟨rfl, isIdentifier_iff.mpr ⟨c, cs, hname, hstart, ?_⟩, hmaximal⟩
    exact (List.forall_mem_cons.mp hparts).2
  · rintro ⟨rfl, hidentifier, hmaximal⟩
    obtain ⟨c, cs, hname, hstart, -⟩ := isIdentifier_iff.mp hidentifier
    exact ⟨rfl, ⟨c, cs, hname, hstart⟩, forall_isIdentifierPart hidentifier, hmaximal⟩

theorem takeLineComment_spelled
    (cs : List Char) :
    (takeLineComment cs).token.Spelled (takeLineComment cs).text (takeLineComment cs).rest := by
  refine Or.inl ⟨cs.takeWhile (· != '\n'), rfl, ?_, ?_, rfl⟩
  · intro hline
    simpa using List.all_eq_true.mp List.all_takeWhile _ hline
  · intro d hd
    have hhead := List.head?_dropWhile_not (· != '\n') cs
    rw [show cs.dropWhile (· != '\n') = (takeLineComment cs).rest from rfl,
      Option.mem_def.mp hd] at hhead
    simpa using hhead

theorem takeLineComment_of_body
    {body rest : List Char}
    (hbody : '\n' ∉ body)
    (hrest : ∀ c ∈ rest.head?, c = '\n') :
    takeLineComment (body ++ rest) =
      ⟨.comment (String.ofList (Text.trim body)), '/' :: '/' :: body, rest⟩ := by
  have hall : ∀ c ∈ body, (c != '\n') = true := by
    intro c hc
    simpa using fun he : c = '\n' => hbody (he ▸ hc)
  obtain ⟨htake, hdrop⟩ := split_run hall fun c hc => by simp [hrest c hc]
  rw [takeLineComment, htake, hdrop]

theorem takeBlock_spelled
    {cs : List Char} {piece : Piece}
    (h : takeBlock cs = .ok piece) :
    piece.token.Spelled piece.text piece.rest := by
  rw [takeBlock] at h
  split at h
  · rename_i body rest hbody
    cases h
    exact Or.inr ⟨body, rfl, takeBlockComment_shortest hbody, rfl⟩
  · cases h

theorem takeQuoted_spelled
    {quote : Char} {cs : List Char} {piece : Piece}
    (hquote : quote = '"' ∨ quote = '\'')
    (h : takeQuoted quote cs = .ok piece) :
    piece.token.Spelled piece.text piece.rest := by
  rw [takeQuoted] at h
  split at h
  · rename_i body rest hbody
    cases h
    refine ⟨quote, hquote, by simp, ?_⟩
    simpa using takeString_isLiteralBody hbody
  · cases h

theorem opensComment_cons
    (c : Char)
    (cs : List Char) :
    OpensComment (c :: cs) ↔ c = '/' ∧ (cs.head? = some '/' ∨ cs.head? = some '*') := by
  cases cs with
  | nil =>
      simp [OpensComment]
  | cons d ds =>
      simp [OpensComment, and_or_left, eq_comm]

theorem takeSymbol_spelled
    {c : Char} {cs : List Char} {piece : Piece}
    (hcomment : ¬ OpensComment (c :: cs))
    (h : takeSymbol c cs = .ok piece) :
    piece.token.Spelled piece.text piece.rest := by
  have happ := (takeSymbol_spec h).1
  rw [takeSymbol] at h
  split at h
  · rename_i op rest hop
    cases h
    have hmem : op ∈ operators := (takeOperator_spec hop).1
    refine ⟨rfl, List.mem_append_left _ hmem, happ ▸ hcomment, ?_⟩
    intro s hs hfits
    rcases length_symbol hs with ⟨hop', -⟩ | ⟨d, -, rfl⟩
    · exact takeOperator_longest operators_sorted hop s hop' (happ ▸ hfits)
    · rw [toList_toString]
      exact List.length_pos_iff.mpr (toList_ne_nil_of_mem_operators hmem)
  · rename_i hnone
    split at h
    · rename_i hc
      cases h
      refine ⟨by simp, ?_, hcomment, ?_⟩
      · exact List.mem_append_right _ (List.mem_map_of_mem hc)
      · intro s hs hfits
        rcases length_symbol hs with ⟨hop, -⟩ | ⟨d, -, rfl⟩
        · exact absurd hfits (takeOperator_eq_none_iff.mp hnone s hop)
        · simp
    · cases h

/-- What is taken off is spelled like the token. -/
theorem takeToken_spelled
    {c : Char} {cs : List Char} {piece : Piece}
    (h : takeToken c cs = .ok piece) :
    piece.token.Spelled piece.text piece.rest := by
  unfold takeToken at h
  split at h
  case h_1 =>
    cases h
    exact takeLineComment_spelled _
  case h_2 =>
    exact takeBlock_spelled h
  case h_3 hline hblock =>
    split at h
    · rename_i hquote
      exact takeQuoted_spelled hquote h
    · split at h
      · rename_i hdigit
        cases h
        exact ⟨by simp [takeRun], takeRun_isRun _ hdigit (by simp [isNumberPart, hdigit]) _⟩
      · split at h
        · rename_i hstart
          cases h
          exact ⟨by simp [takeRun],
            takeRun_isRun _ hstart (isIdentifierPart_of_isIdentifierStart hstart) _⟩
        · refine takeSymbol_spelled ?_ h
          rw [opensComment_cons]
          rintro ⟨rfl, hhead | hhead⟩
          · obtain ⟨ds, rfl⟩ := List.head?_eq_some_iff.mp hhead
            exact hline ds rfl rfl
          · obtain ⟨ds, rfl⟩ := List.head?_eq_some_iff.mp hhead
            exact hblock ds rfl rfl

theorem not_other_of_isDigit
    {c : Char}
    (h : isDigit c = true) :
    c ≠ '/' ∧ c ≠ '"' ∧ c ≠ '\'' := by
  refine ⟨?_, ?_, ?_⟩ <;>
  · rintro rfl
    revert h
    decide

/-- A symbol is taken off where no longer one fits. -/
theorem takeSymbol_of_longest
    {s : String} {c : Char} {cs rest : List Char}
    (hs : s ∈ symbols)
    (htext : s.toList = c :: cs)
    (hlongest : ∀ s' ∈ symbols, s'.toList <+: s.toList ++ rest →
      s'.toList.length ≤ s.toList.length) :
    takeSymbol c (cs ++ rest) = .ok ⟨.symbol s, s.toList, rest⟩ := by
  rw [takeSymbol, ← List.cons_append, ← htext]
  cases hop : takeOperator (s.toList ++ rest) operators with
  | some found =>
      obtain ⟨op, left⟩ := found
      obtain ⟨hmem, happ⟩ := takeOperator_spec hop
      -- Operator and symbol are as long as each other, so they are the same start of the text.
      have hle : op.toList.length ≤ s.toList.length :=
        hlongest op (List.mem_append_left _ hmem) ⟨left, happ⟩
      have hge : s.toList.length ≤ op.toList.length := by
        rcases length_symbol hs with ⟨hs', -⟩ | ⟨d, -, rfl⟩
        · exact takeOperator_longest operators_sorted hop s hs' ⟨rest, rfl⟩
        · rw [toList_toString]
          exact List.length_pos_iff.mpr (toList_ne_nil_of_mem_operators hmem)
      obtain ⟨hsame, rfl⟩ := List.append_inj happ (Nat.le_antisymm hle hge)
      rw [String.toList_inj.mp hsame]
  | none =>
      rcases length_symbol hs with ⟨hs', -⟩ | ⟨d, hd, rfl⟩
      · exact absurd ⟨rest, rfl⟩ (takeOperator_eq_none_iff.mp hop s hs')
      · rw [toList_toString] at htext
        cases htext
        simp [hd]

/-- A token is taken off where it is spelled. -/
theorem takeToken_of_spelled
    {t : Token} {c : Char} {tail text rest : List Char}
    (happ : c :: tail = text ++ rest)
    (hend : t ≠ .endOfInput)
    (h : t.Spelled text rest) :
    takeToken c tail = .ok ⟨t, text, rest⟩ := by
  cases t with
  | endOfInput =>
      exact absurd rfl hend
  | identifier name =>
      obtain ⟨rfl, hrun⟩ := h
      obtain ⟨d, ds, hname, hstart⟩ := hrun.starts
      rw [hname, List.cons_append] at happ
      obtain ⟨rfl, rfl⟩ := List.cons.inj happ
      obtain ⟨hslash, hquote, htick, hdigit⟩ := not_other_of_isIdentifierStart hstart
      rw [takeToken_eq (fun h => absurd h hslash), if_neg (by simp [hquote, htick]),
        if_neg (by simp [hdigit]), if_pos hstart, ← List.cons_append, ← hname, takeRun_of_isRun _ hrun]
      simp
  | number digits =>
      obtain ⟨rfl, hrun⟩ := h
      obtain ⟨d, ds, hdigits, hstart⟩ := hrun.starts
      rw [hdigits, List.cons_append] at happ
      obtain ⟨rfl, rfl⟩ := List.cons.inj happ
      obtain ⟨hslash, hquote, htick⟩ := not_other_of_isDigit hstart
      rw [takeToken_eq (fun h => absurd h hslash), if_neg (by simp [hquote, htick]),
        if_pos hstart, ← List.cons_append, ← hdigits, takeRun_of_isRun _ hrun]
      simp
  | stringLiteral body =>
      obtain ⟨quote, hquote, rfl, hbody⟩ := h
      rw [List.cons_append] at happ
      obtain ⟨rfl, rfl⟩ := List.cons.inj happ
      have hplain : c ≠ '/' ∧ c ≠ '\\' := by
        rcases hquote with rfl | rfl <;> decide
      rw [takeToken_eq (fun h => absurd h hplain.1), if_pos hquote, takeQuoted, List.append_assoc,
        List.singleton_append, takeString_of_isLiteralBody hplain.2 hbody]
      simp
  | comment content =>
      rcases h with ⟨body, rfl, hbody, hrest, rfl⟩ | ⟨body, rfl, hshort, rfl⟩
      · rw [List.cons_append, List.cons_append] at happ
        obtain ⟨rfl, rfl⟩ := List.cons.inj happ
        rw [takeToken, takeLineComment_of_body hbody hrest]
      · rw [List.cons_append, List.cons_append] at happ
        obtain ⟨rfl, rfl⟩ := List.cons.inj happ
        rw [takeToken, takeBlock, List.append_assoc, List.cons_append,
          List.singleton_append, takeBlockComment_of_shortest hshort]
        rfl
  | symbol s =>
      obtain ⟨rfl, hs, hcomment, hlongest⟩ := h
      obtain ⟨d, ds, htext, hquote, htick, hdigit, hstart, -⟩ := symbol_starts hs
      rw [← happ, opensComment_cons] at hcomment
      rw [htext, List.cons_append] at happ
      obtain ⟨rfl, rfl⟩ := List.cons.inj happ
      rw [takeToken_eq, if_neg (by simp [hquote, htick]), if_neg (by simp [hdigit]),
        if_neg (by simp [hstart]), takeSymbol_of_longest hs htext hlongest]
      intro hslash
      exact not_or.mp fun hhead => hcomment ⟨hslash, hhead⟩

end OneToken

/-! ## Places -/

section Places

theorem Position.after_start
    (before : List Char) :
    ({} : Position).after before =
      { line := 1 + before.count '\n',
        column := 1 + (before.reverse.takeWhile (· != '\n')).length,
        offset := before.length } := by
  induction before using List.reverseRecOn with
  | nil =>
      rfl
  | append_singleton before c ih =>
      rw [Position.after_append, ih, Position.after_cons, Position.after_nil, Position.advance]
      by_cases hc : c = '\n'
      · simp [hc, Nat.add_assoc]
      · simp [hc, Nat.add_comm]

theorem Position.isPlaceIn_iff
    {chars : List Char} {p : Position} :
    p.IsPlaceIn chars ↔
      p.offset ≤ chars.length ∧ p = ({} : Position).after (chars.take p.offset) := by
  rw [Position.after_start]
  constructor
  · rintro ⟨hwithin, hline, hcolumn⟩
    refine ⟨hwithin, ?_⟩
    rw [← hline, ← hcolumn, List.length_take_of_le hwithin]
  · rintro ⟨hwithin, hp⟩
    exact ⟨hwithin, congrArg Position.line hp, congrArg Position.column hp⟩

theorem Position.isPlaceIn_after
    (before rest : List Char) :
    (({} : Position).after before).IsPlaceIn (before ++ rest) := by
  have hoffset : (({} : Position).after before).offset = before.length := by
    rw [Position.after_start]
  rw [Position.isPlaceIn_iff, hoffset, List.take_left]
  simp

end Places

/-! ## Covers -/

section Covers

theorem charsBetween_append
    (before text rest : List Char) :
    charsBetween (before ++ (text ++ rest)) before.length (before.length + text.length) = text := by
  simp [charsBetween]

theorem blankBetween_append
    (before : List Char)
    {w : List Char}
    (hw : ∀ c ∈ w, isBlank c = true)
    (rest : List Char) :
    BlankBetween (before ++ (w ++ rest)) before.length (before.length + w.length) := by
  refine ⟨Nat.le_add_right _ _, ?_⟩
  rwa [charsBetween_append]

/-- Nothing but blanks is covered by the end of the input. -/
theorem TilesFrom.done
    {before w : List Char}
    (hw : ∀ c ∈ w, isBlank c = true) :
    TilesFrom (before ++ w) before.length [endLexeme (({} : Position).after (before ++ w))] := by
  have hoffset : (({} : Position).after (before ++ w)).offset = (before ++ w).length := by
    rw [Position.after_start]
  refine ⟨⟨[], _, rfl, hoffset, by simp⟩, ?_, List.isChain_singleton _, ?_, ?_⟩
  · intro l hl
    cases hl
    simpa [endLexeme, hoffset] using blankBetween_append before hw []
  · intro l hl
    obtain rfl := List.mem_singleton.mp hl
    simp [endLexeme, Token.Spelled, charsBetween, hoffset]
  · intro l hl
    obtain rfl := List.mem_singleton.mp hl
    simpa [endLexeme] using Position.isPlaceIn_after (before ++ w) []

/-- A token in front of a cover covers more. -/
theorem TilesFrom.token
    {before w : List Char} {piece : Piece} {later : List Lexeme}
    (hw : ∀ c ∈ w, isBlank c = true)
    (hne : piece.text ≠ [])
    (hend : piece.token ≠ .endOfInput)
    (hspelled : piece.token.Spelled piece.text piece.rest)
    (h : TilesFrom (before ++ (w ++ (piece.text ++ piece.rest)))
      (before ++ w ++ piece.text).length later) :
    TilesFrom (before ++ (w ++ (piece.text ++ piece.rest))) before.length
      (piece.lexeme (({} : Position).after (before ++ w)) :: later) := by
  obtain ⟨⟨own, p, hlater, hlast, hown⟩, hfront, hgaps, hspells, hplaced⟩ := h
  have hstart : (({} : Position).after (before ++ w)).offset = (before ++ w).length := by
    rw [Position.after_start]
  have hstop : (piece.lexeme (({} : Position).after (before ++ w))).stop =
      (before ++ w ++ piece.text).length := by
    rw [Piece.lexeme, Position.offset_after, hstart, ← List.length_append]
  have hlonger : (before ++ w ++ piece.text).length = (before ++ w).length + piece.text.length :=
    List.length_append
  refine ⟨⟨piece.lexeme _ :: own, p, by rw [hlater]; rfl, hlast, ?_⟩, ?_, ?_, ?_, ?_⟩
  · have hpos := List.length_pos_iff.mpr hne
    intro l hl
    rcases List.mem_cons.mp hl with rfl | hl
    · refine ⟨hend, ?_⟩
      rw [hstop, Piece.lexeme, hstart, hlonger]
      omega
    · exact hown l hl
  · intro l hl
    cases hl
    rw [Piece.lexeme, hstart, List.length_append]
    exact blankBetween_append before hw _
  · rw [List.isChain_cons]
    refine ⟨fun next hnext => ?_, hgaps⟩
    rw [hstop]
    exact hfront next hnext
  · intro l hl
    rcases List.mem_cons.mp hl with rfl | hl
    · rw [hstop, Piece.lexeme, hstart, ← List.append_assoc, hlonger, charsBetween_append, ← hlonger,
        ← List.append_assoc, List.drop_left]
      exact hspelled
    · exact hspells l hl
  · intro l hl
    rcases List.mem_cons.mp hl with rfl | hl
    · rw [Piece.lexeme, ← List.append_assoc]
      exact Position.isPlaceIn_after _ _
    · exact hplaced l hl

/-- Scanning covers what it scans. -/
theorem tilesFrom_of_scanFrom
    (before : List Char)
    {cs : List Char} {ls : List Lexeme}
    (h : scanFrom (({} : Position).after before) cs = .ok ls) :
    TilesFrom (before ++ cs) before.length ls := by
  refine scanFrom_induction
    (motive := fun p cs ls => ∀ before, p = ({} : Position).after before →
      TilesFrom (before ++ cs) before.length ls) ?done ?token h before rfl
  case done =>
    rintro _ w hw before rfl
    rw [← Position.after_append]
    exact TilesFrom.done hw
  case token =>
    rintro _ w c tail piece later hw - hpiece - ih before rfl
    obtain ⟨happ, hne⟩ := takeToken_spec hpiece
    have hlater := ih (before ++ w ++ piece.text) (by simp only [Position.after_append])
    rw [← Position.after_append, ← happ]
    refine TilesFrom.token hw hne (takeToken_ne_end hpiece) (takeToken_spelled hpiece) ?_
    simpa only [List.append_assoc] using hlater

/-- What comes after the first token of a cover is a cover from its end on. -/
theorem TilesFrom.tail
    {chars : List Char} {start : Nat} {l next : Lexeme} {later : List Lexeme}
    (h : TilesFrom chars start (l :: next :: later)) :
    TilesFrom chars l.stop (next :: later) := by
  obtain ⟨⟨own, p, hls, hlast, hown⟩, -, hgaps, hspelled, hplaced⟩ := h
  rw [List.isChain_cons] at hgaps
  refine ⟨?_, hgaps.1, hgaps.2, fun l' hl => hspelled l' (List.mem_cons_of_mem _ hl),
    fun l' hl => hplaced l' (List.mem_cons_of_mem _ hl)⟩
  cases own with
  | nil =>
      cases hls
  | cons first own =>
      obtain ⟨rfl, hrest⟩ := List.cons.inj hls
      exact ⟨own, p, hrest, hlast, fun l' hl => hown l' (List.mem_cons_of_mem _ hl)⟩

theorem isBlank_eq_false_of_isNumberPart
    {c : Char}
    (h : isNumberPart c = true) :
    isBlank c = false := by
  cases hblank : isBlank c with
  | false =>
      rfl
  | true =>
      rw [isNumberPart_eq_false_of_isBreak (by simp [isBreak, hblank])] at h
      cases h

/-- No token begins with a blank. -/
theorem isBlank_of_spelled
    {t : Token} {c : Char} {cs rest : List Char}
    (h : t.Spelled (c :: cs) rest) :
    isBlank c = false := by
  cases t with
  | endOfInput =>
      cases h.1
  | identifier name =>
      exact isBlank_eq_false_of_isIdentifierPart (h.2.parts c List.mem_cons_self)
  | number digits =>
      exact isBlank_eq_false_of_isNumberPart (h.2.parts c List.mem_cons_self)
  | stringLiteral body =>
      obtain ⟨quote, hquote, htext, -⟩ := h
      obtain ⟨rfl, -⟩ := List.cons.inj htext
      rcases hquote with rfl | rfl <;> decide
  | comment content =>
      rcases h with ⟨body, htext, -⟩ | ⟨body, htext, -⟩
      · obtain ⟨rfl, -⟩ := List.cons.inj htext
        decide
      · obtain ⟨rfl, -⟩ := List.cons.inj htext
        decide
  | symbol s =>
      obtain ⟨htext, hs, -⟩ := h
      obtain ⟨d, ds, hd, -, -, -, -, hblank⟩ := symbol_starts hs
      rw [hd] at htext
      obtain ⟨rfl, -⟩ := List.cons.inj htext
      exact hblank

theorem drop_eq_charsBetween_append
    {chars : List Char} {start stop : Nat}
    (h : start ≤ stop) :
    chars.drop start = charsBetween chars start stop ++ chars.drop stop := by
  rw [charsBetween, show stop = start + (stop - start) by omega, ← List.drop_drop,
    Nat.add_sub_cancel_left, List.take_append_drop]

theorem take_append_charsBetween
    {chars : List Char} {start stop : Nat}
    (h : start ≤ stop) :
    chars.take start ++ charsBetween chars start stop = chars.take stop := by
  rw [charsBetween, ← List.take_add, Nat.add_sub_cancel' h]

/-- A token with others after it is no end, is not empty and ends inside the text. -/
theorem TilesFrom.first
    {chars : List Char} {start : Nat} {l next : Lexeme} {later : List Lexeme}
    (h : TilesFrom chars start (l :: next :: later)) :
    l.token ≠ .endOfInput ∧ l.start.offset < l.stop ∧ l.stop ≤ chars.length := by
  obtain ⟨⟨own, p, hls, -, hown⟩, -, hgaps, -, hplaced⟩ := h
  obtain ⟨hgap, -⟩ := (List.isChain_cons.mp hgaps).1 next rfl
  cases own with
  | nil =>
      cases hls
  | cons first own =>
      obtain ⟨rfl, -⟩ := List.cons.inj hls
      obtain ⟨hend, hlt⟩ := hown l List.mem_cons_self
      exact ⟨hend, hlt, hgap.trans (hplaced next (by simp)).within⟩

/-- Scanning passes the blanks in front of a cover. -/
theorem TilesFrom.scanFrom_front
    {chars : List Char} {start : Nat} {l : Lexeme} {later : List Lexeme}
    (h : TilesFrom chars start (l :: later)) :
    scanFrom (({} : Position).after (chars.take start)) (chars.drop start) =
      scanFrom l.start (chars.drop l.start.offset) := by
  obtain ⟨hfront, hblank⟩ := h.front l rfl
  obtain ⟨-, hplace⟩ := Position.isPlaceIn_iff.mp (h.placed l List.mem_cons_self)
  rw [drop_eq_charsBetween_append hfront, scanFrom_blanks hblank, ← Position.after_append,
    take_append_charsBetween hfront, ← hplace]

/-- Scanning finds the first token of a cover. -/
theorem TilesFrom.scanFrom_first
    {chars : List Char} {start : Nat} {l next : Lexeme} {later : List Lexeme}
    (h : TilesFrom chars start (l :: next :: later)) :
    scanFrom l.start (chars.drop l.start.offset) =
      (scanFrom (({} : Position).after (chars.take l.stop)) (chars.drop l.stop)).map (l :: ·) := by
  obtain ⟨hend, hlt, hstop⟩ := h.first
  have hspelled := h.spelled l List.mem_cons_self
  obtain ⟨-, hplace⟩ := Position.isPlaceIn_iff.mp (h.placed l List.mem_cons_self)
  have hafter : l.start.after (charsBetween chars l.start.offset l.stop) =
      ({} : Position).after (chars.take l.stop) := by
    rw [hplace, ← Position.after_append, ← hplace, take_append_charsBetween hlt.le]
  have hoffset : (l.start.after (charsBetween chars l.start.offset l.stop)).offset = l.stop := by
    rw [hafter, Position.after_start, List.length_take_of_le hstop]
  obtain ⟨c, cs, htext⟩ : ∃ c cs, charsBetween chars l.start.offset l.stop = c :: cs := by
    apply List.exists_cons_of_length_pos
    rw [charsBetween, List.length_take, List.length_drop]
    omega
  have happ : c :: (cs ++ chars.drop l.stop) =
      charsBetween chars l.start.offset l.stop ++ chars.drop l.stop := by
    rw [htext]
    rfl
  have htaken := takeToken_of_spelled happ hend hspelled
  rw [drop_eq_charsBetween_append hlt.le, htext, List.cons_append,
    scanFrom_cons (isBlank_of_spelled (htext ▸ hspelled)) htaken]
  dsimp only
  rw [hoffset, hafter]

/-- Scanning finds the tokens of a cover. -/
theorem TilesFrom.scanFrom_eq
    {chars : List Char} {start : Nat} {ls : List Lexeme}
    (h : TilesFrom chars start ls) :
    scanFrom (({} : Position).after (chars.take start)) (chars.drop start) = .ok ls := by
  induction ls generalizing start with
  | nil =>
      obtain ⟨own, p, hls, -⟩ := h.ends
      simp at hls
  | cons l later ih =>
      rw [h.scanFrom_front]
      cases later with
      | nil =>
          -- The end of the input: nothing is left.
          obtain ⟨own, p, hls, hlast, -⟩ := h.ends
          obtain ⟨rfl, rfl⟩ : own = [] ∧ l = endLexeme p := by
            cases own <;> simp_all
          rw [endLexeme, hlast, List.drop_length, scanFrom_nil, ← hlast]
      | cons next later =>
          rw [h.scanFrom_first, ih h.tail]
          rfl

end Covers

/-! ## Tokens one after the other -/

section Order

theorem TilesFrom.bounds
    {chars : List Char} {start : Nat} {ls : List Lexeme}
    (h : TilesFrom chars start ls) :
    ∀ l ∈ ls, start ≤ l.start.offset ∧ l.start.offset ≤ l.stop ∧ l.stop ≤ chars.length := by
  induction ls generalizing start with
  | nil =>
      simp
  | cons l later ih =>
      obtain ⟨hfront, -⟩ := h.front l rfl
      cases later with
      | nil =>
          obtain ⟨own, p, hls, hlast, -⟩ := h.ends
          obtain ⟨rfl, rfl⟩ : own = [] ∧ l = endLexeme p := by
            cases own <;> simp_all
          intro l' hl'
          obtain rfl := List.mem_singleton.mp hl'
          exact ⟨hfront, Nat.le_refl _, hlast.le⟩
      | cons next later =>
          obtain ⟨-, hlt, hstop⟩ := h.first
          intro l' hl'
          rcases List.mem_cons.mp hl' with rfl | hl'
          · exact ⟨hfront, hlt.le, hstop⟩
          · obtain ⟨hstart, hin⟩ := ih h.tail l' hl'
            exact ⟨by omega, hin⟩

theorem TilesFrom.ordered
    {chars : List Char} {start : Nat} {ls : List Lexeme}
    (h : TilesFrom chars start ls) :
    ls.Pairwise fun l later => l.stop ≤ later.start.offset := by
  induction ls generalizing start with
  | nil =>
      exact .nil
  | cons l later ih =>
      cases later with
      | nil =>
          exact List.pairwise_singleton _ _
      | cons next later =>
          exact .cons (fun l' hl' => (h.tail.bounds l' hl').1) (ih h.tail)

end Order

theorem tiles_of_scan
    {text : String}
    {ls : List Lexeme}
    (h : scan text = .ok ls) :
    Tiles text.toList ls :=
  tilesFrom_of_scanFrom [] h

/-- Scanning succeeds with some tokens exactly if they tile the text. -/
theorem scan_eq_ok_iff_tiles
    (text : String)
    (ls : List Lexeme) :
    scan text = .ok ls ↔ Tiles text.toList ls := by
  constructor
  · intro h
    exact tiles_of_scan h
  · intro h
    exact h.scanFrom_eq

end Source
end ContractGen
