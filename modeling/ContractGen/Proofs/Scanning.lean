import ContractGen.Source.Lexer

/-!
# Scanning a text piece by piece

How the tokens of a text depend on its parts.

* Blanks are passed over (`scanFrom_blanks`), and a token in front of a text is the first of its
  tokens (`scanFrom_cons`).
* A text that can be split into tokens keeps its tokens inside a longer text, if what follows it
  cannot become part of its last token (`scanFrom_append`). Blanks, brackets, commas, semicolons
  and quotes never do; after the end of a line anything may follow.
* The tokens do not depend on where the text stands (`scanFrom_shift`), and a text without blanks
  at its ends is covered by its tokens (`scanFrom_start`, `scanFrom_stop`).
-/

namespace ContractGen
namespace Source

open Text (isBlank isLetter isDigit)

/-! ## Places -/

section Places

@[simp] theorem Position.after_nil
    (p : Position) :
    p.after [] = p :=
  rfl

@[simp] theorem Position.after_cons
    (p : Position)
    (c : Char)
    (cs : List Char) :
    p.after (c :: cs) = (p.advance c).after cs := rfl

theorem Position.after_append
    (p : Position)
    (cs ds : List Char) :
    p.after (cs ++ ds) = (p.after cs).after ds := by
  simp [Position.after, List.foldl_append]

@[simp] theorem Position.offset_advance
    (p : Position)
    (c : Char) :
    (p.advance c).offset = p.offset + 1 := by
  unfold Position.advance
  split <;> rfl

/-- The offset counts the characters. -/
theorem Position.offset_after
    (p : Position)
    (cs : List Char) :
    (p.after cs).offset = p.offset + cs.length := by
  induction cs generalizing p with
  | nil =>
      rfl
  | cons c cs ih =>
      rw [Position.after_cons, ih, Position.offset_advance, List.length_cons]
      omega

end Places

/-! ## Characters that end a token -/

section Breaks

/-- Whether a character never continues a token in front of it. -/
def isBreak (c : Char) : Bool :=
  isBlank c || c ∈ ['(', ')', '[', ']', '\x7b', '\x7d', ',', ';', '"']

/-- Whether a text is empty or begins with a character that never continues a token. -/
def Breaks (text : List Char) : Prop :=
  ∀ c ∈ text.head?, isBreak c = true

@[simp] theorem breaks_cons
    (c : Char)
    (cs : List Char) :
    Breaks (c :: cs) ↔ isBreak c = true := by
  simp [Breaks]

/-- A blank is no letter and no digit. -/
theorem not_word_of_isBlank
    {c : Char}
    (h : isBlank c = true) :
    isLetter c = false ∧ isDigit c = false ∧ c ≠ '_' ∧ c ≠ '$' ∧ c ≠ '.' := by
  have hval : c.toNat = c.val.toNat := rfl
  simp only [isBlank, isLetter, isDigit, hval, Bool.or_eq_true, Bool.and_eq_true,
    decide_eq_true_eq, beq_iff_eq, Bool.or_eq_false_iff, Bool.and_eq_false_iff,
    decide_eq_false_iff_not, Char.le_def, UInt32.le_iff_toNat_le, ne_eq, Char.ext_iff,
    ← UInt32.toNat_inj] at h ⊢
  simp
  omega

theorem isBlank_eq_false_of_isIdentifierPart
    {c : Char}
    (h : isIdentifierPart c = true) :
    isBlank c = false := by
  cases hb : isBlank c with
  | false =>
      rfl
  | true =>
      obtain ⟨hl, hd, hu, hs, -⟩ := not_word_of_isBlank hb
      simp [isIdentifierPart, hl, hd, hu, hs] at h

theorem isIdentifierPart_eq_false_of_isBreak
    {c : Char}
    (h : isBreak c = true) :
    isIdentifierPart c = false := by
  simp only [isBreak, Bool.or_eq_true, decide_eq_true_eq, List.mem_cons, List.not_mem_nil,
    or_false] at h
  rcases h with h | rfl | rfl | rfl | rfl | rfl | rfl | rfl | rfl | rfl
  · obtain ⟨hl, hd, hu, hs, -⟩ := not_word_of_isBlank h
    simp [isIdentifierPart, hl, hd, hu, hs]
  all_goals rfl

theorem isNumberPart_eq_false_of_isBreak
    {c : Char}
    (h : isBreak c = true) :
    isNumberPart c = false := by
  simp only [isBreak, Bool.or_eq_true, decide_eq_true_eq, List.mem_cons, List.not_mem_nil,
    or_false] at h
  rcases h with h | rfl | rfl | rfl | rfl | rfl | rfl | rfl | rfl | rfl
  · obtain ⟨hl, hd, hu, -, hp⟩ := not_word_of_isBlank h
    simp [isNumberPart, hl, hd, hu, hp]
  all_goals rfl

/-- No operator holds a character that ends a token. -/
theorem isBreak_eq_false_of_mem_operator
    {op : String}
    (hop : op ∈ operators)
    {c : Char}
    (hc : c ∈ op.toList) :
    isBreak c = false := by
  have hall : operators.all (fun op => op.toList.all (!isBreak ·)) = true := rfl
  simpa using List.all_eq_true.mp (List.all_eq_true.mp hall op hop) c hc

end Breaks

/-! ## One step of scanning -/

section Steps

/-- The tokens of a text without blanks at the front. -/
def scanHere (start : Position) : List Char → Except SyntaxError (List Lexeme)
  | [] => .ok [⟨.endOfInput, start, start.offset⟩]
  | c :: tail =>
    match takeToken c tail with
    | .error fault => .error (fault.toError start)
    | .ok piece =>
      (scanFrom (start.after piece.text) piece.rest).map
        (⟨piece.token, start, (start.after piece.text).offset⟩ :: ·)

/-- Scanning passes over the blanks at the front and goes on from there. -/
theorem scanFrom_eq
    (p : Position)
    (cs : List Char) :
    scanFrom p cs = scanHere (p.after (cs.takeWhile isBlank)) (cs.dropWhile isBlank) := by
  rw [scanFrom]
  split
  · rename_i he
    rw [he]
    rfl
  · rename_i c tail he
    refine Eq.trans ?_ (congrArg (scanHere _) he.symm)
    split <;> rename_i hp <;> simp only [scanHere, hp]

/-- Nothing is left but the end. -/
theorem scanFrom_nil
    (p : Position) :
    scanFrom p [] = .ok [⟨.endOfInput, p, p.offset⟩] := by
  rw [scanFrom_eq]
  rfl

/-- Blanks at the front are passed over. -/
theorem scanFrom_blanks
    {w : List Char}
    (h : ∀ c ∈ w, isBlank c = true)
    (p : Position)
    (cs : List Char) :
    scanFrom p (w ++ cs) = scanFrom (p.after w) cs := by
  rw [scanFrom_eq, scanFrom_eq, List.takeWhile_append_of_pos h, List.dropWhile_append_of_pos h,
    Position.after_append]

/-- A token at the front is the first of the tokens. -/
theorem scanFrom_cons
    {c : Char} {cs : List Char} {piece : Piece}
    (hc : isBlank c = false)
    (h : takeToken c cs = .ok piece)
    (p : Position) :
    scanFrom p (c :: cs) =
      (scanFrom (p.after piece.text) piece.rest).map
        (⟨piece.token, p, (p.after piece.text).offset⟩ :: ·) := by
  rw [scanFrom_eq]
  simp [hc, scanHere, h]

/-- The token for the end of the input at a place. -/
def endLexeme (p : Position) : Lexeme :=
  ⟨.endOfInput, p, p.offset⟩

/-- A token at a place. -/
def Piece.lexeme (piece : Piece) (p : Position) : Lexeme :=
  ⟨piece.token, p, (p.after piece.text).offset⟩

/-- A text that can be split into tokens holds blanks and then ends or has a token. -/
theorem scanFrom_cases
    {p : Position} {cs : List Char} {ls : List Lexeme}
    (h : scanFrom p cs = .ok ls) :
    ∃ w rest, cs = w ++ rest ∧ (∀ c ∈ w, isBlank c = true) ∧
      ((rest = [] ∧ ls = [endLexeme (p.after w)]) ∨
        ∃ c tail piece later, rest = c :: tail ∧ isBlank c = false ∧
          takeToken c tail = .ok piece ∧
          scanFrom ((p.after w).after piece.text) piece.rest = .ok later ∧
          ls = piece.lexeme (p.after w) :: later) := by
  refine ⟨cs.takeWhile isBlank, cs.dropWhile isBlank, by simp, ?_, ?_⟩
  · exact List.all_eq_true.mp List.all_takeWhile
  · rw [scanFrom_eq] at h
    cases he : cs.dropWhile isBlank with
    | nil =>
        rw [he] at h
        cases h
        exact Or.inl ⟨rfl, rfl⟩
    | cons c tail =>
        right
        have hblank : isBlank c = false := by
          have hhead := List.head?_dropWhile_not isBlank cs
          rw [he] at hhead
          simpa using hhead
        rw [he, scanHere] at h
        split at h
        · cases h
        · rename_i piece hp
          cases hl : scanFrom ((p.after (cs.takeWhile isBlank)).after piece.text) piece.rest with
          | error e =>
              rw [hl] at h
              cases h
          | ok later =>
              rw [hl] at h
              cases h
              exact ⟨c, tail, piece, later, rfl, hblank, hp, hl, rfl⟩

/-- Induction along the tokens of a text. -/
theorem scanFrom_induction
    {motive : Position → List Char → List Lexeme → Prop}
    (done : ∀ p w, (∀ c ∈ w, isBlank c = true) → motive p w [endLexeme (p.after w)])
    (token : ∀ p w c tail piece later, (∀ c ∈ w, isBlank c = true) → isBlank c = false →
      takeToken c tail = .ok piece →
      scanFrom ((p.after w).after piece.text) piece.rest = .ok later →
      motive ((p.after w).after piece.text) piece.rest later →
      motive p (w ++ c :: tail) (piece.lexeme (p.after w) :: later))
    {p : Position} {cs : List Char} {ls : List Lexeme}
    (h : scanFrom p cs = .ok ls) :
    motive p cs ls := by
  induction hn : cs.length using Nat.strongRecOn generalizing p cs ls with
  | ind n ih =>
      obtain ⟨w, rest, rfl, hw, hcases⟩ := scanFrom_cases h
      rcases hcases with ⟨rfl, rfl⟩ | ⟨c, tail, piece, later, rfl, hc, hpiece, hlater, rfl⟩
      · simpa using done p w hw
      · have hlt := takeToken_rest_lt hpiece
        refine token p w c tail piece later hw hc hpiece hlater (ih _ ?_ hlater rfl)
        rw [← hn, List.length_append]
        omega

end Steps

/-! ## Tokens inside a longer text -/

section Longer

variable {text rest : List Char}

/-- A token at the front of `text` cannot reach into `rest`. -/
def Stops (text rest : List Char) : Prop :=
  '\n' ∈ text ∨ Breaks rest

theorem isBreak_newline :
    isBreak '\n' = true := by
  decide

theorem Stops.of_cons
    {c : Char}
    (h : Stops (c :: text) rest)
    (hc : isBreak c = false) :
    Stops text rest := by
  rcases h with h | h
  · rcases List.mem_cons.mp h with rfl | h
    · rw [isBreak_newline] at hc
      cases hc
    · exact Or.inl h
  · exact Or.inr h

/-- What can follow an empty text. -/
theorem Stops.breaks
    (h : Stops [] rest) :
    Breaks rest := by
  simpa [Stops] using h

/-- A run that ends in `text`, or cannot go on into `rest`, is the same in the longer text. -/
theorem run_append
    {part : Char → Bool}
    (h : (∃ c ∈ text, part c = false) ∨ ∀ c ∈ rest.head?, part c = false) :
    (text ++ rest).takeWhile part = text.takeWhile part ∧
      (text ++ rest).dropWhile part = text.dropWhile part ++ rest := by
  induction text with
  | nil =>
      have hrest : ∀ c ∈ rest.head?, part c = false := by simpa using h
      cases rest with
      | nil =>
          simp
      | cons c cs =>
          simp [hrest c rfl]
  | cons c text ih =>
      cases hc : part c with
      | false =>
          simp [hc]
      | true =>
          obtain ⟨htake, hdrop⟩ := ih (by simpa [hc] using h)
          simp [hc, htake, hdrop]

/-- A run of characters none of which is a break. -/
theorem Stops.run
    {part : Char → Bool}
    (hpart : ∀ c, isBreak c = true → part c = false)
    (h : Stops text rest) :
    (text ++ rest).takeWhile part = text.takeWhile part ∧
      (text ++ rest).dropWhile part = text.dropWhile part ++ rest :=
  run_append (h.imp (fun hn => ⟨'\n', hn, hpart _ isBreak_newline⟩)
    fun hb c hc => hpart c (hb c hc))

/-- A start without breaks is found in the longer text only where it is in the shorter one. -/
theorem dropStart?_append
    {start : List Char}
    (hstart : ∀ c ∈ start, isBreak c = false)
    (h : Stops text rest) :
    Text.dropStart? start (text ++ rest) = (Text.dropStart? start text).map (· ++ rest) := by
  induction start generalizing text with
  | nil =>
      simp [Text.dropStart?]
  | cons a start ih =>
      have ha : isBreak a = false := hstart a (by simp)
      cases text with
      | nil =>
          cases rest with
          | nil =>
              simp [Text.dropStart?]
          | cons c cs =>
              have hc : isBreak c = true := by simpa using h.breaks
              have hne : a ≠ c := by
                rintro rfl
                rw [ha] at hc
                cases hc
              simp [Text.dropStart?, hne]
      | cons b text =>
          by_cases hab : a = b
          · subst hab
            simpa [Text.dropStart?] using
              ih (fun c hc => hstart c (by simp [hc])) (h.of_cons ha)
          · simp [Text.dropStart?, hab]

theorem takeOperator_append
    {ops : List String}
    (hops : ∀ op ∈ ops, op ∈ operators)
    (h : Stops text rest) :
    takeOperator (text ++ rest) ops =
      (takeOperator text ops).map fun (op, left) => (op, left ++ rest) := by
  induction ops with
  | nil =>
      rfl
  | cons op ops ih =>
      have hop : ∀ c ∈ op.toList, isBreak c = false :=
        fun c hc => isBreak_eq_false_of_mem_operator (hops op (by simp)) hc
      rw [takeOperator, takeOperator, dropStart?_append hop h]
      cases Text.dropStart? op.toList text with
      | none =>
          exact ih fun op hop => hops op (by simp [hop])
      | some left =>
          rfl

/-- A step into a literal that is no escape. -/
theorem takeString_cons
    {quote c : Char}
    (hc : c ≠ '\\')
    (cs : List Char) :
    takeString quote (c :: cs) =
      if c = quote then some ([], cs)
      else if c = '\n' then none
      else (takeString quote cs).map fun (body, left) => (c :: body, left) := by
  rw [takeString]
  rintro d ds rfl
  exact absurd rfl hc

theorem takeString_longer
    {quote : Char}
    (hquote : quote ≠ '\\')
    {cs body left : List Char}
    (h : takeString quote cs = some (body, left)) :
    takeString quote (cs ++ rest) = some (body, left ++ rest) := by
  fun_induction takeString quote cs generalizing body with
  | case1 =>
      simp at h
  | case2 c cs ih =>
      obtain ⟨⟨b, l⟩, hb, he⟩ := Option.map_eq_some_iff.mp h
      simp only [Prod.mk.injEq] at he
      obtain ⟨rfl, rfl⟩ := he
      simp [takeString, ih hb]
  | case3 cs hescape =>
      simp only [Option.some.injEq, Prod.mk.injEq] at h
      obtain ⟨rfl, rfl⟩ := h
      simp [takeString_cons hquote]
  | case4 =>
      simp at h
  | case5 c cs hescape hc hnewline ih =>
      obtain ⟨⟨b, l⟩, hb, he⟩ := Option.map_eq_some_iff.mp h
      simp only [Prod.mk.injEq] at he
      obtain ⟨rfl, rfl⟩ := he
      -- a backslash here would be the last character, and the literal would not be closed
      have hslash : c ≠ '\\' := by
        rintro rfl
        cases cs with
        | nil =>
            simp [takeString] at hb
        | cons d ds =>
            exact hescape d ds rfl rfl
      simp [takeString_cons hslash, hc, hnewline, ih hb]

theorem takeBlockComment_longer
    {cs body left : List Char}
    (h : takeBlockComment cs = some (body, left)) :
    takeBlockComment (cs ++ rest) = some (body, left ++ rest) := by
  fun_induction takeBlockComment cs generalizing body with
  | case1 =>
      simp at h
  | case2 left' =>
      simp only [Option.some.injEq, Prod.mk.injEq] at h
      obtain ⟨rfl, rfl⟩ := h
      simp [takeBlockComment]
  | case3 c cs hend ih =>
      obtain ⟨⟨b, l⟩, hb, he⟩ := Option.map_eq_some_iff.mp h
      simp only [Prod.mk.injEq] at he
      obtain ⟨rfl, rfl⟩ := he
      rw [List.cons_append, takeBlockComment]
      · simp [ih hb]
      · rintro ds rfl hds
        cases cs with
        | nil =>
            simp [takeBlockComment] at hb
        | cons d cs =>
            simp only [List.cons_append, List.cons.injEq] at hds
            exact hend cs rfl (by rw [hds.1])

/-- A token that does not begin like a comment. -/
theorem takeToken_eq
    {c : Char} {cs : List Char}
    (h : c = '/' → cs.head? ≠ some '/' ∧ cs.head? ≠ some '*') :
    takeToken c cs =
      if c = '"' ∨ c = '\'' then takeQuoted c cs
      else if isDigit c then .ok (takeRun .number isNumberPart (c :: cs))
      else if isIdentifierStart c then .ok (takeRun .identifier isIdentifierPart (c :: cs))
      else takeSymbol c cs := by
  rw [takeToken]
  · rintro ds rfl rfl
    exact (h rfl).1 rfl
  · rintro ds rfl rfl
    exact (h rfl).2 rfl

theorem takeSymbol_longer
    {c : Char} {cs : List Char} {piece : Piece}
    (h : takeSymbol c cs = .ok piece)
    (hstop : Stops (c :: cs) rest) :
    takeSymbol c (cs ++ rest) = .ok { piece with rest := piece.rest ++ rest } := by
  rw [takeSymbol] at h ⊢
  rw [← List.cons_append, takeOperator_append (fun _ h => h) hstop]
  cases ho : takeOperator (c :: cs) operators with
  | some found =>
      obtain ⟨op, left⟩ := found
      rw [ho] at h
      cases h
      rfl
  | none =>
      rw [ho] at h
      by_cases hc : c ∈ singleSymbols
      · simp only [hc, if_true] at h
        cases h
        simp [hc]
      · simp [hc] at h

theorem takeLineComment_longer
    {cs : List Char}
    (hline : '\n' ∈ cs) :
    takeLineComment (cs ++ rest) =
      { takeLineComment cs with rest := (takeLineComment cs).rest ++ rest } := by
  obtain ⟨htake, hdrop⟩ :
      (cs ++ rest).takeWhile (· != '\n') = cs.takeWhile (· != '\n') ∧
        (cs ++ rest).dropWhile (· != '\n') = cs.dropWhile (· != '\n') ++ rest :=
    run_append (Or.inl ⟨'\n', hline, by simp⟩)
  simp [takeLineComment, htake, hdrop]

theorem takeBlock_longer
    {cs : List Char} {piece : Piece}
    (h : takeBlock cs = .ok piece) :
    takeBlock (cs ++ rest) = .ok { piece with rest := piece.rest ++ rest } := by
  rw [takeBlock] at h ⊢
  split at h
  · rename_i body left hb
    cases h
    simp [takeBlockComment_longer hb]
  · cases h

theorem takeQuoted_longer
    {quote : Char} {cs : List Char} {piece : Piece}
    (hquote : quote = '"' ∨ quote = '\'')
    (h : takeQuoted quote cs = .ok piece) :
    takeQuoted quote (cs ++ rest) = .ok { piece with rest := piece.rest ++ rest } := by
  have hslash : quote ≠ '\\' := by
    rcases hquote with rfl | rfl <;> simp
  rw [takeQuoted] at h ⊢
  split at h
  · rename_i body left hb
    cases h
    simp [takeString_longer hslash hb]
  · cases h

theorem takeRun_longer
    {token : String → Token} {part : Char → Bool}
    (hpart : ∀ c, isBreak c = true → part c = false)
    (h : Stops text rest) :
    takeRun token part (text ++ rest) =
      { takeRun token part text with rest := (takeRun token part text).rest ++ rest } := by
  obtain ⟨htake, hdrop⟩ := h.run hpart
  simp [takeRun, htake, hdrop]

/-- A text that begins no comment begins none in a longer text. -/
theorem not_comment_append
    {cs : List Char}
    (hline : ∀ ds, cs ≠ '/' :: ds)
    (hblock : ∀ ds, cs ≠ '*' :: ds)
    (h : Stops ('/' :: cs) rest) :
    (cs ++ rest).head? ≠ some '/' ∧ (cs ++ rest).head? ≠ some '*' := by
  cases cs with
  | nil =>
      have hbreak : Breaks rest := (h.of_cons rfl).breaks
      have hne : ∀ c, isBreak c = false → rest.head? ≠ some c := by
        intro c hc hhead
        rw [hbreak c hhead] at hc
        cases hc
      exact ⟨hne '/' rfl, hne '*' rfl⟩
  | cons d ds =>
      constructor
      · rintro ⟨rfl⟩
        exact hline ds rfl
      · rintro ⟨rfl⟩
        exact hblock ds rfl

/-- A token is the same in a longer text, if the rest of its text ends it. -/
theorem takeToken_longer
    {c : Char} {cs : List Char} {piece : Piece}
    (h : takeToken c cs = .ok piece)
    (hstop : '\n' ∈ cs ∨ (Breaks rest ∧ piece.token.isComment = false)) :
    takeToken c (cs ++ rest) = .ok { piece with rest := piece.rest ++ rest } := by
  have hstops : Stops (c :: cs) rest := hstop.imp (List.mem_cons_of_mem c) And.left
  unfold takeToken at h
  split at h
  case h_1 ds =>
    cases h
    have hline : '\n' ∈ ds := by
      rcases hstop with h | h
      · simpa using h
      · cases h.2
    exact congrArg Except.ok (takeLineComment_longer hline)
  case h_2 ds =>
    exact takeBlock_longer h
  case h_3 hline hblock =>
    rw [takeToken_eq]
    · split at h
      · rename_i hquote
        rw [if_pos hquote]
        exact takeQuoted_longer hquote h
      · rename_i hquote
        rw [if_neg hquote]
        split at h
        · rename_i hdigit
          cases h
          rw [if_pos hdigit, ← List.cons_append,
            takeRun_longer (fun _ => isNumberPart_eq_false_of_isBreak) hstops]
        · rename_i hdigit
          rw [if_neg hdigit]
          split at h
          · rename_i hstart
            cases h
            rw [if_pos hstart, ← List.cons_append,
              takeRun_longer (fun _ => isIdentifierPart_eq_false_of_isBreak) hstops]
          · rename_i hstart
            rw [if_neg hstart]
            exact takeSymbol_longer h hstops
    · rintro rfl
      exact not_comment_append (fun ds => hline ds rfl) (fun ds => hblock ds rfl) hstops

end Longer

/-! ## Texts inside a longer text -/

section Texts

/-- The end is always among the tokens. -/
theorem scanFrom_ne_nil
    {p : Position} {cs : List Char} {ls : List Lexeme}
    (h : scanFrom p cs = .ok ls) :
    ls ≠ [] := by
  obtain ⟨w, rest, -, -, ⟨-, rfl⟩ | ⟨c, tail, piece, later, -, -, -, -, rfl⟩⟩ := scanFrom_cases h
  · simp
  · simp

/-- What is true of the last character of a text is true after a token is taken off. -/
theorem getLast?_rest
    {c : Char} {cs : List Char} {piece : Piece} {P : Char → Prop}
    (h : takeToken c cs = .ok piece)
    (hlast : ∀ d ∈ (c :: cs).getLast?, P d) :
    ∀ d ∈ piece.rest.getLast?, P d := by
  intro d hd
  apply hlast d
  rw [← (takeToken_spec h).1, List.getLast?_append, Option.mem_def.mp hd]
  rfl

/--
A text keeps its tokens inside a longer text. What follows must be a break, and no token may be a
comment; if the text ends its last line, anything may follow.
-/
theorem scanFrom_append
    {rest : List Char} {p : Position} {cs : List Char} {ls : List Lexeme}
    (h : scanFrom p cs = .ok ls)
    (hrest : (∀ d ∈ cs.getLast?, d = '\n') ∨ (Breaks rest ∧ ∀ l ∈ ls, l.token.isComment = false)) :
    scanFrom p (cs ++ rest) = (scanFrom (p.after cs) rest).map (ls.dropLast ++ ·) := by
  revert hrest
  refine scanFrom_induction
    (motive := fun p cs ls => ((∀ d ∈ cs.getLast?, d = '\n') ∨
      (Breaks rest ∧ ∀ l ∈ ls, l.token.isComment = false)) →
      scanFrom p (cs ++ rest) = (scanFrom (p.after cs) rest).map (ls.dropLast ++ ·)) ?_ ?_ h
  · intro p w hw _
    rw [scanFrom_blanks hw]
    cases scanFrom (p.after w) rest <;> rfl
  · intro p w c tail piece later hw hc hpiece hlater ih hrest
    have hlast : (∀ d ∈ (c :: tail).getLast?, d = '\n') ∨
        (Breaks rest ∧ piece.token.isComment = false ∧
          ∀ l ∈ later, l.token.isComment = false) := by
      simpa [Piece.lexeme] using hrest
    have hlong : takeToken c (tail ++ rest) = .ok { piece with rest := piece.rest ++ rest } := by
      refine takeToken_longer hpiece (hlast.imp (fun hlast => ?_) fun h => ⟨h.1, h.2.1⟩)
      -- the text ends in a newline, and its first character is none
      have hne : '\n' ≠ c := by
        rintro rfl
        revert hc
        decide
      have hmem := List.mem_of_getLast? (hlast _ (List.getLast?_eq_some_getLast (by simp)) ▸
        List.getLast?_eq_some_getLast (l := c :: tail) (by simp))
      exact (List.mem_cons.mp hmem).resolve_left hne
    have hafter : ((p.after w).after piece.text).after piece.rest = p.after (w ++ c :: tail) := by
      rw [← Position.after_append, (takeToken_spec hpiece).1, ← Position.after_append]
    rw [List.append_assoc, scanFrom_blanks hw, List.cons_append, scanFrom_cons hc hlong,
      ih (hlast.imp (getLast?_rest hpiece) fun h => ⟨h.1, h.2.2⟩), hafter,
      List.dropLast_cons_of_ne_nil (scanFrom_ne_nil hlater)]
    cases scanFrom (p.after (w ++ c :: tail)) rest <;> rfl

/-- The tokens of a text do not depend on where it stands. -/
theorem scanFrom_shift
    {p : Position} {cs : List Char} {ls : List Lexeme}
    (h : scanFrom p cs = .ok ls)
    (q : Position) :
    ∃ ls', scanFrom q cs = .ok ls' ∧ ls'.map Lexeme.token = ls.map Lexeme.token := by
  revert q
  refine scanFrom_induction
    (motive := fun _ cs ls => ∀ q, ∃ ls', scanFrom q cs = .ok ls' ∧
      ls'.map Lexeme.token = ls.map Lexeme.token) ?_ ?_ h
  · intro p w hw q
    refine ⟨[endLexeme (q.after w)], ?_, rfl⟩
    rw [← List.append_nil w, scanFrom_blanks hw, List.append_nil, scanFrom_nil]
    rfl
  · intro p w c tail piece later hw hc hpiece _ ih q
    obtain ⟨ls', hls', htokens⟩ := ih ((q.after w).after piece.text)
    refine ⟨piece.lexeme (q.after w) :: ls', ?_, ?_⟩
    · rw [scanFrom_blanks hw, scanFrom_cons hc hpiece, hls']
      rfl
    · simp [Piece.lexeme, htokens]

/-- The first token of a text without blanks at the front stands where the text does. -/
theorem scanFrom_start
    {p : Position} {c : Char} {cs : List Char} {ls : List Lexeme}
    (h : scanFrom p (c :: cs) = .ok ls)
    (hc : isBlank c = false) :
    ∃ l later, ls = l :: later ∧ later ≠ [] ∧ l.start = p := by
  obtain ⟨w, tail, he, hw, hcases⟩ := scanFrom_cases h
  have hnil : w = [] := by
    cases w with
    | nil =>
        rfl
    | cons d w =>
        obtain ⟨rfl, -⟩ := List.cons.inj he
        rw [hw c (by simp)] at hc
        cases hc
  subst hnil
  rcases hcases with ⟨rfl, -⟩ | ⟨c', tail', piece, later, rfl, -, -, hlater, rfl⟩
  · simp at he
  · exact ⟨_, later, rfl, scanFrom_ne_nil hlater, rfl⟩

/-- A text with no token but the end holds blanks only. -/
theorem isBlank_of_scanFrom
    {p : Position} {cs : List Char} {ls : List Lexeme}
    (h : scanFrom p cs = .ok ls)
    (hls : ls.dropLast = []) :
    ∀ c ∈ cs, isBlank c = true := by
  obtain ⟨w, tail, rfl, hw, ⟨rfl, -⟩ | ⟨c, tail', piece, later, -, -, -, hlater, rfl⟩⟩ :=
    scanFrom_cases h
  · simpa using hw
  · rw [List.dropLast_cons_of_ne_nil (scanFrom_ne_nil hlater)] at hls
    cases hls

/-- The last token of a text without blanks at the end ends where the text does. -/
theorem scanFrom_stop
    {p : Position} {cs : List Char} {ls : List Lexeme}
    (h : scanFrom p cs = .ok ls)
    (hne : ls.dropLast ≠ [])
    (hlast : ∀ d ∈ cs.getLast?, isBlank d = false) :
    ∃ l, ls.dropLast.getLast? = some l ∧ l.stop = (p.after cs).offset := by
  revert hne hlast
  refine scanFrom_induction
    (motive := fun p cs ls => ls.dropLast ≠ [] → (∀ d ∈ cs.getLast?, isBlank d = false) →
      ∃ l, ls.dropLast.getLast? = some l ∧ l.stop = (p.after cs).offset) ?_ ?_ h
  · intro p w _ hne
    exact absurd rfl hne
  · intro p w c tail piece later hw hc hpiece hlater ih _ hlast
    have hrest : ∀ d ∈ piece.rest.getLast?, isBlank d = false :=
      getLast?_rest hpiece (by simpa using hlast)
    rw [Position.after_append, ← (takeToken_spec hpiece).1, Position.after_append,
      List.dropLast_cons_of_ne_nil (scanFrom_ne_nil hlater)]
    by_cases hdrop : later.dropLast = []
    · -- only blanks are left, and the text does not end in one
      have hempty : piece.rest = [] := by
        cases hr : piece.rest.getLast? with
        | none =>
            exact List.getLast?_eq_none_iff.mp hr
        | some d =>
            have hblank := isBlank_of_scanFrom hlater hdrop d (List.mem_of_getLast? hr)
            rw [hrest d hr] at hblank
            cases hblank
      rw [hdrop, hempty]
      exact ⟨_, rfl, rfl⟩
    · obtain ⟨l, hl, hstop⟩ := ih hdrop hrest
      refine ⟨l, ?_, hstop⟩
      rw [List.getLast?_cons, hl]
      rfl

end Texts

end Source
end ContractGen
