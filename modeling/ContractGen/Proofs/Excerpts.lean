import ContractGen.Proofs.ReadTypes
import ContractGen.Proofs.TokenTiling

/-!
# Excerpts of a text

Readers keep parts of a text as they are written, such as the size of an array. Such an excerpt
goes from the beginning of one token to the end of another, with the comments between them. It has
the same tokens when it is written again, as long as what follows ends its last token.

**Results.**
* `Token.Spelled.before_break`: a token is spelled as well with less after it, and a break.
* `TilesFrom.scanFrom_excerpt`: an excerpt has its own tokens.
* `spellsApart_excerpt`: an excerpt is spelled as a whole.
-/

namespace ContractGen
namespace Source

open Text (isBlank isLetter isDigit)

/-! ## Tokens in front of something else -/

section Breaking

theorem prefix_of_breaks
    {start text rest : List Char}
    (hstart : ∀ c ∈ start, isBreak c = false)
    (hrest : Breaks rest)
    (h : start <+: text ++ rest) :
    start <+: text := by
  rw [isPrefix_iff_dropStart?, dropStart?_append hstart (Or.inr hrest)] at h
  rw [isPrefix_iff_dropStart?]
  obtain ⟨left, hleft⟩ := h
  obtain ⟨left', hleft', -⟩ := Option.map_eq_some_iff.mp hleft
  exact ⟨left', hleft'⟩

theorem opensComment_of_breaks
    {text rest : List Char}
    (hrest : Breaks rest)
    (h : OpensComment (text ++ rest)) :
    OpensComment text := by
  have hslash : isBreak '/' = false := by
    decide
  have hstar : isBreak '*' = false := by
    decide
  exact h.imp (prefix_of_breaks (by simp [hslash]) hrest)
    (prefix_of_breaks (by simp [hslash, hstar]) hrest)

/-- What follows a token begins as before, or with a break. -/
theorem head?_before_break
    {part : Char → Bool} {rest before after : List Char}
    (hpart : ∀ c, isBreak c = true → part c = false)
    (hmaximal : ∀ c ∈ rest.head?, part c = false)
    (hbefore : before <+: rest)
    (hafter : Breaks after) :
    ∀ c ∈ (before ++ after).head?, part c = false := by
  intro c hc
  cases before with
  | nil =>
      exact hpart c (hafter c hc)
  | cons d before =>
      obtain ⟨tail, rfl⟩ := hbefore
      exact hmaximal c hc

/-- A token is spelled as well with less of what follows, and then a break. -/
theorem Token.Spelled.before_break
    {t : Token} {text rest before after : List Char}
    (h : t.Spelled text rest)
    (hend : t ≠ .endOfInput)
    (hbefore : before <+: rest)
    (hafter : Breaks after)
    (hcomment : before = [] → t.isComment = false) :
    t.Spelled text (before ++ after) := by
  cases t with
  | endOfInput =>
      exact absurd rfl hend
  | identifier name =>
      obtain ⟨htext, hstarts, hparts, hmaximal⟩ := h
      exact ⟨htext, hstarts, hparts,
        head?_before_break (fun _ => isIdentifierPart_eq_false_of_isBreak) hmaximal hbefore hafter⟩
  | number digits =>
      obtain ⟨htext, hstarts, hparts, hmaximal⟩ := h
      exact ⟨htext, hstarts, hparts,
        head?_before_break (fun _ => isNumberPart_eq_false_of_isBreak) hmaximal hbefore hafter⟩
  | stringLiteral body =>
      exact h
  | comment content =>
      rcases h with ⟨body, htext, hbody, hrest, hcontent⟩ | hblock
      · refine Or.inl ⟨body, htext, hbody, ?_, hcontent⟩
        cases before with
        | nil =>
            cases hcomment rfl
        | cons d before =>
            obtain ⟨tail, rfl⟩ := hbefore
            exact hrest
      · exact Or.inr hblock
  | symbol s =>
      obtain ⟨htext, hs, hopens, hlongest⟩ := h
      have hprefix : text ++ before <+: text ++ rest :=
        (List.prefix_append_right_inj text).mpr hbefore
      refine ⟨htext, hs, ?_, ?_⟩
      · intro hopen
        rw [← List.append_assoc] at hopen
        exact hopens ((opensComment_of_breaks hafter hopen).imp (·.trans hprefix) (·.trans hprefix))
      · intro s' hs' hfits
        rcases length_symbol hs' with ⟨hop, -⟩ | ⟨c, -, rfl⟩
        · rw [← List.append_assoc] at hfits
          have hbreakless : ∀ c ∈ s'.toList, isBreak c = false :=
            fun c hc => isBreak_eq_false_of_mem_operator hop hc
          exact hlongest s' hs' ((prefix_of_breaks hbreakless hafter hfits).trans hprefix)
        · obtain ⟨c', cs, hcs, -⟩ := symbol_starts hs
          rw [toList_toString, hcs]
          simp

/-- A token that is no comment does not end with a blank. -/
theorem isBlank_getLast_of_spelled
    {t : Token} {text rest : List Char}
    (h : t.Spelled text rest)
    (hcomment : t.isComment = false) :
    ∀ c ∈ text.getLast?, isBlank c = false := by
  intro c hc
  have hmem := List.mem_of_getLast? hc
  cases t with
  | endOfInput =>
      rw [h.1] at hmem
      cases hmem
  | identifier name =>
      exact isBlank_eq_false_of_isIdentifierPart (h.2.parts c hmem)
  | number digits =>
      exact isBlank_eq_false_of_isNumberPart (h.2.parts c hmem)
  | stringLiteral body =>
      obtain ⟨quote, hquote, rfl, -⟩ := h
      rw [← List.cons_append, List.getLast?_concat] at hc
      cases hc
      rcases hquote with rfl | rfl <;> decide
  | comment content =>
      cases hcomment
  | symbol s =>
      obtain ⟨rfl, hs, -⟩ := h
      have hall : ∀ s ∈ symbols, s.toList.all (fun c => !isBlank c) = true := by
        decide
      simpa using List.all_eq_true.mp (hall s hs) c hmem

end Breaking

/-! ## Tokens of an excerpt -/

section Tokens

variable {chars : List Char} {start : Nat} {l : Lexeme} {before stretch later : List Lexeme}

theorem charsBetween_add
    {first second third : Nat}
    (h : first ≤ second)
    (h' : second ≤ third) :
    charsBetween chars first third =
      charsBetween chars first second ++ charsBetween chars second third := by
  have hadd : third - first = (second - first) + (third - second) := by
    omega
  rw [charsBetween, hadd, List.take_add, List.drop_drop, Nat.add_sub_cancel' h]
  rfl

theorem length_charsBetween
    {first second : Nat}
    (h : second ≤ chars.length) :
    (charsBetween chars first second).length = second - first := by
  rw [charsBetween, List.length_take_of_le]
  rw [List.length_drop]
  omega

/-- A cover can begin with any of its tokens. -/
theorem TilesFrom.drop
    (h : TilesFrom chars start (before ++ l :: later)) :
    TilesFrom chars l.start.offset (l :: later) := by
  induction before generalizing start with
  | nil =>
      obtain ⟨hends, -, hgaps, hspelled, hplaced⟩ := h
      refine ⟨hends, fun l' hl' => ?_, hgaps, hspelled, hplaced⟩
      cases hl'
      exact ⟨Nat.le_refl _, by simp [charsBetween]⟩
  | cons first before ih =>
      cases before with
      | nil =>
          exact ih h.tail
      | cons second before =>
          exact ih h.tail

/-- A cover of more than one token. -/
theorem TilesFrom.uncons
    (h : TilesFrom chars start (l :: later))
    (hlater : later ≠ []) :
    TilesFrom chars l.stop later ∧ l.token ≠ .endOfInput ∧ l.start.offset < l.stop ∧
      l.stop ≤ chars.length := by
  obtain ⟨next, more, rfl⟩ := List.exists_cons_of_ne_nil hlater
  exact ⟨h.tail, h.first⟩

/-- An excerpt ends inside the text. -/
theorem TilesFrom.stopAfter_bounds
    (h : TilesFrom chars start (stretch ++ later))
    (hlater : later ≠ []) :
    start ≤ stopAfter start stretch ∧ stopAfter start stretch ≤ chars.length := by
  induction stretch generalizing start with
  | nil =>
      obtain ⟨l, more, rfl⟩ := List.exists_cons_of_ne_nil hlater
      obtain ⟨hstart, hstop, hlength⟩ := h.bounds l List.mem_cons_self
      exact ⟨Nat.le_refl _, (hstart.trans hstop).trans hlength⟩
  | cons l stretch ih =>
      obtain ⟨hstart, hstop, -⟩ := h.bounds l List.mem_cons_self
      obtain ⟨htail, -⟩ := h.uncons (List.append_ne_nil_of_right_ne_nil stretch hlater)
      obtain ⟨hle, hlength⟩ := ih htail
      rw [stopAfter_cons]
      exact ⟨(hstart.trans hstop).trans hle, hlength⟩

/-- Nothing follows a token in an excerpt only if it is the last one. -/
theorem TilesFrom.eq_nil_of_stopAfter
    (h : TilesFrom chars start (stretch ++ later))
    (hlater : later ≠ [])
    (hempty : charsBetween chars start (stopAfter start stretch) = []) :
    stretch = [] := by
  cases stretch with
  | nil =>
      rfl
  | cons l stretch =>
      obtain ⟨htail, -, hlt, -⟩ := h.uncons (List.append_ne_nil_of_right_ne_nil stretch hlater)
      have hstart := (h.bounds l List.mem_cons_self).1
      obtain ⟨hle, hlength⟩ := htail.stopAfter_bounds hlater
      rw [stopAfter_cons] at hempty
      have hzero := congrArg List.length hempty
      rw [length_charsBetween hlength, List.length_nil] at hzero
      omega

/-- An excerpt has its own tokens, in front of anything that ends the last one. -/
theorem TilesFrom.scanFrom_excerpt
    (h : TilesFrom chars start (stretch ++ later))
    (hlater : later ≠ [])
    (hlast : ∀ l ∈ stretch.getLast?, l.token.isComment = false)
    (p : Position) :
    ∃ own, own.map Lexeme.token = stretch.map Lexeme.token ∧
      ∀ rest, Breaks rest →
        scanFrom p (charsBetween chars start (stopAfter start stretch) ++ rest) =
          (scanFrom (p.after (charsBetween chars start (stopAfter start stretch))) rest).map
            (own ++ ·) := by
  induction stretch generalizing start p with
  | nil =>
      refine ⟨[], rfl, fun rest _ => ?_⟩
      have hnone : charsBetween chars start (stopAfter start []) = [] := by
        simp [stopAfter, charsBetween]
      rw [hnone, List.nil_append, Position.after_nil]
      cases scanFrom p rest <;> rfl
  | cons l stretch ih =>
      obtain ⟨htail, hend, hlt, hstop⟩ :=
        h.uncons (List.append_ne_nil_of_right_ne_nil stretch hlater)
      obtain ⟨hfront, hblank⟩ := h.front l rfl
      obtain ⟨hle, hlength⟩ := htail.stopAfter_bounds hlater
      -- The excerpt: blanks, the first token, and the excerpt of the others.
      have hparts : charsBetween chars start (stopAfter start (l :: stretch)) =
          charsBetween chars start l.start.offset ++
            (charsBetween chars l.start.offset l.stop ++
              charsBetween chars l.stop (stopAfter l.stop stretch)) := by
        rw [stopAfter_cons, charsBetween_add hfront (hlt.le.trans hle), charsBetween_add hlt.le hle]
      obtain ⟨own, htokens, hown⟩ := ih htail
        (fun k hk => hlast k (by rw [List.getLast?_cons, Option.mem_def.mp hk]; rfl))
        ((p.after (charsBetween chars start l.start.offset)).after
          (charsBetween chars l.start.offset l.stop))
      refine ⟨Piece.lexeme ⟨l.token, charsBetween chars l.start.offset l.stop, []⟩
        (p.after (charsBetween chars start l.start.offset)) :: own, ?_, fun rest hrest => ?_⟩
      · rw [List.map_cons, htokens]
        rfl
      · have hprefix : charsBetween chars l.stop (stopAfter l.stop stretch) <+: chars.drop l.stop :=
          List.take_prefix _ _
        have hspelled := (h.spelled l List.mem_cons_self).before_break hend hprefix hrest
          fun hempty => by
            obtain rfl := htail.eq_nil_of_stopAfter hlater hempty
            exact hlast l rfl
        obtain ⟨c, cs, htext⟩ : ∃ c cs, charsBetween chars l.start.offset l.stop = c :: cs := by
          apply List.exists_cons_of_length_pos
          rw [length_charsBetween hstop]
          omega
        have happ : c :: (cs ++ (charsBetween chars l.stop (stopAfter l.stop stretch) ++ rest)) =
            charsBetween chars l.start.offset l.stop ++
              (charsBetween chars l.stop (stopAfter l.stop stretch) ++ rest) := by
          rw [htext]
          rfl
        have hblankless : isBlank c = false := isBlank_of_spelled (htext ▸ hspelled)
        rw [hparts, List.append_assoc, scanFrom_blanks hblank, List.append_assoc, ← happ,
          scanFrom_cons hblankless (takeToken_of_spelled happ hend hspelled), hown rest hrest,
          Position.after_append, Position.after_append]
        cases scanFrom _ rest <;> rfl

/-- A token with others after it is not empty, and neither of its ends is a blank. -/
theorem TilesFrom.ends_of_first
    (h : TilesFrom chars start (l :: later))
    (hlater : later ≠ []) :
    ∃ c cs, charsBetween chars l.start.offset l.stop = c :: cs ∧ isBlank c = false ∧
      (l.token.isComment = false → ∀ d ∈ (c :: cs).getLast?, isBlank d = false) := by
  obtain ⟨-, -, hlt, hstop⟩ := h.uncons hlater
  obtain ⟨c, cs, htext⟩ : ∃ c cs, charsBetween chars l.start.offset l.stop = c :: cs := by
    apply List.exists_cons_of_length_pos
    rw [length_charsBetween hstop]
    omega
  have hspelled := h.spelled l List.mem_cons_self
  rw [htext] at hspelled
  exact ⟨c, cs, htext, isBlank_of_spelled hspelled, isBlank_getLast_of_spelled hspelled⟩

/-- The ends of an excerpt are no blanks. -/
theorem TilesFrom.trim_excerpt
    (h : TilesFrom chars l.start.offset (l :: (stretch ++ later)))
    (hlater : later ≠ [])
    (hlast : ∀ k ∈ (l :: stretch).getLast?, k.token.isComment = false) :
    Text.trim (charsBetween chars l.start.offset (stopAfter l.start.offset (l :: stretch))) =
      charsBetween chars l.start.offset (stopAfter l.start.offset (l :: stretch)) := by
  obtain ⟨k, hk⟩ : ∃ k, (l :: stretch).getLast? = some k :=
    Option.isSome_iff_exists.mp (by simp [List.getLast?_cons])
  obtain ⟨front, hfront⟩ := List.getLast?_eq_some_iff.mp hk
  have hstop : stopAfter l.start.offset (l :: stretch) = k.stop := by
    rw [stopAfter, hk]
    rfl
  have hall : TilesFrom chars l.start.offset (front ++ k :: later) := by
    have happ : l :: (stretch ++ later) = front ++ k :: later := by
      rw [← List.cons_append, hfront, List.append_assoc]
      rfl
    rw [← happ]
    exact h
  obtain ⟨c, cs, hfirst, hblank, -⟩ := h.ends_of_first (by simp [hlater])
  obtain ⟨d, ds, hend, -, hlastBlank⟩ := hall.drop.ends_of_first hlater
  obtain ⟨hstart, hle, -⟩ := hall.bounds k (by simp)
  obtain ⟨htail, -, hlt, -⟩ := h.uncons (List.append_ne_nil_of_right_ne_nil stretch hlater)
  have hle' : l.stop ≤ k.stop := by
    rw [← hstop, stopAfter_cons]
    exact (htail.stopAfter_bounds hlater).1
  rw [hstop]
  refine trim_of_not_blank ?_ ?_
  · rw [charsBetween_add hlt.le hle', hfirst]
    rintro _ ⟨rfl⟩
    exact hblank
  · rw [charsBetween_add hstart hle, hend, List.getLast?_append_of_ne_nil _ (by simp)]
    exact hlastBlank (hlast k hk)

end Tokens

/-! ## Excerpts as stretches -/

section Stretches

variable {α : Type} {p : α → Bool} {ls own : List α}

theorem exists_front
    (h : ls.filter p = own) :
    ∃ stretch later, ls = stretch ++ later ∧ stretch.filter p = own ∧
      stretch.getLast? = own.getLast? := by
  rcases List.eq_nil_or_concat own with rfl | ⟨front, last, rfl⟩
  · exact ⟨[], ls, rfl, rfl, rfl⟩
  · rw [List.concat_eq_append] at h ⊢
    obtain ⟨first, second, rfl, hfirst, hsecond⟩ := List.filter_eq_append_iff.mp h
    obtain ⟨before, after, rfl, hnone, hlast, -⟩ := List.filter_eq_cons_iff.mp hsecond
    refine ⟨first ++ (before ++ [last]), after, by simp, ?_, by simp⟩
    rw [List.filter_append, List.filter_append, hfirst, List.filter_eq_nil_iff.mpr hnone]
    simp [hlast]

theorem exists_back
    (h : ls.filter p = own) :
    ∃ before stretch, ls = before ++ stretch ∧ stretch.filter p = own ∧
      stretch.head? = own.head? := by
  cases own with
  | nil =>
      exact ⟨ls, [], by simp, rfl, rfl⟩
  | cons first own =>
      obtain ⟨before, after, rfl, -, hfirst, hown⟩ := List.filter_eq_cons_iff.mp h
      exact ⟨before, first :: after, rfl, by simp [hfirst, hown], rfl⟩

/-- A part of the elements of a class is what is left of a part of all with the same ends. -/
theorem exists_stretch
    {before after : List α}
    (h : ls.filter p = before ++ (own ++ after)) :
    ∃ before' stretch later, ls = before' ++ (stretch ++ later) ∧ stretch.filter p = own ∧
      stretch.head? = own.head? ∧ stretch.getLast? = own.getLast? := by
  obtain ⟨first, others, rfl, -, hothers⟩ := List.filter_eq_append_iff.mp h
  obtain ⟨middle, last, rfl, hmiddle, -⟩ := List.filter_eq_append_iff.mp hothers
  obtain ⟨front, later, rfl, hfront, hgetLast⟩ := exists_front hmiddle
  obtain ⟨before', stretch, rfl, hstretch, hhead⟩ := exists_back hfront
  refine ⟨first ++ before', stretch, later ++ last, by simp, hstretch, hhead, ?_⟩
  cases stretch with
  | nil =>
      rw [← hstretch]
      rfl
  | cons k stretch =>
      rw [← hgetLast, List.getLast?_append_of_ne_nil _ (by simp)]

theorem span_filter
    {src : SourceText} {own : List Lexeme}
    (hhead : ∀ l ∈ own.head?, l.isReadable = true)
    (hlast : ∀ l ∈ own.getLast?, l.isReadable = true) :
    src.span (own.filter Lexeme.isReadable) = src.span own := by
  have hfirst : (own.filter Lexeme.isReadable).head? = own.head? := by
    cases own with
    | nil =>
        rfl
    | cons l own =>
        rw [List.filter_cons_of_pos (hhead l rfl)]
        rfl
  have hend : (own.filter Lexeme.isReadable).getLast? = own.getLast? := by
    rcases List.eq_nil_or_concat own with rfl | ⟨front, last, rfl⟩
    · rfl
    · rw [List.concat_eq_append] at hlast ⊢
      have hread : last.isReadable = true := hlast last (by simp)
      simp [hread]
  rw [SourceText.span, SourceText.span, hfirst, hend]

/-- The ends of tokens with the same kinds are readable together. -/
theorem readable_ends
    {own other : List Lexeme}
    (htokens : own.map Lexeme.token = other.map Lexeme.token)
    (hhead : ∀ l ∈ other.head?, l.isReadable = true)
    (hlast : ∀ l ∈ other.getLast?, l.isReadable = true) :
    (∀ l ∈ own.head?, l.isReadable = true) ∧ ∀ l ∈ own.getLast?, l.isReadable = true := by
  have hsame : ∀ {l k : Lexeme}, l.token = k.token → k.isReadable = true → l.isReadable = true := by
    intro l k he hk
    rw [Lexeme.isReadable, he]
    exact hk
  constructor
  · intro l hl
    have hmap := congrArg List.head? htokens
    rw [List.head?_map, List.head?_map, Option.mem_def.mp hl, Option.map_some] at hmap
    obtain ⟨k, hk, he⟩ := Option.map_eq_some_iff.mp hmap.symm
    exact hsame he.symm (hhead k hk)
  · intro l hl
    have hmap := congrArg List.getLast? htokens
    rw [List.getLast?_map, List.getLast?_map, Option.mem_def.mp hl, Option.map_some] at hmap
    obtain ⟨k, hk, he⟩ := Option.map_eq_some_iff.mp hmap.symm
    exact hsame he.symm (hlast k hk)

/-- An excerpt whose ends are readable is spelled as a whole. -/
theorem TilesFrom.spellsApart_excerpt
    {chars : List Char} {k : Lexeme} {stretch later : List Lexeme}
    (h : TilesFrom chars k.start.offset (k :: (stretch ++ later)))
    (hlater : later ≠ [])
    (hread : ∀ l ∈ (k :: stretch).head?, l.isReadable = true)
    (hreadLast : ∀ l ∈ (k :: stretch).getLast?, l.isReadable = true)
    {text : List Char}
    (htext : charsBetween chars k.start.offset (stopAfter k.start.offset (k :: stretch)) = text) :
    Text.trim text = text ∧
      SpellsApart (String.ofList text)
        [.stretch (String.ofList text)
          (((k :: stretch).filter Lexeme.isReadable).map Lexeme.token)] := by
  have hlast : ∀ l ∈ (k :: stretch).getLast?, l.token.isComment = false := by
    intro l hl
    have hl' := hreadLast l hl
    rw [Lexeme.isReadable, Bool.and_eq_true, Bool.not_eq_true'] at hl'
    exact hl'.1
  have htrim : Text.trim text = text := by
    rw [← htext]
    exact h.trim_excerpt hlater hlast
  refine ⟨htrim, ?_⟩
  intro rest hs hbreak hrest p before src hoffset hchars
  have hcover : TilesFrom chars k.start.offset ((k :: stretch) ++ later) := h
  obtain ⟨own, htokens, hscan⟩ := hcover.scanFrom_excerpt hlater hlast p
  rw [String.toList_ofList] at hchars ⊢
  rw [htext] at hscan
  obtain ⟨ls, hls, hshows⟩ := hrest (p.after text) (before ++ text) src
    (by rw [Position.offset_after, hoffset, List.length_append])
    (by rw [hchars, List.append_assoc])
  refine ⟨own ++ ls, by rw [hscan rest hbreak, hls]; rfl, ?_⟩
  obtain ⟨hhead, hgetLast⟩ := readable_ends htokens hread hreadLast
  have hspan : src.span (own.filter Lexeme.isReadable) = text := by
    have halone : scanFrom p text = .ok (own ++ [endLexeme (p.after text)]) := by
      have hnone := hscan [] (by simp [Breaks])
      rw [List.append_nil, scanFrom_nil] at hnone
      exact hnone
    rw [span_filter hhead hgetLast]
    exact span_eq htrim halone hoffset hchars
  have hmap : (own.filter Lexeme.isReadable).map Lexeme.token =
      ((k :: stretch).filter Lexeme.isReadable).map Lexeme.token := by
    rw [map_token_filter, htokens, map_token_filter]
  rw [List.filter_append, ← hmap]
  exact Shows.stretch (by rw [hspan, String.toList_ofList]) hshows

/-- A part of the readable tokens of a text, with what stands between them, is a stretch. -/
theorem spellsApart_excerpt
    {src : SourceText} {lexemes before own after : List Lexeme}
    (htiles : Tiles src.chars lexemes)
    (h : lexemes.filter Lexeme.isReadable = before ++ (own ++ after))
    (hne : own ≠ []) :
    Text.trim (src.span own) = src.span own ∧
      SpellsApart (String.ofList (src.span own))
        [.stretch (String.ofList (src.span own)) (own.map Lexeme.token)] := by
  obtain ⟨before', stretch, later, rfl, hstretch, hhead, hgetLast⟩ := exists_stretch h
  have hread : ∀ l ∈ own, l.isReadable = true := by
    intro l hl
    rw [← hstretch] at hl
    exact (List.mem_filter.mp hl).2
  obtain ⟨k, more, rfl⟩ := List.exists_cons_of_ne_nil hne
  obtain ⟨tail, rfl⟩ := List.head?_eq_some_iff.mp hhead
  have hreadLast : ∀ l ∈ (k :: tail).getLast?, l.isReadable = true := by
    intro l hl
    rw [hgetLast] at hl
    exact hread l (List.mem_of_getLast? hl)
  -- The end of the input is not readable, so it comes later.
  have hlater : later ≠ [] := by
    rintro rfl
    obtain ⟨own', q, hls, -⟩ := htiles.ends
    have hend := congrArg List.getLast? hls
    rw [List.append_nil, List.getLast?_append_of_ne_nil _ (by simp), List.getLast?_concat] at hend
    exact absurd (hreadLast _ hend) (by simp [endLexeme, Lexeme.isReadable])
  have htext : charsBetween src.chars k.start.offset (stopAfter k.start.offset (k :: tail)) =
      src.span (k :: more) := by
    rw [stopAfter, hgetLast, SourceText.span]
    cases hmore : (k :: more).getLast? with
    | none =>
        simp [List.getLast?_cons] at hmore
    | some last =>
        rfl
  have hcover : TilesFrom src.chars k.start.offset (k :: (tail ++ later)) :=
    TilesFrom.drop htiles
  have hspells := hcover.spellsApart_excerpt hlater
    (fun l hl => hread l (by cases hl; exact List.mem_cons_self)) hreadLast htext
  rw [hstretch] at hspells
  exact hspells

end Stretches

end Source
end ContractGen
