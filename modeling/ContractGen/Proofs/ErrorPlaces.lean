import ContractGen.Proofs.ReadTypes
import ContractGen.Proofs.ReadingWithin
import ContractGen.Proofs.TokenTiling

/-!
# Where a text is wrong

Reading a text ends, and it fails at a place of the text. The raw stretches that readers cut out
lie inside the text, because the tokens of a text stand one after the other.

**Definitions.**
* `StaysWithin`: what the readers of the grammar do to the tokens of a text.

**Results.**
* `findClose_bounds`: a raw stretch has its ends in order and inside the text.
* `scanFrom_error`: scanning fails at a place of the text.
* `parse_within`: so does reading, and where something else was required there is a token.
-/

namespace ContractGen
namespace Source

/-! ## Raw stretches -/

section Stretches

variable {src : SourceText} {close context : String}

/-- The ends of a raw stretch are in order and inside the text. -/
theorem findClose_bounds
    {start : Nat} {ls input : List Lexeme} {taken : Taken Nat input}
    (htiles : TilesFrom src.chars start ls)
    (hinput : input.Sublist ls)
    (h : findClose src close context 0 (src.nextOffset input) input = .ok taken) :
    src.nextOffset input ≤ taken.value ∧ taken.value ≤ src.chars.length := by
  obtain ⟨own, l, happ, -, -, hvalue⟩ := findClose_split h
  rw [hvalue]
  have hbounds : ∀ k ∈ input, k.start.offset ≤ k.stop ∧ k.stop ≤ src.chars.length :=
    fun k hk => (htiles.bounds k (hinput.subset hk)).2
  have hordered := htiles.ordered.sublist hinput
  cases own with
  | nil =>
      -- Nothing stands before the close.
      rw [happ] at hbounds ⊢
      obtain ⟨hle, hlength⟩ := hbounds l List.mem_cons_self
      exact ⟨Nat.le_refl _, hle.trans hlength⟩
  | cons first own =>
      rw [happ] at hbounds hordered ⊢
      obtain ⟨hafter, -⟩ := List.pairwise_cons.mp hordered
      obtain ⟨hfirst, hfirstStop⟩ := hbounds first List.mem_cons_self
      rw [stopAfter_cons, stopAfter]
      cases hlast : own.getLast? with
      | none =>
          exact ⟨hfirst, hfirstStop⟩
      | some last =>
          have hmem : last ∈ own ++ l :: taken.rest :=
            List.mem_append_left _ (List.mem_of_getLast? hlast)
          obtain ⟨hle, hlength⟩ := hbounds last (List.mem_cons_of_mem _ hmem)
          exact ⟨(hfirst.trans (hafter last hmem)).trans hle, hlength⟩

end Stretches

/-! ## Scanning -/

section Scanning

/-- The kinds of errors that are about a token. -/
def tokenKinds : List String :=
  ["Expected", "UnexpectedEof"]

theorem Fault.kind_notMem
    (fault : Fault)
    (p : Position) :
    (fault.toError p).kind ∉ tokenKinds := by
  cases fault <;> simp [Fault.toError, SyntaxError.kind, tokenKinds]

theorem Fault.position_toError
    (fault : Fault)
    (p : Position) :
    (fault.toError p).position = p := by
  cases fault <;> rfl

/-- Scanning fails after a part of the text that it could read. -/
theorem scanFrom_error
    {p : Position} {cs : List Char} {e : SyntaxError}
    (h : scanFrom p cs = .error e) :
    (∃ read rest, cs = read ++ rest ∧ e.position = p.after read) ∧ e.kind ∉ tokenKinds := by
  induction hn : cs.length using Nat.strongRecOn generalizing p cs with
  | ind n ih =>
      subst hn
      rw [scanFrom_eq] at h
      have hcs := List.takeWhile_append_dropWhile (p := Text.isBlank) (l := cs)
      cases hdrop : cs.dropWhile Text.isBlank with
      | nil =>
          rw [hdrop] at h
          cases h
      | cons c tail =>
          rw [hdrop, scanHere] at h
          rw [hdrop] at hcs
          split at h
          · rename_i fault hfault
            cases h
            exact ⟨⟨_, _, hcs.symm, fault.position_toError _⟩, fault.kind_notMem _⟩
          · rename_i piece hpiece
            obtain ⟨happ, -⟩ := takeToken_spec hpiece
            have hlt : piece.rest.length < cs.length := by
              have hrest := takeToken_rest_lt hpiece
              rw [← hcs, List.length_append]
              omega
            cases hlater : scanFrom ((p.after (cs.takeWhile Text.isBlank)).after piece.text)
                piece.rest with
            | ok later =>
                rw [hlater] at h
                cases h
            | error e' =>
                rw [hlater] at h
                cases h
                obtain ⟨⟨read, rest, hread, hposition⟩, hkind⟩ := ih _ hlt hlater rfl
                refine ⟨⟨cs.takeWhile Text.isBlank ++ (piece.text ++ read), rest, ?_, ?_⟩, hkind⟩
                · rw [List.append_assoc, List.append_assoc, ← hread, happ, hcs]
                · rw [hposition, Position.after_append, Position.after_append]

end Scanning

/-! ## Reading a whole text -/

section Parse

/-- The source text that the readers of some tokens work on. -/
def sourceText (chars : List Char) (lexemes : List Lexeme) : SourceText where
  chars := chars
  stop := (lexemes.getLast?.map Lexeme.start).getD {}

/-- What the readers of the grammar do to tokens of a text, and to the text itself. -/
structure StaysWithin (src : SourceText) (tokens : List Lexeme) : Prop where
  readers : ∀ {α : Type} {reader : Reader α}, GrammarReader src reader →
    ∀ input, input <:+ tokens → Advances src input (reader input)
  brackets : ∀ type input, input <:+ tokens →
    Within src input leftOver (readBrackets src type input)
  bases : ∀ input, input <:+ tokens → Within src input leftOver (readBases src input)
  arguments : ∀ context input, input <:+ tokens →
    Within src input Subtype.val (skipArguments src context input)
  qualifierArguments : ∀ context word input, input <:+ tokens →
    Within src input Subtype.val (skipQualifierArguments src context word input)
  items : Within src tokens (fun _ => []) (readItems src tokens)
  /-- The ends of the stretches that are cut out of the text. -/
  slices : ∀ close context input taken, input <:+ tokens →
    findClose src close context 0 (src.nextOffset input) input = .ok taken →
    src.nextOffset input ≤ taken.value ∧ taken.value ≤ src.chars.length

theorem staysWithin_of_tiles
    {chars : List Char} {lexemes : List Lexeme}
    (h : Tiles chars lexemes) :
    StaysWithin (sourceText chars lexemes) (lexemes.filter Lexeme.isReadable) where
  readers := fun hreader input _ => hreader.advances input
  brackets := fun type input _ => readBrackets_within type input
  bases := fun input _ => readBases_within input
  arguments := fun context input _ => skipArguments_within context input
  qualifierArguments := fun context word input _ =>
    skipQualifierArguments_within context word input
  items := readItems_within _
  slices := fun _ _ _ _ hinput htaken =>
    findClose_bounds h (hinput.sublist.trans List.filter_sublist) htaken

/-- A failure among the readable tokens is at a token that is no comment. -/
theorem FailsAt.exists_lexeme
    {chars : List Char} {lexemes : List Lexeme} {e : SyntaxError}
    (htiles : Tiles chars lexemes)
    (h : FailsAt (sourceText chars lexemes) (lexemes.filter Lexeme.isReadable) e) :
    ∃ l ∈ lexemes, l.token.isComment = false ∧ l.start = e.position := by
  obtain ⟨own, p, hls, -⟩ := htiles.ends
  have hstop : (sourceText chars lexemes).stop = p := by
    rw [sourceText, hls, List.getLast?_concat]
    rfl
  have hend : ∃ l ∈ lexemes, l.token.isComment = false ∧ l.start = p :=
    ⟨endLexeme p, by simp [hls], rfl, rfl⟩
  cases h with
  | unexpectedEnd context =>
      rw [hstop]
      exact hend
  | expected what found hp =>
      rcases hp with rfl | ⟨l, hl, rfl⟩
      · rw [hstop]
        exact hend
      · obtain ⟨hmem, hreadable⟩ := List.mem_filter.mp hl
        refine ⟨l, hmem, ?_, rfl⟩
        rw [Lexeme.isReadable, Bool.and_eq_true, Bool.not_eq_true'] at hreadable
        exact hreadable.1

/-- Tokens are read as a unit, or reading fails at one of them. -/
theorem parse_of_scan
    {text : String} {lexemes : List Lexeme}
    (h : scan text = .ok lexemes)
    (name : String) :
    (∃ unit, parse name text = .ok unit) ∨
      ∃ e, parse name text = .error e ∧
        FailsAt (sourceText text.toList lexemes) (lexemes.filter Lexeme.isReadable) e := by
  have hwithin : Within (sourceText text.toList lexemes) (lexemes.filter Lexeme.isReadable)
      (fun _ => []) (readItems (sourceText text.toList lexemes)
        (lexemes.filter Lexeme.isReadable)) :=
    readItems_within _
  rw [parse, h]
  cases hitems : readItems (sourceText text.toList lexemes)
      (lexemes.filter Lexeme.isReadable) with
  | ok items =>
      have hunit : ∃ unit, readUnit name text.toList lexemes = .ok unit := by
        rw [sourceText] at hitems
        simp [readUnit, hitems, bind, Except.bind, pure, Except.pure]
      obtain ⟨unit, hunit⟩ := hunit
      exact Or.inl ⟨unit.resolveOwnEnumerations, by simp [hunit, bind, Except.bind, pure, Except.pure]⟩
  | error e =>
      have hunit : readUnit name text.toList lexemes = .error e := by
        rw [sourceText] at hitems
        simp [readUnit, hitems, bind, Except.bind]
      rw [hitems] at hwithin
      exact Or.inr ⟨e, by simp [hunit, bind, Except.bind], hwithin⟩

/--
Reading a text ends with a unit or an error. Its readers take off tokens and never go past the last
one, the stretches they cut out lie inside the text, and an error stands at a place of the text: at
a token that is no comment, where it is about a token.
-/
theorem parse_within
    (name text : String) :
    (∀ lexemes, scan text = .ok lexemes →
      StaysWithin (sourceText text.toList lexemes) (lexemes.filter Lexeme.isReadable)) ∧
    ((∃ unit, parse name text = .ok unit) ∨
      ∃ e, parse name text = .error e ∧ e.position.IsPlaceIn text.toList ∧
        (e.kind ∈ tokenKinds → ∃ lexemes, scan text = .ok lexemes ∧
          ∃ l ∈ lexemes, l.token.isComment = false ∧ l.start = e.position)) := by
  refine ⟨fun lexemes hscan => staysWithin_of_tiles (tiles_of_scan hscan), ?_⟩
  cases hscan : scan text with
  | error e =>
      obtain ⟨⟨read, rest, htext, hposition⟩, hkind⟩ := scanFrom_error hscan
      refine Or.inr ⟨e, by simp [parse, hscan, bind, Except.bind], ?_, fun h => absurd h hkind⟩
      rw [htext, hposition]
      exact Position.isPlaceIn_after read rest
  | ok lexemes =>
      refine (parse_of_scan hscan name).imp_right ?_
      rintro ⟨e, hparse, hfails⟩
      have htiles : Tiles text.toList lexemes := tiles_of_scan hscan
      obtain ⟨l, hl, hcomment, hplace⟩ := FailsAt.exists_lexeme htiles hfails
      refine ⟨e, hparse, ?_, fun _ => ⟨lexemes, rfl, l, hl, hcomment, hplace⟩⟩
      rw [← hplace]
      exact htiles.placed l hl

/-- A contract that is not closed, with a comment after its last token. -/
def openContract : String :=
  "contract A \x7b\n  uint256 x = 1 + 2;\n// more"

theorem parse_within_openContract :
    ∃ lexemes e, scan openContract = .ok lexemes ∧
      StaysWithin (sourceText openContract.toList lexemes) (lexemes.filter Lexeme.isReadable) ∧
      parse "A" openContract = .error e ∧ e.kind ∈ tokenKinds ∧
      e.position.IsPlaceIn openContract.toList ∧
      ∃ l ∈ lexemes, l.token.isComment = false ∧ l.start = e.position := by
  obtain ⟨hstays, hparse⟩ := parse_within "A" openContract
  have hfails : (match parse "A" openContract with
      | .ok _ => none
      | .error e => some e.kind) = some "UnexpectedEof" := by
    decide +kernel
  rcases hparse with ⟨unit, hunit⟩ | ⟨e, he, hplace, htoken⟩
  · rw [hunit] at hfails
    cases hfails
  · rw [he] at hfails
    have hkind : e.kind ∈ tokenKinds := by
      rw [Option.some.inj hfails]
      decide
    obtain ⟨lexemes, hscan, hlexeme⟩ := htoken hkind
    exact ⟨lexemes, e, hscan, hstays lexemes hscan, he, hkind, hplace, hlexeme⟩

end Parse

end Source
end ContractGen
