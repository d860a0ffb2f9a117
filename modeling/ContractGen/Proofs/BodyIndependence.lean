import ContractGen.Proofs.Bodies
import ContractGen.Proofs.ErrorPlaces
import ContractGen.Proofs.RespelledTrees

/-!
# Bodies do not matter

What a file declares does not depend on the bodies of its functions, modifiers and constructors.
Two texts whose tokens differ in one such body only are both accepted or both refused, and the
declarations that are read are the same, up to blanks and comments in the texts that are kept as
they are written.

Where a body begins is decided by the tokens before it alone. These are read on their own, without a
text: first the declarations and members in front, then the header, which could as well end with a
semicolon.

**Definitions.**
* `PassesBodies`: a reader reads the same from a header whatever body follows it.
* `OpensBody`: after these tokens, a brace opens the body of a member of a contract.

**Results.**
* `readFunction_passesBodies`, `readModifier_passesBodies`: functions and modifiers pass over
  bodies.
* `parse_bodies`: so does parsing.
-/

namespace ContractGen
namespace Source

open Target

/-! ## Tokens without a text -/

/-- The text that tokens without a text are read from. -/
def blank : SourceText :=
  ⟨[], {}⟩

/-- Tokens that stand nowhere. -/
def bare (ts : List Token) : List Lexeme :=
  ts.map fun t => ⟨t, {}, 0⟩

/-- A semicolon that stands nowhere. -/
def semicolon : Lexeme :=
  ⟨.symbol ";", {}, 0⟩

/-- Nothing is known of two texts but that they have the same tokens. -/
def unrelated : Likeness where
  SameText _ _ := True
  IsName _ := True

/-- The view of trees in two such texts. -/
def unrelatedView : unrelated.View where
  type _ := default
  text _ := ""
  type_eq _ := rfl
  text_eq _ := rfl

/-- Excerpts of two texts are the same. -/
def identical : Likeness where
  SameText := Eq
  IsName _ := True

theorem eq_of_alike
    {a b : TypeExpr}
    (h : identical.Alike a b) :
    a = b := by
  induction h with
  | named _ =>
      rfl
  | sized _ hsize ih =>
      rw [ih, show _ = _ from hsize]
  | mapping _ _ ihKey ihValue =>
      rw [ihKey, ihValue]
  | array _ ih =>
      rw [ih]
  | payable _ ih =>
      rw [ih]

/-- The view of trees in texts with the same excerpts leaves nothing out. -/
def identicalView : identical.View where
  type := id
  text := id
  type_eq := eq_of_alike
  text_eq := id

section Bare

variable {k : Likeness} {p : Pairing k} {left' : List Lexeme}

theorem map_token_bare
    (ts : List Token) :
    (bare ts).map Lexeme.token = ts := by
  rw [bare, List.map_map]
  exact List.map_id ts

theorem twins_unrelated
    {src src' : SourceText}
    {own own' later later' : List Lexeme}
    (h : own'.map Lexeme.token = own.map Lexeme.token) :
    Pairing.Twins (k := unrelated) ⟨src, src', later, later'⟩ own own' :=
  ⟨h, fun _ _ _ _ => trivial, fun _ _ => trivial⟩

/-- Where the texts may differ, the rest of the second text is left. -/
theorem Pairing.Shares.eq_later
    (h : p.Shares p.later left') :
    left' = p.later' := by
  obtain ⟨own, own', hown, rfl, htwins⟩ := h
  obtain rfl : own = [] := List.append_left_eq_self.mp hown.symm
  rw [List.map_eq_nil_iff.mp htwins.tokens, List.nil_append]

end Bare

/-! ## Headers of functions and modifiers -/

/-- The same tokens in two texts, with the same text from any of them to any other. -/
structure SameHeader (src src' : SourceText) (header header' : List Lexeme) : Prop where
  tokens : header'.map Lexeme.token = header.map Lexeme.token
  texts : ∀ skipped taken, src.excerpt ((header.drop skipped).take taken) =
    src'.excerpt ((header'.drop skipped).take taken)

/--
What a reader reads from a header that ends with a semicolon, it reads from the header with any
body, and it leaves what follows the body.
-/
def PassesBodies {α : Type} (reader : SourceText → Reader α) : Prop :=
  ∀ (src src' : SourceText) (header header' body rest : List Lexeme)
    (semicolon brace close : Lexeme) (value : α) (hsemicolon),
    SameHeader src src' header header' → semicolon.token = .symbol ";" →
    brace.token = .symbol "\x7b" → close.token = .symbol "\x7d" → Nests (body.map Lexeme.token) →
    reader src (header ++ [semicolon]) = .ok ⟨value, [], hsemicolon⟩ →
    ∃ hrest, reader src' (header' ++ brace :: (body ++ close :: rest)) = .ok ⟨value, rest, hrest⟩

section Headers

theorem passesBodies_of_bodied
    {α : Type}
    {reader : SourceText → Reader α}
    (h : ∀ (p : Pairing identical) (rest input input' : List Lexeme) (taken : Taken α input),
      p.Bodied rest → p.Shares input input' → reader p.src input = .ok taken → taken.rest = [] →
      (p.past rest).Continues Eq taken (reader p.src' input')) :
    PassesBodies reader := by
  intro src src' header header' body rest semicolon brace close value _ hheader hsemicolon hbrace
    hclose hnests hread
  have hbodied : Pairing.Bodied (k := identical)
      ⟨src, src', [semicolon], brace :: (body ++ close :: rest)⟩ rest :=
    ⟨⟨semicolon, rfl, hsemicolon⟩, brace, body, close, rfl, hbrace, hclose, hnests⟩
  have hshares : Pairing.Shares (k := identical)
      ⟨src, src', [semicolon], brace :: (body ++ close :: rest)⟩ (header ++ [semicolon])
      (header' ++ brace :: (body ++ close :: rest)) :=
    ⟨header, header', rfl, rfl, hheader.tokens, fun _ _ _ _ => trivial, hheader.texts⟩
  obtain ⟨⟨value', rest', hrest'⟩, hread', heq, hpast⟩ := h _ _ _ _ _ hbodied hshares hread rfl
  obtain rfl : rest' = rest := hpast.eq_later
  cases heq
  exact ⟨hrest', hread'⟩

theorem parameters_identical
    (ps : List Parameter) :
    ps.map (Parameter.mapType identicalView.type) = ps :=
  List.map_id'' (fun _ => rfl) ps

theorem function_identical
    (f : Target.Function) :
    f.mapTypes identicalView.type = f := by
  rw [Target.Function.mapTypes, parameters_identical, show f.returns.map identicalView.type = _ from
    List.map_id _]

theorem modifier_identical
    (m : Modifier) :
    m.mapTypes identicalView.type = m := by
  rw [Modifier.mapTypes, parameters_identical]

theorem readFunction_passesBodies
    (visibility : Visibility) :
    PassesBodies fun src => readFunction src visibility := by
  refine passesBodies_of_bodied fun p rest input input' taken hbodied hshares hread hnil => ?_
  obtain ⟨taken', hread', hsame, hpast⟩ :=
    readFunction_bodied (v := identicalView) hbodied hshares hread hnil
  rw [function_identical, function_identical] at hsame
  exact ⟨taken', hread', hsame, hpast⟩

theorem readModifier_passesBodies :
    PassesBodies readModifier := by
  refine passesBodies_of_bodied fun p rest input input' taken hbodied hshares hread hnil => ?_
  obtain ⟨taken', hread', hsame, hpast⟩ :=
    readModifier_bodied (v := identicalView) hbodied hshares hread hnil
  rw [modifier_identical, modifier_identical] at hsame
  exact ⟨taken', hread', hsame, hpast⟩

end Headers

/-! ## Where a body begins -/

/-- A body with its braces. -/
def braced (body : List Token) : List Token :=
  .symbol "\x7b" :: (body ++ [.symbol "\x7d"])

/-- After these tokens, a brace opens the body of a function, modifier or constructor. -/
structure EndsHeader (opened header : List Token) : Prop where
  /-- A keyword of a member that can have a body. -/
  keyword : ∃ word ∈ bodyKeywords, header.head? = some (.identifier word)
  /-- The tokens before the header lead into a contract, and a semicolon could end the header. -/
  read : ∃ file item hread, OpensFile blank (bare opened) file [] ∧
    file.memberReader blank (bare (header ++ [.symbol ";"])) = .ok ⟨item, [], hread⟩

/--
After these tokens, a brace opens the body of a member of a contract; or no text that goes on like
this is accepted, because something before the brace is not understood.
-/
inductive OpensBody (pre : List Token) : Prop
  | read {opened header : List Token} (hpre : pre = opened ++ header)
      (h : EndsHeader opened header)
  | refused (h : ∀ name text unit, pre ++ [.symbol "\x7b"] <+: readableTokens text →
      parse name text ≠ .ok unit)

/-- The tokens of a text, cut around a body. -/
structure Cut (opened header body after : List Token) where
  src : SourceText
  lexemes : List Lexeme
  openedPart : List Lexeme
  headerPart : List Lexeme
  brace : Lexeme
  bodyPart : List Lexeme
  close : Lexeme
  afterPart : List Lexeme
  tiles : Tiles src.chars lexemes
  parts : lexemes.filter Lexeme.isReadable =
    openedPart ++ (headerPart ++ brace :: (bodyPart ++ close :: afterPart))
  opened_eq : openedPart.map Lexeme.token = opened
  header_eq : headerPart.map Lexeme.token = header
  brace_eq : brace.token = .symbol "\x7b"
  body_eq : bodyPart.map Lexeme.token = body
  close_eq : close.token = .symbol "\x7d"
  after_eq : afterPart.map Lexeme.token = after

namespace Cut

variable {opened header body body' after : List Token}

/-- The brace and what follows it. -/
def bracePart (c : Cut opened header body after) : List Lexeme :=
  c.brace :: (c.bodyPart ++ c.close :: c.afterPart)

theorem parts_after
    (c : Cut opened header body after) :
    c.lexemes.filter Lexeme.isReadable =
      (c.openedPart ++ (c.headerPart ++ c.brace :: (c.bodyPart ++ [c.close]))) ++
        (c.afterPart ++ []) := by
  simp [c.parts]

/-- A text whose tokens have a body among them is cut around the body. -/
theorem exists_cut
    {text : String}
    {lexemes : List Lexeme}
    (hscan : scan text = .ok lexemes)
    (h : readableTokens text = opened ++ header ++ braced body ++ after) :
    ∃ c : Cut opened header body after, c.src = sourceText text.toList lexemes ∧
      c.lexemes = lexemes := by
  have hmap : (lexemes.filter Lexeme.isReadable).map Lexeme.token =
      opened ++ (header ++ .symbol "\x7b" :: (body ++ .symbol "\x7d" :: after)) := by
    rw [map_token_filter]
    rw [readableTokens, tokensOf, hscan] at h
    simpa [braced] using h
  obtain ⟨openedPart, rest, hparts, hopened, hrest⟩ := List.map_eq_append_iff.mp hmap
  obtain ⟨headerPart, rest, rfl, hheader, hrest⟩ := List.map_eq_append_iff.mp hrest
  obtain ⟨brace, rest, rfl, hbrace, hrest⟩ := List.map_eq_cons_iff.mp hrest
  obtain ⟨bodyPart, rest, rfl, hbody, hrest⟩ := List.map_eq_append_iff.mp hrest
  obtain ⟨close, afterPart, rfl, hclose, hafter⟩ := List.map_eq_cons_iff.mp hrest
  exact ⟨⟨sourceText text.toList lexemes, lexemes, openedPart, headerPart, brace, bodyPart, close,
    afterPart, tiles_of_scan hscan, hparts, hopened, hheader, hbrace, hbody, hclose, hafter⟩,
    rfl, rfl⟩

variable (c : Cut opened header body after) (c' : Cut opened header body' after)

/-- The tokens before the header are read in a text as they are without one. -/
theorem opensFile
    {file : OpenFile}
    (h : OpensFile blank (bare opened) file []) :
    ∃ file', OpensFile c.src (c.lexemes.filter Lexeme.isReadable) file'
        (c.headerPart ++ c.bracePart) ∧
      file'.name = file.name := by
  have hshares : Pairing.Shares (k := unrelated)
      ⟨blank, c.src, [], c.headerPart ++ c.bracePart⟩ (bare opened)
      (c.lexemes.filter Lexeme.isReadable) :=
    ⟨bare opened, c.openedPart, (List.append_nil _).symm, c.parts,
      twins_unrelated (c.opened_eq.trans (map_token_bare opened).symm)⟩
  obtain ⟨file', left', hfile', hsame, hleft⟩ :=
    h.continues (v := unrelatedView) hshares (Nat.le_refl _)
  obtain rfl : left' = c.headerPart ++ c.bracePart := hleft.eq_later
  exact ⟨file', hfile', hsame.name⟩

/-- The header is read with a semicolon in a text as it is without one. -/
theorem readContractMember_semicolon
    {context : String}
    {item : Item}
    {hread}
    (h : readContractMember blank context (bare (header ++ [.symbol ";"])) = .ok ⟨item, [], hread⟩) :
    ∃ item' hread', readContractMember c.src context (c.headerPart ++ [semicolon]) =
      .ok ⟨item', [], hread'⟩ := by
  have htokens : (c.headerPart ++ [semicolon]).map Lexeme.token =
      (bare (header ++ [.symbol ";"])).map Lexeme.token := by
    rw [map_token_bare, List.map_append, c.header_eq]
    rfl
  have hshares : Pairing.Shares (k := unrelated) ⟨blank, c.src, [], []⟩
      (bare (header ++ [.symbol ";"])) (c.headerPart ++ [semicolon]) :=
    ⟨_, _, (List.append_nil _).symm, (List.append_nil _).symm, twins_unrelated htokens⟩
  obtain ⟨⟨item', left', hleft'⟩, hitem', -, hleft⟩ :=
    readContractMember_continues (v := unrelatedView) hshares h (Nat.le_refl _)
  obtain rfl : left' = [] := hleft.eq_later
  exact ⟨item', hleft', hitem'⟩

/-- The header is read with its body as it is with a semicolon, also in another text. -/
theorem readContractMember_body
    {context : String}
    {item : Item}
    {hread}
    (hkeyword : ∃ word ∈ bodyKeywords, header.head? = some (.identifier word))
    (hnests : Nests body')
    (enums : List String)
    (h : readContractMember c.src context (c.headerPart ++ [semicolon]) = .ok ⟨item, [], hread⟩) :
    ∃ item' hread', readContractMember c'.src context (c'.headerPart ++ c'.bracePart) =
        .ok ⟨item', c'.afterPart, hread'⟩ ∧ SameMember (respelledView enums) item item' := by
  have hbodied : Pairing.Bodied (k := respelling) ⟨c.src, c'.src, [semicolon], c'.bracePart⟩
      c'.afterPart :=
    ⟨⟨semicolon, rfl, rfl⟩, c'.brace, c'.bodyPart, c'.close, rfl, c'.brace_eq, c'.close_eq,
      by rw [c'.body_eq]; exact hnests⟩
  have hshares : Pairing.Shares (k := respelling) ⟨c.src, c'.src, [semicolon], c'.bracePart⟩
      (c.headerPart ++ [semicolon]) (c'.headerPart ++ c'.bracePart) :=
    ⟨c.headerPart, c'.headerPart, rfl, rfl,
      twins_of_tokens c.tiles c'.tiles c.parts c'.parts (c'.header_eq.trans c.header_eq.symm)⟩
  have hhead : ∃ word ∈ bodyKeywords,
      (c.headerPart ++ [semicolon]).head?.map Lexeme.token = some (.identifier word) := by
    obtain ⟨word, hword, hhead⟩ := hkeyword
    refine ⟨word, hword, ?_⟩
    rw [← c.header_eq, List.head?_map] at hhead
    cases hpart : c.headerPart with
    | nil =>
        rw [hpart] at hhead
        cases hhead
    | cons l ls =>
        rw [hpart] at hhead
        exact hhead
  obtain ⟨⟨item', left', hleft'⟩, hitem', hsame, hleft⟩ :=
    readContractMember_bodied (v := respelledView enums) hbodied hshares hhead h rfl
  obtain rfl : left' = c'.afterPart := hleft.eq_later
  exact ⟨item', hleft', hitem', hsame⟩

/-- Two members that look like a third one look the same. -/
theorem sameMember_of_same
    {k : Likeness}
    {v : k.View}
    {i j j' : Item}
    (h : SameMember v i j)
    (h' : SameMember v i j') :
    SameMember v j j' := by
  cases h with
  | field h =>
      cases h' with
      | field h' => exact .field (h.symm.trans h')
  | struct h =>
      cases h' with
      | struct h' => exact .struct (h.symm.trans h')
  | enumeration e =>
      exact h'
  | event h =>
      cases h' with
      | event h' => exact .event (h.symm.trans h')
  | error h =>
      cases h' with
      | error h' => exact .error (h.symm.trans h')
  | function h =>
      cases h' with
      | function h' => exact .function (h.symm.trans h')
  | modifier h =>
      cases h' with
      | modifier h' => exact .modifier (h.symm.trans h')
  | skipped =>
      exact h'

/-- Declarations that are read around one body are read around another one. -/
theorem readItems_body
    (hends : EndsHeader opened header)
    (hnests : Nests body)
    (hnests' : Nests body')
    (enums : List String)
    {all : List Item}
    (h : readItems c.src (c.lexemes.filter Lexeme.isReadable) = .ok all) :
    ∃ all', readItems c'.src (c'.lexemes.filter Lexeme.isReadable) = .ok all' ∧
      List.Forall₂ (SameItem (respelledView enums)) all all' := by
  obtain ⟨⟨word, hword, hhead⟩, file, item, hread, hopened, hheader⟩ := hends
  obtain ⟨file₁, hfile₁, hname⟩ := c.opensFile hopened
  -- The tokens in front of the header lead to the same place in both texts.
  have hfront : Pairing.Shares (k := respelling)
      ⟨c.src, c'.src, c.headerPart ++ c.bracePart, c'.headerPart ++ c'.bracePart⟩
      (c.lexemes.filter Lexeme.isReadable) (c'.lexemes.filter Lexeme.isReadable) :=
    ⟨c.openedPart, c'.openedPart, c.parts, c'.parts,
      twins_of_tokens c.tiles c'.tiles (c.parts.trans (List.nil_append _).symm)
        (c'.parts.trans (List.nil_append _).symm) (c'.opened_eq.trans c.opened_eq.symm)⟩
  obtain ⟨file₂, left₂, hfile₂, hsame, hleft⟩ :=
    hfile₁.continues (v := respelledView enums) hfront (Nat.le_refl _)
  obtain rfl : left₂ = c'.headerPart ++ c'.bracePart := hleft.eq_later
  -- The header is read as the same member, with either body.
  rw [OpenFile.memberReader, ← hname] at hheader
  obtain ⟨item₀, hread₀, hitem₀⟩ := c.readContractMember_semicolon hheader
  obtain ⟨item₁, hread₁, hitem₁, hsame₁⟩ :=
    c.readContractMember_body c ⟨word, hword, hhead⟩ hnests enums hitem₀
  obtain ⟨item₂, hread₂, hitem₂, hsame₂⟩ :=
    c.readContractMember_body c' ⟨word, hword, hhead⟩ hnests' enums hitem₀
  have hmember₁ := hfile₁.member hitem₁
  rw [← hsame.name] at hitem₂
  have hmember₂ := hfile₂.member hitem₂
  -- What follows the body is the same in both texts.
  have hback : Pairing.Shares (k := respelling) ⟨c.src, c'.src, [], []⟩ c.afterPart c'.afterPart :=
    ⟨c.afterPart, c'.afterPart, (List.append_nil _).symm, (List.append_nil _).symm,
      twins_of_tokens c.tiles c'.tiles c.parts_after c'.parts_after
        (c'.after_eq.trans c.after_eq.symm)⟩
  exact OpensFile.readItems_continues (p := ⟨c.src, c'.src, [], []⟩) hmember₁ hmember₂
    (hsame.member (sameMember_of_same hsame₁ hsame₂)) rfl rfl hback h

end Cut

/-! ## Whole texts -/

section Parse

variable {name text text' : String} {opened header pre body body' after : List Token}

/-- A text is accepted if the declarations of its tokens are read. -/
theorem parse_eq_ok_iff
    {lexemes : List Lexeme}
    {unit : SourceUnit}
    (hscan : scan text = .ok lexemes) :
    parse name text = .ok unit ↔
      ∃ items, readItems (sourceText text.toList lexemes) (lexemes.filter Lexeme.isReadable) =
          .ok items ∧
        unit = (items.foldl Item.addToUnit
          { name, license := (lexemes.findSome? Lexeme.license?).getD "UNLICENSED",
            pragma := "" }).resolveOwnEnumerations := by
  have hparse : parse name text =
      readUnit name text.toList lexemes >>= fun unit => pure unit.resolveOwnEnumerations := by
    rw [parse, hscan]
    rfl
  rw [hparse]
  constructor
  · intro h
    obtain ⟨unit', hunit, h⟩ := bind_eq_ok_iff.mp h
    obtain ⟨items, hitems, hvalue⟩ := bind_eq_ok_iff.mp hunit
    cases hvalue
    cases h
    exact ⟨items, hitems, rfl⟩
  · rintro ⟨items, hitems, rfl⟩
    exact bind_eq_ok_iff.mpr ⟨_, bind_eq_ok_iff.mpr ⟨items, hitems, rfl⟩, rfl⟩

/-- A text that has tokens can be split into tokens. -/
theorem exists_scan
    (h : readableTokens text ≠ []) :
    ∃ lexemes, scan text = .ok lexemes := by
  rw [readableTokens, tokensOf] at h
  cases hscan : scan text with
  | ok lexemes =>
      exact ⟨lexemes, rfl⟩
  | error e =>
      rw [hscan] at h
      exact absurd rfl h

/-- A text that is accepted with one body is accepted with another one, and declares the same. -/
theorem parse_body
    {unit : SourceUnit}
    (hends : EndsHeader opened header)
    (hnests : Nests body)
    (hnests' : Nests body')
    (htext : readableTokens text = opened ++ header ++ braced body ++ after)
    (htext' : readableTokens text' = opened ++ header ++ braced body' ++ after)
    (h : parse name text = .ok unit) :
    ∃ unit', parse name text' = .ok unit' ∧ unit'.respelled = unit.respelled := by
  obtain ⟨lexemes, hscan⟩ : ∃ lexemes, scan text = .ok lexemes :=
    exists_scan (by simp [htext, braced])
  obtain ⟨lexemes', hscan'⟩ : ∃ lexemes, scan text' = .ok lexemes :=
    exists_scan (by simp [htext', braced])
  obtain ⟨c, hsrc, hlexemes⟩ := Cut.exists_cut hscan htext
  obtain ⟨c', hsrc', hlexemes'⟩ := Cut.exists_cut hscan' htext'
  obtain ⟨items, hitems, rfl⟩ := (parse_eq_ok_iff hscan).mp h
  have hboth (enums : List String) :
      ∃ items', readItems (sourceText text'.toList lexemes') (lexemes'.filter Lexeme.isReadable) =
          .ok items' ∧ List.Forall₂ (SameItem (respelledView enums)) items items' := by
    rw [← hsrc', ← hlexemes']
    exact c.readItems_body c' hends hnests hnests' enums (by rw [hsrc, hlexemes]; exact hitems)
  obtain ⟨items', hitems', -⟩ := hboth []
  refine ⟨_, (parse_eq_ok_iff hscan').mpr ⟨items', hitems', rfl⟩, ?_⟩
  have hstart (v : respelling.View) (license license' : String) :
      v.unit { name, license, pragma := "" } =
        v.unit { name, license := license', pragma := "" } :=
    rfl
  refine (respelled_unit_eq (fun v => hstart v _ _) fun enums => ?_).symm
  obtain ⟨items'', hitems'', hsame⟩ := hboth enums
  cases hitems'.symm.trans hitems''
  exact hsame

/--
The bodies of functions, modifiers and constructors do not matter. A function and a modifier are
read from their header, whatever body follows it, and what follows the body is left. Two texts that
differ in one body only are both accepted or both refused, and what they declare is the same up to
the license and to how the texts that are kept as they are written are spelled.
-/
theorem parse_bodies :
    (∀ visibility, PassesBodies fun src => readFunction src visibility) ∧
    PassesBodies readModifier ∧
    ∀ (name text text' : String) (pre body body' after : List Token),
      OpensBody pre → Nests body → Nests body' →
      readableTokens text = pre ++ braced body ++ after →
      readableTokens text' = pre ++ braced body' ++ after →
      (parse name text).toOption.map SourceUnit.respelled =
        (parse name text').toOption.map SourceUnit.respelled := by
  refine ⟨readFunction_passesBodies, readModifier_passesBodies, ?_⟩
  intro name text text' pre body body' after hopens hnests hnests' htext htext'
  cases hopens with
  | @read opened header hpre hends =>
      subst hpre
      cases hparse : parse name text with
      | ok unit =>
          obtain ⟨unit', hparse', hsame⟩ := parse_body hends hnests hnests' htext htext' hparse
          rw [hparse']
          exact congrArg some hsame.symm
      | error e =>
          cases hparse' : parse name text' with
          | ok unit' =>
              obtain ⟨unit, hok, -⟩ := parse_body hends hnests' hnests htext' htext hparse'
              rw [hparse] at hok
              cases hok
          | error e' =>
              rfl
  | refused hrefused =>
      have hfront (body : List Token) : pre ++ [.symbol "\x7b"] <+: pre ++ braced body ++ after := by
        refine ⟨body ++ [.symbol "\x7d"] ++ after, ?_⟩
        simp [braced]
      have hnone {text : String} {body : List Token}
          (htext : readableTokens text = pre ++ braced body ++ after) :
          (parse name text).toOption = none := by
        cases hparse : parse name text with
        | ok unit =>
            exact absurd hparse (hrefused name text unit (htext ▸ hfront body))
        | error e =>
            rfl
      rw [hnone htext, hnone htext']

/-- A run that is known to leave some tokens succeeds. -/
theorem exists_ok_of_rest
    {α : Type}
    {input left : List Lexeme}
    {result : Except SyntaxError (Taken α input)}
    (h : result.toOption.map Taken.rest = some left) :
    ∃ value hleft, result = .ok ⟨value, left, hleft⟩ := by
  cases result with
  | error e =>
      cases h
  | ok taken =>
      obtain ⟨value, rest, hrest⟩ := taken
      cases h
      exact ⟨value, hrest, rfl⟩

/-- A contract with a function whose body is left open. -/
def lamp (body : String) : String :=
  "contract Lamp \x7b bool on; function set(bool b) public \x7b" ++ body ++ "\x7d \x7d"

/-- The tokens of this contract in front of the function. -/
def lampOpened : List Token :=
  [.identifier "contract", .identifier "Lamp", .symbol "\x7b", .identifier "bool",
    .identifier "on", .symbol ";"]

/-- The header of the function. -/
def lampHeader : List Token :=
  [.identifier "function", .identifier "set", .symbol "(", .identifier "bool", .identifier "b",
    .symbol ")", .identifier "public"]

/-- A body with brackets, and with a brace in a string. -/
def lampBody : List Token :=
  [.identifier "log", .symbol "(", .stringLiteral "\x7d", .symbol ")", .symbol ";"]

theorem opensBody_lamp :
    OpensBody (lampOpened ++ lampHeader) := by
  have hfield : (readContractMember blank "contract Lamp"
      (bare (lampOpened.drop 3))).toOption.map Taken.rest = some [] := by
    decide +kernel
  have hfunction : (readContractMember blank "contract Lamp"
      (bare (lampHeader ++ [.symbol ";"]))).toOption.map Taken.rest = some [] := by
    decide +kernel
  obtain ⟨item, hitem, hread⟩ := exists_ok_of_rest hfield
  obtain ⟨member, hmember, hheader⟩ := exists_ok_of_rest hfunction
  refine .read rfl ⟨⟨"function", by decide, rfl⟩, ⟨[], false, "Lamp", [], [item]⟩, member, hmember,
    ⟨_, _, _, .done, .concrete rfl, ⟨_, _, _, _, _, rfl, rfl, rfl⟩, .step hread .done⟩, hheader⟩

/-- A body beside another one: of the whole contract, of its function, and of a modifier. -/
theorem parse_bodies_lamp :
    (OpensBody (lampOpened ++ lampHeader) ∧ Nests [] ∧ Nests lampBody ∧
      readableTokens (lamp "") = lampOpened ++ lampHeader ++ braced [] ++ [.symbol "\x7d"] ∧
      readableTokens (lamp " log(\"\x7d\"); // switched\n") =
        lampOpened ++ lampHeader ++ braced lampBody ++ [.symbol "\x7d"] ∧
      (parse "Lamp" (lamp "")).toOption.isSome = true ∧
      (parse "Lamp" (lamp "")).toOption.map SourceUnit.respelled =
        (parse "Lamp" (lamp " log(\"\x7d\"); // switched\n")).toOption.map SourceUnit.respelled) ∧
    (∃ f hread, readFunction blank .publicly (bare lampHeader.tail ++ [semicolon]) =
        .ok ⟨f, [], hread⟩ ∧
      ∃ hrest, readFunction blank .publicly (bare lampHeader.tail ++
          ⟨.symbol "\x7b", {}, 0⟩ :: (bare lampBody ++ ⟨.symbol "\x7d", {}, 0⟩ :: [semicolon])) =
        .ok ⟨f, [semicolon], hrest⟩) ∧
    ∃ m hread, readModifier blank (bare [.identifier "lit"] ++ [semicolon]) = .ok ⟨m, [], hread⟩ ∧
      ∃ hrest, readModifier blank (bare [.identifier "lit"] ++
          ⟨.symbol "\x7b", {}, 0⟩ :: (bare lampBody ++ ⟨.symbol "\x7d", {}, 0⟩ :: [semicolon])) =
        .ok ⟨m, [semicolon], hrest⟩ := by
  have hsame (header : List Lexeme) : SameHeader blank blank header header :=
    ⟨rfl, fun _ _ => rfl⟩
  have hnests : Nests ((bare lampBody).map Lexeme.token) := by
    decide
  have hfunction : (readFunction blank .publicly
      (bare lampHeader.tail ++ [semicolon])).toOption.map Taken.rest = some [] := by
    decide +kernel
  have hmodifier : (readModifier blank
      (bare [.identifier "lit"] ++ [semicolon])).toOption.map Taken.rest = some [] := by
    decide +kernel
  have hempty : readableTokens (lamp "") =
      lampOpened ++ lampHeader ++ braced [] ++ [.symbol "\x7d"] := by
    decide +kernel
  have hfilled : readableTokens (lamp " log(\"\x7d\"); // switched\n") =
      lampOpened ++ lampHeader ++ braced lampBody ++ [.symbol "\x7d"] := by
    decide +kernel
  obtain ⟨f, hread, hok⟩ := exists_ok_of_rest hfunction
  obtain ⟨m, hreadModifier, hokModifier⟩ := exists_ok_of_rest hmodifier
  refine ⟨⟨opensBody_lamp, by decide, by decide, hempty, hfilled, by decide +kernel, ?_⟩,
    ⟨f, hread, hok, ?_⟩, m, hreadModifier, hokModifier, ?_⟩
  · exact parse_bodies.2.2 "Lamp" _ _ _ _ _ _ opensBody_lamp (by decide) (by decide) hempty hfilled
  · exact parse_bodies.1 .publicly _ _ _ _ _ _ _ _ _ _ _ (hsame _) rfl rfl rfl hnests hok
  · exact parse_bodies.2.1 _ _ _ _ _ _ _ _ _ _ _ (hsame _) rfl rfl rfl hnests hokModifier

end Parse

end Source
end ContractGen
