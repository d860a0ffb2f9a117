import ContractGen.Proofs.PartialReading
import ContractGen.Proofs.Printable

/-!
# Bodies that are passed over

A header that can end with a semicolon can also be followed by a body. The header is then read in
the same way, and the body is passed over as a whole, whatever it says: only its brackets have to
nest.

**Definitions.**
* `Pairing.Bodied`: a header with a semicolon is read beside the same header with a body.

**Results.**
* `skipDeclaration_bodied`: a declaration that is not understood ends with its body.
* `readFunction_bodied`, `readModifier_bodied`: so do functions and modifiers.
* `readContractMember_bodied`: so do the members of a contract that can have a body.
-/

namespace ContractGen
namespace Source

open Target

/-! ## A semicolon beside a body -/

/-- A text with a semicolon where the other one has a body; `rest` follows the body. -/
structure Pairing.Bodied {k : Likeness} (p : Pairing k) (rest : List Lexeme) : Prop where
  semicolon : ∃ semicolon, p.later = [semicolon] ∧ semicolon.token = .symbol ";"
  body : ∃ brace body close, p.later' = brace :: (body ++ close :: rest) ∧
    brace.token = .symbol "\x7b" ∧ close.token = .symbol "\x7d" ∧ Nests (body.map Lexeme.token)

/-- What is left of both texts once the header is read. -/
def Pairing.past {k : Likeness} (p : Pairing k) (rest : List Lexeme) : Pairing k :=
  ⟨p.src, p.src', [], rest⟩

section Ends

variable {k : Likeness} {p : Pairing k} {rest input input' : List Lexeme} {context : String}

/-- The header ends here, with the semicolon or the body, or the same token comes next. -/
theorem Pairing.Bodied.cases
    (hb : p.Bodied rest)
    (hs : p.Shares input input') :
    (∃ semicolon brace more, input = [semicolon] ∧ semicolon.token = .symbol ";" ∧
      input' = brace :: more ∧ brace.token = .symbol "\x7b" ∧
      ∃ hrest : rest.length < (brace :: more).length,
        ∀ context, skipBalanced p.src' context (brace :: more) = .ok ⟨(), rest, hrest⟩) ∨
    ∃ t ts t' ts', input = t :: ts ∧ input' = t' :: ts' ∧ t'.token = t.token ∧ p.Shares ts ts' ∧
      ts ≠ [] := by
  obtain ⟨semicolon, hlater, hsemicolon⟩ := hb.semicolon
  obtain ⟨brace, body, close, hlater', hbrace, hclose, hnests⟩ := hb.body
  obtain ⟨own, own', rfl, rfl, htwins⟩ := hs
  cases own with
  | nil =>
      rw [List.map_eq_nil_iff.mp htwins.tokens, hlater, hlater']
      have hrest : rest.length < (brace :: (body ++ close :: rest)).length := by
        simp only [List.length_cons, List.length_append]
        omega
      refine .inl ⟨semicolon, brace, _, rfl, hsemicolon, rfl, hbrace, hrest, fun context => ?_⟩
      obtain ⟨_, hok⟩ := skipBalanced_body context hbrace hclose hnests
      exact hok
  | cons t own =>
      obtain ⟨t', own', rfl, ht, -, hrest⟩ := htwins.cons
      exact .inr ⟨t, own ++ p.later, t', own' ++ p.later', rfl, rfl, ht,
        ⟨own, own', rfl, rfl, hrest⟩, by simp [hlater]⟩

/-- What is left of both texts once the header is read. -/
theorem Pairing.Shares.past
    (hs : p.Shares input input') :
    (p.past rest).Shares [] rest := by
  obtain ⟨own, own', -, -, htwins⟩ := hs
  refine ⟨[], [], rfl, rfl, rfl, nofun, fun skipped taken => ?_⟩
  have htext := htwins.texts 0 0
  rw [List.take_zero, List.take_zero] at htext
  rw [List.drop_nil, List.take_nil]
  exact htext

/-- What is left in front of a token that is read begins with the semicolon or before it. -/
theorem Pairing.Bodied.le_of_pos
    (hb : p.Bodied rest)
    (h : 0 < input.length) :
    p.later.length ≤ input.length := by
  obtain ⟨semicolon, hlater, -⟩ := hb.semicolon
  rw [hlater]
  exact h

/-- Where the header ends, there is no parenthesis in either text. -/
theorem Pairing.Bodied.atSymbol
    (hb : p.Bodied rest)
    (hs : p.Shares input input') :
    atSymbol "(" input' = atSymbol "(" input := by
  rcases hb.cases hs with ⟨semicolon, brace, more, rfl, hsemicolon, rfl, hbrace, -⟩ |
    ⟨t, ts, t', ts', rfl, rfl, htoken, -⟩
  · rw [Source.atSymbol, Source.atSymbol, hsemicolon, hbrace]
    decide
  · rw [Source.atSymbol, Source.atSymbol, htoken]

/-- Skipping to a close ends with a close. -/
theorem skipToClose_ends
    {src : SourceText}
    {depth : Nat}
    {taken : Taken Unit input}
    (h : skipToClose src context depth input = .ok taken) :
    ∃ own close, input = own ++ close :: taken.rest ∧ close.token.isClosing = true := by
  induction input generalizing depth with
  | nil =>
      cases h
  | cons t ts ih =>
      rw [skipToClose] at h
      split at h
      · rename_i hclose
        cases h
        rw [Bool.and_eq_true] at hclose
        exact ⟨[], t, rfl, hclose.1⟩
      · obtain ⟨⟨_, left, hleft⟩, hskip, h⟩ := bind_eq_ok_iff.mp h
        cases h
        obtain ⟨own, close, hts, hclose⟩ := ih hskip
        exact ⟨t :: own, close, congrArg (t :: ·) hts, hclose⟩

/-- The semicolon is no close, so skipping to a close leaves it. -/
theorem Pairing.Bodied.not_skipToClose
    (hb : p.Bodied rest)
    {depth : Nat}
    {taken : Taken Unit input}
    (hs : p.Shares input input')
    (h : skipToClose p.src context depth input = .ok taken) :
    taken.rest ≠ [] := by
  intro hnil
  obtain ⟨own, close, hinput, hclose⟩ := skipToClose_ends h
  obtain ⟨own₁, own₁', hinput₁, -, -⟩ := hs
  obtain ⟨semicolon, hlater, hsemicolon⟩ := hb.semicolon
  rw [hnil, hinput₁, hlater] at hinput
  obtain ⟨-, hsame⟩ := List.append_inj' hinput rfl
  cases hsame
  rw [hsemicolon] at hclose
  cases hclose

end Ends

/-! ## Functions and modifiers -/

section Functions

variable {k : Likeness} {v : k.View} {p : Pairing k} {rest input input' : List Lexeme}
variable {context : String}

theorem skipDeclaration_bodied
    (hb : p.Bodied rest)
    {depth : Nat}
    {taken : Taken Unit input}
    (hs : p.Shares input input')
    (h : skipDeclaration p.src context depth input = .ok taken)
    (hnil : taken.rest = []) :
    (p.past rest).Continues Eq taken (skipDeclaration p.src' context depth input') := by
  induction input generalizing depth input' with
  | nil =>
      cases h
  | cons t ts ih =>
      rw [skipDeclaration] at h
      rcases hb.cases hs with
        ⟨semicolon, brace, more, hinput, hsemicolon, rfl, hbrace, hrest, hbody⟩ |
        ⟨_, _, t', ts', hinput, rfl, htoken, hrest, hmore⟩
      · cases hinput
        rw [skipDeclaration]
        split at h
        · rename_i hend
          cases h
          rw [if_neg (by simp [hbrace]), if_pos ⟨hbrace, hend.2⟩]
          exact ⟨_, hbody context, rfl, hs.past⟩
        · rw [if_neg (by simp [hsemicolon])] at h
          obtain ⟨_, hskip, -⟩ := bind_eq_ok_iff.mp h
          cases hskip
      · cases hinput
        rw [skipDeclaration, htoken]
        split at h
        · cases h
          exact absurd hnil hmore
        · rename_i hend
          rw [if_neg hend]
          split at h
          · exact absurd hnil (hb.not_skipToClose hs h)
          · rename_i hopen
            rw [if_neg hopen]
            obtain ⟨⟨_, left, hleft⟩, hskip, h⟩ := bind_eq_ok_iff.mp h
            cases h
            obtain ⟨⟨_, left', hleft'⟩, hskip', -, hs₁⟩ := ih hrest hskip hnil
            exact .bind hskip' ⟨_, rfl, rfl, hs₁⟩

theorem readFunctionTail_bodied
    (hb : p.Bodied rest)
    {f f' : Function}
    {taken : Taken Function input}
    (hs : p.Shares input input')
    (hf : f.mapTypes v.type = f'.mapTypes v.type)
    (h : readFunctionTail p.src context f input = .ok taken)
    (hnil : taken.rest = []) :
    (p.past rest).Continues (fun f f' => f.mapTypes v.type = f'.mapTypes v.type) taken
      (readFunctionTail p.src' context f' input') := by
  obtain ⟨n, hn⟩ : ∃ n, input.length = n := ⟨_, rfl⟩
  induction n using Nat.strongRecOn generalizing f f' input input' with
  | ind n ih =>
      subst hn
      rcases hb.cases hs with ⟨semicolon, brace, more, rfl, hsemicolon, rfl, hbrace, hrest, hbody⟩ |
        ⟨t, ts, t', ts', rfl, rfl, htoken, hrest, hmore⟩
      · rw [readFunctionTail, hsemicolon] at h
        cases h
        rw [readFunctionTail, hbrace]
        exact .bind (hbody context) ⟨_, rfl, hf, hs.past⟩
      · rw [readFunctionTail] at h ⊢
        rw [htoken]
        split at h
        · cases h
          exact absurd hnil hmore
        · obtain ⟨⟨_, left, hleft⟩, hskip, h⟩ := bind_eq_ok_iff.mp h
          cases h
          exact absurd hnil (hb.not_skipToClose hs hskip)
        · obtain ⟨⟨raw, next, hnext⟩, hraw, h⟩ := bind_eq_ok_iff.mp h
          obtain ⟨⟨f₁, left, hleft⟩, htail, h⟩ := bind_eq_ok_iff.mp h
          cases h
          obtain ⟨⟨raw', next', hnext'⟩, hraw', halike, hs₁⟩ :=
            readParameterList_continues hrest hraw (hb.le_of_pos (Nat.zero_lt_of_lt hleft))
          obtain ⟨⟨f₁', left', hleft'⟩, htail', hsame, hs₂⟩ :=
            ih _ (Reading.lt_cons_of_lt hnext) hs₁
              (mapTypes_returns hf (returns_eq_of_alike halike)) htail hnil rfl
          exact .bind hraw' (.bind htail' ⟨_, rfl, hsame, hs₂⟩)
        · rename_i word _ _
          obtain ⟨⟨next, hnext⟩, harguments, h⟩ := bind_eq_ok_iff.mp h
          obtain ⟨⟨f₁, left, hleft⟩, htail, h⟩ := bind_eq_ok_iff.mp h
          cases h
          obtain ⟨⟨next', hnext'⟩, harguments', hs₁⟩ :=
            skipQualifierArguments_shares hrest (hb.atSymbol hrest) harguments
              (hb.le_of_pos (Nat.zero_lt_of_lt hleft))
          have hqualify : (qualify f word).mapTypes v.type = (qualify f' word).mapTypes v.type := by
            rw [qualify_mapTypes, qualify_mapTypes, hf]
          obtain ⟨⟨f₁', left', hleft'⟩, htail', hsame, hs₂⟩ :=
            ih _ (Reading.lt_cons_of_le hnext) hs₁ hqualify htail hnil rfl
          exact .bind harguments' (.bind htail' ⟨_, rfl, hsame, hs₂⟩)
        · cases h

theorem readFunction_bodied
    (hb : p.Bodied rest)
    {visibility : Visibility}
    {taken : Taken Function input}
    (hs : p.Shares input input')
    (h : readFunction p.src visibility input = .ok taken)
    (hnil : taken.rest = []) :
    (p.past rest).Continues (fun f f' => f.mapTypes v.type = f'.mapTypes v.type) taken
      (readFunction p.src' visibility input') := by
  obtain ⟨⟨name, r₁, h₁⟩, hname, h⟩ := bind_eq_ok_iff.mp h
  obtain ⟨⟨parameters, r₂, h₂⟩, hparameters, h⟩ := bind_eq_ok_iff.mp h
  obtain ⟨⟨f, r₃, h₃⟩, htail, h⟩ := bind_eq_ok_iff.mp h
  cases h
  obtain ⟨⟨name', r₁', h₁'⟩, hname', heq, hs₁⟩ :=
    readIdentifier_continues hs hname (hb.le_of_pos (Nat.zero_lt_of_lt h₂))
  obtain ⟨⟨parameters', r₂', h₂'⟩, hparameters', hsame, hs₂⟩ :=
    readParameters_continues v hs₁ hparameters (hb.le_of_pos (Nat.zero_lt_of_lt h₃))
  dsimp only at heq hsame
  subst heq
  have hstart : Function.mapTypes v.type { name, visibility, parameters } =
      Function.mapTypes v.type { name, visibility, parameters := parameters' } := by
    simp only [Function.mapTypes, hsame]
  obtain ⟨⟨f', r₃', h₃'⟩, htail', hfun, hs₃⟩ := readFunctionTail_bodied hb hs₂ hstart htail hnil
  exact .bind hname' (.bind hparameters' (.bind htail' ⟨_, rfl, hfun, hs₃⟩))

theorem readModifierTail_bodied
    (hb : p.Bodied rest)
    {m m' : Modifier}
    {taken : Taken Modifier input}
    (hs : p.Shares input input')
    (hm : m.mapTypes v.type = m'.mapTypes v.type)
    (h : readModifierTail p.src m input = .ok taken)
    (hnil : taken.rest = []) :
    (p.past rest).Continues (fun m m' => m.mapTypes v.type = m'.mapTypes v.type) taken
      (readModifierTail p.src' m' input') := by
  obtain ⟨n, hn⟩ : ∃ n, input.length = n := ⟨_, rfl⟩
  induction n using Nat.strongRecOn generalizing m m' input input' with
  | ind n ih =>
      subst hn
      rcases hb.cases hs with ⟨semicolon, brace, more, rfl, hsemicolon, rfl, hbrace, hrest, hbody⟩ |
        ⟨t, ts, t', ts', rfl, rfl, htoken, hrest, hmore⟩
      · rw [readModifierTail, hsemicolon] at h
        cases h
        rw [readModifierTail, hbrace]
        exact .bind (hbody _) ⟨_, rfl, hm, hs.past⟩
      · rw [readModifierTail] at h ⊢
        rw [htoken]
        split at h
        · obtain ⟨⟨m₁, left, hleft⟩, htail, h⟩ := bind_eq_ok_iff.mp h
          cases h
          obtain ⟨⟨m₁', left', hleft'⟩, htail', hsame, hs₁⟩ :=
            ih _ Reading.rest_lt hrest (mapTypes_isVirtual hm) htail hnil rfl
          exact .bind htail' ⟨_, rfl, hsame, hs₁⟩
        · obtain ⟨⟨next, hnext⟩, harguments, h⟩ := bind_eq_ok_iff.mp h
          obtain ⟨⟨m₁, left, hleft⟩, htail, h⟩ := bind_eq_ok_iff.mp h
          cases h
          obtain ⟨⟨next', hnext'⟩, harguments', hs₁⟩ :=
            skipArguments_shares hrest (hb.atSymbol hrest) harguments
              (hb.le_of_pos (Nat.zero_lt_of_lt hleft))
          obtain ⟨⟨m₁', left', hleft'⟩, htail', hsame, hs₂⟩ :=
            ih _ (Reading.lt_cons_of_le hnext) hs₁ (mapTypes_isOverride hm) htail hnil rfl
          exact .bind harguments' (.bind htail' ⟨_, rfl, hsame, hs₂⟩)
        · cases h
          exact absurd hnil hmore
        · obtain ⟨⟨_, left, hleft⟩, hskip, h⟩ := bind_eq_ok_iff.mp h
          cases h
          exact absurd hnil (hb.not_skipToClose hs hskip)
        · cases h

theorem readModifier_bodied
    (hb : p.Bodied rest)
    {taken : Taken Modifier input}
    (hs : p.Shares input input')
    (h : readModifier p.src input = .ok taken)
    (hnil : taken.rest = []) :
    (p.past rest).Continues (fun m m' => m.mapTypes v.type = m'.mapTypes v.type) taken
      (readModifier p.src' input') := by
  obtain ⟨⟨name, r₁, h₁⟩, hname, h⟩ := bind_eq_ok_iff.mp h
  have hafter (hpos : 0 < r₁.length) :
      ∃ r₁' h₁', readIdentifier p.src' "a modifier name" input' = .ok ⟨name, r₁', h₁'⟩ ∧
        p.Shares r₁ r₁' := by
    obtain ⟨⟨name', r₁', h₁'⟩, hname', heq, hs₁⟩ :=
      readIdentifier_continues hs hname (hb.le_of_pos hpos)
    dsimp only at heq
    subst heq
    exact ⟨r₁', h₁', hname', hs₁⟩
  dsimp only at h
  split at h
  · rename_i hopen
    obtain ⟨⟨parameters, r₂, h₂⟩, hparameters, h⟩ := bind_eq_ok_iff.mp h
    obtain ⟨⟨m, r₃, h₃⟩, htail, h⟩ := bind_eq_ok_iff.mp h
    cases h
    obtain ⟨r₁', h₁', hname', hs₁⟩ := hafter (Nat.zero_lt_of_lt h₂)
    obtain ⟨⟨parameters', r₂', h₂'⟩, hparameters', hsame, hs₂⟩ :=
      readParameters_continues v hs₁ hparameters (hb.le_of_pos (Nat.zero_lt_of_lt h₃))
    dsimp only at hsame
    have hstart : Modifier.mapTypes v.type { name, parameters } =
        Modifier.mapTypes v.type { name, parameters := parameters' } := by
      simp only [Modifier.mapTypes, hsame]
    obtain ⟨⟨m', r₃', h₃'⟩, htail', hmod, hs₃⟩ := readModifierTail_bodied hb hs₂ hstart htail hnil
    refine .bind hname' ?_
    dsimp only
    rw [hb.atSymbol hs₁, if_pos hopen]
    exact .bind hparameters' (.bind htail' ⟨_, rfl, hmod, hs₃⟩)
  · rename_i hopen
    obtain ⟨⟨m, r₂, h₂⟩, htail, h⟩ := bind_eq_ok_iff.mp h
    cases h
    obtain ⟨r₁', h₁', hname', hs₁⟩ := hafter (Nat.zero_lt_of_lt h₂)
    obtain ⟨⟨m', r₂', h₂'⟩, htail', hmod, hs₂⟩ := readModifierTail_bodied hb hs₁ rfl htail hnil
    refine .bind hname' ?_
    dsimp only
    rw [hb.atSymbol hs₁, if_neg hopen]
    exact .bind htail' ⟨_, rfl, hmod, hs₂⟩

/-- The keywords of the members of a contract that can have a body. -/
def bodyKeywords : List String :=
  ["function", "modifier", "constructor", "fallback", "receive"]

theorem readContractMember_bodied
    (hb : p.Bodied rest)
    {taken : Taken Item input}
    (hs : p.Shares input input')
    (hkeyword : ∃ word ∈ bodyKeywords, input.head?.map Lexeme.token = some (.identifier word))
    (h : readContractMember p.src context input = .ok taken)
    (hnil : taken.rest = []) :
    (p.past rest).Continues (SameMember v) taken (readContractMember p.src' context input') := by
  obtain ⟨word, hword, hhead⟩ := hkeyword
  rcases hb.cases hs with ⟨semicolon, -, -, rfl, hsemicolon, -⟩ |
    ⟨t, ts, t', ts', rfl, rfl, htoken, hrest, hmore⟩
  · rw [List.head?_cons, Option.map_some, hsemicolon] at hhead
    cases hhead
  · have ht : t.token = .identifier word := by
      simpa using hhead
    rw [readContractMember] at h ⊢
    rw [htoken]
    have hskip (h : readSkipped p.src context (t :: ts) = .ok taken) :
        (p.past rest).Continues (SameMember v) taken (readSkipped p.src' context (t' :: ts')) := by
      obtain ⟨⟨_, left, hleft⟩, hskip, h⟩ := bind_eq_ok_iff.mp h
      cases h
      obtain ⟨⟨_, left', hleft'⟩, hskip', -, hs₁⟩ := skipDeclaration_bodied hb hs hskip hnil
      exact .bind hskip' ⟨_, rfl, .skipped, hs₁⟩
    rw [ht] at h ⊢
    simp only [bodyKeywords, List.mem_cons, List.not_mem_nil, or_false] at hword
    rcases hword with rfl | rfl | rfl | rfl | rfl
    · obtain ⟨⟨f, left, hleft⟩, hfun, h⟩ := bind_eq_ok_iff.mp h
      cases h
      obtain ⟨⟨f', left', hleft'⟩, hfun', hsame, hs₁⟩ :=
        readFunction_bodied (v := v) hb hrest hfun hnil
      exact .bind hfun' ⟨_, rfl, .function hsame, hs₁⟩
    · obtain ⟨⟨m, left, hleft⟩, hmod, h⟩ := bind_eq_ok_iff.mp h
      cases h
      obtain ⟨⟨m', left', hleft'⟩, hmod', hsame, hs₁⟩ :=
        readModifier_bodied (v := v) hb hrest hmod hnil
      exact .bind hmod' ⟨_, rfl, .modifier hsame, hs₁⟩
    · exact hskip h
    · exact hskip h
    · exact hskip h

end Functions

end Source
end ContractGen
