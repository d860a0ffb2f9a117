import ContractGen.Behavior.Statechart
import ContractGen.Proofs.Glyphs

/-!
# The lines of a state diagram

A line of a diagram is an arrow if it consists of two endpoints with a dash between them and ends
there or goes on with a colon and a label, with any blanks between the parts. A label is a trigger
up to the first bracket or slash, then a guard in brackets, then an action behind a slash. The
readers of lines and labels find exactly these forms, and the parts they find are the only ones.

**Definitions.**
* `IsArrow`: the lines that are arrows, with the arrow each of them is.
* `IsTail`: what may follow the trigger of a label.

**Results.**
* `readLine?_eq_some_iff`: a line is read as an arrow exactly if it is that arrow.
* `isSome_parseLabel?_iff`: a label is read exactly if it has a trigger and a tail whose guard ends
  at its first closing bracket.
-/

namespace ContractGen
namespace Behavior

open Text (isBlank isLetter isDigit)

/-! ## Blanks -/

section Blanks

/-- A text of blanks only. -/
def IsBlanks
    (w : List Char) : Prop :=
  ∀ c ∈ w, isBlank c = true

theorem isBlanks_takeWhile
    (cs : List Char) :
    IsBlanks (cs.takeWhile isBlank) :=
  List.all_eq_true.mp List.all_takeWhile

theorem dropWhile_blanks
    {w rest : List Char}
    (hw : IsBlanks w)
    (hrest : ∀ c ∈ rest.head?, isBlank c = false) :
    (w ++ rest).dropWhile isBlank = rest := by
  rw [List.dropWhile_append_of_pos hw]
  cases rest with
  | nil =>
      rfl
  | cons c rest =>
      simp [hrest c rfl]

end Blanks

/-! ## Arrows -/

section Arrows

/-- The name of a state: a letter or an underscore, then letters, digits and underscores. -/
def IsState
    (name : List Char) : Prop :=
  ∃ c cs, name = c :: cs ∧ isStateStart c = true ∧ ∀ d ∈ cs, isStatePart d = true

/-- The two forms of a dash. -/
def IsDash
    (dash : List Char) : Prop :=
  dash = ['-', '>'] ∨ dash = ['-', '-', '>']

/-- The text of an endpoint. -/
inductive Endpoint.Written : Endpoint → List Char → Prop
  | mark : Endpoint.Written .mark ['[', '*', ']']
  | state {name : List Char} (h : IsState name) :
      Endpoint.Written (.state (String.ofList name)) name

/-- The end of an arrow line with its label: nothing, or a text behind a colon. -/
inductive IsLabelled : List Char → List Char → Prop
  | bare : IsLabelled [] []
  | text (rest : List Char) : IsLabelled (':' :: rest) (Text.trim rest)

/-- A line that is an arrow: its parts in order, with blanks between them. -/
inductive IsArrow : List Char → Arrow → Prop
  | intro
      {source target : Endpoint}
      {first dash second w₁ w₂ w₃ tail label : List Char}
      (hsource : source.Written first)
      (hdash : IsDash dash)
      (htarget : target.Written second)
      (hlabel : IsLabelled tail label)
      (h₁ : IsBlanks w₁)
      (h₂ : IsBlanks w₂)
      (h₃ : IsBlanks w₃) :
      IsArrow (first ++ (w₁ ++ (dash ++ (w₂ ++ (second ++ (w₃ ++ tail)))))) ⟨source, target, label⟩

theorem not_isStatePart_of_isBlank
    {c : Char}
    (h : isBlank c = true) :
    isStatePart c = false := by
  rw [Bool.eq_false_iff]
  intro hpart
  simp only [isStatePart, isLetter, isDigit, Bool.or_eq_true, Bool.and_eq_true,
    decide_eq_true_eq, Char.le_def, UInt32.le_iff_toNat_le] at hpart
  simp only [isBlank, Bool.or_eq_true, Bool.and_eq_true, decide_eq_true_eq, beq_iff_eq,
    Char.toNat] at h
  rcases hpart with ((⟨hlow, hhigh⟩ | ⟨hlow, hhigh⟩) | ⟨hlow, hhigh⟩) | rfl
  all_goals
    simp at *
    try omega

theorem not_isBlank_of_isStatePart
    {c : Char}
    (h : isStatePart c = true) :
    isBlank c = false := by
  rw [Bool.eq_false_iff]
  intro hblank
  rw [not_isStatePart_of_isBlank hblank] at h
  exact Bool.false_ne_true h

theorem isStatePart_of_isStateStart
    {c : Char}
    (h : isStateStart c = true) :
    isStatePart c = true := by
  simp only [isStateStart, isStatePart, Bool.or_eq_true] at h ⊢
  exact h.imp_left Or.inl

/-- An endpoint begins with a character that is not blank. -/
theorem Endpoint.Written.head
    {e : Endpoint}
    {text : List Char}
    (h : e.Written text)
    (rest : List Char) :
    ∀ c ∈ (text ++ rest).head?, isBlank c = false := by
  cases h with
  | mark =>
      intro c hc
      obtain rfl : '[' = c := Option.some.inj hc
      rfl
  | state hname =>
      obtain ⟨c, cs, rfl, hstart, -⟩ := hname
      intro d hd
      obtain rfl : c = d := Option.some.inj hd
      exact not_isBlank_of_isStatePart (isStatePart_of_isStateStart hstart)

theorem readEndpoint?_state
    {c : Char}
    {cs : List Char}
    (h : isStateStart c = true) :
    readEndpoint? (c :: cs) =
      some (.state (String.ofList (c :: cs.takeWhile isStatePart)), cs.dropWhile isStatePart) := by
  have hbracket : c ≠ '[' := by
    rintro rfl
    exact absurd h (by decide)
  rw [readEndpoint?.eq_2 c cs fun _ he _ => hbracket he, if_pos h]

/-- An endpoint is read up to a character that no name goes on with. -/
theorem readEndpoint?_append
    {e : Endpoint}
    {text rest : List Char}
    (h : e.Written text)
    (hrest : ∀ c ∈ rest.head?, isStatePart c = false) :
    readEndpoint? (text ++ rest) = some (e, rest) := by
  cases h with
  | mark =>
      rfl
  | state hname =>
      obtain ⟨c, cs, rfl, hstart, hcs⟩ := hname
      have hstop : rest.takeWhile isStatePart = [] ∧ rest.dropWhile isStatePart = rest := by
        cases rest with
        | nil =>
            exact ⟨rfl, rfl⟩
        | cons d rest =>
            simp [hrest d rfl]
      rw [List.cons_append, readEndpoint?_state hstart, List.takeWhile_append_of_pos hcs,
        List.dropWhile_append_of_pos hcs, hstop.1, hstop.2, List.append_nil]

theorem readEndpoint?_eq_some
    {cs rest : List Char}
    {e : Endpoint}
    (h : readEndpoint? cs = some (e, rest)) :
    ∃ text, e.Written text ∧ cs = text ++ rest := by
  unfold readEndpoint? at h
  split at h
  · cases h
    exact ⟨_, .mark, rfl⟩
  · rename_i c cs _
    split at h
    · rename_i hstart
      cases h
      refine ⟨c :: cs.takeWhile isStatePart, .state ⟨c, _, rfl, hstart, ?_⟩, ?_⟩
      · exact List.all_eq_true.mp List.all_takeWhile
      · rw [List.cons_append, List.takeWhile_append_dropWhile]
    · cases h
  · cases h

theorem readArrow?_eq_some_iff
    {cs rest : List Char} :
    readArrow? cs = some rest ↔ ∃ dash, IsDash dash ∧ cs = dash ++ rest := by
  constructor
  · intro h
    unfold readArrow? at h
    split at h
    · cases h
      exact ⟨_, .inl rfl, rfl⟩
    · cases h
      exact ⟨_, .inr rfl, rfl⟩
    · cases h
  · rintro ⟨dash, rfl | rfl, rfl⟩ <;> rfl

theorem readLabel?_eq_some_iff
    {cs label : List Char} :
    readLabel? cs = some label ↔ IsLabelled cs label := by
  constructor
  · intro h
    unfold readLabel? at h
    split at h
    · cases h
      exact .bare
    · cases h
      exact .text _
    · cases h
  · rintro (_ | rest) <;> rfl

theorem IsDash.head
    {dash : List Char}
    (h : IsDash dash)
    (rest : List Char) :
    ∀ c ∈ (dash ++ rest).head?, c = '-' := by
  rcases h with rfl | rfl
  all_goals
    intro c hc
    exact (Option.some.inj hc).symm

theorem IsLabelled.head
    {tail label : List Char}
    (h : IsLabelled tail label) :
    ∀ c ∈ tail.head?, c = ':' := by
  cases h with
  | bare =>
      simp
  | text rest =>
      intro c hc
      exact (Option.some.inj hc).symm

/-- What follows a state is no part of its name, if it is blanks and then a sign. -/
theorem not_isStatePart_head
    {sign : Char}
    {w rest : List Char}
    (hw : IsBlanks w)
    (hsign : isStatePart sign = false)
    (hrest : ∀ c ∈ rest.head?, c = sign) :
    ∀ c ∈ (w ++ rest).head?, isStatePart c = false := by
  intro c hc
  cases w with
  | nil =>
      rw [hrest c hc]
      exact hsign
  | cons d w =>
      obtain rfl : d = c := Option.some.inj hc
      exact not_isStatePart_of_isBlank (hw d List.mem_cons_self)

/-- A line is read as an arrow exactly if it is that arrow. -/
theorem readLine?_eq_some_iff
    {line : List Char}
    {a : Arrow} :
    readLine? line = some a ↔ IsArrow line a := by
  constructor
  · intro h
    simp only [readLine?, Option.bind_eq_bind, Option.bind_eq_some_iff, Option.some.injEq] at h
    obtain ⟨⟨source, rest₁⟩, hsource, rest₂, harrow, ⟨target, rest₃⟩, htarget, label, hlabel, rfl⟩
      := h
    obtain ⟨first, hfirst, rfl⟩ := readEndpoint?_eq_some hsource
    obtain ⟨dash, hdash, hrest₁⟩ := readArrow?_eq_some_iff.mp harrow
    obtain ⟨second, hsecond, hrest₂⟩ := readEndpoint?_eq_some htarget
    rw [← List.takeWhile_append_dropWhile (p := isBlank) (l := rest₁), hrest₁,
      ← List.takeWhile_append_dropWhile (p := isBlank) (l := rest₂), hrest₂,
      ← List.takeWhile_append_dropWhile (p := isBlank) (l := rest₃)]
    exact .intro hfirst hdash hsecond (readLabel?_eq_some_iff.mp hlabel) (isBlanks_takeWhile _)
      (isBlanks_takeWhile _) (isBlanks_takeWhile _)
  · rintro ⟨hsource, hdash, htarget, hlabel, h₁, h₂, h₃⟩
    rename_i source target first dash second w₁ w₂ w₃ tail label
    have hdashBlank : ∀ c ∈ (dash ++ (w₂ ++ (second ++ (w₃ ++ tail)))).head?,
        isBlank c = false := by
      intro c hc
      rw [hdash.head _ c hc]
      rfl
    have htailBlank : ∀ c ∈ tail.head?, isBlank c = false := by
      intro c hc
      rw [hlabel.head c hc]
      rfl
    have hreadSource := readEndpoint?_append hsource
      (not_isStatePart_head h₁ rfl (hdash.head (w₂ ++ (second ++ (w₃ ++ tail)))))
    have hreadDash : readArrow? (dash ++ (w₂ ++ (second ++ (w₃ ++ tail)))) =
        some (w₂ ++ (second ++ (w₃ ++ tail))) :=
      readArrow?_eq_some_iff.mpr ⟨dash, hdash, rfl⟩
    have hreadTarget := readEndpoint?_append htarget
      (not_isStatePart_head h₃ rfl hlabel.head)
    have hreadLabel := readLabel?_eq_some_iff.mpr hlabel
    simp only [readLine?, Option.bind_eq_bind, hreadSource, Option.bind_some,
      dropWhile_blanks h₁ hdashBlank, hreadDash, dropWhile_blanks h₂ (htarget.head _),
      hreadTarget, dropWhile_blanks h₃ htailBlank, hreadLabel]

end Arrows

/-! ## Labels -/

section Labels

/-- What may follow the trigger of a label: nothing, an action, a guard, or both. -/
inductive IsTail
    (inside : List Char → Prop) : List Char → Prop
  | nothing : IsTail inside []
  | action (action : List Char) : IsTail inside ('/' :: action)
  | guard {guard w : List Char} (h : inside guard) (hw : IsBlanks w) :
      IsTail inside ('[' :: (guard ++ ']' :: w))
  | both {guard w : List Char} (h : inside guard) (hw : IsBlanks w) (action : List Char) :
      IsTail inside ('[' :: (guard ++ ']' :: (w ++ '/' :: action)))

theorem splitOnce?_sign
    {sign : Char}
    {cs before after : List Char} :
    Text.splitOnce? [sign] cs = some (before, after) ↔
      sign ∉ before ∧ cs = before ++ sign :: after := by
  induction cs generalizing before with
  | nil =>
      simp [Text.splitOnce?]
  | cons c cs ih =>
      by_cases hc : sign = c
      · subst hc
        constructor
        · intro h
          obtain ⟨rfl, rfl⟩ : [] = before ∧ cs = after := by
            simpa [Text.splitOnce?, Text.dropStart?] using h
          exact ⟨List.not_mem_nil, rfl⟩
        · rintro ⟨hbefore, hcs⟩
          cases before with
          | nil =>
              obtain ⟨-, rfl⟩ := List.cons.inj hcs
              simp [Text.splitOnce?, Text.dropStart?]
          | cons d before =>
              obtain ⟨rfl, -⟩ := List.cons.inj hcs
              exact absurd List.mem_cons_self hbefore
      · have hstep : Text.splitOnce? [sign] (c :: cs) =
            (Text.splitOnce? [sign] cs).map fun p => (c :: p.1, p.2) := by
          simp [Text.splitOnce?, Text.dropStart?, hc]
        rw [hstep]
        constructor
        · intro h
          obtain ⟨⟨front, rest⟩, hfound, heq⟩ := Option.map_eq_some_iff.mp h
          cases heq
          obtain ⟨hfront, rfl⟩ := ih.mp hfound
          exact ⟨by simp [hc, hfront], rfl⟩
        · rintro ⟨hbefore, hcs⟩
          cases before with
          | nil =>
              exact absurd (List.cons.inj hcs).1.symm hc
          | cons d before =>
              obtain ⟨rfl, rfl⟩ := List.cons.inj hcs
              rw [ih.mpr ⟨fun hmem => hbefore (List.mem_cons_of_mem c hmem), rfl⟩]
              rfl

/-- A guard is read up to its first closing bracket. -/
theorem readGuard?_brackets
    {guard : List Char}
    (h : ']' ∉ guard)
    (rest : List Char) :
    readGuard? ('[' :: (guard ++ ']' :: rest)) = some (unlessEmpty (Text.trim guard), rest) := by
  rw [readGuard?, splitOnce?_sign.mpr ⟨h, rfl⟩]

theorem readGuard?_plain
    {text : List Char}
    (h : text.head? ≠ some '[') :
    readGuard? text = some (none, text) := by
  unfold readGuard?
  split
  · exact absurd rfl h
  · rfl

theorem readGuard?_eq_some
    {text rest : List Char}
    {guard : Option String}
    (h : readGuard? text = some (guard, rest)) :
    text = rest ∧ text.head? ≠ some '[' ∨
      ∃ inside, ']' ∉ inside ∧ text = '[' :: (inside ++ ']' :: rest) := by
  unfold readGuard? at h
  split at h
  · split at h
    · rename_i hsplit
      cases h
      obtain ⟨hinside, rfl⟩ := splitOnce?_sign.mp hsplit
      exact .inr ⟨_, hinside, rfl⟩
    · cases h
  · rename_i hopen
    cases h
    refine .inl ⟨rfl, fun hhead => ?_⟩
    obtain ⟨rest, rfl⟩ := List.head?_eq_some_iff.mp hhead
    exact hopen rest rfl

/-- An action is read behind blanks and a slash, and no action from blanks alone. -/
theorem isSome_readAction?_iff
    {text : List Char} :
    (readAction? text).isSome = true ↔
      IsBlanks text ∨ ∃ w action, IsBlanks w ∧ text = w ++ '/' :: action := by
  constructor
  · intro h
    have hcut := List.takeWhile_append_dropWhile (p := isBlank) (l := text)
    unfold readAction? at h
    split at h
    · rename_i hrest
      rw [hrest, List.append_nil] at hcut
      exact .inl (hcut ▸ isBlanks_takeWhile text)
    · rename_i action hrest
      rw [hrest] at hcut
      exact .inr ⟨_, action, isBlanks_takeWhile text, hcut.symm⟩
    · cases h
  · rintro (hblank | ⟨w, action, hw, rfl⟩)
    · have hrest : text.dropWhile isBlank = [] := by
        simpa using dropWhile_blanks hblank (by simp : ∀ c ∈ ([] : List Char).head?, _)
      rw [readAction?, hrest]
      rfl
    · rw [readAction?, dropWhile_blanks hw (by intro c hc; cases hc; rfl)]
      rfl

/-- What the readers of guard and action accept is a tail. -/
theorem isSome_readTail_iff
    {after : List Char}
    (hafter : ∀ c ∈ after.head?, endsTrigger c = true) :
    (∃ guard rest, readGuard? after = some (guard, rest) ∧ (readAction? rest).isSome = true) ↔
      IsTail (']' ∉ ·) after := by
  constructor
  · rintro ⟨guard, rest, hguard, haction⟩
    rcases readGuard?_eq_some hguard with ⟨rfl, hopen⟩ | ⟨inside, hinside, rfl⟩
    · cases after with
      | nil =>
          exact .nothing
      | cons c after =>
          have hc : c = '/' := by
            have hends := hafter c rfl
            simp only [endsTrigger, Bool.or_eq_true, decide_eq_true_eq] at hends
            exact hends.resolve_left fun he => hopen (congrArg some he)
          subst hc
          exact .action after
    · rcases isSome_readAction?_iff.mp haction with hblank | ⟨w, action, hw, rfl⟩
      · exact .guard hinside hblank
      · exact .both hinside hw action
  · rintro (_ | action | ⟨hinside, hw⟩ | ⟨hinside, hw, action⟩)
    · exact ⟨none, [], rfl, rfl⟩
    · exact ⟨none, _, readGuard?_plain (by simp),
        isSome_readAction?_iff.mpr (.inr ⟨[], action, by simp [IsBlanks], rfl⟩)⟩
    · exact ⟨_, _, readGuard?_brackets hinside _, isSome_readAction?_iff.mpr (.inl hw)⟩
    · exact ⟨_, _, readGuard?_brackets hinside _,
        isSome_readAction?_iff.mpr (.inr ⟨_, action, hw, rfl⟩)⟩

variable {before after : List Char}

/-- A label is its trigger up to the first sign that ends it, and what the guard and the action
behind it are read as. -/
theorem parseLabel?_append
    (hbefore : ∀ c ∈ before, endsTrigger c = false)
    (hafter : ∀ c ∈ after.head?, endsTrigger c = true) :
    parseLabel? (before ++ after) =
      (readGuard? after).bind fun p => (readAction? p.2).bind fun action =>
        if (Text.trim before).isEmpty then
          none
        else
          some { trigger := String.ofList (Text.trim before), guard := p.1, action } := by
  have hplain : ∀ c ∈ before, (!endsTrigger c) = true := by
    intro c hc
    rw [hbefore c hc]
    rfl
  have hstop : (after.takeWhile fun c => !endsTrigger c) = [] ∧
      (after.dropWhile fun c => !endsTrigger c) = after := by
    cases after with
    | nil =>
        exact ⟨rfl, rfl⟩
    | cons c after =>
        simp [hafter c rfl]
  rw [parseLabel?, List.takeWhile_append_of_pos hplain, List.dropWhile_append_of_pos hplain,
    hstop.1, hstop.2, List.append_nil]
  rfl

/-- A label is read exactly if it has a trigger and a tail whose guard ends at its first closing
bracket. -/
theorem isSome_parseLabel?_iff
    (hbefore : ∀ c ∈ before, endsTrigger c = false)
    (hafter : ∀ c ∈ after.head?, endsTrigger c = true) :
    (parseLabel? (before ++ after)).isSome = true ↔
      Text.trim before ≠ [] ∧ IsTail (']' ∉ ·) after := by
  rw [← isSome_readTail_iff hafter, parseLabel?_append hbefore hafter]
  constructor
  · intro h
    obtain ⟨l, hl⟩ := Option.isSome_iff_exists.mp h
    obtain ⟨⟨guard, rest⟩, hguard, hrest⟩ := Option.bind_eq_some_iff.mp hl
    obtain ⟨action, haction, hlabel⟩ := Option.bind_eq_some_iff.mp hrest
    split at hlabel
    · cases hlabel
    · rename_i hne
      exact ⟨fun he => hne (by rw [he]; rfl), guard, rest, hguard, by rw [haction]; rfl⟩
  · rintro ⟨hne, guard, rest, hguard, haction⟩
    obtain ⟨action, haction⟩ := Option.isSome_iff_exists.mp haction
    rw [hguard, Option.bind_some, haction, Option.bind_some, if_neg]
    · rfl
    · simpa using hne

/-- The trigger of a label is its text up to the first sign that ends it. -/
theorem trigger_of_parseLabel?
    {l : Label}
    (hbefore : ∀ c ∈ before, endsTrigger c = false)
    (hafter : ∀ c ∈ after.head?, endsTrigger c = true)
    (h : parseLabel? (before ++ after) = some l) :
    l.trigger = String.ofList (Text.trim before) := by
  rw [parseLabel?_append hbefore hafter] at h
  obtain ⟨⟨guard, rest⟩, -, hrest⟩ := Option.bind_eq_some_iff.mp h
  obtain ⟨action, -, hlabel⟩ := Option.bind_eq_some_iff.mp hrest
  split at hlabel
  · cases hlabel
  · cases hlabel
    rfl

end Labels

end Behavior
end ContractGen
