import ContractGen.Proofs.DispatchConditions
import Mathlib.Data.List.TakeWhile

/-!
# The grammar of dispatch conditions

A condition compares the input with an operation where it has an opening, a name, perhaps arguments
and a closing. Forwarding reads a condition from its end. This module says which conditions name an
operation, and which one: the last comparison counts, whatever stands around it, and at one place
there is only one way to read a comparison.

**Definitions.**
* `Compares condition before name arguments after`: behind `before`, the condition compares the
  input with an operation.
* `givenArguments`: the arguments that a text stands for.

**Results.**
* `readTarget?_eq_some_iff`: what is read behind an opening, in both directions.
* `lastTarget?_eq_some_iff`: the last target is the one that stands at the shortest suffix.
* `targetAt?_of_compares`, `compares_of_targetAt?`: comparisons are the targets of suffixes.
* `dispatchTarget?_grammar`: a condition names an operation where it compares the input for the
  last time, and it names none only if it has no comparison at all.
-/

namespace ContractGen
namespace Behavior

open Source (isIdentifier isIdentifierPart isIdentifierStart)

/-! ## What is read behind an opening -/

section Reading

variable {text : List Char}

/-- Parentheses around something. -/
theorem exists_inner_of_isParenthesized
    (h : isParenthesized text = true) :
    ∃ inner, text = '(' :: (inner ++ [')']) := by
  unfold isParenthesized at h
  split at h
  · next rest =>
      obtain ⟨inner, rfl⟩ := List.getLast?_eq_some_iff.mp (of_decide_eq_true h)
      exact ⟨inner, rfl⟩
  · exact absurd h Bool.false_ne_true

/-- A text that starts with the closing of a comparison. -/
theorem exists_append_of_closing
    (h : Text.startsWith targetClosing text = true) :
    ∃ after, text = '"' :: ')' :: after := by
  obtain ⟨after, hafter⟩ := Option.isSome_iff_exists.mp h
  exact ⟨after, (Source.append_of_dropStart? hafter).symm⟩

/-- The characters of a name at the front of a text, if the first one can start a name. -/
theorem isIdentifier_takeWhile
    (h : (text.takeWhile isIdentifierPart).head?.any isIdentifierStart = true) :
    isIdentifier (String.ofList (text.takeWhile isIdentifierPart)) = true := by
  rw [Source.isIdentifier_iff, String.toList_ofList]
  cases hname : text.takeWhile isIdentifierPart with
  | nil =>
      rw [hname] at h
      exact absurd h Bool.false_ne_true
  | cons c cs =>
      rw [hname] at h
      refine ⟨c, cs, rfl, h, fun d hd => ?_⟩
      exact List.mem_takeWhile_imp (hname ▸ List.mem_cons_of_mem c hd)

/-- Arguments up to the first quote, if they have parentheses. -/
theorem isArguments_takeWhile
    (h : isParenthesized (text.takeWhile (· ≠ '"')) = true) :
    IsArguments (String.ofList (text.takeWhile (· ≠ '"'))) := by
  obtain ⟨inner, hinner⟩ := exists_inner_of_isParenthesized h
  refine ⟨String.ofList inner, ?_, fun hquote => ?_⟩
  · rw [hinner, ← String.toList_inj]
    simp
  · rw [String.toList_ofList] at hquote
    have hmem : '"' ∈ text.takeWhile (· ≠ '"') := by
      rw [hinner]
      simp [hquote]
    simpa using List.mem_takeWhile_imp hmem

/-- A target that is read stands in the text, with a closing behind it. -/
theorem spelled_of_readTarget?
    {target : DispatchTarget}
    (h : readTarget? text = some target) :
    isIdentifier target.name = true ∧ (∀ a ∈ target.arguments, IsArguments a) ∧
      ∃ after, text =
        (target.name ++ target.arguments.getD "").toList ++ '"' :: ')' :: after := by
  have hname := List.takeWhile_append_dropWhile (p := isIdentifierPart) (l := text)
  have harguments := List.takeWhile_append_dropWhile (p := (· ≠ '"'))
    (l := text.dropWhile isIdentifierPart)
  unfold readTarget? at h
  dsimp only at h
  split at h
  · cases h
  · next hform =>
      rw [Bool.or_eq_true, Bool.not_eq_true', Bool.not_eq_true', not_or, Bool.not_eq_false,
        Bool.not_eq_false] at hform
      obtain ⟨hstart, hclosing⟩ := hform
      obtain ⟨after, hafter⟩ := exists_append_of_closing hclosing
      have hidentifier := isIdentifier_takeWhile hstart
      rw [hafter] at harguments
      split at h
      · next hempty =>
          obtain rfl := Option.some.inj h
          rw [List.isEmpty_iff.mp hempty, List.nil_append] at harguments
          refine ⟨hidentifier, by simp, after, ?_⟩
          rw [harguments]
          simp
      · split at h
        · next hparentheses =>
            obtain rfl := Option.some.inj h
            refine ⟨hidentifier, ?_, after, ?_⟩
            · rintro a ⟨rfl⟩
              exact isArguments_takeWhile hparentheses
            · calc
                text = text.takeWhile isIdentifierPart ++ text.dropWhile isIdentifierPart :=
                  hname.symm
                _ = text.takeWhile isIdentifierPart ++
                    ((text.dropWhile isIdentifierPart).takeWhile (· ≠ '"') ++
                      '"' :: ')' :: after) := by
                  rw [harguments]
                _ = _ := by
                  simp
        · cases h

/-- What is read behind an opening: a name, perhaps arguments, and a closing behind them. -/
theorem readTarget?_eq_some_iff
    {target : DispatchTarget} :
    readTarget? text = some target ↔
      isIdentifier target.name = true ∧ (∀ a ∈ target.arguments, IsArguments a) ∧
        ∃ after, text =
          (target.name ++ target.arguments.getD "").toList ++ '"' :: ')' :: after := by
  constructor
  · exact spelled_of_readTarget?
  · rintro ⟨hname, harguments, after, rfl⟩
    exact readTarget?_trigger hname harguments after

/-- A target stands behind an opening. -/
theorem targetAt?_eq_some_iff
    {target : DispatchTarget} :
    targetAt? text = some target ↔
      ∃ rest, text = targetOpening ++ rest ∧ readTarget? rest = some target := by
  constructor
  · intro h
    obtain ⟨rest, hrest, hread⟩ := Option.bind_eq_some_iff.mp h
    exact ⟨rest, (Source.append_of_dropStart? hrest).symm, hread⟩
  · rintro ⟨rest, rfl, hread⟩
    rwa [targetAt?_opening]

end Reading

/-! ## The last target -/

section Last

variable {text : List Char}

/-- The last target stands at a suffix, and at no shorter one there is a target. -/
theorem shortest_of_lastTarget?
    {target : DispatchTarget}
    (h : lastTarget? text = some target) :
    ∃ rest, rest <:+ text ∧ targetAt? rest = some target ∧
      ∀ rest', rest' <:+ text → (targetAt? rest').isSome = true → rest.length ≤ rest'.length := by
  induction text with
  | nil =>
      cases h
  | cons c text ih =>
      rw [lastTarget?] at h
      split at h
      · next later hlater =>
          obtain rfl := Option.some.inj h
          obtain ⟨rest, hrest, htarget, hshortest⟩ := ih hlater
          refine ⟨rest, hrest.trans (List.suffix_cons c text), htarget, ?_⟩
          intro rest' hrest' hsome
          rcases List.suffix_cons_iff.mp hrest' with rfl | hrest'
          · exact hrest.length_le.trans (Nat.le_succ _)
          · exact hshortest rest' hrest' hsome
      · next hnone =>
          -- Nothing is named later, so the whole text is the shortest suffix.
          refine ⟨c :: text, List.suffix_rfl, h, fun rest' hrest' hsome => ?_⟩
          rcases List.suffix_cons_iff.mp hrest' with rfl | hrest'
          · exact le_rfl
          · rw [lastTarget?_eq_none_iff.mp hnone rest' hrest'] at hsome
            exact absurd hsome Bool.false_ne_true

/-- The last target is the one that stands at the shortest suffix with a target. -/
theorem lastTarget?_eq_some_iff
    {target : DispatchTarget} :
    lastTarget? text = some target ↔
      ∃ rest, rest <:+ text ∧ targetAt? rest = some target ∧
        ∀ rest', rest' <:+ text → (targetAt? rest').isSome = true →
          rest.length ≤ rest'.length := by
  refine ⟨shortest_of_lastTarget?, ?_⟩
  rintro ⟨rest, hrest, htarget, hshortest⟩
  cases hlast : lastTarget? text with
  | none =>
      rw [lastTarget?_eq_none_iff.mp hlast rest hrest] at htarget
      exact htarget
  | some last =>
      -- Suffixes of the same length are the same.
      obtain ⟨rest', hrest', htarget', hshortest'⟩ := shortest_of_lastTarget? hlast
      have hle := hshortest rest' hrest' (by rw [htarget']; rfl)
      have hge := hshortest' rest hrest (by rw [htarget]; rfl)
      have hsuffix : rest <:+ rest' := List.suffix_of_suffix_length_le hrest hrest' hle
      obtain rfl := hsuffix.eq_of_length_le hge
      rw [← htarget', htarget]

end Last

/-! ## Conditions -/

section Grammar

/--
Behind `before`, a condition compares the input with an operation: a name and perhaps arguments in
quotes. What stands around the comparison may be any text.
-/
structure Compares (condition before name arguments after : String) : Prop where
  text : condition = before ++ "isEqual(input, \"" ++ name ++ arguments ++ "\")" ++ after
  name : isIdentifier name = true
  arguments : arguments = "" ∨ IsArguments arguments

/-- The arguments that a text between a name and a quote stands for. -/
def givenArguments (text : String) : Option String :=
  if text = "" then none else some text

variable {condition before name arguments after : String}

/-- The characters of a condition around one comparison. -/
theorem toList_comparison :
    (before ++ "isEqual(input, \"" ++ name ++ arguments ++ "\")" ++ after).toList =
      before.toList ++
        (targetOpening ++ ((name ++ arguments).toList ++ '"' :: ')' :: after.toList)) := by
  have hopening : targetOpening = "isEqual(input, \"".toList := by
    rfl
  have hclosing : "\")".toList = ['"', ')'] := by
    decide
  simp only [hopening, hclosing, String.toList_append, List.append_assoc, List.cons_append,
    List.nil_append]

theorem not_isArguments_empty :
    ¬ IsArguments "" := by
  rintro ⟨inner, hinner, -⟩
  have hcharacters := congrArg String.toList hinner
  simp at hcharacters

theorem givenArguments_getD
    (text : String) :
    (givenArguments text).getD "" = text := by
  unfold givenArguments
  split
  · next hempty => exact hempty.symm
  · rfl

theorem givenArguments_of_isArguments
    {arguments : Option String}
    (h : ∀ a ∈ arguments, IsArguments a) :
    givenArguments (arguments.getD "") = arguments := by
  cases arguments with
  | none =>
      rfl
  | some a =>
      have hne : a ≠ "" := fun hempty => not_isArguments_empty (hempty ▸ h a rfl)
      exact if_neg hne

/-- A comparison is a target behind the text in front of it. -/
theorem targetAt?_of_compares
    (h : Compares condition before name arguments after) :
    ∃ rest, condition.toList = before.toList ++ rest ∧
      targetAt? rest = some { name, arguments := givenArguments arguments } := by
  refine ⟨targetOpening ++ ((name ++ arguments).toList ++ '"' :: ')' :: after.toList), ?_, ?_⟩
  · exact (congrArg String.toList h.text).trans toList_comparison
  · have hgiven : ∀ a ∈ givenArguments arguments, IsArguments a := by
      intro a ha
      rcases h.arguments with rfl | harguments
      · cases ha
      · obtain ⟨-, hsame⟩ := Option.ite_none_left_eq_some.mp ha
        exact Option.some.inj hsame ▸ harguments
    have hread := readTarget?_trigger h.name hgiven after.toList
    rw [givenArguments_getD] at hread
    rw [targetAt?_opening]
    exact hread

/-- A target is a comparison behind the text in front of it. -/
theorem compares_of_targetAt?
    {rest : List Char} {target : DispatchTarget}
    (htext : condition.toList = before.toList ++ rest)
    (h : targetAt? rest = some target) :
    ∃ after, Compares condition before target.name (target.arguments.getD "") after ∧
      target.arguments = givenArguments (target.arguments.getD "") := by
  obtain ⟨behind, rfl, hread⟩ := targetAt?_eq_some_iff.mp h
  obtain ⟨hname, harguments, after, rfl⟩ := readTarget?_eq_some_iff.mp hread
  refine ⟨String.ofList after, ⟨?_, hname, ?_⟩, (givenArguments_of_isArguments harguments).symm⟩
  · refine String.toList_inj.mp (htext.trans (toList_comparison.trans ?_).symm)
    rw [String.toList_ofList]
  · cases hgiven : target.arguments with
    | none =>
        exact Or.inl rfl
    | some a =>
        exact Or.inr (harguments a hgiven)

/-- At one place there is one way to read a comparison. -/
theorem Compares.unique
    {name' arguments' after' : String}
    (h : Compares condition before name arguments after)
    (h' : Compares condition before name' arguments' after') :
    name = name' ∧ arguments = arguments' := by
  obtain ⟨rest, htext, htarget⟩ := targetAt?_of_compares h
  obtain ⟨rest', htext', htarget'⟩ := targetAt?_of_compares h'
  obtain rfl := List.append_cancel_left (htext.symm.trans htext')
  obtain ⟨hname, hgiven⟩ := DispatchTarget.mk.inj (Option.some.inj (htarget.symm.trans htarget'))
  refine ⟨hname, ?_⟩
  rw [← givenArguments_getD arguments, hgiven, givenArguments_getD]

/-- What stands behind a part of a text is shorter, the longer this part is. -/
theorem length_le_iff
    {before' : String} {rest rest' : List Char}
    (h : condition.toList = before.toList ++ rest)
    (h' : condition.toList = before'.toList ++ rest') :
    before'.length ≤ before.length ↔ rest.length ≤ rest'.length := by
  have hlength := congrArg List.length (h.symm.trans h')
  rw [List.length_append, List.length_append, String.length_toList, String.length_toList] at hlength
  omega

/-- Suffixes are what stands behind some text. -/
theorem exists_before
    {rest : List Char}
    (h : rest <:+ condition.toList) :
    ∃ before : String, condition.toList = before.toList ++ rest := by
  obtain ⟨front, hfront⟩ := h
  exact ⟨String.ofList front, by rw [String.toList_ofList, hfront]⟩

/-- A condition names the operation that it compares the input with for the last time. -/
theorem dispatchTarget?_eq_some_iff
    {target : DispatchTarget} :
    dispatchTarget? condition = some target ↔
      ∃ before arguments after,
        Compares condition before target.name arguments after ∧
        target.arguments = givenArguments arguments ∧
        ∀ before' name' arguments' after',
          Compares condition before' name' arguments' after' →
            before'.length ≤ before.length := by
  rw [dispatchTarget?, lastTarget?_eq_some_iff]
  constructor
  · rintro ⟨rest, hsuffix, htarget, hshortest⟩
    obtain ⟨before, htext⟩ := exists_before hsuffix
    obtain ⟨after, hcompares, hgiven⟩ := compares_of_targetAt? htext htarget
    refine ⟨before, _, after, hcompares, hgiven, fun before' name' arguments' after' h' => ?_⟩
    obtain ⟨rest', htext', htarget'⟩ := targetAt?_of_compares h'
    refine (length_le_iff htext htext').mpr (hshortest rest' ⟨_, htext'.symm⟩ ?_)
    rw [htarget']
    rfl
  · rintro ⟨before, arguments, after, hcompares, hgiven, hlongest⟩
    obtain ⟨rest, htext, htarget⟩ := targetAt?_of_compares hcompares
    rw [← hgiven] at htarget
    refine ⟨rest, ⟨_, htext.symm⟩, htarget, fun rest' hsuffix' hsome => ?_⟩
    obtain ⟨before', htext'⟩ := exists_before hsuffix'
    obtain ⟨target', htarget'⟩ := Option.isSome_iff_exists.mp hsome
    obtain ⟨after', hcompares', -⟩ := compares_of_targetAt? htext' htarget'
    exact (length_le_iff htext htext').mp (hlongest _ _ _ _ hcompares')

/-- A condition names no operation only if it compares the input with none. -/
theorem dispatchTarget?_eq_none_iff :
    dispatchTarget? condition = none ↔
      ∀ before name arguments after, ¬ Compares condition before name arguments after := by
  rw [dispatchTarget?, lastTarget?_eq_none_iff]
  constructor
  · intro h before name arguments after hcompares
    obtain ⟨rest, htext, htarget⟩ := targetAt?_of_compares hcompares
    rw [h rest ⟨_, htext.symm⟩] at htarget
    cases htarget
  · intro h rest hsuffix
    obtain ⟨before, htext⟩ := exists_before hsuffix
    rw [Option.eq_none_iff_forall_ne_some]
    intro target htarget
    obtain ⟨after, hcompares, -⟩ := compares_of_targetAt? htext htarget
    exact h _ _ _ _ hcompares

/--
The grammar of dispatch conditions, for every text. A condition names an operation just if it
compares the input with one, and then the operation is the one of the last comparison: its name, and
its arguments if anything stands between the name and the quote. A condition without a comparison
names none. The name and the arguments at one place are unique.
-/
theorem dispatchTarget?_grammar
    (condition : String) :
    (∀ target, dispatchTarget? condition = some target ↔
      ∃ before arguments after,
        Compares condition before target.name arguments after ∧
        target.arguments = givenArguments arguments ∧
        ∀ before' name' arguments' after',
          Compares condition before' name' arguments' after' →
            before'.length ≤ before.length) ∧
    (dispatchTarget? condition = none ↔
      ∀ before name arguments after, ¬ Compares condition before name arguments after) ∧
    (∀ before name name' arguments arguments' after after',
      Compares condition before name arguments after →
      Compares condition before name' arguments' after' →
        name = name' ∧ arguments = arguments') :=
  ⟨fun _ => dispatchTarget?_eq_some_iff, dispatchTarget?_eq_none_iff,
    fun _ _ _ _ _ _ _ h h' => h.unique h'⟩

/-- A condition that compares the input three times, the last time with something else. -/
def thrice : String :=
  "isEqual(input, \"close\") || isEqual(input, \"pay(a, b)\") || isEqual(input, \"1st\")"

theorem dispatchTarget?_grammar_thrice :
    Compares thrice "isEqual(input, \"close\") || " "pay" "(a, b)"
      " || isEqual(input, \"1st\")" ∧
    (∃ before arguments after,
      Compares thrice before "pay" arguments after ∧
      some "(a, b)" = givenArguments arguments ∧
      ∀ before' name' arguments' after', Compares thrice before' name' arguments' after' →
        before'.length ≤ before.length) ∧
    (∀ name' arguments' after',
      Compares thrice "isEqual(input, \"close\") || " name' arguments' after' →
        "pay" = name' ∧ "(a, b)" = arguments') ∧
    (∀ before name arguments after,
      ¬ Compares "isEqual(input, 'pay')" before name arguments after) := by
  have hpay : Compares thrice "isEqual(input, \"close\") || " "pay" "(a, b)"
      " || isEqual(input, \"1st\")" :=
    ⟨by decide +kernel, by decide +kernel,
      Or.inr ⟨"a, b", by decide +kernel, by decide +kernel⟩⟩
  obtain ⟨hsome, -, hunique⟩ := dispatchTarget?_grammar thrice
  obtain ⟨-, hnone, -⟩ := dispatchTarget?_grammar "isEqual(input, 'pay')"
  refine ⟨hpay, ?_, fun _ _ _ h' => hunique _ _ _ _ _ _ _ hpay h', hnone.mp (by decide +kernel)⟩
  exact (hsome { name := "pay", arguments := some "(a, b)" }).mp (by decide +kernel)

end Grammar

end Behavior
end ContractGen
