import ContractGen.Proofs.MergeAccount
import ContractGen.Proofs.TokenTiling

/-!
# Conditions name their trigger

The condition of a transition compares the input with the trigger and may go on with a guard, which
is any text. Forwarding reads the operation off the last place where a condition compares the input
with a name. This is the comparison with the trigger, as long as the guard makes no such comparison
itself: a comparison ends with a quote, and the quotes around the trigger are the only ones that
could be taken for the quote of a later one.

* `lastTarget?_eq_none_iff`: a text has no target only if no suffix begins with one.
* `lastTarget?_append`: what stands in front of the last target does not matter.
* `infix_append_quote`: a text that ends with its only quote lies on one side of a quote.
* `readTarget?_trigger`: an operation is read up to the quote after it.
* `dispatchTarget?_condition`: the condition of a transition names its trigger.
-/

namespace ContractGen
namespace Behavior

open Source (isIdentifier isIdentifierPart isIdentifierStart)

/-! ## The last target in a text -/

section LastTarget

variable {text : List Char}

theorem targetAt?_eq_none
    (h : ¬ targetOpening <+: text) :
    targetAt? text = none := by
  have hdrop : Text.dropStart? targetOpening text = none := by
    rw [Option.eq_none_iff_forall_ne_some]
    intro rest hrest
    exact h (Source.isPrefix_iff_dropStart?.mpr ⟨rest, hrest⟩)
  rw [targetAt?, hdrop]
  rfl

/-- A target is read behind an opening. -/
theorem targetAt?_opening :
    targetAt? (targetOpening ++ text) = readTarget? text := by
  obtain ⟨rest, hrest⟩ := Source.isPrefix_iff_dropStart?.mp (List.prefix_append targetOpening text)
  obtain rfl := List.append_cancel_left (Source.append_of_dropStart? hrest)
  rw [targetAt?, hrest]
  rfl

/-- A text has no target only if no suffix begins with one. -/
theorem lastTarget?_eq_none_iff :
    lastTarget? text = none ↔ ∀ rest, rest <:+ text → targetAt? rest = none := by
  induction text with
  | nil =>
      refine ⟨fun _ rest hrest => ?_, fun _ => rfl⟩
      obtain rfl := List.suffix_nil.mp hrest
      rfl
  | cons c text ih =>
      constructor
      · intro h rest hrest
        rw [lastTarget?] at h
        split at h
        · cases h
        · next hnone =>
            rcases List.suffix_cons_iff.mp hrest with rfl | hrest
            · exact h
            · exact ih.mp hnone rest hrest
      · intro h
        have hnone := ih.mpr fun rest hrest => h rest (hrest.trans (List.suffix_cons c text))
        rw [lastTarget?, hnone]
        exact h _ List.suffix_rfl

/-- A text without an opening has no target. -/
theorem lastTarget?_eq_none
    (h : ¬ targetOpening <:+: text) :
    lastTarget? text = none :=
  lastTarget?_eq_none_iff.mpr fun _ hrest =>
    targetAt?_eq_none fun hstart => h (hstart.isInfix.trans hrest.isInfix)

/-- What stands in front of the last target does not matter. -/
theorem lastTarget?_append
    {target : DispatchTarget}
    (before : List Char)
    (h : lastTarget? text = some target) :
    lastTarget? (before ++ text) = some target := by
  induction before with
  | nil =>
      exact h
  | cons c before ih =>
      rw [List.cons_append, lastTarget?, ih]

end LastTarget

/-! ## Where an opening can stand -/

section Openings

/-- What stands in an opening before its quote. -/
def openingStem : List Char :=
  "isEqual(input, ".toList

theorem targetOpening_eq :
    targetOpening = openingStem ++ ['"'] := by
  rfl

/-- A text before the first quote, and what follows from the quote on. -/
theorem span_quote
    {own : List Char}
    (h : '"' ∉ own)
    (later : List Char) :
    (own ++ '"' :: later).takeWhile (· ≠ '"') = own ∧
      (own ++ '"' :: later).dropWhile (· ≠ '"') = '"' :: later := by
  have hplain : ∀ c ∈ own, decide (c ≠ '"') = true := by
    intro c hc
    simpa using fun he : c = '"' => h (he ▸ hc)
  rw [List.takeWhile_append_of_pos hplain, List.dropWhile_append_of_pos hplain]
  simp

/-- A text that ends with its only quote ends at a quote or lies behind it. -/
theorem infix_append_quote
    {stem before after : List Char}
    (hstem : '"' ∉ stem)
    (hbefore : '"' ∉ before)
    (h : stem ++ ['"'] <:+: before ++ '"' :: after) :
    stem <:+ before ∨ stem ++ ['"'] <:+: after := by
  induction before with
  | nil =>
      rw [List.nil_append, List.infix_cons_iff] at h
      refine h.imp_left fun hstart => ?_
      cases stem with
      | nil =>
          exact List.suffix_rfl
      | cons c stem =>
          obtain ⟨rfl, -⟩ := List.cons_prefix_cons.mp hstart
          exact absurd List.mem_cons_self hstem
  | cons c before ih =>
      have hrest : '"' ∉ before := fun hmem => hbefore (List.mem_cons_of_mem c hmem)
      rw [List.cons_append, List.infix_cons_iff] at h
      rcases h with ⟨rest, hsplit⟩ | hinfix
      · -- The text begins here, so it ends at the first quote from here on.
        have hfirst := congrArg (List.takeWhile (· ≠ '"')) hsplit
        rw [List.append_assoc, List.singleton_append, ← List.cons_append, (span_quote hstem _).1,
          (span_quote hbefore _).1] at hfirst
        exact Or.inl (hfirst ▸ List.suffix_rfl)
      · exact (ih hrest hinfix).imp_left fun hsuffix => hsuffix.trans (List.suffix_cons c before)

/-- A text that does not end with a blank does not end with what stands before a quote. -/
theorem not_openingStem_suffix
    {text : List Char}
    (h : ∀ c ∈ text.getLast?, c ≠ ' ') :
    ¬ openingStem <:+ text := by
  rintro ⟨before, rfl⟩
  exact h ' ' (by rw [List.getLast?_append_of_ne_nil _ (by decide)]; decide) rfl

/-- A guard in parentheses has an opening only if the guard has one. -/
theorem infix_of_infix_guard
    {guard : List Char}
    (h : targetOpening <:+: ") && (".toList ++ (guard ++ [')'])) :
    targetOpening <:+: guard := by
  have hdrop : ∀ front : List Char, 'i' ∉ front → ∀ later,
      targetOpening <:+: front ++ later → targetOpening <:+: later := by
    intro front hfront later hinfix
    induction front with
    | nil =>
        exact hinfix
    | cons c front ih =>
        rw [List.cons_append, List.infix_cons_iff] at hinfix
        rcases hinfix with hstart | hinfix
        · obtain ⟨hc, -⟩ := List.cons_prefix_cons.mp hstart
          exact absurd (hc ▸ List.mem_cons_self) hfront
        · exact ih (fun hmem => hfront (List.mem_cons_of_mem c hmem)) hinfix
  have hguard := hdrop _ (by decide) _ h
  rcases List.infix_concat_iff.mp hguard with hsuffix | hinfix
  · -- An opening ends with a quote, not with a parenthesis.
    obtain ⟨before, hbefore⟩ := hsuffix
    have hlast := congrArg List.getLast? hbefore
    rw [targetOpening_eq, ← List.append_assoc, List.getLast?_concat, List.getLast?_concat] at hlast
    exact absurd hlast (by decide)
  · exact hinfix

end Openings

/-! ## Triggers -/

section Triggers

variable {name : String}

/-- The arguments of a trigger: parentheses around a text without quotes. -/
def IsArguments (arguments : String) : Prop :=
  ∃ inner : String, arguments = "(" ++ inner ++ ")" ∧ '"' ∉ inner.toList

theorem any_head?_of_isIdentifier
    (hname : isIdentifier name = true) :
    name.toList.head?.any isIdentifierStart = true := by
  obtain ⟨first, rest, htext, hfirst, -⟩ := Source.isIdentifier_iff.mp hname
  rw [htext]
  exact hfirst

/-- An operation without arguments is read up to the quote after it. -/
theorem readTarget?_name
    (hname : isIdentifier name = true)
    (later : List Char) :
    readTarget? (name.toList ++ '"' :: ')' :: later) = some { name } := by
  have hparts := Source.forall_isIdentifierPart hname
  have hend : isIdentifierPart '"' = false := by
    decide
  have hstarts := any_head?_of_isIdentifier hname
  have hclosing : Text.startsWith targetClosing ('"' :: ')' :: later) = true :=
    Text.isSome_dropStart?_append targetClosing later
  rw [readTarget?, List.takeWhile_append_of_pos hparts, List.dropWhile_append_of_pos hparts,
    List.takeWhile_cons_of_neg (by simp [hend]), List.dropWhile_cons_of_neg (by simp [hend])]
  simp [hstarts, hclosing]

/-- An operation with arguments is read up to the quote after them. -/
theorem readTarget?_call
    (hname : isIdentifier name = true)
    {inner : List Char}
    (hquote : '"' ∉ inner)
    (later : List Char) :
    readTarget? (name.toList ++ '(' :: (inner ++ ')' :: '"' :: ')' :: later)) =
      some { name, arguments := some (String.ofList ('(' :: (inner ++ [')']))) } := by
  have hparts := Source.forall_isIdentifierPart hname
  have hend : isIdentifierPart '(' = false := by
    decide
  have hstarts := any_head?_of_isIdentifier hname
  have hclosing : Text.startsWith targetClosing ('"' :: ')' :: later) = true :=
    Text.isSome_dropStart?_append targetClosing later
  have hspan : '(' :: (inner ++ ')' :: '"' :: ')' :: later) =
      ('(' :: (inner ++ [')'])) ++ '"' :: ')' :: later := by
    simp
  have harguments : '"' ∉ '(' :: (inner ++ [')']) := by
    simp [hquote]
  obtain ⟨htake, hdrop⟩ := span_quote harguments (')' :: later)
  rw [readTarget?, List.takeWhile_append_of_pos hparts, List.dropWhile_append_of_pos hparts,
    List.takeWhile_cons_of_neg (by simp [hend]), List.dropWhile_cons_of_neg (by simp [hend]), hspan,
    htake, hdrop]
  simp [hstarts, hclosing, isParenthesized]

/-- A trigger is read up to the quote after it. -/
theorem readTarget?_trigger
    (hname : isIdentifier name = true)
    {arguments : Option String}
    (harguments : ∀ a ∈ arguments, IsArguments a)
    (later : List Char) :
    readTarget? ((name ++ arguments.getD "").toList ++ '"' :: ')' :: later) =
      some { name, arguments } := by
  cases arguments with
  | none =>
      simpa using readTarget?_name hname later
  | some a =>
      obtain ⟨inner, rfl, hquote⟩ := harguments a rfl
      have hcall := readTarget?_call hname hquote later
      have htext : String.ofList ('(' :: (inner.toList ++ [')'])) = "(" ++ inner ++ ")" := by
        simp [← String.toList_inj]
      rw [htext] at hcall
      simpa using hcall

/-- The characters of a trigger: no quote, and no blank at its end. -/
theorem trigger_plain
    (hname : isIdentifier name = true)
    {arguments : Option String}
    (harguments : ∀ a ∈ arguments, IsArguments a) :
    '"' ∉ (name ++ arguments.getD "").toList ∧
      ∀ c ∈ (name ++ arguments.getD "").toList.getLast?, c ≠ ' ' := by
  have hparts := Source.forall_isIdentifierPart hname
  have hquote : '"' ∉ name.toList := fun hmem => absurd (hparts _ hmem) (by decide)
  cases arguments with
  | none =>
      refine ⟨by simpa using hquote, ?_⟩
      rintro c hc rfl
      rw [Option.getD_none, String.append_empty] at hc
      exact absurd (hparts _ (List.mem_of_getLast? hc)) (by decide)
  | some a =>
      obtain ⟨inner, rfl, hinner⟩ := harguments a rfl
      have htext : (name ++ (some ("(" ++ inner ++ ")")).getD "").toList =
          (name.toList ++ '(' :: inner.toList) ++ [')'] := by
        simp
      rw [htext, List.getLast?_concat]
      exact ⟨by simp [hquote, hinner], by rintro c ⟨rfl⟩; decide⟩

end Triggers

/-! ## Conditions -/

section Conditions

/-- What a condition has behind the comparison with the trigger. -/
def guardText (guard : Option String) : List Char :=
  match guard with
  | none => []
  | some g => " && (".toList ++ (g.toList ++ [')'])

/-- A condition is the comparison with the trigger between two other texts. -/
theorem toList_condition
    (t : Transition) :
    ∃ before, t.condition.toList =
      before ++ (targetOpening ++ (t.trigger.toList ++ '"' :: ')' :: guardText t.guard)) := by
  refine ⟨(comparison stateField t.source ++ " && ").toList, ?_⟩
  have hopening : targetOpening = ("isEqual" ++ "(" ++ "input" ++ ", " ++ "\"").toList := by
    rfl
  rw [hopening]
  cases hguard : t.guard with
  | none =>
      simp [Transition.condition, comparison, comparisonName, quoted, guardText, hguard]
  | some g =>
      simp [Transition.condition, comparison, comparisonName, quoted, guardText, hguard]

/-- No opening comes later than the one in front of the trigger. -/
theorem not_infix_later
    {trigger : List Char} {guard : Option String}
    (hquote : '"' ∉ trigger)
    (hlast : ∀ c ∈ trigger.getLast?, c ≠ ' ')
    (hguard : ∀ g ∈ guard, ¬ targetOpening <:+: g.toList) :
    ¬ targetOpening <:+: targetOpening.tail ++ (trigger ++ '"' :: ')' :: guardText guard) := by
  intro h
  have hstem : '"' ∉ openingStem := by
    decide
  have htail : targetOpening.tail ++ (trigger ++ '"' :: ')' :: guardText guard) =
      openingStem.tail ++ '"' :: (trigger ++ '"' :: ')' :: guardText guard) := by
    rfl
  rw [htail, targetOpening_eq] at h
  rcases infix_append_quote hstem (by decide) h with hsuffix | hinfix
  · exact absurd hsuffix.length_le (by decide)
  · rcases infix_append_quote hstem hquote hinfix with hsuffix | hinfix
    · exact not_openingStem_suffix hlast hsuffix
    · rw [← targetOpening_eq] at hinfix
      cases guard with
      | none =>
          exact absurd hinfix.length_le (by simp [guardText]; decide)
      | some g =>
          exact hguard g rfl (infix_of_infix_guard (by simpa [guardText] using hinfix))

/--
The condition of a transition looks at the input and names the trigger, with its arguments if it has
any. The guard may be any text without a comparison of the input with something in quotes.
-/
theorem dispatchTarget?_condition
    {t : Transition} {name : String} {arguments : Option String}
    (hname : isIdentifier name = true)
    (harguments : ∀ a ∈ arguments, IsArguments a)
    (htrigger : t.trigger = name ++ arguments.getD "")
    (hguard : ∀ g ∈ t.guard, ¬ targetOpening <:+: g.toList) :
    Text.occursIn inputMark t.condition = true ∧
      dispatchTarget? t.condition = some { name, arguments } := by
  refine ⟨occursIn_inputMark t, ?_⟩
  obtain ⟨before, hcondition⟩ := toList_condition t
  obtain ⟨hquote, hlast⟩ := trigger_plain hname harguments
  rw [htrigger] at hcondition
  have hlater := lastTarget?_eq_none (not_infix_later hquote hlast hguard)
  have htarget := readTarget?_trigger hname harguments (guardText t.guard)
  rw [← targetAt?_opening] at htarget
  rw [dispatchTarget?, hcondition]
  refine lastTarget?_append before ?_
  have hcons : targetOpening = 'i' :: targetOpening.tail := by
    rfl
  rw [hcons, List.cons_append, lastTarget?, hlater, ← List.cons_append, ← hcons]
  exact htarget

/-- A transition whose arguments have parentheses, and whose guard compares other texts. -/
def depositing : Transition where
  source := "Open"
  target := "Open"
  trigger := "deposit((amount + 1) * 2, to)"
  guard := some "isEqual(kind, \"cash\") && isEqual(input, kind)"

theorem dispatchTarget?_condition_depositing :
    isIdentifier "deposit" = true ∧ IsArguments "((amount + 1) * 2, to)" ∧
      depositing.trigger = "deposit" ++ (some "((amount + 1) * 2, to)").getD "" ∧
      (∀ g ∈ depositing.guard, ¬ targetOpening <:+: g.toList) ∧
      Text.occursIn inputMark depositing.condition = true ∧
      dispatchTarget? depositing.condition =
        some { name := "deposit", arguments := some "((amount + 1) * 2, to)" } := by
  have hname : isIdentifier "deposit" = true := by
    decide +kernel
  have harguments : IsArguments "((amount + 1) * 2, to)" :=
    ⟨"(amount + 1) * 2, to", by decide +kernel, by decide +kernel⟩
  have htrigger : depositing.trigger = "deposit" ++ (some "((amount + 1) * 2, to)").getD "" := by
    decide +kernel
  have hguard : ∀ g ∈ depositing.guard, ¬ targetOpening <:+: g.toList := by
    rintro g ⟨rfl⟩
    decide +kernel
  exact ⟨hname, harguments, htrigger, hguard,
    dispatchTarget?_condition hname (by rintro a ⟨rfl⟩; exact harguments) htrigger hguard⟩

end Conditions

end Behavior
end ContractGen
