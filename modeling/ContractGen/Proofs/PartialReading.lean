import ContractGen.Proofs.SameDeclarations

/-!
# Reading a part of a file

A file is read declaration by declaration, and a contract member by member. Here such a reading is
stopped between two members of a contract, and described by what was read up to there.

**Definitions.**
* `Reads`: a reader is applied again and again.
* `ContractOpens`: the tokens from the name of a contract to its opening brace.
* `OpenFile`: what was read of a file that is left in the middle of a contract.
* `OpensFile`: these tokens are read up to there.

**Results.**
* `OpensFile.readItems_iff`: a file is accepted if the rest of it is.
* `OpensFile.continues`: the same tokens lead to the same place in another text.
-/

namespace ContractGen
namespace Source

open Target

/-! ## One value after the other -/

/-- A reader is applied again and again, up to some tokens that are left. -/
inductive Reads {α : Type} (reader : Reader α) : List Lexeme → List α → List Lexeme → Prop
  | done {input : List Lexeme} : Reads reader input [] input
  | step {input next left : List Lexeme} {value : α} {values : List α}
      {hnext : next.length < input.length} (h : reader input = .ok ⟨value, next, hnext⟩)
      (hrest : Reads reader next values left) : Reads reader input (value :: values) left

section Repeated

variable {α β : Type} {reader : Reader α} {input left : List Lexeme} {values : List α}

theorem Reads.length_le
    (h : Reads reader input values left) :
    left.length ≤ input.length := by
  induction h with
  | done =>
      exact Nat.le_refl _
  | @step _ _ _ _ _ hnext _ _ ih =>
      exact Nat.le_trans ih (Nat.le_of_lt hnext)

/-- One more value is read. -/
theorem Reads.concat
    {next : List Lexeme}
    {value : α}
    {hnext : next.length < left.length}
    (h : Reads reader input values left)
    (hvalue : reader left = .ok ⟨value, next, hnext⟩) :
    Reads reader input (values ++ [value]) next := by
  induction h with
  | done =>
      exact .step hvalue .done
  | step hfirst _ ih =>
      exact .step hfirst (ih hvalue)

/-- The same tokens are read as the same values. -/
theorem Reads.continues
    {k : Likeness}
    {p : Pairing k}
    {Same : α → β → Prop}
    {reader' : Reader β}
    {input' : List Lexeme}
    (hreader : ∀ {input input' : List Lexeme} {taken : Taken α input}, p.Shares input input' →
      reader input = .ok taken → p.later.length ≤ taken.rest.length →
      p.Continues Same taken (reader' input'))
    (h : Reads reader input values left)
    (hs : p.Shares input input')
    (hin : p.later.length ≤ left.length) :
    ∃ values' left', Reads reader' input' values' left' ∧ List.Forall₂ Same values values' ∧
      p.Shares left left' := by
  induction h generalizing input' with
  | done =>
      exact ⟨[], input', .done, .nil, hs⟩
  | step hfirst hrest ih =>
      obtain ⟨⟨value', next', hnext'⟩, hvalue', hsame, hs₁⟩ :=
        hreader hs hfirst (Nat.le_trans hin hrest.length_le)
      obtain ⟨values', left', hvalues', hsames, hs₂⟩ := ih hs₁ hin
      exact ⟨value' :: values', left', .step hvalue' hvalues', .cons hsame hsames, hs₂⟩

end Repeated

section Lists

variable {src : SourceText} {input left : List Lexeme} {items : List Item}

/-- A file is accepted if what is left of it is. -/
theorem Reads.readItems_iff
    {all : List Item}
    (h : Reads (readItem src) input items left) :
    readItems src input = .ok all ↔ ∃ more, readItems src left = .ok more ∧ all = items ++ more := by
  induction h generalizing all with
  | done =>
      simp
  | @step input next _ item _ hnext hfirst _ ih =>
      cases input with
      | nil =>
          cases hnext
      | cons t rest =>
          rw [readItems]
          constructor
          · intro hall
            obtain ⟨⟨item', next', hnext'⟩, hfirst', hall⟩ := bind_eq_ok_iff.mp hall
            cases hfirst.symm.trans hfirst'
            obtain ⟨others, hothers, hall⟩ := bind_eq_ok_iff.mp hall
            cases hall
            obtain ⟨more, hmore, rfl⟩ := ih.mp hothers
            exact ⟨more, hmore, rfl⟩
          · rintro ⟨more, hmore, rfl⟩
            have hothers := ih.mpr ⟨more, hmore, rfl⟩
            exact bind_eq_ok_iff.mpr ⟨_, hfirst, bind_eq_ok_iff.mpr ⟨_, hothers, rfl⟩⟩

theorem reads_of_readItems
    (h : readItems src input = .ok items) :
    Reads (readItem src) input items [] := by
  fun_induction readItems src input generalizing items with
  | case1 =>
      cases h
      exact .done
  | case2 t rest ih =>
      obtain ⟨⟨item, left, hleft⟩, hitem, h⟩ := bind_eq_ok_iff.mp h
      obtain ⟨others, hothers, h⟩ := bind_eq_ok_iff.mp h
      cases h
      exact .step hitem (ih _ hleft hothers)

theorem Reads.readItems
    (h : Reads (readItem src) input items []) :
    readItems src input = .ok items :=
  h.readItems_iff.mpr ⟨[], by rw [Source.readItems], (List.append_nil _).symm⟩

/-- The members of a block can be read if those that are left can. -/
theorem Reads.readMembers_iff
    {context : String}
    {member : Reader Item}
    {all : List Item}
    {rest : List Lexeme}
    (hclose : ∀ (t : Lexeme) (ts : List Lexeme) (taken : Taken Item (t :: ts)),
      member (t :: ts) = .ok taken → t.token ≠ .symbol "\x7d")
    (h : Reads member input items left) :
    (∃ hrest, readMembers src context member input = .ok ⟨all, rest, hrest⟩) ↔
      ∃ more hrest, readMembers src context member left = .ok ⟨more, rest, hrest⟩ ∧
        all = items ++ more := by
  induction h generalizing all with
  | done =>
      constructor
      · rintro ⟨hrest, hall⟩
        exact ⟨all, hrest, hall, rfl⟩
      · rintro ⟨more, hrest, hmore, rfl⟩
        exact ⟨hrest, hmore⟩
  | @step input next _ item _ hnext hfirst _ ih =>
      cases input with
      | nil =>
          cases hnext
      | cons t ts =>
          rw [readMembers, if_neg (hclose _ _ _ hfirst)]
          constructor
          · rintro ⟨hrest, hall⟩
            obtain ⟨⟨item', next', hnext'⟩, hfirst', hall⟩ := bind_eq_ok_iff.mp hall
            cases hfirst.symm.trans hfirst'
            obtain ⟨⟨others, left', hleft'⟩, hothers, hall⟩ := bind_eq_ok_iff.mp hall
            cases hall
            obtain ⟨more, hrest, hmore, rfl⟩ := ih.mp ⟨hleft', hothers⟩
            exact ⟨more, hrest, hmore, rfl⟩
          · rintro ⟨more, hrest, hmore, rfl⟩
            obtain ⟨hrest', hothers⟩ := ih.mpr ⟨more, hrest, hmore, rfl⟩
            exact ⟨Nat.lt_trans hrest' hnext,
              bind_eq_ok_iff.mpr ⟨_, hfirst, bind_eq_ok_iff.mpr ⟨_, hothers, rfl⟩⟩⟩

end Lists

/-! ## Contracts that are open -/

/-- The keywords in front of a contract, and what follows them. -/
inductive BeginsContract : List Lexeme → Bool → List Lexeme → Prop
  | concrete {t : Lexeme} {rest : List Lexeme} (ht : t.token = .identifier "contract") :
      BeginsContract (t :: rest) false rest
  | abstract {t u : Lexeme} {rest : List Lexeme} (ht : t.token = .identifier "abstract")
      (hu : u.token = .identifier "contract") : BeginsContract (t :: u :: rest) true rest

/-- The name of a contract, its bases and its opening brace. -/
def ContractOpens (src : SourceText) (input : List Lexeme) (name : String) (parents : List String)
    (left : List Lexeme) : Prop :=
  ∃ r₁ h₁ r₂ h₂ h₃, readIdentifier src "a contract name" input = .ok ⟨name, r₁, h₁⟩ ∧
    readBases src r₁ = .ok (parents, ⟨r₂, h₂⟩) ∧ readSymbol src "\x7b" r₂ = .ok ⟨(), left, h₃⟩

/-- What was read of a file that is left between two members of a contract. -/
structure OpenFile where
  /-- The declarations before the contract. -/
  items : List Item
  isAbstract : Bool
  name : String
  parents : List String
  /-- The members of the contract so far. -/
  members : List Item

namespace OpenFile

/-- The contract, once the rest of its members is read. -/
def contract (file : OpenFile) (more : List Item) : Contract where
  name := file.name
  isAbstract := file.isAbstract
  parents := file.parents
  fields := (file.members ++ more).filterMap Item.field?
  definitions := (file.members ++ more).foldl Item.addTo {}

/-- The reader of a member of the contract. -/
def memberReader (src : SourceText) (file : OpenFile) : Reader Item :=
  readContractMember src ("contract " ++ file.name)

/-- Files that look the same so far. -/
structure Same {k : Likeness} (v : k.View) (file file' : OpenFile) : Prop where
  items : List.Forall₂ (SameItem v) file.items file'.items
  isAbstract : file'.isAbstract = file.isAbstract
  name : file'.name = file.name
  parents : file'.parents = file.parents
  members : List.Forall₂ (SameMember v) file.members file'.members

end OpenFile

/-- A file is read up to a place between two members of a contract. -/
def OpensFile (src : SourceText) (input : List Lexeme) (file : OpenFile) (left : List Lexeme) :
    Prop :=
  ∃ opening block inner, Reads (readItem src) input file.items opening ∧
    BeginsContract opening file.isAbstract block ∧
    ContractOpens src block file.name file.parents inner ∧
    Reads (file.memberReader src) inner file.members left

section Openings

variable {k : Likeness} {v : k.View} {p : Pairing k} {src : SourceText}
variable {input input' left : List Lexeme} {name : String} {parents : List String}
variable {file : OpenFile}

theorem ContractOpens.length_lt
    (h : ContractOpens src input name parents left) :
    left.length < input.length := by
  obtain ⟨r₁, h₁, r₂, h₂, h₃, -, -, -⟩ := h
  exact Nat.lt_trans (Nat.lt_of_lt_of_le h₃ h₂) h₁

theorem BeginsContract.length_lt
    {isAbstract : Bool}
    (h : BeginsContract input isAbstract left) :
    left.length < input.length := by
  cases h with
  | concrete ht =>
      exact Reading.rest_lt
  | abstract ht hu =>
      exact Nat.lt_trans Reading.rest_lt Reading.rest_lt

/-- A closing brace is no member. -/
theorem readContractMember_close
    {context : String}
    {t : Lexeme}
    {rest : List Lexeme}
    {taken : Taken Item (t :: rest)}
    (h : readContractMember src context (t :: rest) = .ok taken) :
    t.token ≠ .symbol "\x7d" := by
  intro ht
  rw [readContractMember, ht] at h
  simp only [reduceCtorEq, decide_false, Bool.false_and, Bool.false_eq_true, if_false] at h
  obtain ⟨⟨f, r₁, h₁⟩, hfield, -⟩ := bind_eq_ok_iff.mp h
  obtain ⟨⟨type, r₂, h₂⟩, htype, -⟩ := bind_eq_ok_iff.mp hfield
  rw [readType, ht, if_neg (by decide)] at htype
  obtain ⟨⟨base, r₃, h₃⟩, hbase, -⟩ := bind_eq_ok_iff.mp htype
  cases rest with
  | nil =>
      rw [readQualifiedName, ht] at hbase
      cases hbase
  | cons u rest =>
      rw [readQualifiedName, ht] at hbase
      cases hbase

/-- A contract is read if the members that are left can be. -/
theorem readContract_iff
    {isAbstract : Bool}
    {c : Contract}
    {rest : List Lexeme}
    (h : ContractOpens src input name parents left) :
    (∃ hrest, readContract src isAbstract input = .ok ⟨c, rest, hrest⟩) ↔
      ∃ items hrest, readMembers src ("contract " ++ name)
          (readContractMember src ("contract " ++ name)) left = .ok ⟨items, rest, hrest⟩ ∧
        c = { name, isAbstract, parents, fields := items.filterMap Item.field?,
              definitions := items.foldl Item.addTo {} } := by
  obtain ⟨r₁, h₁, r₂, h₂, h₃, hname, hparents, hopen⟩ := h
  constructor
  · rintro ⟨hrest, h⟩
    obtain ⟨_, hname', h⟩ := bind_eq_ok_iff.mp h
    cases hname.symm.trans hname'
    obtain ⟨_, hparents', h⟩ := bind_eq_ok_iff.mp h
    cases hparents.symm.trans hparents'
    obtain ⟨_, hopen', h⟩ := bind_eq_ok_iff.mp h
    cases hopen.symm.trans hopen'
    obtain ⟨⟨items, r₄, h₄⟩, hitems, h⟩ := bind_eq_ok_iff.mp h
    cases h
    exact ⟨items, h₄, hitems, rfl⟩
  · rintro ⟨items, hrest, hitems, rfl⟩
    refine ⟨by omega, ?_⟩
    refine bind_eq_ok_iff.mpr ⟨_, hname, ?_⟩
    refine bind_eq_ok_iff.mpr ⟨_, hparents, ?_⟩
    refine bind_eq_ok_iff.mpr ⟨_, hopen, ?_⟩
    exact bind_eq_ok_iff.mpr ⟨_, hitems, rfl⟩

/-- The declaration that begins like a contract is the contract. -/
theorem readItem_iff
    {isAbstract : Bool}
    {block : List Lexeme}
    {item : Item}
    {rest : List Lexeme}
    (h : BeginsContract input isAbstract block) :
    (∃ hrest, readItem src input = .ok ⟨item, rest, hrest⟩) ↔
      ∃ c hrest, readContract src isAbstract block = .ok ⟨c, rest, hrest⟩ ∧ item = .contract c := by
  cases h with
  | @concrete t _ ht =>
      rw [readItem, ht]
      constructor
      · rintro ⟨hrest, h⟩
        obtain ⟨⟨c, left, hleft⟩, hcontract, h⟩ := bind_eq_ok_iff.mp h
        cases h
        exact ⟨c, hleft, hcontract, rfl⟩
      · rintro ⟨c, hrest, hcontract, rfl⟩
        exact ⟨Reading.lt_cons_of_lt hrest, bind_eq_ok_iff.mpr ⟨_, hcontract, rfl⟩⟩
  | @abstract t u _ ht hu =>
      have hkeyword :
          readKeyword src "contract" (u :: block) = .ok ⟨(), block, Reading.rest_lt⟩ := by
        rw [readKeyword, if_pos hu]
      rw [readItem, ht]
      constructor
      · rintro ⟨hrest, h⟩
        obtain ⟨_, hkeyword', h⟩ := bind_eq_ok_iff.mp h
        cases hkeyword.symm.trans hkeyword'
        obtain ⟨⟨c, left, hleft⟩, hcontract, h⟩ := bind_eq_ok_iff.mp h
        cases h
        exact ⟨c, hleft, hcontract, rfl⟩
      · rintro ⟨c, hrest, hcontract, rfl⟩
        exact ⟨Reading.lt_cons_of_lt (Reading.lt_cons_of_lt hrest),
          bind_eq_ok_iff.mpr ⟨_, hkeyword, bind_eq_ok_iff.mpr ⟨_, hcontract, rfl⟩⟩⟩

/-- A file is accepted if the rest of its contract and what follows the contract are. -/
theorem OpensFile.readItems_iff
    {all : List Item}
    (h : OpensFile src input file left) :
    readItems src input = .ok all ↔
      ∃ more rest hrest items,
        readMembers src ("contract " ++ file.name) (file.memberReader src) left =
          .ok ⟨more, rest, hrest⟩ ∧
        readItems src rest = .ok items ∧
        all = file.items ++ .contract (file.contract more) :: items := by
  obtain ⟨opening, block, inner, hitems, hbegins, hopens, hmembers⟩ := h
  have hclose : ∀ (t : Lexeme) (ts : List Lexeme) (taken : Taken Item (t :: ts)),
      file.memberReader src (t :: ts) = .ok taken → t.token ≠ .symbol "\x7d" :=
    fun _ _ _ => readContractMember_close
  rw [hitems.readItems_iff]
  constructor
  · rintro ⟨others, hothers, rfl⟩
    cases hreads : reads_of_readItems hothers with
    | done =>
        cases hbegins
    | step hitem hrest =>
        obtain ⟨c, hcontract, hok, rfl⟩ := (readItem_iff hbegins).mp ⟨_, hitem⟩
        obtain ⟨members, _, hall, rfl⟩ := (readContract_iff hopens).mp ⟨_, hok⟩
        obtain ⟨more, hread, hmore, rfl⟩ := (hmembers.readMembers_iff hclose).mp ⟨_, hall⟩
        exact ⟨more, _, hread, _, hmore, hrest.readItems, rfl⟩
  · rintro ⟨more, rest, hrest, items, hmore, hitems, rfl⟩
    obtain ⟨_, hall⟩ := (hmembers.readMembers_iff hclose).mpr ⟨more, hrest, hmore, rfl⟩
    obtain ⟨_, hok⟩ : ∃ hrest, readContract src file.isAbstract block =
        .ok ⟨file.contract more, rest, hrest⟩ := (readContract_iff hopens).mpr ⟨_, _, hall, rfl⟩
    obtain ⟨_, hitem⟩ := (readItem_iff hbegins).mpr ⟨_, _, hok, rfl⟩
    exact ⟨_, (Reads.step hitem .done).readItems_iff.mpr ⟨items, hitems, rfl⟩, rfl⟩

/-- One more member of the contract is read. -/
theorem OpensFile.member
    {item : Item}
    {next : List Lexeme}
    {hnext : next.length < left.length}
    (h : OpensFile src input file left)
    (hitem : file.memberReader src left = .ok ⟨item, next, hnext⟩) :
    OpensFile src input { file with members := file.members ++ [item] } next := by
  obtain ⟨opening, block, inner, hitems, hbegins, hopens, hmembers⟩ := h
  exact ⟨opening, block, inner, hitems, hbegins, hopens, hmembers.concat hitem⟩

theorem BeginsContract.continues
    {isAbstract : Bool}
    (h : BeginsContract input isAbstract left)
    (hs : p.Shares input input')
    (hin : p.later.length ≤ left.length) :
    ∃ left', BeginsContract input' isAbstract left' ∧ p.Shares left left' := by
  cases h with
  | concrete ht =>
      obtain ⟨t', left', rfl, htoken, -, hs₁⟩ := hs.cons hin
      exact ⟨left', .concrete (htoken.trans ht), hs₁⟩
  | abstract ht hu =>
      obtain ⟨t', rest', rfl, htoken, -, hs₁⟩ := hs.cons (Nat.le_succ_of_le hin)
      obtain ⟨u', left', rfl, hutoken, -, hs₂⟩ := hs₁.cons hin
      exact ⟨left', .abstract (htoken.trans ht) (hutoken.trans hu), hs₂⟩

theorem ContractOpens.continues
    (h : ContractOpens p.src input name parents left)
    (hs : p.Shares input input')
    (hin : p.later.length ≤ left.length) :
    ∃ left', ContractOpens p.src' input' name parents left' ∧ p.Shares left left' := by
  obtain ⟨r₁, h₁, r₂, h₂, h₃, hname, hparents, hopen⟩ := h
  have hin₂ : p.later.length < r₂.length := Nat.lt_of_le_of_lt hin h₃
  have hin₁ : p.later.length ≤ r₁.length := Nat.le_trans (Nat.le_of_lt hin₂) h₂
  obtain ⟨⟨name', r₁', h₁'⟩, hname', heq, hs₁⟩ := readIdentifier_continues hs hname hin₁
  dsimp only at heq
  subst heq
  obtain ⟨⟨r₂', h₂'⟩, hparents', hs₂⟩ := readBases_continues hs₁ hparents hin₂
  obtain ⟨⟨_, left', h₃'⟩, hopen', -, hs₃⟩ := readSymbol_continues hs₂ hopen hin
  exact ⟨left', ⟨r₁', h₁', r₂', h₂', h₃', hname', hparents', hopen'⟩, hs₃⟩

/-- The same tokens lead to the same place. -/
theorem OpensFile.continues
    (h : OpensFile p.src input file left)
    (hs : p.Shares input input')
    (hin : p.later.length ≤ left.length) :
    ∃ file' left', OpensFile p.src' input' file' left' ∧ file.Same v file' ∧
      p.Shares left left' := by
  obtain ⟨opening, block, inner, hitems, hbegins, hopens, hmembers⟩ := h
  have hin₁ : p.later.length ≤ inner.length := Nat.le_trans hin hmembers.length_le
  have hin₂ : p.later.length ≤ block.length := Nat.le_trans hin₁ (Nat.le_of_lt hopens.length_lt)
  have hin₃ : p.later.length ≤ opening.length := Nat.le_trans hin₂ (Nat.le_of_lt hbegins.length_lt)
  obtain ⟨items', opening', hitems', hsameItems, hs₁⟩ :=
    hitems.continues (readItem_continues (v := v)) hs hin₃
  obtain ⟨block', hbegins', hs₂⟩ := hbegins.continues hs₁ hin₂
  obtain ⟨inner', hopens', hs₃⟩ := hopens.continues hs₂ hin₁
  obtain ⟨members', left', hmembers', hsameMembers, hs₄⟩ :=
    hmembers.continues (readContractMember_continues (v := v)) hs₃ hin
  exact ⟨⟨items', file.isAbstract, file.name, file.parents, members'⟩, left',
    ⟨opening', block', inner', hitems', hbegins', hopens', hmembers'⟩,
    ⟨hsameItems, rfl, rfl, rfl, hsameMembers⟩, hs₄⟩

/-- Contracts look the same if their members do. -/
theorem OpenFile.Same.contract
    {file' : OpenFile}
    {more more' : List Item}
    (h : file.Same v file')
    (hmore : List.Forall₂ (SameMember v) more more') :
    v.contract (file.contract more) = v.contract (file'.contract more') := by
  have hall := List.rel_append h.members hmore
  simp only [OpenFile.contract, Likeness.View.contract, h.isAbstract, h.name, h.parents,
    map_fields_eq hall, foldl_addTo_mapTypes_eq rfl hall]

theorem OpenFile.Same.member
    {file' : OpenFile}
    {item item' : Item}
    (h : file.Same v file')
    (hitem : SameMember v item item') :
    OpenFile.Same v { file with members := file.members ++ [item] }
      { file' with members := file'.members ++ [item'] } :=
  ⟨h.items, h.isAbstract, h.name, h.parents, List.rel_append h.members (.cons hitem .nil)⟩

/-- What is left of two files is read the same if its tokens are. -/
theorem OpensFile.readItems_continues
    {file' : OpenFile}
    {left' : List Lexeme}
    {all : List Item}
    (h : OpensFile p.src input file left)
    (h' : OpensFile p.src' input' file' left')
    (hsame : file.Same v file')
    (hlater : p.later = [])
    (hlater' : p.later' = [])
    (hs : p.Shares left left')
    (hall : readItems p.src input = .ok all) :
    ∃ all', readItems p.src' input' = .ok all' ∧ List.Forall₂ (SameItem v) all all' := by
  have hin (ls : List Lexeme) : p.later.length ≤ ls.length := by
    rw [hlater]
    exact Nat.zero_le _
  obtain ⟨more, rest, hrest, items, hmore, hitems, rfl⟩ := h.readItems_iff.mp hall
  obtain ⟨⟨more', rest', hrest'⟩, hmore', hsameMore, hs₁⟩ :=
    readMembers_continues (v := v) (fun _ _ _ => readContractMember_continues) hs hmore (hin _)
  obtain ⟨items', left'', hitems', hsameItems, hs₂⟩ :=
    (reads_of_readItems hitems).continues (readItem_continues (v := v)) hs₁ (hin _)
  -- Nothing is left of the first text, so nothing is left of the second one.
  obtain rfl : left'' = [] := by
    obtain ⟨own, own', hown, rfl, htwins⟩ := hs₂
    obtain ⟨rfl, -⟩ := List.append_eq_nil_iff.mp hown.symm
    rw [hlater', List.append_nil]
    exact List.map_eq_nil_iff.mp htwins.tokens
  have hname : file.memberReader p.src' = file'.memberReader p.src' := by
    rw [OpenFile.memberReader, OpenFile.memberReader, hsame.name]
  refine ⟨_, h'.readItems_iff.mpr ⟨more', rest', hrest', items', ?_, hitems'.readItems, rfl⟩, ?_⟩
  · rw [hsame.name, ← hname]
    exact hmore'
  · exact List.rel_append hsame.items (.cons (.contract (hsame.contract hsameMore)) hsameItems)

end Openings

end Source
end ContractGen
