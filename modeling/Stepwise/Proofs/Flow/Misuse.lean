/-
# Misused names

A name is misused by an action if it is empty, if references use it for something else, or if
an action before this one has it already. The names of a built flow are trimmed, so a blank one
is the empty one. The check of such a flow finds every misuse once and nothing else, in the
order in which the actions stand, and what is wrong with a name by itself before its second
use. A name that several actions share is misused by all of them but the first.

Key definitions: `BlankIsEmpty`, `errorsAt`, `NameError.Before`, `Chain.Misuse`,
`NameError.tally`.

Key theorems: `mem_errorsAt_iff`, `pairwise_errorsAt`, `Chain.mem_errorsAt_located_iff`,
`count_nameErrorsFrom`, `Flow.check_finds_misuses`.
-/
import Stepwise.Proofs.Flow.Building
import Stepwise.Proofs.Flow.Positions

namespace Stepwise

/-! ### Names are trimmed -/

/-- No name is blank but the empty one. -/
def BlankIsEmpty (names : List String) : Prop :=
  ∀ name ∈ names, Text.allBlank name = true → name = ""

/-- A trimmed text without any character other than blanks is empty. -/
theorem Text.trim_eq_empty_of_allBlank {s : String} (h : allBlank (trim s) = true) :
    trim s = "" := by
  let kept := (s.toList.dropWhile isBlank).reverse.dropWhile isBlank
  have hblank : ∀ c ∈ kept, isBlank c = true := by
    simpa [allBlank, trim, strip, stripBy] using h
  -- the first character that is kept is none of those that are cut off
  have hkept : kept = [] := by
    by_contra hne
    have hhead := List.head_dropWhile_not isBlank hne
    exact Bool.false_ne_true (hhead.symm.trans (hblank _ (List.head_mem hne)))
  show String.ofList kept.reverse = ""
  rw [hkept]
  rfl

/-- The name of an action that is read from a node is trimmed. -/
theorem Node.exists_name_of_reads {document : Json} {a : Action} (h : Reads document a.node) :
    ∃ raw, a.label.name = Text.trim raw := by
  obtain ⟨label, work, next⟩ := a
  obtain @⟨label', kind, -, head, -, hdecode, -⟩ := h
  obtain ⟨raw, -, hraw⟩ := head.name
  have hlabel : label = label' := by
    rcases isLoop_of_decode hdecode with ⟨-, task, hnode⟩ | ⟨-, settings, hnode⟩ <;>
      cases work <;> cases hnode <;> rfl
  exact ⟨raw, by rw [hlabel, hraw]⟩

/-- A blank name in a built chain is the empty one. -/
theorem Chain.blankIsEmpty_of_buildLink {document : Json} {field : String} {chain : Chain}
    (h : buildLink document field = .ok chain) : BlankIsEmpty chain.allNames := by
  intro name hname hblank
  obtain ⟨a, ha, rfl⟩ := List.mem_map.mp hname
  obtain ⟨v, hreads⟩ := exists_reads_of_buildLink h a ha
  obtain ⟨raw, hraw⟩ := Node.exists_name_of_reads hreads
  rw [hraw] at hblank ⊢
  exact Text.trim_eq_empty_of_allBlank hblank

/-! ### What the check finds -/

/-- What is wrong with one name when those of `seen` came before. -/
def errorsOf (seen : List String) (name : String) : List NameError :=
  ownNameErrors name ++ if name ≠ "" ∧ name ∈ seen then [.duplicate name] else []

/-- What is wrong with the names at some positions, each error behind its position. -/
def errorsAt (seen : List String) :
    List (Chain.Position × String) → List (Chain.Position × NameError)
  | [] => []
  | (p, name) :: rest => (errorsOf seen name).map (p, ·) ++ errorsAt (name :: seen) rest

/-- Of two errors the one at the earlier action is told first, and of those at one action that
its name is reserved. -/
def NameError.Before (a b : Chain.Position × NameError) : Prop :=
  a.1 < b.1 ∨ a.1 = b.1 ∧ (∃ name, a.2 = .reserved name) ∧ ∃ name, b.2 = .duplicate name

theorem nameErrorsFrom_cons (seen : List String) (name : String) (rest : List String) :
    nameErrorsFrom seen (name :: rest) =
      errorsOf seen name ++ nameErrorsFrom (name :: seen) rest := rfl

/-- The positions aside, these are the errors that the check tells. -/
theorem map_errorsAt : ∀ (seen : List String) (entries : List (Chain.Position × String)),
    (errorsAt seen entries).map (·.2) = nameErrorsFrom seen (entries.map (·.2))
  | _, [] => rfl
  | seen, (p, name) :: rest => by
    rw [errorsAt, List.map_append, List.map_map, map_errorsAt (name :: seen) rest, List.map_cons,
      nameErrorsFrom_cons]
    exact congrArg (· ++ _) (List.map_id _)

section Errors

variable {name : String} {seen : List String} {e : NameError} {p : Chain.Position}

theorem mem_ownNameErrors_iff (hblank : Text.allBlank name = true → name = "") :
    e ∈ ownNameErrors name ↔
      e = .empty ∧ name = "" ∨ e = .reserved name ∧ name ∈ reservedNames := by
  unfold ownNameErrors
  by_cases hempty : name = ""
  · subst hempty
    simp [show Text.allBlank "" = true from rfl, reservedNames]
  · have hnot : Text.allBlank name = false := by
      simpa using mt hblank hempty
    simp [hnot, hempty, and_comm]

theorem mem_errorsOf_iff :
    e ∈ errorsOf seen name ↔
      e ∈ ownNameErrors name ∨ e = .duplicate name ∧ name ≠ "" ∧ name ∈ seen := by
  unfold errorsOf
  split <;> simp_all

/-- Two things can be wrong with one name at most: it is reserved, and it is used twice. -/
theorem pairwise_errorsOf (hblank : Text.allBlank name = true → name = "") :
    (errorsOf seen name).Pairwise
      fun a b => (∃ x, a = .reserved x) ∧ ∃ x, b = .duplicate x := by
  unfold errorsOf ownNameErrors
  cases hcase : Text.allBlank name with
  | true => simp [hblank hcase]
  | false =>
    by_cases hreserved : name ∈ reservedNames <;> by_cases hused : name ≠ "" ∧ name ∈ seen <;>
      simp [hreserved, hused]

/-- An error belongs to one of the names: it is wrong by itself, or it was seen before. -/
theorem mem_errorsAt_iff : ∀ {seen : List String} {entries : List (Chain.Position × String)},
    entries.Pairwise (·.1 < ·.1) →
    ((p, e) ∈ errorsAt seen entries ↔
      ∃ name, (p, name) ∈ entries ∧ (e ∈ ownNameErrors name ∨
        e = .duplicate name ∧ name ≠ "" ∧ (name ∈ seen ∨ ∃ q < p, (q, name) ∈ entries)))
  | seen, [], _ => by simp [errorsAt]
  | seen, (first, used) :: rest, h => by
    obtain ⟨hfirst, hrest⟩ := List.pairwise_cons.mp h
    have hlt : ∀ {q name}, (q, name) ∈ rest → first < q := fun hmem => hfirst _ hmem
    -- no name was used before the first one but those of `seen`
    have hnone : ∀ name, ¬∃ q < first, (q, name) ∈ (first, used) :: rest := by
      rintro name ⟨q, hq, hmem⟩
      rcases List.mem_cons.mp hmem with heq | hmem
      · rw [(Prod.mk.inj heq).1] at hq
        exact lt_irrefl _ hq
      · exact lt_asymm hq (hlt hmem)
    -- for the names after it the first name is one that came before
    have hsome : ∀ name, (p, name) ∈ rest →
        ((name ∈ used :: seen ∨ ∃ q < p, (q, name) ∈ rest) ↔
          (name ∈ seen ∨ ∃ q < p, (q, name) ∈ (first, used) :: rest)) := by
      intro name hmem
      have hp : first < p := hlt hmem
      have hearlier : (∃ q < p, (q, name) ∈ (first, used) :: rest) ↔
          name = used ∨ ∃ q < p, (q, name) ∈ rest := by
        simp [List.mem_cons, and_or_left, exists_or, hp]
      rw [hearlier, List.mem_cons]
      tauto
    rw [errorsAt, List.mem_append, mem_errorsAt_iff hrest]
    constructor
    · rintro (hmem | ⟨name, hname, herror⟩)
      · obtain ⟨e', he, heq⟩ := List.mem_map.mp hmem
        obtain ⟨rfl, rfl⟩ := Prod.mk.inj heq
        refine ⟨used, List.mem_cons_self, (mem_errorsOf_iff.mp he).imp_right ?_⟩
        exact fun ⟨htwice, hne, hseen⟩ => ⟨htwice, hne, .inl hseen⟩
      · rw [hsome name hname] at herror
        exact ⟨name, List.mem_cons_of_mem _ hname, herror⟩
    · rintro ⟨name, hname, herror⟩
      rcases List.mem_cons.mp hname with heq | hname
      · obtain ⟨rfl, rfl⟩ := Prod.mk.inj heq
        refine .inl (List.mem_map_of_mem (mem_errorsOf_iff.mpr (herror.imp_right ?_)))
        exact fun ⟨htwice, hne, hseen⟩ => ⟨htwice, hne, hseen.resolve_right (hnone name)⟩
      · rw [← hsome name hname] at herror
        exact .inr ⟨name, hname, herror⟩

/-- The errors are told in the order of their actions. -/
theorem pairwise_errorsAt : ∀ {seen : List String} {entries : List (Chain.Position × String)},
    entries.Pairwise (·.1 < ·.1) → BlankIsEmpty (entries.map (·.2)) →
      (errorsAt seen entries).Pairwise NameError.Before
  | _, [], _, _ => .nil
  | seen, (p, name) :: rest, h, hblank => by
    obtain ⟨hfirst, hrest⟩ := List.pairwise_cons.mp h
    obtain ⟨hname, hnames⟩ := List.forall_mem_cons.mp hblank
    rw [errorsAt, List.pairwise_append]
    refine ⟨?_, pairwise_errorsAt hrest hnames, fun a ha b hb => .inl ?_⟩
    · exact List.pairwise_map.mpr ((pairwise_errorsOf hname).imp fun hab => .inr ⟨rfl, hab⟩)
    · obtain ⟨e, -, rfl⟩ := List.mem_map.mp ha
      obtain ⟨other, hother, -⟩ := (mem_errorsAt_iff hrest).mp hb
      exact hfirst _ hother

end Errors

namespace Chain

/-- What an action does wrong with its name. -/
inductive Misuse (chain : Chain) (p : Position) : NameError → Prop
  | empty (h : chain.nameAt? p = some "") : Misuse chain p .empty
  | reserved {name : String} (h : chain.nameAt? p = some name) (hname : name ∈ reservedNames) :
    Misuse chain p (.reserved name)
  | duplicate {name : String} {q : Position} (h : chain.nameAt? p = some name)
    (hname : name ≠ "") (hq : chain.nameAt? q = some name) (hlt : q < p) :
    Misuse chain p (.duplicate name)

variable {chain : Chain}

theorem mem_allNames_of_nameAt? {p : Position} {name : String}
    (h : chain.nameAt? p = some name) : name ∈ chain.allNames :=
  chain.map_located ▸ List.mem_map_of_mem (mem_located_iff.mpr h)

/-- The errors in a chain are the misuses of its names. -/
theorem mem_errorsAt_located_iff (hblank : BlankIsEmpty chain.allNames) {p : Position}
    {e : NameError} : (p, e) ∈ errorsAt [] chain.located ↔ chain.Misuse p e := by
  have hown : ∀ {name}, chain.nameAt? p = some name → ∀ e, e ∈ ownNameErrors name ↔
      e = .empty ∧ name = "" ∨ e = .reserved name ∧ name ∈ reservedNames :=
    fun h _ => mem_ownNameErrors_iff (hblank _ (mem_allNames_of_nameAt? h))
  rw [mem_errorsAt_iff chain.pairwise_located]
  simp only [mem_located_iff]
  constructor
  · rintro ⟨name, hname, herror⟩
    rw [hown hname] at herror
    rcases herror with (⟨rfl, rfl⟩ | ⟨rfl, hreserved⟩) | ⟨rfl, hne, hseen⟩
    · exact .empty hname
    · exact .reserved hname hreserved
    · obtain ⟨q, hlt, hq⟩ := hseen.resolve_left List.not_mem_nil
      exact .duplicate hname hne hq hlt
  · intro hmisuse
    cases hmisuse with
    | empty h => exact ⟨"", h, .inl List.mem_cons_self⟩
    | reserved h hreserved => exact ⟨_, h, .inl ((hown h _).mpr (.inr ⟨rfl, hreserved⟩))⟩
    | duplicate h hne hq hlt => exact ⟨_, h, .inr ⟨rfl, hne, .inr ⟨_, hlt, hq⟩⟩⟩

/-- No name is misused exactly if each is one that a step can have and no two actions share
one. -/
theorem forall_not_misuse_iff :
    (∀ p e, ¬chain.Misuse p e) ↔
      (∀ p name, chain.nameAt? p = some name → name ≠ "" ∧ name ∉ reservedNames) ∧
        ∀ p q name, chain.nameAt? p = some name → chain.nameAt? q = some name → p = q := by
  constructor
  · intro h
    have hne : ∀ p name, chain.nameAt? p = some name → name ≠ "" := by
      rintro p _ hname rfl
      exact h p _ (.empty hname)
    have hfree : ∀ p name, chain.nameAt? p = some name → name ∉ reservedNames :=
      fun p name hname hreserved => h p _ (.reserved hname hreserved)
    refine ⟨fun p name hname => ⟨hne p name hname, hfree p name hname⟩, fun p q name hp hq => ?_⟩
    rcases lt_trichotomy p q with hlt | heq | hlt
    · exact absurd (.duplicate hq (hne q name hq) hp hlt) (h q _)
    · exact heq
    · exact absurd (.duplicate hp (hne p name hp) hq hlt) (h p _)
  · rintro ⟨husable, hapart⟩ p e hmisuse
    cases hmisuse with
    | empty h => exact (husable p "" h).1 rfl
    | reserved h hreserved => exact (husable p _ h).2 hreserved
    | duplicate h hne hq hlt => exact hlt.ne (hapart _ p _ hq h)

end Chain

/-! ### How often each error is told -/

/-- How often an error is told for some names when those of `seen` came before. The first use
of a name is no misuse. -/
def NameError.tally (seen names : List String) : NameError → Nat
  | .empty => names.count ""
  | .reserved name => if name ∈ reservedNames then names.count name else 0
  | .duplicate name =>
    if name = "" then 0 else if name ∈ seen then names.count name else names.count name - 1

/-- What is wrong with one name is told once. -/
theorem count_errorsOf {name : String} {seen : List String}
    (hblank : Text.allBlank name = true → name = "") (e : NameError) :
    (errorsOf seen name).count e = if e ∈ errorsOf seen name then 1 else 0 := by
  have hnodup : (errorsOf seen name).Nodup := by
    refine (pairwise_errorsOf hblank).imp ?_
    rintro _ _ ⟨⟨x, rfl⟩, y, rfl⟩
    simp
  exact hnodup.count

theorem count_nameErrorsFrom (e : NameError) : ∀ {seen names : List String},
    BlankIsEmpty names → (nameErrorsFrom seen names).count e = e.tally seen names
  | _, [], _ => by cases e <;> simp [nameErrorsFrom, NameError.tally]
  | seen, name :: rest, hblank => by
    obtain ⟨hname, hrest⟩ := List.forall_mem_cons.mp hblank
    rw [nameErrorsFrom_cons, List.count_append, count_errorsOf hname,
      count_nameErrorsFrom e hrest]
    simp only [mem_errorsOf_iff, mem_ownNameErrors_iff hname]
    cases e with
    | empty => simp [NameError.tally, List.count_cons, Nat.add_comm]
    | reserved x =>
      by_cases hx : x = name
      · subst hx
        by_cases hreserved : x ∈ reservedNames <;>
          simp [NameError.tally, hreserved, Nat.add_comm]
      · simp [NameError.tally, hx, List.count_cons_of_ne (Ne.symm hx)]
    | duplicate x =>
      by_cases hx : x = name
      · subst hx
        by_cases hempty : x = "" <;> by_cases hseen : x ∈ seen <;>
          simp [NameError.tally, hempty, hseen, Nat.add_comm]
      · simp [NameError.tally, hx, List.count_cons_of_ne (Ne.symm hx)]

namespace Flow

/-- **The check finds every misuse.** The flow of a built trigger is accepted exactly if the
names of all its actions, those in the bodies of loops as well, are not empty, not reserved and
pairwise different. What the check tells are the misuses of names, each once: the earlier action
first, and of one action first that its name is reserved. An empty name is told for each action
without one, a reserved name for each action that has it, and a shared name for all but one. -/
theorem check_finds_misuses {document : Json} {trigger : Trigger}
    (h : Trigger.build document = .ok trigger) :
    ((Flow.mk trigger).check = .ok () ↔
        (∀ p name, trigger.chain.nameAt? p = some name →
          name ≠ "" ∧ name ≠ "trigger" ∧ name ≠ "configs") ∧
        ∀ p q name, trigger.chain.nameAt? p = some name →
          trigger.chain.nameAt? q = some name → p = q) ∧
      (∃ errors : List (Chain.Position × NameError),
        (Flow.mk trigger).nameErrors = errors.map (·.2) ∧ errors.Pairwise NameError.Before ∧
        ∀ p e, (p, e) ∈ errors ↔ trigger.chain.Misuse p e) ∧
      (Flow.mk trigger).nameErrors.count .empty = trigger.chain.uses "" ∧
      (∀ name, (Flow.mk trigger).nameErrors.count (.reserved name) =
        if name ∈ reservedNames then trigger.chain.uses name else 0) ∧
      ∀ name, (Flow.mk trigger).nameErrors.count (.duplicate name) =
        if name = "" then 0 else trigger.chain.uses name - 1 := by
  have hblank := Chain.blankIsEmpty_of_buildLink (Trigger.buildLink_of_build h)
  have herrors : (Flow.mk trigger).nameErrors = nameErrorsFrom [] trigger.chain.allNames := rfl
  have hlocated : (Flow.mk trigger).nameErrors =
      (errorsAt [] trigger.chain.located).map (·.2) := by
    rw [map_errorsAt, Chain.map_located, herrors]
  have hmisuse : ∀ p e, (p, e) ∈ errorsAt [] trigger.chain.located ↔ trigger.chain.Misuse p e :=
    fun p e => Chain.mem_errorsAt_located_iff hblank
  have hcount : ∀ e : NameError,
      (Flow.mk trigger).nameErrors.count e = e.tally [] trigger.chain.allNames := by
    intro e
    rw [herrors, count_nameErrorsFrom e hblank]
  refine ⟨?_, ⟨_, hlocated, ?_, hmisuse⟩, ?_, fun name => ?_, fun name => ?_⟩
  · rw [check_eq_ok_iff, hlocated, List.map_eq_nil_iff, List.eq_nil_iff_forall_not_mem]
    simp only [Prod.forall, hmisuse, Chain.forall_not_misuse_iff, reservedNames, List.mem_cons,
      List.not_mem_nil, or_false, not_or]
  · exact pairwise_errorsAt trigger.chain.pairwise_located (Chain.map_located _ ▸ hblank)
  · rw [hcount, NameError.tally, Chain.count_allNames]
  · rw [hcount, NameError.tally, Chain.count_allNames]
  · rw [hcount, NameError.tally, Chain.count_allNames, if_neg List.not_mem_nil]

end Flow

namespace Crowded

def response (name : String) (next : Json) : Json :=
  .obj [("kind", .str "Response"), ("name", .str name), ("nextAction", next),
    ("settings", .obj [("output", .null)])]

/-- A loop with a reserved name over an action without one, and two actions that have the names
from before. -/
def trigger : Json :=
  .obj [("nextAction", .obj [("firstLoopAction", response " a " (response "\t" .null)),
    ("kind", .str "LoopOnItems"), ("name", .str "configs"),
    ("nextAction", response "a" (response "configs" .null)),
    ("settings", .obj [("items", .arr [])])])]

def chain : Chain :=
  .loop ⟨"configs", none⟩ ⟨.arr []⟩
    (.step ⟨"a", none⟩ (.response ⟨.null⟩) (.step ⟨"", none⟩ (.response ⟨.null⟩) .nil))
    (.step ⟨"a", none⟩ (.response ⟨.null⟩) (.step ⟨"configs", none⟩ (.response ⟨.null⟩) .nil))

theorem built : Trigger.build trigger = .ok ⟨.empty, .empty, chain⟩ := by
  have hchain : Chain.buildLink trigger "nextAction" = .ok chain :=
    Chain.build_loop rfl (Chain.build_task rfl (Chain.build_task rfl rfl))
      (Chain.build_task rfl (Chain.build_task rfl rfl))
  show Except.bind (Chain.buildLink trigger "nextAction") _ = _
  rw [hchain]
  rfl

end Crowded

/-- The reserved name is told twice, and once more as a shared one. -/
theorem Flow.check_finds_misuses_crowded :
    Trigger.build Crowded.trigger = .ok ⟨.empty, .empty, Crowded.chain⟩ ∧
      (Flow.mk ⟨.empty, .empty, Crowded.chain⟩).nameErrors =
        [.reserved "configs", .empty, .duplicate "a", .reserved "configs", .duplicate "configs"] ∧
      Crowded.chain.uses "" = 1 ∧ Crowded.chain.uses "configs" = 2 ∧
      Crowded.chain.uses "a" - 1 = 1 := by
  obtain ⟨-, -, hempty, hreserved, hduplicate⟩ := Flow.check_finds_misuses Crowded.built
  exact ⟨Crowded.built, rfl, hempty.symm, (hreserved "configs").symm, (hduplicate "a").symm⟩

end Stepwise
