/-
# The names of a flow

A flow that is accepted has usable names: none is blank, none is one that references use
for something else, and no two steps share one. The last is asked of the whole flow, so
the names in the body of a loop differ from each other and from all others.

Key definitions: `UsableNames`, `Chain.names`, `Chain.allNames`, `Chain.NamesApart`.
Key theorems: `nameErrorsFrom_eq_nil_iff`, `Flow.usableNames_of_check`,
`Job.usableNames_of_ofJson`, `Chain.namesApart_of_nodup`.
-/
import Stepwise.Proofs.Flow.Accepted

namespace Stepwise

/-- Names that the steps of a flow can have. -/
structure UsableNames (names : List String) : Prop where
  nodup : names.Nodup
  notBlank : ∀ name ∈ names, Text.allBlank name = false
  notReserved : ∀ name ∈ names, name ∉ reservedNames

theorem ownNameErrors_eq_nil_iff (name : String) :
    ownNameErrors name = [] ↔ Text.allBlank name = false ∧ name ∉ reservedNames := by
  unfold ownNameErrors
  cases hblank : Text.allBlank name with
  | true => simp
  | false => by_cases h : name ∈ reservedNames <;> simp [h]

/-- No fault is found in names exactly if they are usable and none was seen before. -/
theorem nameErrorsFrom_eq_nil_iff : ∀ (seen names : List String),
    nameErrorsFrom seen names = [] ↔ UsableNames names ∧ ∀ name ∈ names, name ∉ seen
  | seen, [] => by
    simp only [nameErrorsFrom, List.not_mem_nil, false_implies, implies_true, and_true, true_iff]
    exact ⟨List.nodup_nil, by simp, by simp⟩
  | seen, name :: rest => by
    have ih := nameErrorsFrom_eq_nil_iff (name :: seen) rest
    have hempty : Text.allBlank name = false → name ≠ "" := by
      rintro h rfl
      exact absurd h (by decide)
    simp only [nameErrorsFrom, List.append_eq_nil_iff, ownNameErrors_eq_nil_iff, ih]
    constructor
    · rintro ⟨⟨⟨hblank, hreserved⟩, hseen⟩, hrest, hnew⟩
      have hfresh : name ∉ seen := by
        intro hmem
        simp [hempty hblank, hmem] at hseen
      refine ⟨⟨?_, ?_, ?_⟩, ?_⟩
      · refine List.nodup_cons.mpr ⟨fun hmem => ?_, hrest.nodup⟩
        exact hnew name hmem List.mem_cons_self
      · exact List.forall_mem_cons.mpr ⟨hblank, hrest.notBlank⟩
      · exact List.forall_mem_cons.mpr ⟨hreserved, hrest.notReserved⟩
      · refine List.forall_mem_cons.mpr ⟨hfresh, fun other hmem hother => ?_⟩
        exact hnew other hmem (List.mem_cons_of_mem _ hother)
    · rintro ⟨h, hseen⟩
      obtain ⟨hnot, hnodup⟩ := List.nodup_cons.mp h.nodup
      have hfresh := hseen name List.mem_cons_self
      refine ⟨⟨⟨h.notBlank name List.mem_cons_self, h.notReserved name List.mem_cons_self⟩, ?_⟩,
        ⟨hnodup, ?_, ?_⟩, ?_⟩
      · simp [hfresh]
      · exact fun other hmem => h.notBlank other (List.mem_cons_of_mem _ hmem)
      · exact fun other hmem => h.notReserved other (List.mem_cons_of_mem _ hmem)
      · intro other hmem hother
        rcases List.mem_cons.mp hother with rfl | hother
        · exact hnot hmem
        · exact hseen other (List.mem_cons_of_mem _ hmem) hother

theorem Flow.check_eq_ok_iff {f : Flow} : f.check = .ok () ↔ f.nameErrors = [] := by
  unfold check
  split <;> simp_all

/-- The names of an accepted flow are usable. -/
theorem Flow.usableNames_of_check {f : Flow} (h : f.check = .ok ()) :
    UsableNames (f.actions.map (·.label.name)) :=
  ((nameErrorsFrom_eq_nil_iff [] _).mp (check_eq_ok_iff.mp h)).1

/-- The names of the flow of an accepted job are usable. -/
theorem Job.usableNames_of_ofJson {generated : String} {document : Json} {job : Job}
    (h : ofJson generated document = .ok job) :
    UsableNames (job.flow.actions.map (·.label.name)) := by
  obtain ⟨flow, hflow⟩ := build_of_ofJson h
  exact Flow.usableNames_of_check (Flow.check_of_build hflow)

namespace Chain

/-- The names of the actions of the chain itself, in order. -/
def names (chain : Chain) : List String := chain.topLevel.map (·.label.name)

@[simp] theorem names_nil : names .nil = [] := rfl

@[simp] theorem names_step (label : Label) (task : Task) (rest : Chain) :
    (step label task rest).names = label.name :: rest.names := rfl

@[simp] theorem names_loop (label : Label) (settings : LoopSettings) (body rest : Chain) :
    (loop label settings body rest).names = label.name :: rest.names := rfl

/-- The names of all actions, those of a loop's body after the loop. -/
def allNames (chain : Chain) : List String := chain.walk.map (·.label.name)

@[simp] theorem allNames_nil : allNames .nil = [] := rfl

@[simp] theorem allNames_step (label : Label) (task : Task) (rest : Chain) :
    (step label task rest).allNames = label.name :: rest.allNames := rfl

@[simp] theorem allNames_loop (label : Label) (settings : LoopSettings) (body rest : Chain) :
    (loop label settings body rest).allNames =
      label.name :: (body.allNames ++ rest.allNames) := by
  simp only [allNames, walk, List.cons_append, List.map_cons, List.map_append]

/-- No two actions of one chain share a name, neither here nor in the body of a loop. -/
def NamesApart : Chain → Prop
  | .nil => True
  | .step label _ rest => label.name ∉ rest.names ∧ rest.NamesApart
  | .loop label _ body rest => label.name ∉ rest.names ∧ body.NamesApart ∧ rest.NamesApart

theorem names_subset_allNames : ∀ chain : Chain, chain.names ⊆ chain.allNames
  | .nil => by simp
  | .step label task rest => by
    rw [names_step, allNames_step]
    exact List.cons_subset_cons _ (names_subset_allNames rest)
  | .loop label settings body rest => by
    rw [names_loop, allNames_loop]
    exact List.cons_subset_cons _
      (List.subset_append_of_subset_right _ (names_subset_allNames rest))

/-- Names that differ in the whole flow differ in every chain of it. -/
theorem namesApart_of_nodup : ∀ {chain : Chain}, chain.allNames.Nodup → chain.NamesApart
  | .nil, _ => trivial
  | .step label task rest, h => by
    rw [allNames_step, List.nodup_cons] at h
    exact ⟨fun hmem => h.1 (names_subset_allNames rest hmem), namesApart_of_nodup h.2⟩
  | .loop label settings body rest, h => by
    rw [allNames_loop, List.nodup_cons] at h
    obtain ⟨hbody, hrest, -⟩ := List.nodup_append.mp h.2
    exact ⟨fun hmem => h.1 (List.mem_append_right _ (names_subset_allNames rest hmem)),
      namesApart_of_nodup hbody, namesApart_of_nodup hrest⟩

theorem NamesApart.nodup : ∀ {chain : Chain}, chain.NamesApart → chain.names.Nodup
  | .nil, _ => List.nodup_nil
  | .step _ _ _, h => List.nodup_cons.mpr ⟨h.1, h.2.nodup⟩
  | .loop _ _ _ _, h => List.nodup_cons.mpr ⟨h.1, h.2.2.nodup⟩

end Chain
end Stepwise
