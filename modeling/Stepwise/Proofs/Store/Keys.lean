/-
# The keys of the store

The store knows a key of a step under a name that says whose it is: the scope, the
identifier of its owner, and the key, with slashes between them. Scopes never share a
name, and owners whose identifiers hold no slash do not either, so that nothing of one
such owner is seen or overwritten by another. An identifier may hold a slash, though, and
a key may, and then two owners can share a name: they do exactly if the identifier of one
goes on, after a slash, from that of the other.

Key definitions: `IsStorageKey`, `StoreScope.owner`, `GoesOnFrom`.
Key theorems: `slash_cases`, `StoreScope.scopedKey_inj`, `StoreScope.shared_iff_goesOn`.
-/
import Mathlib.Data.List.Basic
import Stepwise.Proofs.Flow.Accepted
import Stepwise.Run.Step

namespace Stepwise

/-- A key that a resolved value can stand for. -/
def IsStorageKey (key : String) : Prop := ∃ resolved, storageKey? resolved = .ok key

theorem isStorageKey_of_notBlank {key : String} (h : Text.allBlank key = false) :
    IsStorageKey key := by
  refine ⟨.str key, ?_⟩
  rw [storageKey?, if_neg (by simp [h])]

/-- An identifier goes on, after a slash, from another one. -/
def GoesOnFrom (longer shorter : String) : Prop := ∃ more, longer = shorter ++ "/" ++ more

theorem GoesOnFrom.slash_mem {longer shorter : String} (h : GoesOnFrom longer shorter) :
    '/' ∈ longer.toList := by
  obtain ⟨more, rfl⟩ := h
  simp

/-- Where two texts that go on after a slash are the same, one of the three: they part at
this slash, or the second goes on past it, or the first does. -/
theorem slash_cases {a b k l : String} (h : a ++ "/" ++ k = b ++ "/" ++ l) :
    (a = b ∧ k = l) ∨ (∃ more, b = a ++ "/" ++ more ∧ k = more ++ "/" ++ l) ∨
      ∃ more, a = b ++ "/" ++ more ∧ l = more ++ "/" ++ k := by
  have hlist : a.toList ++ '/' :: k.toList = b.toList ++ '/' :: l.toList := by
    simpa using congrArg String.toList h
  rcases List.append_eq_append_iff.mp hlist with ⟨between, hb, hk⟩ | ⟨between, ha, hl⟩
  · rcases List.cons_eq_append_iff.mp hk with ⟨rfl, hsame⟩ | ⟨more, rfl, hkey⟩
    · rw [List.append_nil] at hb
      exact .inl ⟨(String.ext hb).symm, String.ext (List.cons.inj hsame).2.symm⟩
    · exact .inr (.inl ⟨String.ofList more, String.ext (by simp [hb]), String.ext (by simp [hkey])⟩)
  · rcases List.cons_eq_append_iff.mp hl with ⟨rfl, hsame⟩ | ⟨more, rfl, hkey⟩
    · rw [List.append_nil] at ha
      exact .inl ⟨String.ext ha, String.ext (List.cons.inj hsame).2⟩
    · exact .inr (.inr ⟨String.ofList more, String.ext (by simp [ha]), String.ext (by simp [hkey])⟩)

namespace StoreScope

/-- The identifier that a scope keeps its keys under. -/
def owner (scope : StoreScope) (flowVersionId executionId : String) : String :=
  match scope with
  | .flow => flowVersionId
  | .run => executionId

/-- What the scope itself puts in front. -/
def root : StoreScope → String
  | .flow => "flows/"
  | .run => "runs/"

theorem scopedKey_eq (scope : StoreScope) (flowVersionId executionId key : String) :
    scope.scopedKey flowVersionId executionId key =
      scope.root ++ (scope.owner flowVersionId executionId ++ "/" ++ key) := by
  cases scope <;> simp [scopedKey, keyPrefix, root, owner, String.append_assoc]

/-- The first letters tell the two scopes apart. -/
theorem eq_of_root_append {first second : StoreScope} {x y : String}
    (h : first.root ++ x = second.root ++ y) : first = second ∧ x = y := by
  have hlist : first.root.toList ++ x.toList = second.root.toList ++ y.toList := by
    rw [← String.toList_append, h, String.toList_append]
  cases first <;> cases second <;> simp [root] at hlist
  · exact ⟨rfl, String.ext hlist⟩
  · exact ⟨rfl, String.ext hlist⟩

variable {first second : StoreScope} {version version' execution execution' key key' : String}

/-- What a shared name says of the two that share it. -/
theorem scopedKey_cases
    (h : first.scopedKey version execution key = second.scopedKey version' execution' key') :
    first = second ∧
      (first.owner version execution = second.owner version' execution' ∧ key = key' ∨
        GoesOnFrom (first.owner version execution) (second.owner version' execution') ∨
        GoesOnFrom (second.owner version' execution') (first.owner version execution)) := by
  rw [scopedKey_eq, scopedKey_eq] at h
  obtain ⟨hscope, hrest⟩ := eq_of_root_append h
  refine ⟨hscope, ?_⟩
  rcases slash_cases hrest with hsame | ⟨more, hsecond, -⟩ | ⟨more, hfirst, -⟩
  · exact .inl hsame
  · exact .inr (.inr ⟨more, hsecond⟩)
  · exact .inr (.inl ⟨more, hfirst⟩)

/-- Owners without a slash in their identifiers share no name. -/
theorem scopedKey_inj (hfirst : '/' ∉ (first.owner version execution).toList)
    (hsecond : '/' ∉ (second.owner version' execution').toList)
    (h : first.scopedKey version execution key = second.scopedKey version' execution' key') :
    first = second ∧ first.owner version execution = second.owner version' execution' ∧
      key = key' := by
  obtain ⟨hscope, hsame | hlonger | hlonger⟩ := scopedKey_cases h
  · exact ⟨hscope, hsame⟩
  · exact absurd hlonger.slash_mem hfirst
  · exact absurd hlonger.slash_mem hsecond

/-- An owner whose identifier goes on from another one shares a name with it. -/
theorem exists_shared {scope : StoreScope}
    (h : GoesOnFrom (scope.owner version' execution') (scope.owner version execution)) :
    ∃ key key', IsStorageKey key ∧ IsStorageKey key' ∧
      scope.scopedKey version execution key = scope.scopedKey version' execution' key' ∧
      key ≠ key' := by
  obtain ⟨more, howner⟩ := h
  refine ⟨more ++ "/" ++ "key", "key", isStorageKey_of_notBlank ?_,
    isStorageKey_of_notBlank (by decide), ?_, ?_⟩
  · have hslash : Text.isBlank '/' = false := by decide
    simp [Text.allBlank, hslash]
  · rw [scopedKey_eq, scopedKey_eq, howner]
    simp only [String.append_assoc]
  · intro he
    have hlength := congrArg String.length he
    simp at hlength

/-- **Whose a key is.** Two keys of the store are the same although the scope, the owner or
the key of the step differs, exactly if the two are of one scope and the identifier of one
owner goes on from that of the other. -/
theorem shared_iff_goesOn (first second : StoreScope)
    (version execution version' execution' : String) :
    (∃ key key', IsStorageKey key ∧ IsStorageKey key' ∧
        first.scopedKey version execution key = second.scopedKey version' execution' key' ∧
        ¬(first = second ∧ first.owner version execution = second.owner version' execution' ∧
          key = key')) ↔
      first = second ∧
        (GoesOnFrom (first.owner version execution) (second.owner version' execution') ∨
          GoesOnFrom (second.owner version' execution') (first.owner version execution)) := by
  constructor
  · rintro ⟨key, key', -, -, hkeys, hdiffer⟩
    obtain ⟨hscope, hsame | hlonger⟩ := scopedKey_cases hkeys
    · exact absurd ⟨hscope, hsame⟩ hdiffer
    · exact ⟨hscope, hlonger⟩
  · rintro ⟨rfl, hlonger | hlonger⟩
    · obtain ⟨key, key', hkey, hkey', hsame, hne⟩ := exists_shared hlonger
      exact ⟨key', key, hkey', hkey, hsame.symm, fun hall => hne hall.2.2.symm⟩
    · obtain ⟨key, key', hkey, hkey', hsame, hne⟩ := exists_shared hlonger
      exact ⟨key, key', hkey, hkey', hsame, fun hall => hne hall.2.2⟩

/-- What one run has stored under a key, another run reads and overwrites under another. -/
theorem shared_by_runs :
    let first := Ledger.job "a" .run
    let second := Ledger.job "a/b" .run
    Job.ofJson "run-1" (Ledger.document "a" .run) = .ok first ∧
      Job.ofJson "run-1" (Ledger.document "a/b" .run) = .ok second ∧
      first.executionId ≠ second.executionId ∧ IsStorageKey "b/c" ∧ IsStorageKey "c" ∧
      StoreScope.run.scopedKey first.flowVersionId first.executionId "b/c" =
        StoreScope.run.scopedKey second.flowVersionId second.executionId "c" :=
  ⟨Ledger.accepted "run-1" "a" .run, Ledger.accepted "run-1" "a/b" .run, by decide,
    isStorageKey_of_notBlank (by decide), isStorageKey_of_notBlank (by decide), by decide⟩

end StoreScope
end Stepwise
