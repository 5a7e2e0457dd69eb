/-
# Canonical forms

Writing a record puts its fields in the order of their declaration; as a value, it has them
in the order of their keys. Where no two fields share a key, nothing else changes: the same
values stand under the same keys. What is canonical already stays as it is, and so does a
canonical form.

Key theorems: `Named.get?_perm`, `Named.ofList_eq_self`, `Json.canonicalFields_perm`,
`Json.pairwise_canonicalFields`, `Json.get?_canonicalFields`, `Json.canonical_eq_self`,
`Json.canonical_canonical`.
-/
import Mathlib.Data.String.Basic
import Stepwise.Proofs.Trace.Scope

namespace Stepwise

namespace Named

variable {α β : Type}

/-- Where no two entries share a name, their order does not matter to a look-up. -/
theorem get?_perm {entries more : Named α} (h : entries.Perm more) (hnodup : (names entries).Nodup)
    (name : String) : get? entries name = get? more name := by
  have hnodup' : (names more).Nodup := (h.map Prod.fst).nodup_iff.mp hnodup
  cases hmore : get? more name with
  | some a => exact get?_of_mem hnodup (h.mem_iff.mpr (mem_of_get? hmore))
  | none =>
    cases hentries : get? entries name with
    | none => rfl
    | some a =>
      have hmem : (name, a) ∈ more := h.mem_iff.mp (mem_of_get? hentries)
      rw [get?_of_mem hnodup' hmem] at hmore
      contradiction

theorem get?_map (f : α → β) (name : String) : ∀ entries : Named α,
    get? (entries.map fun e => (e.1, f e.2)) name = (get? entries name).map f
  | [] => rfl
  | (n, a) :: rest => by
    by_cases h : n = name
    · simp [get?, h]
    · simp [get?, h, get?_map f name rest]

/-- Entries that share no name are set one after the other to what they are. -/
theorem ofList_eq_self {entries : List (String × α)}
    (h : (names entries).Nodup) : ofList entries = entries := by
  have hfold : ∀ (rest before : Named α), (names (before ++ rest)).Nodup →
      rest.foldl (fun found e => put e.1 e.2 found) before = before ++ rest := by
    intro rest
    induction rest with
    | nil => simp
    | cons e rest ih =>
      intro before hnodup
      have hnew : e.1 ∉ names before := by
        rw [names_append] at hnodup
        intro hmem
        exact (List.nodup_append.mp hnodup).2.2 e.1 hmem e.1 List.mem_cons_self rfl
      rw [List.foldl_cons, put_of_not_mem e.2 hnew, ih]
      · rw [List.append_assoc, List.singleton_append]
      · rw [List.append_assoc, List.singleton_append]
        exact hnodup
  exact hfold entries [] (by simpa using h)

/-- Setting entries one after the other adds no other entries. -/
theorem mem_of_mem_ofList {e : String × α} {entries : List (String × α)}
    (h : e ∈ ofList entries) : e ∈ entries := by
  have hfold : ∀ (rest : List (String × α)) (before : Named α),
      e ∈ rest.foldl (fun found e => put e.1 e.2 found) before → e ∈ before ∨ e ∈ rest := by
    intro rest
    induction rest with
    | nil => exact fun _ h => .inl h
    | cons first rest ih =>
      intro before h
      rcases ih _ h with hput | hrest
      · rcases mem_put hput with rfl | hbefore
        · exact .inr List.mem_cons_self
        · exact .inl hbefore
      · exact .inr (List.mem_cons_of_mem _ hrest)
  exact (hfold entries [] h).resolve_left List.not_mem_nil

end Named

namespace Json

/-! ### Sorted fields -/

theorem insertNew_perm {k : String} (v : Json) : ∀ {fields : Fields},
    k ∉ Named.names fields → (insertNew k v fields).Perm ((k, v) :: fields)
  | [], _ => List.Perm.refl _
  | (l, w) :: rest, h => by
    have hne : k ≠ l := fun he => h (by simp [Named.names, he])
    have hrest : k ∉ Named.names rest := fun hmem => h (List.mem_cons_of_mem _ hmem)
    by_cases hlt : k < l
    · rw [insertNew, if_neg hne, if_pos hlt]
    · rw [insertNew, if_neg hne, if_neg hlt]
      exact ((insertNew_perm v hrest).cons (l, w)).trans (List.Perm.swap ..)

/-- A field that is added has the new key, and all others are those there were. -/
theorem mem_insertNew {k : String} {v : Json} {p : String × Json} : ∀ {fields : Fields},
    p ∈ insertNew k v fields → p = (k, v) ∨ p ∈ fields
  | [], h => .inl (List.mem_singleton.mp h)
  | (l, w) :: rest, h => by
    unfold insertNew at h
    split at h
    · exact .inr h
    · split at h
      · exact List.mem_cons.mp h
      · rcases List.mem_cons.mp h with h | h
        · exact .inr (List.mem_cons.mpr (.inl h))
        · exact (mem_insertNew h).imp_right (List.mem_cons_of_mem _)

/-- Adding a field keeps the keys in order. -/
theorem pairwise_insertNew {k : String} {v : Json} : ∀ {fields : Fields},
    fields.Pairwise (·.1 < ·.1) → (insertNew k v fields).Pairwise (·.1 < ·.1)
  | [], _ => List.pairwise_singleton _ _
  | (l, w) :: rest, h => by
    obtain ⟨hfirst, hrest⟩ := List.pairwise_cons.mp h
    unfold insertNew
    split
    · exact h
    · rename_i hne
      split
      · rename_i hlt
        refine List.pairwise_cons.mpr ⟨fun p hp => ?_, h⟩
        rcases List.mem_cons.mp hp with rfl | hp
        · exact hlt
        · exact lt_trans hlt (hfirst p hp)
      · rename_i hnot
        have hgt : l < k := lt_of_le_of_ne (not_lt.mp hnot) (Ne.symm hne)
        refine List.pairwise_cons.mpr ⟨fun p hp => ?_, pairwise_insertNew hrest⟩
        rcases mem_insertNew hp with rfl | hp
        · exact hgt
        · exact hfirst p hp

/-- A key below all others goes to the front. -/
theorem insertNew_of_lt {k : String} (v : Json) {fields : Fields} (h : ∀ p ∈ fields, k < p.1) :
    insertNew k v fields = (k, v) :: fields := by
  cases fields with
  | nil => rfl
  | cons p rest =>
    have hlt : k < p.1 := h p List.mem_cons_self
    rw [insertNew, if_neg (ne_of_lt hlt), if_pos hlt]

theorem pairwise_canonicalFields : ∀ fields : Fields,
    (canonicalFields fields).Pairwise (·.1 < ·.1)
  | [] => List.Pairwise.nil
  | (_, _) :: rest => by
    rw [canonicalFields]
    exact pairwise_insertNew (pairwise_canonicalFields rest)

/-- Where no two fields share a key, the canonical form holds the same fields. -/
theorem canonicalFields_perm : ∀ {fields : Fields}, (Named.names fields).Nodup →
    (canonicalFields fields).Perm (fields.map fun p => (p.1, p.2.canonical))
  | [], _ => List.Perm.refl _
  | (k, v) :: rest, h => by
    obtain ⟨hnew, hrest⟩ := List.nodup_cons.mp h
    have ih := canonicalFields_perm hrest
    have hnames : k ∉ Named.names (canonicalFields rest) := by
      intro hmem
      have hmap : k ∈ (rest.map fun p => (p.1, p.2.canonical)).map (·.1) :=
        (ih.map Prod.fst).mem_iff.mp hmem
      rw [List.map_map] at hmap
      exact hnew hmap
    rw [canonicalFields, List.map_cons]
    exact (insertNew_perm v.canonical hnames).trans (ih.cons _)

theorem nodup_names_of_pairwise {fields : Fields} (h : fields.Pairwise (·.1 < ·.1)) :
    (Named.names fields).Nodup :=
  (List.pairwise_map.mpr h).imp ne_of_lt

/-- Where no two fields share a key, the canonical value stands under the same key. -/
theorem get?_canonicalFields {fields : Fields} (h : (Named.names fields).Nodup) (k : String) :
    Named.get? (canonicalFields fields) k = (Named.get? fields k).map canonical := by
  have hnodup := nodup_names_of_pairwise (pairwise_canonicalFields fields)
  rw [Named.get?_perm (canonicalFields_perm h) hnodup, Named.get?_map]

theorem canonical_eq_null_iff {v : Json} : v.canonical = .null ↔ v = .null := by
  cases v <;> simp [canonical]

/-! ### Canonical forms stay as they are -/

theorem mem_canonicalFields {p : String × Json} : ∀ {fields : Fields},
    p ∈ canonicalFields fields → ∃ q ∈ fields, p = (q.1, q.2.canonical)
  | (k, v) :: rest, h => by
    rw [canonicalFields] at h
    rcases mem_insertNew h with rfl | h
    · exact ⟨(k, v), List.mem_cons_self, rfl⟩
    · obtain ⟨q, hq, hp⟩ := mem_canonicalFields h
      exact ⟨q, List.mem_cons_of_mem _ hq, hp⟩

theorem canonicalFields_eq_self : ∀ {fields : Fields}, fields.Pairwise (·.1 < ·.1) →
    (∀ p ∈ fields, p.2.canonical = p.2) → canonicalFields fields = fields
  | [], _, _ => rfl
  | (k, v) :: rest, hkeys, hvalues => by
    obtain ⟨hfirst, hrest⟩ := List.pairwise_cons.mp hkeys
    obtain ⟨hv, hvalues⟩ := List.forall_mem_cons.mp hvalues
    rw [canonicalFields, canonicalFields_eq_self hrest hvalues, hv]
    exact insertNew_of_lt v hfirst

mutual

/-- A canonical form is its own canonical form. -/
theorem canonical_canonical : ∀ v : Json, v.canonical.canonical = v.canonical
  | .null | .bool _ | .num _ | .str _ => by simp only [canonical]
  | .arr items => by simp only [canonical, canonicalList_canonicalList items]
  | .obj fields => by
    have hfields := canonicalFields_eq_self (pairwise_canonicalFields fields) fun p hp => by
      obtain ⟨q, hq, rfl⟩ := mem_canonicalFields hp
      exact canonical_canonical_fields fields q hq
    simp only [canonical, hfields]

theorem canonicalList_canonicalList : ∀ items : List Json,
    canonicalList (canonicalList items) = canonicalList items
  | [] => rfl
  | v :: vs => by
    simp only [canonicalList, canonical_canonical v, canonicalList_canonicalList vs]

theorem canonical_canonical_fields : ∀ fields : Fields, ∀ p ∈ fields,
    p.2.canonical.canonical = p.2.canonical
  | (_, v) :: rest, p, hp => by
    rcases List.mem_cons.mp hp with rfl | hp
    · exact canonical_canonical v
    · exact canonical_canonical_fields rest p hp

end

mutual

/-- A canonical value stays as it is. -/
theorem canonical_eq_self : ∀ {v : Json}, v.Canonical → v.canonical = v
  | .null, _ | .bool _, _ | .num _, _ | .str _, _ => by simp only [canonical]
  | .arr items, h => by
    rw [canonical, canonicalList_eq_self (by simpa only [Canonical] using h)]
  | .obj fields, h => by
    obtain ⟨hkeys, hvalues⟩ : fields.Pairwise (·.1 < ·.1) ∧ CanonicalFields fields := by
      simpa only [Canonical] using h
    rw [canonical, canonicalFields_eq_self hkeys (canonical_eq_self_of_mem hvalues)]

theorem canonicalList_eq_self : ∀ {items : List Json},
    CanonicalList items → canonicalList items = items
  | [], _ => rfl
  | v :: vs, h => by
    obtain ⟨hv, hvs⟩ : v.Canonical ∧ CanonicalList vs := by simpa only [CanonicalList] using h
    rw [canonicalList, canonical_eq_self hv, canonicalList_eq_self hvs]

theorem canonical_eq_self_of_mem : ∀ {fields : Fields}, CanonicalFields fields →
    ∀ p ∈ fields, p.2.canonical = p.2
  | (_, v) :: rest, h, p, hp => by
    obtain ⟨hv, hrest⟩ : v.Canonical ∧ CanonicalFields rest := by
      simpa only [CanonicalFields] using h
    rcases List.mem_cons.mp hp with rfl | hp
    · exact canonical_eq_self hv
    · exact canonical_eq_self_of_mem hrest p hp

end

theorem map_canonical_filter {item : Option Json} (h : ∀ v ∈ item, v.canonical = v) :
    (item.filter (· ≠ .null)).map canonical = item.filter (· ≠ .null) := by
  cases item with
  | none => rfl
  | some v =>
    by_cases hnull : v = .null
    · subst hnull
      rfl
    · rw [Option.filter_some_pos (by simpa using hnull), Option.map_some, h v rfl]

end Json
end Stepwise
