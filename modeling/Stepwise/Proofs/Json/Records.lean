/-
# Decoding what was written

A record is decoded from an object by its keys: a declared field is decoded from the value
under its key, or gets its default if there is none. So what a record decodes to can be told
from the look-ups of its fields, in whatever order they stand, and it is decoded if every
part is. What was decoded, in turn, is made of parts that were.

Key definitions: `Json.Slots.Holds`.
Key theorems: `Json.Slots.exists_of_obj`, `Json.Slots.exists_of_canonical`,
`Json.Slots.required_ok`, `Json.Slots.withDefault_ok`, `Json.Slots.withDefault_option`,
`Json.Slots.withDefault_written`, `Json.Slots.finish_ok`, `Json.Slots.exists_of_record`,
`Json.mapM_ok`.
-/
import Mathlib.Data.List.Forall2
import Stepwise.Json.Decode
import Stepwise.Proofs.Json.Canonical

namespace Stepwise

/-- What succeeds as a whole succeeds in both its parts. -/
theorem exists_of_bind {ε α β : Type} {first : Except ε α} {next : α → Except ε β} {b : β}
    (h : first >>= next = .ok b) : ∃ a, first = .ok a ∧ next a = .ok b := by
  cases first with
  | error e => contradiction
  | ok a => exact ⟨a, rfl, h⟩

theorem exists_of_map {ε α β : Type} {first : Except ε α} {f : α → β} {b : β}
    (h : first.map f = .ok b) : ∃ a, first = .ok a ∧ f a = b := by
  cases first with
  | error e => contradiction
  | ok a => exact ⟨a, rfl, Except.ok.inj h⟩

namespace Json
namespace Slots

variable {α β : Type} {s : Slots} {i : Nat} {v : Json} {a : α}
  {decode : Json → Except DecodeError α}

/-- What the field with number `i` was found to hold, if it was found. -/
def Holds (s : Slots) (i : Nat) (found : Option Json) : Prop :=
  (s.found[i]?.join).map (·.2) = found

theorem map_locate (key : String) : ∀ (n : Nat) (fields : Fields),
    (locate key n fields).map (·.2) = Named.get? fields key
  | _, [] => rfl
  | n, (k, v) :: rest => by
    by_cases h : k = key
    · simp [locate, Named.get?, h]
    · simp [locate, Named.get?, h, map_locate key (n + 1) rest]

/-- A record read from an object holds under each number what stands under the key. In a text,
no declared field may stand twice. -/
theorem exists_of_obj (source : Source) (name : String) (names : List String) (fields : Fields)
    (h : source = .text → duplicate names 0 [] fields = none) :
    ∃ s, of source name names (.obj fields) = .ok s ∧ s.spoilt = none ∧
      ∀ i key, names[i]? = some key → s.Holds i (Named.get? fields key) := by
  refine ⟨_, rfl, ?_, fun i key hkey => ?_⟩
  · show (if source = .text then duplicate names 0 [] fields else none) = none
    by_cases hsource : source = .text
    · rw [if_pos hsource, h hsource]
    · rw [if_neg hsource]
  · show ((names.map fun key => locate key 0 fields)[i]?.join).map (·.2) = _
    rw [List.getElem?_map, hkey, Option.map_some, Option.join_some]
    exact map_locate key 0 fields

/-- A record read from a canonical form holds the canonical values of what was written. -/
theorem exists_of_canonical (fields : Fields) (h : (Named.names fields).Nodup) (name : String)
    (names : List String) :
    ∃ s, of .value name names (Json.obj fields).canonical = .ok s ∧ s.spoilt = none ∧
      ∀ i key, names[i]? = some key → s.Holds i ((Named.get? fields key).map canonical) := by
  obtain ⟨s, hs, hspoilt, hholds⟩ := exists_of_obj .value name names (canonicalFields fields)
    (by simp)
  refine ⟨s, hs, hspoilt, fun i key hkey => ?_⟩
  rw [← get?_canonicalFields h]
  exact hholds i key hkey

theorem optional_of_holds (h : s.Holds i (some v)) (hdecode : decode v = .ok a) :
    s.optional i decode = .ok (some a) := by
  obtain ⟨⟨rank, w⟩, hfound, rfl⟩ := Option.map_eq_some_iff.mp h
  simp only [optional, hfound, hdecode]

theorem optional_of_absent (h : s.Holds i none) : s.optional i decode = .ok none := by
  rw [optional, Option.map_eq_none_iff.mp h]

theorem required_ok (h : s.Holds i (some v)) (hdecode : decode v = .ok a) (name : String) :
    s.required i name decode = .ok a := by
  rw [required, optional_of_holds h hdecode]

theorem withDefault_ok (h : s.Holds i (some v)) (hdecode : decode v = .ok a) (default : α) :
    s.withDefault i default decode = .ok a := by
  rw [withDefault, optional_of_holds h hdecode]
  rfl

theorem withDefault_absent (h : s.Holds i none) (default : α) :
    s.withDefault i default decode = .ok default := by
  rw [withDefault, optional_of_absent h]
  rfl

theorem required_string {text : String} (h : s.Holds i (some (.str text))) (name : String) :
    s.required i name decodeString = .ok text :=
  required_ok h (show decodeString (.str text) = .ok text from rfl) name

theorem decodeValue_canonical (v : Json) : decodeValue v.canonical = .ok v.canonical := by
  rw [decodeValue, canonical_canonical]

theorem required_value (h : s.Holds i (some v.canonical)) (name : String) :
    s.required i name decodeValue = .ok v.canonical :=
  required_ok h (decodeValue_canonical v) name

theorem withDefault_value (h : s.Holds i (some v.canonical)) (default : Json) :
    s.withDefault i default decodeValue = .ok v.canonical :=
  withDefault_ok h (decodeValue_canonical v) default

theorem decodeOption_of_ne_null (h : v ≠ .null) : decodeOption decode v = (decode v).map some := by
  cases v with
  | null => exact absurd rfl h
  | _ => rfl

/-- A null in an optional field counts as nothing. -/
theorem withDefault_option {found : Option Json} (h : s.Holds i (found.map canonical)) :
    s.withDefault i none (decodeOption decodeValue) =
      .ok ((found.filter (· ≠ .null)).map canonical) := by
  cases found with
  | none => exact withDefault_absent h none
  | some v =>
    by_cases hnull : v = .null
    · subst hnull
      exact withDefault_ok h (show decodeOption decodeValue .null = .ok none from rfl) none
    · have hne : v.canonical ≠ .null := fun he => hnull (canonical_eq_null_iff.mp he)
      have hdecode : decodeOption decodeValue v.canonical = .ok (some v.canonical) := by
        rw [decodeOption_of_ne_null hne, decodeValue_canonical]
        rfl
      rw [Option.filter_some_pos (by simpa using hnull)]
      exact withDefault_ok h hdecode none

/-- What is optional and never written as null is there again, or still missing. -/
theorem withDefault_written {write : α → Json} (hwrite : ∀ a, write a ≠ .null)
    (hdecode : ∀ a, decode (write a).canonical = .ok a) {found : Option α}
    (h : s.Holds i ((found.map write).map canonical)) :
    s.withDefault i none (decodeOption decode) = .ok found := by
  cases found with
  | none => exact withDefault_absent h none
  | some a =>
    have hne : (write a).canonical ≠ .null := fun he => hwrite a (canonical_eq_null_iff.mp he)
    have hread : decodeOption decode (write a).canonical = .ok (some a) := by
      rw [decodeOption_of_ne_null hne, hdecode]
      rfl
    exact withDefault_ok h hread none

theorem finish_ok (h : s.spoilt = none) (a : α) (make : α → β) :
    s.finish (.ok a) make = .ok (make a) := by
  simp only [finish, h, both]

/-! ### What was decoded -/

theorem required_eq_ok {name : String} (h : s.required i name decode = .ok a) :
    ∃ v, decode v = .ok a := by
  unfold required optional at h
  cases hfound : s.found[i]?.join with
  | none => simp [hfound] at h
  | some p =>
    cases hdecode : decode p.2 with
    | error e => simp [hfound, hdecode] at h
    | ok b =>
      obtain rfl : b = a := by simpa [hfound, hdecode] using h
      exact ⟨p.2, hdecode⟩

theorem withDefault_eq_ok {default : α} (h : s.withDefault i default decode = .ok a) :
    a = default ∨ ∃ v, decode v = .ok a := by
  unfold withDefault optional at h
  cases hfound : s.found[i]?.join with
  | none =>
    simp only [hfound, Except.map, Option.getD_none, Except.ok.injEq] at h
    exact .inl h.symm
  | some p =>
    cases hdecode : decode p.2 with
    | error e => simp [hfound, hdecode, Except.map] at h
    | ok b =>
      obtain rfl : b = a := by simpa [hfound, hdecode, Except.map] using h
      exact .inr ⟨p.2, hdecode⟩

theorem finish_eq_ok {parts : Except Fault α} {make : α → β} {b : β}
    (h : s.finish parts make = .ok b) : ∃ a, parts = .ok a ∧ make a = b := by
  cases parts with
  | error fault => cases hspoilt : s.spoilt <;> simp [finish, hspoilt, both] at h
  | ok a =>
    cases hspoilt : s.spoilt with
    | none => exact ⟨a, rfl, by simpa [finish, hspoilt, both] using h⟩
    | some fault => simp [finish, hspoilt, both] at h

/-- What was decoded from a record was made of its parts. -/
theorem exists_of_record {slots : Except DecodeError Slots} {parts : Slots → Except Fault α}
    {make : α → β} {b : β} (h : (slots >>= fun s => s.finish (parts s) make) = .ok b) :
    ∃ s a, parts s = .ok a ∧ make a = b := by
  obtain ⟨s, -, hfinish⟩ := exists_of_bind h
  obtain ⟨a, hparts, hmake⟩ := finish_eq_ok hfinish
  exact ⟨s, a, hparts, hmake⟩

end Slots

theorem both_eq_ok {α β : Type} {first : Except Fault α} {second : Except Fault β}
    {p : α × β} (h : both first second = .ok p) : first = .ok p.1 ∧ second = .ok p.2 := by
  obtain ⟨a, b⟩ := p
  cases first <;> cases second <;> simp_all [both]

/-- The items of an array are decoded one by one. -/
theorem mapM_ok {α β : Type} {decode : α → Except DecodeError β} :
    ∀ {items : List α} {decoded : List β},
      List.Forall₂ (fun v a => decode v = .ok a) items decoded → items.mapM decode = .ok decoded
  | _, _, .nil => rfl
  | _, _, .cons h hrest => by
    rw [List.mapM_cons, h, mapM_ok hrest]
    rfl

/-- Whatever was decoded was decoded from an item. -/
theorem exists_of_mapM {α β : Type} {decode : α → Except DecodeError β} :
    ∀ {items : List α} {decoded : List β}, items.mapM decode = .ok decoded →
      ∀ a ∈ decoded, ∃ v, decode v = .ok a
  | [], _, h, a, ha => by
    cases h
    contradiction
  | v :: vs, _, h, a, ha => by
    rw [List.mapM_cons] at h
    obtain ⟨first, hfirst, h⟩ := exists_of_bind h
    obtain ⟨more, hmore, h⟩ := exists_of_bind h
    cases h
    rcases List.mem_cons.mp ha with rfl | ha
    · exact ⟨v, hfirst⟩
    · exact exists_of_mapM hmore a ha

theorem decodeNat_nat (expected : String) {n : Nat} (h : n < 18446744073709551616) :
    decodeNat expected (.nat n) = .ok n := by
  have hrange : 0 ≤ (n : Int) ∧ (n : Int) < 18446744073709551616 := by omega
  simp only [nat, decodeNat, hrange, and_self, if_true, Int.toNat_natCast]

end Json
end Stepwise
