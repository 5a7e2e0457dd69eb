/-
# The segments a reference can have

A segment of a reference is not empty. One that stood between points holds no point and no
opening bracket; one that stood in brackets holds no closing bracket, and no quote stands at
an end of it. Every list of such segments, if it has any, is the segments of some reference:
there each of them stands in brackets and quotes if these take it, and between two points if
not. The points keep the blanks at its ends, which would be cut off at an end of the reference.

A reference has no segments in two cases only. A bracket in it holds nothing but quotes, with
blanks around them; or it is nothing but points, with blanks around them. Which brackets
count is a matter of the scan from the left: an opening bracket inside brackets does not, and
the last one may be left open.

Key definitions: `Reference.IsSegment`, `Reference.enclose`, `Reference.standsInside`,
`Reference.HasHollowBracket`.

Key theorems: `Reference.isSegment_of_plainFrom`, `Reference.segments?_enclose`,
`Reference.plainFrom_eq_none_iff`, `Reference.plainFrom_eq_nil_iff`,
`Reference.segments_of_reference`.
-/
import Mathlib.Data.List.TakeWhile
import Stepwise.Proofs.Template.Spelling

namespace Stepwise
namespace Reference

/-! ### What the scan reads -/

/-- Segments are what the scan finds, if that is any. -/
theorem segments?_eq_filter (expression : String) : segments? expression =
    (plainFrom [] (Text.strip expression.toList)).filter (· ≠ []) := by
  unfold segments?
  cases plainFrom [] (Text.strip expression.toList) with
  | none => rfl
  | some segments => cases segments <;> rfl

/-- The characters of a segment: there are some, and they are fit to stand between points or
in brackets. -/
structure IsSegment (cs : List Char) : Prop where
  ne_nil : cs ≠ []
  form : ('.' ∉ cs ∧ '[' ∉ cs) ∨ (']' ∉ cs ∧ Text.CleanEnds isQuote cs)

/-- What is left of a bracket is a segment. -/
theorem isSegment_of_bracketed? {inner : List Char} {s : String} (hinner : ']' ∉ inner)
    (h : bracketed? inner = some s) : IsSegment s.toList := by
  unfold bracketed? at h
  split at h
  · contradiction
  · rename_i hne
    cases h
    rw [String.toList_ofList]
    have hclose : ']' ∉ Text.stripBy isQuote (Text.strip inner) := fun hmem =>
      hinner (Text.stripBy_subset _ _ (Text.stripBy_subset _ _ hmem))
    exact ⟨hne, .inr ⟨hclose, Text.cleanEnds_stripBy isQuote _⟩⟩

/-- A finished segment in front of segments. -/
theorem forall_mem_withPlain {current : List Char} {segments : List String}
    (hpoint : '.' ∉ current) (hbracket : '[' ∉ current)
    (h : ∀ s ∈ segments, IsSegment s.toList) :
    ∀ s ∈ withPlain current segments, IsSegment s.toList := by
  unfold withPlain
  split
  · exact h
  · rename_i hne
    refine List.forall_mem_cons.mpr ⟨⟨?_, .inl ⟨?_, ?_⟩⟩, h⟩
    · rw [String.toList_ofList]
      exact mt List.reverse_eq_nil_iff.mp hne
    · rwa [String.toList_ofList, List.mem_reverse]
    · rwa [String.toList_ofList, List.mem_reverse]

mutual

/-- Outside brackets, the segment under way holds neither of the characters that end it. -/
theorem isSegment_of_plainFrom : ∀ {cs current : List Char} {segments : List String},
    plainFrom current cs = some segments → '.' ∉ current → '[' ∉ current →
      ∀ s ∈ segments, IsSegment s.toList
  | [], current, segments, h, hpoint, hbracket => by
    -- The end of the text ends the segment under way as a point does.
    cases h
    exact forall_mem_withPlain hpoint hbracket (List.forall_mem_nil _)
  | c :: cs, current, segments, h, hpoint, hbracket => by
    rw [plainFrom] at h
    split at h
    · obtain ⟨rest, hrest, rfl⟩ := Option.map_eq_some_iff.mp h
      exact forall_mem_withPlain hpoint hbracket
        (isSegment_of_plainFrom hrest List.not_mem_nil List.not_mem_nil)
    · rename_i hc
      split at h
      · obtain ⟨rest, hrest, rfl⟩ := Option.map_eq_some_iff.mp h
        exact forall_mem_withPlain hpoint hbracket
          (isSegment_of_bracketFrom hrest List.not_mem_nil)
      · rename_i hc'
        exact isSegment_of_plainFrom h (List.not_mem_cons_of_ne_of_not_mem (Ne.symm hc) hpoint)
          (List.not_mem_cons_of_ne_of_not_mem (Ne.symm hc') hbracket)

/-- Inside brackets, the text under way holds no closing one. -/
theorem isSegment_of_bracketFrom : ∀ {cs inner : List Char} {segments : List String},
    bracketFrom inner cs = some segments → ']' ∉ inner → ∀ s ∈ segments, IsSegment s.toList
  | [], inner, segments, h, hinner => by
    obtain ⟨s, hs, rfl⟩ := Option.map_eq_some_iff.mp h
    exact List.forall_mem_singleton.mpr
      (isSegment_of_bracketed? (mt List.mem_reverse.mp hinner) hs)
  | c :: cs, inner, segments, h, hinner => by
    rw [bracketFrom] at h
    split at h
    · obtain ⟨s, hs, hmore⟩ := Option.bind_eq_some_iff.mp h
      obtain ⟨rest, hrest, rfl⟩ := Option.map_eq_some_iff.mp hmore
      exact List.forall_mem_cons.mpr ⟨isSegment_of_bracketed? (mt List.mem_reverse.mp hinner) hs,
        isSegment_of_plainFrom hrest List.not_mem_nil List.not_mem_nil⟩
    · rename_i hc
      exact isSegment_of_bracketFrom h (List.not_mem_cons_of_ne_of_not_mem (Ne.symm hc) hinner)

end

/-! ### A reference for given segments

The forms of `Spelled` do not do here. A plain segment may have blanks at its ends, and these
would be lost at the ends of a reference; nor need there be another segment to part it from. -/

/-- The characters of a segment, so that they are read back wherever they stand. -/
def enclosed (cs : List Char) : List Char :=
  if Form.quoted.Takes cs then ['[', '"'] ++ (cs ++ ['"', ']']) else '.' :: (cs ++ ['.'])

/-- A reference with the given segments. -/
def enclose (segments : List String) : String :=
  String.ofList (segments.flatMap fun s => enclosed s.toList)

theorem cleanEnds_enclosed (cs : List Char) : Text.CleanEnds Text.isBlank (enclosed cs) := by
  have hopen : Text.CleanEnds Text.isBlank ['[', '"'] := by decide
  have hclose : Text.CleanEnds Text.isBlank ['"', ']'] := by decide
  have hpoint : Text.CleanEnds Text.isBlank ['.'] := by decide
  unfold enclosed
  split
  · exact hopen.around hclose (List.cons_ne_nil _ _) (List.cons_ne_nil _ _) cs
  · exact hpoint.around hpoint (List.cons_ne_nil _ _) (List.cons_ne_nil _ _) cs

/-- An enclosed segment ends what is under way, and is read as it is. -/
theorem plainFrom_enclosed {s : String} (h : IsSegment s.toList) (current more : List Char) :
    plainFrom current (enclosed s.toList ++ more) =
      (plainFrom [] more).map fun segments => withPlain current (s :: segments) := by
  have hs : String.ofList s.toList = s := String.ofList_toList
  unfold enclosed
  split
  · rename_i htakes
    rw [plainFrom_quoted h.ne_nil htakes, hs]
  · rename_i htakes
    obtain ⟨hpoint, hbracket⟩ := h.form.resolve_right htakes
    -- The second point ends the segment; the first one ends what was under way before it.
    have hplain : plainFrom [] (s.toList ++ '.' :: more) =
        (plainFrom [] more).map fun segments => s :: segments := by
      rw [plainFrom_append hpoint hbracket, List.append_nil, plainFrom, if_pos rfl]
      exact Option.map_congr fun segments _ => by rw [withPlain_reverse h.ne_nil, hs]
    rw [List.cons_append, List.append_assoc, List.singleton_append, plainFrom, if_pos rfl,
      hplain, Option.map_map]
    rfl

theorem plainFrom_enclose : ∀ {segments : List String}, (∀ s ∈ segments, IsSegment s.toList) →
    plainFrom [] (segments.flatMap fun s => enclosed s.toList) = some segments
  | [], _ => rfl
  | s :: rest, h => by
    obtain ⟨hs, hrest⟩ := List.forall_mem_cons.mp h
    rw [List.flatMap_cons, plainFrom_enclosed hs, plainFrom_enclose hrest]
    rfl

/-- Segments that are enclosed are read back. -/
theorem segments?_enclose {segments : List String} (hne : segments ≠ [])
    (h : ∀ s ∈ segments, IsSegment s.toList) : segments? (enclose segments) = some segments := by
  have hends : Text.CleanEnds Text.isBlank (segments.flatMap fun s => enclosed s.toList) :=
    .flatMap fun s _ => cleanEnds_enclosed s.toList
  rw [segments?_eq_filter, enclose, String.toList_ofList, Text.strip, hends.stripBy_eq,
    plainFrom_enclose h, Option.filter_some, if_pos (decide_eq_true hne)]

/-- A point and an opening bracket stand in brackets, a closing bracket between points. -/
example : enclose [" \"]", "a.[", "] "] = ". \"].[\"a.[\"].] ." := by decide

/-! ### Brackets that hold nothing -/

/-- Nothing but characters of a sort, and blanks around them. There may be none of either. -/
def OnlyWithinBlanks (p : Char → Bool) (cs : List Char) : Prop :=
  ∃ before within after, cs = before ++ within ++ after ∧
    (∀ c ∈ before, Text.isBlank c = true) ∧ (∀ c ∈ within, p c = true) ∧
    ∀ c ∈ after, Text.isBlank c = true

theorem onlyWithinBlanks_iff {p : Char → Bool} {cs : List Char} :
    OnlyWithinBlanks p cs ↔ ∀ c ∈ Text.strip cs, p c = true := by
  constructor
  · rintro ⟨before, within, after, rfl, hbefore, hwithin, hafter⟩ c hc
    rw [Text.strip, Text.stripBy_around hbefore hafter] at hc
    exact hwithin c (Text.stripBy_subset _ _ hc)
  · intro h
    obtain ⟨before, after, heq, hbefore, hafter⟩ := Text.exists_around_stripBy Text.isBlank cs
    exact ⟨before, _, after, heq, hbefore, h, hafter⟩

/-- Blanks behind do not matter. -/
theorem onlyWithinBlanks_append {p : Char → Bool} {cs blanks : List Char}
    (h : ∀ c ∈ blanks, Text.isBlank c = true) :
    OnlyWithinBlanks p (cs ++ blanks) ↔ OnlyWithinBlanks p cs := by
  have hstrip : Text.strip (cs ++ blanks) = Text.strip cs :=
    Text.stripBy_around (List.forall_mem_nil _) h
  rw [onlyWithinBlanks_iff, onlyWithinBlanks_iff, hstrip]

/-- Neither do they if only the text up to a character is looked at. -/
theorem onlyWithinBlanks_takeWhile {p q : Char → Bool} {cs blanks : List Char}
    (h : ∀ c ∈ blanks, Text.isBlank c = true) :
    OnlyWithinBlanks p ((cs ++ blanks).takeWhile q) ↔ OnlyWithinBlanks p (cs.takeWhile q) := by
  rw [List.takeWhile_append]
  split
  · rename_i hall
    rw [(List.takeWhile_prefix q).eq_of_length hall]
    exact onlyWithinBlanks_append fun c hc => h c ((List.takeWhile_prefix q).subset hc)
  · exact Iff.rfl

/-- Quotes within blanks are what is empty once the blanks are cut off and then the quotes. -/
theorem onlyWithinBlanks_isQuote_iff {inner : List Char} :
    OnlyWithinBlanks isQuote inner ↔ Text.stripBy isQuote (Text.strip inner) = [] := by
  rw [onlyWithinBlanks_iff, Text.stripBy_eq_nil_iff]

theorem bracketed?_eq_none_iff {inner : List Char} :
    bracketed? inner = none ↔ OnlyWithinBlanks isQuote inner := by
  rw [onlyWithinBlanks_isQuote_iff]
  unfold bracketed?
  split
  · rename_i hnil
    exact iff_of_true rfl hnil
  · rename_i hne
    exact iff_of_false (Option.some_ne_none _) hne

/-- Whether a scan stands inside brackets behind a text. Inside, only a closing bracket
counts; outside, only an opening one. -/
def standsInside (inside : Bool) : List Char → Bool
  | [] => inside
  | c :: cs => standsInside (if inside then c != ']' else c == '[') cs

/-- A bracket that opens outside brackets holds nothing but quotes with blanks around them,
up to the next closing bracket or the end. The scan begins inside brackets or outside. -/
def HasHollowBracket (inside : Bool) (cs : List Char) : Prop :=
  ∃ before after, cs = before ++ '[' :: after ∧ standsInside inside before = false ∧
    OnlyWithinBlanks isQuote (after.takeWhile (· ≠ ']'))

theorem not_hasHollowBracket_nil {inside : Bool} : ¬ HasHollowBracket inside [] := by
  rintro ⟨before, after, heq, -⟩
  simp at heq

/-- A hollow bracket opens here, or further on. -/
theorem hasHollowBracket_cons {inside : Bool} {c : Char} {cs : List Char} :
    HasHollowBracket inside (c :: cs) ↔
      (inside = false ∧ c = '[' ∧ OnlyWithinBlanks isQuote (cs.takeWhile (· ≠ ']'))) ∨
        HasHollowBracket (if inside then c != ']' else c == '[') cs := by
  constructor
  · rintro ⟨before, after, heq, houtside, hhollow⟩
    cases before with
    | nil =>
      obtain ⟨rfl, rfl⟩ := List.cons.inj heq
      exact .inl ⟨houtside, rfl, hhollow⟩
    | cons d before =>
      obtain ⟨rfl, rfl⟩ := List.cons.inj heq
      exact .inr ⟨before, after, rfl, houtside, hhollow⟩
  · rintro (⟨rfl, rfl, hhollow⟩ | ⟨before, after, rfl, houtside, hhollow⟩)
    · exact ⟨[], cs, rfl, rfl, hhollow⟩
    · exact ⟨c :: before, after, rfl, houtside, hhollow⟩

/-- Outside brackets, any character but an opening bracket is passed over. -/
theorem hasHollowBracket_outside {c : Char} {cs : List Char} (hc : c ≠ '[') :
    HasHollowBracket false (c :: cs) ↔ HasHollowBracket false cs := by
  have hstep : (if false = true then c != ']' else c == '[') = false := by simp [hc]
  rw [hasHollowBracket_cons, hstep]
  exact or_iff_right fun h => hc h.2.1

theorem hasHollowBracket_open {cs : List Char} : HasHollowBracket false ('[' :: cs) ↔
    OnlyWithinBlanks isQuote (cs.takeWhile (· ≠ ']')) ∨ HasHollowBracket true cs := by
  rw [hasHollowBracket_cons]
  exact or_congr_left ⟨fun h => h.2.2, fun h => ⟨rfl, rfl, h⟩⟩

/-- Inside brackets, any character but a closing bracket is passed over. -/
theorem hasHollowBracket_inside {c : Char} {cs : List Char} (hc : c ≠ ']') :
    HasHollowBracket true (c :: cs) ↔ HasHollowBracket true cs := by
  have hstep : (if true = true then c != ']' else c == '[') = true := by simp [hc]
  rw [hasHollowBracket_cons, hstep]
  exact or_iff_right fun h => Bool.noConfusion h.1

theorem hasHollowBracket_close {cs : List Char} :
    HasHollowBracket true (']' :: cs) ↔ HasHollowBracket false cs := by
  rw [hasHollowBracket_cons]
  exact or_iff_right fun h => Bool.noConfusion h.1

mutual

/-- The scan fails outside brackets exactly if a hollow bracket is still to come. -/
theorem plainFrom_eq_none_iff : ∀ {cs current : List Char},
    plainFrom current cs = none ↔ HasHollowBracket false cs
  | [], _ => iff_of_false (Option.some_ne_none _) not_hasHollowBracket_nil
  | c :: cs, current => by
    rw [plainFrom]
    split
    · rename_i hc
      have hne : c ≠ '[' := hc ▸ by decide
      rw [Option.map_eq_none_iff, plainFrom_eq_none_iff, hasHollowBracket_outside hne]
    · split
      · rename_i hc
        subst hc
        rw [Option.map_eq_none_iff, bracketFrom_eq_none_iff, hasHollowBracket_open,
          List.reverse_nil, List.nil_append]
      · rename_i hc
        rw [plainFrom_eq_none_iff, hasHollowBracket_outside hc]

/-- Inside brackets it fails exactly if these are hollow, or others to come. They hold what was
read of them and what follows up to the closing one. -/
theorem bracketFrom_eq_none_iff : ∀ {cs inner : List Char}, bracketFrom inner cs = none ↔
    OnlyWithinBlanks isQuote (inner.reverse ++ cs.takeWhile (· ≠ ']')) ∨ HasHollowBracket true cs
  | [], inner => by
    rw [bracketFrom, Option.map_eq_none_iff, bracketed?_eq_none_iff, List.takeWhile_nil,
      List.append_nil]
    exact (or_iff_left not_hasHollowBracket_nil).symm
  | c :: cs, inner => by
    rw [bracketFrom]
    split
    · rename_i hc
      subst hc
      have hnone : ((bracketed? inner.reverse).bind fun s => (plainFrom [] cs).map (s :: ·)) =
          none ↔ bracketed? inner.reverse = none ∨ plainFrom [] cs = none := by
        cases bracketed? inner.reverse <;> simp
      rw [hnone, bracketed?_eq_none_iff, plainFrom_eq_none_iff, hasHollowBracket_close,
        List.takeWhile_cons_of_neg (by simp), List.append_nil]
    · rename_i hc
      have hkept : decide (c ≠ ']') = true := decide_eq_true hc
      rw [bracketFrom_eq_none_iff, hasHollowBracket_inside hc, List.takeWhile_cons, if_pos hkept,
        List.reverse_cons, List.append_assoc, List.singleton_append]

end

/-- A hollow bracket stays one with blanks before the text and behind it. -/
theorem hasHollowBracket_blanks_append {cs : List Char} : ∀ {blanks : List Char},
    (∀ c ∈ blanks, Text.isBlank c = true) →
      (HasHollowBracket false (blanks ++ cs) ↔ HasHollowBracket false cs)
  | [], _ => Iff.rfl
  | c :: blanks, h => by
    obtain ⟨hc, hblanks⟩ := List.forall_mem_cons.mp h
    have hne : c ≠ '[' := by
      rintro rfl
      contradiction
    rw [List.cons_append, hasHollowBracket_outside hne, hasHollowBracket_blanks_append hblanks]

theorem hasHollowBracket_append_blanks {blanks : List Char}
    (h : ∀ c ∈ blanks, Text.isBlank c = true) : ∀ {cs : List Char} {inside : Bool},
      HasHollowBracket inside (cs ++ blanks) ↔ HasHollowBracket inside cs
  | [], inside => by
    refine iff_of_false ?_ not_hasHollowBracket_nil
    rintro ⟨before, after, rfl, -⟩
    have hbracket := h '[' (by simp)
    contradiction
  | c :: cs, inside => by
    rw [List.cons_append, hasHollowBracket_cons, hasHollowBracket_cons,
      onlyWithinBlanks_takeWhile h, hasHollowBracket_append_blanks h]

/-- Whether a bracket is hollow does not depend on the blanks around the text. -/
theorem hasHollowBracket_strip {cs : List Char} :
    HasHollowBracket false (Text.strip cs) ↔ HasHollowBracket false cs := by
  obtain ⟨before, after, heq, hbefore, hafter⟩ := Text.exists_around_stripBy Text.isBlank cs
  have hwhole : HasHollowBracket false cs ↔
      HasHollowBracket false (before ++ Text.strip cs ++ after) := iff_of_eq (congrArg _ heq)
  rw [hwhole, hasHollowBracket_append_blanks hafter, hasHollowBracket_blanks_append hbefore]

/-! ### References without segments -/

/-- Inside brackets, there is a segment to come. -/
theorem bracketFrom_ne_nil : ∀ {cs inner : List Char}, bracketFrom inner cs ≠ some []
  | [], inner => by
    rw [bracketFrom]
    cases bracketed? inner.reverse <;> simp
  | c :: cs, inner => by
    rw [bracketFrom]
    split
    · cases bracketed? inner.reverse <;> simp
    · exact bracketFrom_ne_nil

theorem withPlain_eq_nil_iff {current : List Char} {segments : List String} :
    withPlain current segments = [] ↔ current = [] ∧ segments = [] := by
  cases current with
  | nil => exact (and_iff_right rfl).symm
  | cons c current => simp [withPlain]

/-- The scan finds no segment exactly if none is under way and there is nothing but points. -/
theorem plainFrom_eq_nil_iff : ∀ {cs current : List Char},
    plainFrom current cs = some [] ↔ current = [] ∧ ∀ c ∈ cs, c = '.'
  | [], current => by
    rw [plainFrom, Option.some.injEq, withPlain_eq_nil_iff]
    simp
  | c :: cs, current => by
    rw [plainFrom, List.forall_mem_cons]
    split
    · rename_i hc
      rw [Option.map_eq_some_iff]
      simp only [withPlain_eq_nil_iff, exists_eq_right_right, plainFrom_eq_nil_iff, hc, true_and]
      exact and_comm
    · rename_i hc
      refine iff_of_false (fun hnil => ?_) fun h => hc h.2.1
      split at hnil
      · obtain ⟨segments, hsegments, hwith⟩ := Option.map_eq_some_iff.mp hnil
        rw [(withPlain_eq_nil_iff.mp hwith).2] at hsegments
        exact bracketFrom_ne_nil hsegments
      · exact List.cons_ne_nil _ _ (plainFrom_eq_nil_iff.mp hnil).1

theorem segments?_eq_none_iff {expression : String} : segments? expression = none ↔
    plainFrom [] (Text.strip expression.toList) = none ∨
      plainFrom [] (Text.strip expression.toList) = some [] := by
  rw [segments?_eq_filter]
  cases plainFrom [] (Text.strip expression.toList) with
  | none => exact iff_of_true rfl (.inl rfl)
  | some segments => simp

/-- **What segments a reference can have, and when it has none.** A list is the segments of
some reference exactly if it is not empty and each of them is fit to stand between points or
in brackets. A reference has none exactly if some bracket in it is hollow or it is nothing but
points, with blanks around them. -/
theorem segments_of_reference :
    (∀ segments : List String, (∃ expression, segments? expression = some segments) ↔
      segments ≠ [] ∧ ∀ s ∈ segments, IsSegment s.toList) ∧
    ∀ expression : String, segments? expression = none ↔
      HasHollowBracket false expression.toList ∨
        OnlyWithinBlanks (· = '.') expression.toList := by
  refine ⟨fun segments => ⟨?_, ?_⟩, fun expression => ?_⟩
  · rintro ⟨expression, h⟩
    rw [segments?_eq_filter, Option.filter_eq_some_iff, decide_eq_true_iff] at h
    exact ⟨h.2, isSegment_of_plainFrom h.1 List.not_mem_nil List.not_mem_nil⟩
  · rintro ⟨hne, h⟩
    exact ⟨enclose segments, segments?_enclose hne h⟩
  · rw [segments?_eq_none_iff, plainFrom_eq_none_iff, hasHollowBracket_strip,
      plainFrom_eq_nil_iff, onlyWithinBlanks_iff]
    simp

/-- Brackets do not nest, a closing bracket outside is a character like any other, and blanks
inside are kept. -/
example : segments? " [a[b]] .. c] " = some ["a[b", "] ", " c]"] := by decide

/-- Quotes of both sorts count as nothing, but not around a blank. -/
example : segments? "a['\" '']" = some ["a", " "] ∧ segments? "a[ '\"'' " = none := by decide

end Reference
end Stepwise
