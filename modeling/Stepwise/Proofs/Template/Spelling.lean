/-
# References written out

A segment has two forms in a reference: as it is, parted from what is before it by a point,
or in brackets and quotes. The first form takes no point, no opening bracket and no blank at
an end; the second takes all of these, but no closing bracket and no quote at an end. A
reference that is written in these forms, mixed at will, is read as its segments: each
delimiter is found where it was put, whatever stands in the segments.

As neither form takes a closing brace, and no segment holds an opening, such a reference can
be the expression of a placeholder, which ends where the reference ends.

Key definitions: `Reference.Form`, `Reference.Spelled`, `Reference.spell`.

Key theorems: `Reference.plainFrom_spelled`, `Reference.strip_spell`,
`Reference.segments?_spell`.
-/
import Mathlib.Data.List.Infix
import Stepwise.Proofs.Template.Grammar
import Stepwise.Proofs.Text.Ends
import Stepwise.Template.Reference

namespace Stepwise

open Template (opening)

/-- Two texts without an opening have none together, unless it stands across their border. -/
theorem Template.not_infix_append : ∀ {cs ds : List Char}, ¬ opening <:+: cs →
    ¬ opening <:+: ds → (cs.getLast? ≠ some '$' ∨ ds.head? ≠ some '{') → ¬ opening <:+: cs ++ ds
  | [], ds, _, hds, _ => hds
  | c :: cs, ds, hcs, hds, hborder => by
    rw [List.cons_append, List.infix_cons_iff, not_or]
    refine ⟨fun hprefix => ?_, not_infix_append (not_infix_of_cons hcs) hds ?_⟩
    · obtain ⟨after, hafter⟩ := hprefix
      cases cs with
      | nil =>
        simp only [opening, List.cons_append, List.nil_append, List.cons.injEq] at hafter
        obtain ⟨rfl, rfl⟩ := hafter
        rcases hborder with hborder | hborder
        · exact hborder rfl
        · exact hborder rfl
      | cons d cs =>
        simp only [opening, List.cons_append, List.nil_append, List.cons.injEq] at hafter
        obtain ⟨rfl, rfl, -⟩ := hafter
        exact hcs ⟨[], cs, rfl⟩
    · cases cs with
      | nil => exact .inl (by simp)
      | cons d cs => simpa [List.getLast?_cons_cons] using hborder

namespace Reference

/-! ### Forms -/

/-- How a segment is written in a reference. -/
inductive Form where
  /-- As it is, with a point before it if it is not the first. -/
  | plain
  /-- In brackets and quotes. -/
  | quoted

/-- What the characters of a segment must be for a form. -/
def Form.Takes : Form → List Char → Prop
  | .plain, cs => ('.' ∉ cs ∧ '[' ∉ cs) ∧ Text.CleanEnds Text.isBlank cs
  | .quoted, cs => ']' ∉ cs ∧ Text.CleanEnds isQuote cs

instance : ∀ (form : Form) (cs : List Char), Decidable (form.Takes cs)
  | .plain, cs => inferInstanceAs (Decidable ((_ ∧ _) ∧ Text.CleanEnds Text.isBlank cs))
  | .quoted, cs => inferInstanceAs (Decidable (_ ∧ Text.CleanEnds isQuote cs))

/-- A segment in a form that takes it, fit for a placeholder. -/
structure Spelled where
  form : Form
  segment : String
  takes : form.Takes segment.toList
  ne_nil : segment.toList ≠ []
  noClosing : '}' ∉ segment.toList
  noOpening : ¬ opening <:+: segment.toList

namespace Spelled

/-- A segment in its form, if it comes first. -/
def first (s : Spelled) : List Char :=
  match s.form with
  | .plain => s.segment.toList
  | .quoted => ['[', '"'] ++ (s.segment.toList ++ ['"', ']'])

/-- A segment in its form, behind another. -/
def next (s : Spelled) : List Char :=
  match s.form with
  | .plain => '.' :: s.first
  | .quoted => s.first

end Spelled

/-- The segments as a reference. -/
def spell : List Spelled → String
  | [] => ""
  | s :: rest => String.ofList (s.first ++ rest.flatMap Spelled.next)

/-! ### Reading -/

/-- Up to a delimiter, a plain segment is taken as it is. -/
theorem plainFrom_append : ∀ {cs : List Char}, '.' ∉ cs → '[' ∉ cs → ∀ current more,
    plainFrom current (cs ++ more) = plainFrom (cs.reverse ++ current) more
  | [], _, _, _, _ => rfl
  | c :: cs, hpoint, hbracket, current, more => by
    obtain ⟨hc, hcs⟩ := List.ne_and_not_mem_of_not_mem_cons hpoint
    obtain ⟨hc', hcs'⟩ := List.ne_and_not_mem_of_not_mem_cons hbracket
    rw [List.cons_append, plainFrom, if_neg (Ne.symm hc), if_neg (Ne.symm hc'),
      plainFrom_append hcs hcs', List.reverse_cons, List.append_assoc]
    rfl

/-- The first closing bracket ends a segment in brackets. -/
theorem bracketFrom_append : ∀ {cs : List Char}, ']' ∉ cs → ∀ inner more,
    bracketFrom inner (cs ++ ']' :: more) =
      (bracketed? (inner.reverse ++ cs)).bind fun s => (plainFrom [] more).map (s :: ·)
  | [], _, inner, more => by
    rw [List.nil_append, bracketFrom, if_pos rfl, List.append_nil]
  | c :: cs, h, inner, more => by
    obtain ⟨hc, hcs⟩ := List.ne_and_not_mem_of_not_mem_cons h
    rw [List.cons_append, bracketFrom, if_neg (Ne.symm hc), bracketFrom_append hcs,
      List.reverse_cons, List.append_assoc]
    rfl

/-- Between quotes, blanks belong to the segment. -/
theorem bracketed?_quoted {cs : List Char} (hcs : cs ≠ []) (h : Text.CleanEnds isQuote cs) :
    bracketed? ('"' :: (cs ++ ['"'])) = some (String.ofList cs) := by
  have hmark : Text.CleanEnds Text.isBlank ['"'] := by decide
  have hblank : Text.CleanEnds Text.isBlank ('"' :: (cs ++ ['"'])) :=
    hmark.around hmark (List.cons_ne_nil _ _) (List.cons_ne_nil _ _) cs
  have hquote : ∀ c ∈ ['"'], isQuote c = true := List.forall_mem_singleton.mpr rfl
  have hinside : Text.stripBy isQuote ('"' :: (cs ++ ['"'])) = cs := by
    show Text.stripBy isQuote (['"'] ++ cs ++ ['"']) = cs
    exact h.stripBy_surrounded hcs hquote hquote
  rw [bracketed?, Text.strip, hblank.stripBy_eq, hinside]
  cases cs with
  | nil => exact absurd rfl hcs
  | cons c cs => rfl

/-- A segment in brackets and quotes ends what is under way, and is read as it is. -/
theorem plainFrom_quoted {cs : List Char} (hcs : cs ≠ []) (h : Form.quoted.Takes cs)
    (current more : List Char) :
    plainFrom current (['[', '"'] ++ (cs ++ ['"', ']']) ++ more) =
      (plainFrom [] more).map fun segments => withPlain current (String.ofList cs :: segments) := by
  obtain ⟨hclose, hquote⟩ := h
  have hinner : ']' ∉ '"' :: (cs ++ ['"']) := by simp [hclose]
  have hopen : ['[', '"'] ++ (cs ++ ['"', ']']) ++ more =
      '[' :: (('"' :: (cs ++ ['"'])) ++ ']' :: more) := by simp
  rw [hopen, plainFrom, if_neg (by decide), if_pos rfl, bracketFrom_append hinner,
    List.reverse_nil, List.nil_append, bracketed?_quoted hcs hquote, Option.bind_some,
    Option.map_map]
  rfl

theorem withPlain_reverse {cs : List Char} (hcs : cs ≠ []) (rest : List String) :
    withPlain cs.reverse rest = String.ofList cs :: rest := by
  unfold withPlain
  split
  · rename_i heq
    exact absurd (List.reverse_eq_nil_iff.mp heq) hcs
  · rw [List.reverse_reverse]

namespace Spelled

/-- A segment that begins where no other is under way is read as it is, up to the delimiter
behind it. -/
theorem plainFrom_first (s : Spelled) {more : List Char} {segments : List String}
    (h : ∀ current, plainFrom current more = some (withPlain current segments)) :
    plainFrom [] (s.first ++ more) = some (s.segment :: segments) := by
  obtain ⟨form, segment, takes, hne, -, -⟩ := s
  have hsegment : String.ofList segment.toList = segment := String.ofList_toList
  cases form with
  | plain =>
    obtain ⟨⟨hpoint, hbracket⟩, -⟩ := takes
    show plainFrom [] (segment.toList ++ more) = _
    rw [plainFrom_append hpoint hbracket, List.append_nil, h, withPlain_reverse hne, hsegment]
  | quoted =>
    show plainFrom [] (['[', '"'] ++ (segment.toList ++ ['"', ']']) ++ more) = _
    rw [plainFrom_quoted hne takes, h, hsegment]
    rfl

/-- What stands before a segment that follows ends there. -/
theorem plainFrom_next (s : Spelled) {more : List Char} {segments : List String}
    (h : ∀ current, plainFrom current more = some (withPlain current segments))
    (current : List Char) :
    plainFrom current (s.next ++ more) = some (withPlain current (s.segment :: segments)) := by
  have hfirst := s.plainFrom_first h
  unfold next
  split
  · rw [List.cons_append, plainFrom, if_pos rfl, hfirst]
    rfl
  · rename_i hform
    -- A bracket ends the segment before it as a point does.
    have hbracket : ∃ cs, s.first = '[' :: cs := ⟨_, by rw [first, hform]; rfl⟩
    obtain ⟨cs, hcs⟩ := hbracket
    rw [hcs, List.cons_append, plainFrom, if_neg (by decide), if_pos rfl] at hfirst ⊢
    have hread : bracketFrom [] (cs ++ more) = some (s.segment :: segments) := by
      simpa [withPlain] using hfirst
    rw [hread]
    rfl

end Spelled

/-- Segments in their forms are read one after the other, behind whatever is under way. -/
theorem plainFrom_spelled : ∀ (spelled : List Spelled) (current : List Char),
    plainFrom current (spelled.flatMap Spelled.next) =
      some (withPlain current (spelled.map (·.segment)))
  | [], current => by rw [List.flatMap_nil, plainFrom, List.map_nil]
  | s :: rest, current => by
    rw [List.flatMap_cons, s.plainFrom_next (plainFrom_spelled rest), List.map_cons]

/-! ### Blanks and braces -/

namespace Spelled

variable (s : Spelled)

theorem first_ne_nil : s.first ≠ [] := by
  unfold first
  split
  · exact s.ne_nil
  · exact List.cons_ne_nil _ _

theorem next_ne_nil : s.next ≠ [] := by
  unfold next
  split
  · exact List.cons_ne_nil _ _
  · exact s.first_ne_nil

theorem cleanEnds_first : Text.CleanEnds Text.isBlank s.first := by
  obtain ⟨form, segment, takes, hne, -, -⟩ := s
  cases form with
  | plain => exact takes.2
  | quoted =>
    have hopen : Text.CleanEnds Text.isBlank ['[', '"'] := by decide
    have hclose : Text.CleanEnds Text.isBlank ['"', ']'] := by decide
    exact hopen.around hclose (List.cons_ne_nil _ _) (List.cons_ne_nil _ _) segment.toList

theorem cleanEnds_next : Text.CleanEnds Text.isBlank s.next := by
  have hpoint : Text.CleanEnds Text.isBlank ['.'] := by decide
  unfold next
  split
  · exact hpoint.append s.cleanEnds_first (List.cons_ne_nil _ _) s.first_ne_nil
  · exact s.cleanEnds_first

theorem closing_not_mem_first : '}' ∉ s.first := by
  have hsegment := s.noClosing
  unfold first
  split
  · exact hsegment
  · simp [hsegment]

theorem closing_not_mem_next : '}' ∉ s.next := by
  have hfirst := s.closing_not_mem_first
  unfold next
  split
  · simp [hfirst]
  · exact hfirst

theorem opening_not_infix_first : ¬ opening <:+: s.first := by
  unfold first
  split
  · exact s.noOpening
  · have hopen : ¬ opening <:+: ['[', '"'] := by decide
    have hclose : ¬ opening <:+: ['"', ']'] := by decide
    have hinner := Template.not_infix_append s.noOpening hclose (.inr (by decide))
    exact Template.not_infix_append hopen hinner (.inl (by decide))

theorem opening_not_infix_next : ¬ opening <:+: s.next := by
  have hpoint : ¬ opening <:+: ['.'] := by decide
  unfold next
  split
  · exact Template.not_infix_append hpoint s.opening_not_infix_first (.inl (by decide))
  · exact s.opening_not_infix_first

/-- What follows a segment begins with a point or a bracket. -/
theorem head?_next_ne : s.next.head? ≠ some '{' := by
  unfold next
  split
  · simp
  · rename_i hform
    rw [first, hform]
    simp

end Spelled

/-- What holds of a text in front of spelled segments holds of the whole, if each of the
segments keeps it. -/
theorem append_spelled {P : List Char → Prop}
    (h : ∀ (cs : List Char) (s : Spelled), P cs → P (cs ++ s.next)) :
    ∀ (spelled : List Spelled) {cs : List Char}, P cs → P (cs ++ spelled.flatMap Spelled.next)
  | [], cs, hcs => by rwa [List.flatMap_nil, List.append_nil]
  | s :: rest, cs, hcs => by
    rw [List.flatMap_cons, ← List.append_assoc]
    exact append_spelled h rest (h cs s hcs)

variable (s : Spelled) (rest : List Spelled)

/-- No blank stands at an end of a reference. -/
theorem strip_spell : Text.strip (spell (s :: rest)).toList = (spell (s :: rest)).toList := by
  have hends : (s.first ++ rest.flatMap Spelled.next) ≠ [] ∧
      Text.CleanEnds Text.isBlank (s.first ++ rest.flatMap Spelled.next) := by
    refine append_spelled (P := fun cs => cs ≠ [] ∧ Text.CleanEnds Text.isBlank cs)
      (fun cs s h => ⟨?_, ?_⟩) rest ⟨s.first_ne_nil, s.cleanEnds_first⟩
    · simp [h.1]
    · exact h.2.append s.cleanEnds_next h.1 s.next_ne_nil
  rw [spell, String.toList_ofList]
  exact hends.2.stripBy_eq

theorem closing_not_mem_spell : '}' ∉ (spell (s :: rest)).toList := by
  rw [spell, String.toList_ofList]
  refine append_spelled (P := ('}' ∉ ·)) (fun cs s h => ?_) rest s.closing_not_mem_first
  rw [List.mem_append, not_or]
  exact ⟨h, s.closing_not_mem_next⟩

theorem opening_not_infix_spell : ¬ opening <:+: (spell (s :: rest)).toList := by
  rw [spell, String.toList_ofList]
  exact append_spelled (P := (¬ opening <:+: ·))
    (fun _ s h => Template.not_infix_append h s.opening_not_infix_next (.inr s.head?_next_ne))
    rest s.opening_not_infix_first

/-- **A reference that is written out is read as its segments.** -/
theorem segments?_spell : segments? (spell (s :: rest)) =
    some (s.segment :: rest.map (·.segment)) := by
  rw [segments?, strip_spell, spell, String.toList_ofList,
    s.plainFrom_first (plainFrom_spelled rest)]

end Reference
end Stepwise
