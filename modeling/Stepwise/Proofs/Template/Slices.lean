/-
# Placeholders found by search

A text can also be taken apart by search: for the next opening, in what follows for the next
closing brace, and so on behind it. Its references are found in this way by one loop, and the
text with its placeholders filled in by another; that it is a single placeholder is seen at
its two ends. The three agree with the template of the text.

Key definitions: `Slices.next?`, `Slices.references`, `Slices.filled`, `Slices.single?`.

Key theorems: `Slices.references_eq`, `Slices.single?_eq`, `Slices.resolveText_eq`.
-/
import Stepwise.Proofs.Template.Grammar

namespace Stepwise
namespace Slices

open Template (opening textFrom ofText lookedUp hasOpening)

/-- A text in front of the first place where a mark stands in it, and behind that place. -/
def cut? (mark : List Char) : List Char → Option (List Char × List Char)
  | [] => none
  | c :: cs =>
    match mark.isPrefixOf? (c :: cs) with
    | some after => some ([], after)
    | none => (cut? mark cs).map fun p => (c :: p.1, p.2)

/-- The first placeholder in a text: what stands before it, its expression, and what stands
behind it. -/
def next? (cs : List Char) : Option (List Char × List Char × List Char) :=
  (cut? opening cs).bind fun p => (cut? ['}'] p.2).map fun q => (p.1, q)

/-! ### What a search finds -/

theorem cut?_eq_none {mark : List Char} (hmark : mark ≠ []) : ∀ {cs : List Char},
    cut? mark cs = none → ¬ mark <:+: cs
  | [], _ => fun h => hmark (List.infix_nil.mp h)
  | c :: cs, h => by
    unfold cut? at h
    split at h
    · contradiction
    · rename_i hhere
      intro hinfix
      rcases List.infix_cons_iff.mp hinfix with hprefix | hinfix
      · obtain ⟨after, hafter⟩ := hprefix
        rw [List.isPrefixOf?_eq_some_iff_append_eq.mpr hafter] at hhere
        contradiction
      · exact cut?_eq_none hmark (Option.map_eq_none_iff.mp h) hinfix

/-- A cut is at the first place of the mark. -/
theorem cut?_eq_some {mark : List Char} (hmark : mark ≠ []) : ∀ {cs before after : List Char},
    cut? mark cs = some (before, after) → cs = before ++ mark ++ after ∧ ¬ mark <:+: before
  | [], _, _, h => nomatch h
  | c :: cs, before, after, h => by
    unfold cut? at h
    split at h
    · rename_i tail htail
      cases h
      exact ⟨(List.isPrefixOf?_eq_some_iff_append_eq.mp htail).symm,
        fun h => hmark (List.infix_nil.mp h)⟩
    · rename_i hhere
      obtain ⟨⟨l, tail⟩, hp, heq⟩ := Option.map_eq_some_iff.mp h
      cases heq
      obtain ⟨rfl, hl⟩ := cut?_eq_some hmark hp
      refine ⟨rfl, fun hinfix => ?_⟩
      rcases List.infix_cons_iff.mp hinfix with hprefix | hinfix
      · obtain ⟨u, hu⟩ := hprefix
        have hfound : mark ++ (u ++ mark ++ tail) = c :: (l ++ mark ++ tail) := by
          rw [← List.append_assoc, ← List.append_assoc, hu]
          rfl
        rw [List.isPrefixOf?_eq_some_iff_append_eq.mpr hfound] at hhere
        contradiction
      · exact hl hinfix

theorem not_mem_of_not_infix {c : Char} {cs : List Char} (h : ¬ [c] <:+: cs) : c ∉ cs := by
  intro hc
  obtain ⟨before, after, rfl⟩ := List.append_of_mem hc
  exact h ⟨before, after, by simp⟩

theorem opening_ne_nil : opening ≠ [] := List.cons_ne_nil _ _

/-- The first placeholder, as it stands in the text. -/
theorem next?_eq_some {cs before expression rest : List Char}
    (h : next? cs = some (before, expression, rest)) :
    cs = before ++ opening ++ (expression ++ '}' :: rest) ∧ ¬ opening <:+: before ∧
      '}' ∉ expression := by
  obtain ⟨⟨l, after⟩, hcut, hmap⟩ := Option.bind_eq_some_iff.mp h
  obtain ⟨⟨e, tail⟩, hclose, heq⟩ := Option.map_eq_some_iff.mp hmap
  cases heq
  obtain ⟨rfl, hbefore⟩ := cut?_eq_some opening_ne_nil hcut
  obtain ⟨rfl, hexpression⟩ := cut?_eq_some (List.cons_ne_nil _ _) hclose
  exact ⟨by simp, hbefore, not_mem_of_not_infix hexpression⟩

theorem next?_shorter {cs before expression rest : List Char}
    (h : next? cs = some (before, expression, rest)) : rest.length < cs.length := by
  obtain ⟨rfl, -, -⟩ := next?_eq_some h
  simp only [List.length_append, List.length_cons]
  omega

/-- Where a placeholder is found, the template begins with it. -/
theorem textFrom_of_next? {cs before expression rest : List Char}
    (h : next? cs = some (before, expression, rest)) :
    textFrom [] cs = (textFrom [] rest).cons before expression := by
  obtain ⟨rfl, hbefore, hexpression⟩ := next?_eq_some h
  exact Template.textFrom_placeholder hbefore hexpression rest

/-- Where none is found, the template is all text. -/
theorem textFrom_of_next?_eq_none {cs : List Char} (h : next? cs = none) :
    textFrom [] cs = ⟨[], cs⟩ := by
  cases hcut : cut? opening cs with
  | none => exact Template.textFrom_of_not_infix (cut?_eq_none opening_ne_nil hcut) []
  | some p =>
    obtain ⟨before, after⟩ := p
    obtain ⟨rfl, hbefore⟩ := cut?_eq_some opening_ne_nil hcut
    have hclose : cut? ['}'] after = none := by
      rw [next?, hcut] at h
      exact Option.map_eq_none_iff.mp h
    have hafter := not_mem_of_not_infix (cut?_eq_none (List.cons_ne_nil _ _) hclose)
    rw [Template.textFrom_opening hbefore, Template.placeholderFrom_open hafter,
      List.append_nil, List.reverse_reverse]
    rfl

/-! ### References -/

/-- The references in a text: what its placeholders look up, the blank ones left out. -/
def references (cs : List Char) : List String :=
  match _h : next? cs with
  | none => []
  | some (_, expression, rest) =>
    if lookedUp expression = "" then references rest
    else lookedUp expression :: references rest
termination_by cs.length
decreasing_by all_goals exact next?_shorter _h

/-- They are the references of the template. -/
theorem references_eq (cs : List Char) : references cs = (textFrom [] cs).references := by
  rw [references]
  split
  · rename_i hnone
    rw [textFrom_of_next?_eq_none hnone]
    rfl
  · rename_i before expression rest hsome
    rw [textFrom_of_next? hsome, references_eq rest, Template.references, Template.references,
      Template.cons, List.map_cons, List.filter_cons]
    by_cases hblank : lookedUp expression = ""
    · rw [if_pos hblank, if_neg (by simp [hblank])]
    · rw [if_neg hblank, if_pos (decide_eq_true hblank)]
termination_by cs.length
decreasing_by exact next?_shorter ‹_›

/-! ### Filling in -/

/-- A text with the values of its placeholders. -/
def filled (value : List Char → Json) (cs : List Char) : List Char :=
  match _h : next? cs with
  | none => cs
  | some (before, expression, rest) =>
    before ++ View.embedded (value expression) ++ filled value rest
termination_by cs.length
decreasing_by exact next?_shorter _h

theorem filled_eq (value : List Char → Json) (cs : List Char) : filled value cs =
    (textFrom [] cs).parts.flatMap (fun p => p.1 ++ View.embedded (value p.2)) ++
      (textFrom [] cs).rest := by
  rw [filled]
  split
  · rename_i hnone
    rw [textFrom_of_next?_eq_none hnone]
    rfl
  · rename_i before expression rest hsome
    rw [textFrom_of_next? hsome, filled_eq value rest, Template.cons, List.flatMap_cons]
    simp only [List.append_assoc]
termination_by cs.length
decreasing_by exact next?_shorter ‹_›

/-- The expression of a text that begins with an opening and ends with a closing brace, with
neither in between. -/
def single? (cs : List Char) : Option (List Char) :=
  ((opening.isPrefixOf? cs).bind (['}'].isSuffixOf? ·)).filter fun e =>
    !(e.contains '}' || hasOpening e)

theorem single?_eq_some_iff {cs e : List Char} : single? cs = some e ↔
    cs = opening ++ (e ++ ['}']) ∧ '}' ∉ e ∧ ¬ opening <:+: e := by
  have hneither : (!(e.contains '}' || hasOpening e)) = true ↔
      '}' ∉ e ∧ ¬ opening <:+: e := by
    rw [Bool.not_eq_true', Bool.or_eq_false_iff, ← Bool.not_eq_true, ← Bool.not_eq_true,
      Template.hasOpening_iff, List.contains_iff_mem]
  rw [single?, Option.filter_eq_some_iff, Option.bind_eq_some_iff, hneither]
  refine and_congr_left fun _ => ?_
  simp only [List.isPrefixOf?_eq_some_iff_append_eq, List.isSuffixOf?_eq_some_iff_append_eq]
  constructor
  · rintro ⟨tail, rfl, rfl⟩
    rfl
  · rintro rfl
    exact ⟨_, rfl, rfl⟩

/-- The two ends show whether the template is a single placeholder. -/
theorem single?_eq (s : String) : single? s.toList = (ofText s).whole? := by
  refine Option.ext fun e => ?_
  have hreads : ofText s = ⟨[([], e)], []⟩ ↔
      s.toList = opening ++ (e ++ ['}']) ∧ '}' ∉ e := by
    rw [eq_comm, ← Template.reads_iff, Template.reads_single_iff]
  rw [single?_eq_some_iff, Template.whole?_eq_some_iff, hreads, and_assoc]

/-- A text resolves by search: to the value of its placeholder if its two ends show that it is
a single one, and else to the text with its placeholders filled in. -/
theorem resolveText_eq (view : View) (s : String) :
    view.resolveText s =
      match single? s.toList with
      | some e => view.placeholder e
      | none => .str (String.ofList (filled view.placeholder s.toList)) := by
  rw [single?_eq, filled_eq]
  rfl

end Slices
end Stepwise
