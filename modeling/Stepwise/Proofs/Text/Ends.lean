/-
# Clean ends

A text has clean ends for a sort of characters if none of these stands at either end. Then
nothing of the text is cut off with them, and all of them that stand around it are. What is
left of any text once they are cut off has clean ends, and nothing else is cut off.

Key definition: `Text.CleanEnds`.
Key theorems: `Text.CleanEnds.stripBy_eq`, `Text.CleanEnds.stripBy_surrounded`,
`Text.cleanEnds_stripBy`, `Text.exists_around_stripBy`, `Text.stripBy_around`.
-/
import Mathlib.Data.List.Basic
import Mathlib.Data.List.TakeWhile
import Stepwise.Text.Blank

namespace Stepwise
namespace Text

variable {p : Char → Bool} {cs ds : List Char}

/-- No character of a sort stands at either end. -/
structure CleanEnds (p : Char → Bool) (cs : List Char) : Prop where
  first : ∀ c ∈ cs.head?, p c = false
  last : ∀ c ∈ cs.getLast?, p c = false

theorem all_not_iff {found : Option Char} :
    found.all (fun c => !p c) = true ↔ ∀ c ∈ found, p c = false := by
  cases found with
  | none => simp
  | some c => simp

instance : Decidable (CleanEnds p cs) :=
  decidable_of_iff (cs.head?.all (fun c => !p c) = true ∧ cs.getLast?.all (fun c => !p c) = true)
    ⟨fun h => ⟨all_not_iff.mp h.1, all_not_iff.mp h.2⟩,
      fun h => ⟨all_not_iff.mpr h.first, all_not_iff.mpr h.last⟩⟩

theorem CleanEnds.of_forall (h : ∀ c ∈ cs, p c = false) : CleanEnds p cs where
  first c hc := h c (List.mem_of_mem_head? hc)
  last c hc := h c (List.mem_of_mem_getLast? hc)

/-- What stands between two texts does not matter to the ends. -/
theorem CleanEnds.around (h : CleanEnds p cs) (h' : CleanEnds p ds) (hcs : cs ≠ [])
    (hds : ds ≠ []) (inner : List Char) : CleanEnds p (cs ++ (inner ++ ds)) where
  first := List.head?_append_of_ne_nil cs hcs ▸ h.first
  last := by
    rw [← List.append_assoc, List.getLast?_append_of_ne_nil _ hds]
    exact h'.last

theorem CleanEnds.append (h : CleanEnds p cs) (h' : CleanEnds p ds) (hcs : cs ≠ [])
    (hds : ds ≠ []) : CleanEnds p (cs ++ ds) := h.around h' hcs hds []

theorem dropWhile_eq_self (h : ∀ c ∈ cs.head?, p c = false) : cs.dropWhile p = cs := by
  cases cs with
  | nil => rfl
  | cons c cs => rw [List.dropWhile_cons, h c rfl, if_neg Bool.false_ne_true]

theorem CleanEnds.dropWhile_reverse (h : CleanEnds p cs) :
    cs.reverse.dropWhile p = cs.reverse := by
  refine dropWhile_eq_self ?_
  rw [List.head?_reverse]
  exact h.last

/-- Nothing is cut off clean ends. -/
theorem CleanEnds.stripBy_eq (h : CleanEnds p cs) : stripBy p cs = cs := by
  rw [stripBy, dropWhile_eq_self h.first, h.dropWhile_reverse, List.reverse_reverse]

/-- What stands around clean ends is cut off, if it is all of that sort. -/
theorem CleanEnds.stripBy_surrounded (h : CleanEnds p cs) (hcs : cs ≠ [])
    {before after : List Char} (hbefore : ∀ c ∈ before, p c = true)
    (hafter : ∀ c ∈ after, p c = true) : stripBy p (before ++ cs ++ after) = cs := by
  have hfirst : (before ++ cs ++ after).dropWhile p = cs ++ after := by
    rw [List.append_assoc, List.dropWhile_append_of_pos hbefore]
    refine dropWhile_eq_self ?_
    rw [List.head?_append_of_ne_nil cs hcs]
    exact h.first
  have hreverse : ∀ c ∈ after.reverse, p c = true := fun c hc =>
    hafter c (List.mem_reverse.mp hc)
  have hlast : (cs ++ after).reverse.dropWhile p = cs.reverse := by
    rw [List.reverse_append, List.dropWhile_append_of_pos hreverse, h.dropWhile_reverse]
  rw [stripBy, hfirst, hlast, List.reverse_reverse]

/-- Texts with clean ends, one after the other, have clean ends. -/
theorem CleanEnds.flatMap {α : Type} {f : α → List Char} : ∀ {xs : List α},
    (∀ x ∈ xs, CleanEnds p (f x)) → CleanEnds p (xs.flatMap f)
  | [], _ => .of_forall (List.forall_mem_nil _)
  | x :: xs, h => by
    obtain ⟨hx, hxs⟩ := List.forall_mem_cons.mp h
    have hrest : CleanEnds p (xs.flatMap f) := .flatMap hxs
    rw [List.flatMap_cons]
    by_cases hnil : f x = []
    · rwa [hnil, List.nil_append]
    · by_cases hrestnil : xs.flatMap f = []
      · rwa [hrestnil, List.append_nil]
      · exact hx.append hrest hnil hrestnil

/-! ### What is left -/

variable (p cs)

/-- Only characters of the sort are cut off. -/
theorem exists_around_stripBy : ∃ before after, cs = before ++ stripBy p cs ++ after ∧
    (∀ c ∈ before, p c = true) ∧ ∀ c ∈ after, p c = true := by
  refine ⟨cs.takeWhile p, ((cs.dropWhile p).reverse.takeWhile p).reverse, ?_,
    fun c hc => List.mem_takeWhile_imp hc,
    fun c hc => List.mem_takeWhile_imp (List.mem_reverse.mp hc)⟩
  rw [stripBy, List.append_assoc, ← List.reverse_append, List.takeWhile_append_dropWhile,
    List.reverse_reverse, List.takeWhile_append_dropWhile]

theorem stripBy_subset : stripBy p cs ⊆ cs := by
  obtain ⟨before, after, heq, -, -⟩ := exists_around_stripBy p cs
  intro c hc
  rw [heq]
  exact List.mem_append_left _ (List.mem_append_right _ hc)

/-- None of the sort is left at the ends. -/
theorem cleanEnds_stripBy : CleanEnds p (stripBy p cs) := by
  have hdrop : ∀ ds : List Char, ∀ c ∈ (ds.dropWhile p).head?, p c = false := fun ds c hc => by
    have hhead := List.head?_dropWhile_not p ds
    rw [Option.mem_def.mp hc] at hhead
    exact hhead
  refine ⟨fun c hc => hdrop cs c ?_, fun c hc => hdrop (cs.dropWhile p).reverse c ?_⟩
  · -- The first character that is left is the one at which the first cut stopped.
    have hsuffix := List.dropWhile_suffix p (l := (cs.dropWhile p).reverse)
    obtain ⟨cut, hcut⟩ := hsuffix
    have hfront : cs.dropWhile p = stripBy p cs ++ cut.reverse := by
      rw [stripBy, ← List.reverse_append, hcut, List.reverse_reverse]
    rw [hfront, List.head?_append, Option.mem_def.mp hc]
    rfl
  · rwa [stripBy, List.getLast?_reverse] at hc

variable {p cs}

/-- Nothing is left exactly if all of the text is of the sort. -/
theorem stripBy_eq_nil_iff : stripBy p cs = [] ↔ ∀ c ∈ cs, p c = true := by
  constructor
  · intro h
    obtain ⟨before, after, heq, hbefore, hafter⟩ := exists_around_stripBy p cs
    rw [heq, h, List.append_nil]
    exact List.forall_mem_append.mpr ⟨hbefore, hafter⟩
  · intro h
    rw [stripBy, List.dropWhile_eq_nil_iff.mpr h]
    rfl

/-- More of the sort around a text leaves the same. -/
theorem stripBy_around {before after : List Char} (hbefore : ∀ c ∈ before, p c = true)
    (hafter : ∀ c ∈ after, p c = true) :
    stripBy p (before ++ cs ++ after) = stripBy p cs := by
  by_cases hnil : stripBy p cs = []
  · rw [hnil, stripBy_eq_nil_iff, List.forall_mem_append, List.forall_mem_append]
    exact ⟨⟨hbefore, stripBy_eq_nil_iff.mp hnil⟩, hafter⟩
  · obtain ⟨first, last, heq, hfirst, hlast⟩ := exists_around_stripBy p cs
    have hwider : before ++ cs ++ after =
        (before ++ first) ++ stripBy p cs ++ (last ++ after) := by
      calc before ++ cs ++ after
          = before ++ (first ++ stripBy p cs ++ last) ++ after := by rw [← heq]
        _ = (before ++ first) ++ stripBy p cs ++ (last ++ after) := by
            simp only [List.append_assoc]
    rw [hwider]
    exact (cleanEnds_stripBy p cs).stripBy_surrounded hnil
      (List.forall_mem_append.mpr ⟨hbefore, hfirst⟩)
      (List.forall_mem_append.mpr ⟨hlast, hafter⟩)

end Text
end Stepwise
