/-
# The one reading of a text

A text is literals and placeholders in turn, and in exactly one way: no literal before a
placeholder holds an opening, no expression holds a closing brace, and after an opening in
the last literal there is no closing brace. The template of a text is this reading
(`Template.reads_iff`), whatever stands in the text: openings inside an expression, dollar
signs and braces on their own, an opening at the end.

A text resolves to what its reading says. The values put in are not read again, and an
opening that nothing closes stays in the text.

Key definitions: `Template.Reads`, `Template.Yields`.

Key theorems: `Template.reads_iff`, `View.yields_fill`, `View.resolve_reading`.
-/
import Mathlib.Data.List.Basic
import Stepwise.Template.Resolve

namespace Stepwise
namespace Template

/-- What opens a placeholder. -/
def opening : List Char := ['$', '{']

/-- The template is a reading of the text: literals and expressions that, with their
openings and closing braces, make up the text. -/
structure Reads (t : Template) (cs : List Char) : Prop where
  text_eq : t.text = cs
  literals : ∀ p ∈ t.parts, ¬ opening <:+: p.1
  expressions : ∀ p ∈ t.parts, '}' ∉ p.2
  /-- No opening in the last literal is followed by a closing brace. -/
  rest : ∀ before after, t.rest = before ++ opening ++ after → '}' ∉ after

/-! ### Openings -/

theorem not_infix_of_cons {c : Char} {cs : List Char} (h : ¬ opening <:+: c :: cs) :
    ¬ opening <:+: cs :=
  fun hcs => h (hcs.trans (List.suffix_cons c cs).isInfix)

/-- Text without an opening, in front of an opening, brings none about: the opening does not
end with the letter it begins with. -/
theorem not_prefix_append {l : List Char} {c : Char} (h : ¬ opening <:+: c :: l)
    (cs : List Char) : ¬ opening <+: c :: (l ++ opening ++ cs) := by
  rintro ⟨after, hafter⟩
  cases l with
  | nil => simp [opening] at hafter
  | cons d l =>
    simp only [opening, List.cons_append, List.nil_append, List.cons.injEq] at hafter
    obtain ⟨rfl, rfl, -⟩ := hafter
    exact h ⟨[], l, rfl⟩

/-- A text holds no opening, or it is a literal up to its first one. -/
theorem exists_first_opening : ∀ cs : List Char, ¬ opening <:+: cs ∨
    ∃ l after, cs = l ++ opening ++ after ∧ ¬ opening <:+: l ∧
      ∀ before tail, cs = before ++ opening ++ tail → tail <:+ after
  | [] => .inl (by simp [opening])
  | c :: cs => by
    by_cases hhere : opening <+: c :: cs
    · obtain ⟨after, hafter⟩ := hhere
      refine .inr ⟨[], after, hafter.symm, by simp [opening], fun before tail htail => ?_⟩
      have hlength : tail.length ≤ after.length := by
        have heq := congrArg List.length (hafter.trans htail)
        simp only [List.length_append] at heq
        omega
      exact List.suffix_of_suffix_length_le (htail ▸ List.suffix_append _ tail)
        (hafter ▸ List.suffix_append _ after) hlength
    · have hnot : ∀ {l : List Char}, ¬ opening <:+: l → c :: l <+: c :: cs →
          ¬ opening <:+: c :: l := fun hl hprefix h =>
        (List.infix_cons_iff.mp h).elim (fun h => hhere (h.trans hprefix)) hl
      rcases exists_first_opening cs with hnone | ⟨l, after, rfl, hl, hfirst⟩
      · exact .inl (hnot hnone (List.prefix_refl _))
      · refine .inr ⟨c :: l, after, rfl, hnot hl ?_, fun before tail htail => ?_⟩
        · rw [List.append_assoc]
          exact List.prefix_append (c :: l) _
        · cases before with
          | nil => exact absurd ⟨tail, htail.symm⟩ hhere
          | cons d before => exact hfirst before tail (List.cons.inj htail).2

/-- The test for an opening finds one exactly if there is one. -/
theorem hasOpening_iff : ∀ cs : List Char, hasOpening cs = true ↔ opening <:+: cs
  | [] => by simp [hasOpening, opening]
  | c :: cs => by
    by_cases hhere : opening <+: c :: cs
    · have hfound : hasOpening (c :: cs) = true := by
        obtain ⟨after, hafter⟩ := hhere
        rw [← hafter]
        rfl
      exact iff_of_true hfound hhere.isInfix
    · have hstep : hasOpening (c :: cs) = hasOpening cs := by
        rw [hasOpening]
        rintro after rfl rfl
        exact hhere ⟨after, rfl⟩
      rw [hstep, hasOpening_iff cs, List.infix_cons_iff]
      exact (or_iff_right hhere).symm

/-! ### One step of the scan -/

/-- Where nothing opens, the scan takes one letter. -/
theorem textFrom_cons {c : Char} {cs : List Char} (h : ¬ opening <+: c :: cs)
    (literal : List Char) : textFrom literal (c :: cs) = textFrom (c :: literal) cs := by
  rw [textFrom]
  rintro after rfl rfl
  exact h ⟨after, rfl⟩

/-- The scan takes a text without an opening as it is. -/
theorem textFrom_of_not_infix : ∀ {cs : List Char}, ¬ opening <:+: cs → ∀ literal,
    textFrom literal cs = ⟨[], literal.reverse ++ cs⟩
  | [], _, literal => by rw [textFrom, List.append_nil]
  | c :: cs, h, literal => by
    rw [textFrom_cons (fun hprefix => h hprefix.isInfix),
      textFrom_of_not_infix (not_infix_of_cons h), List.reverse_cons, List.append_assoc]
    rfl

/-- Up to the first opening the scan takes the text as it is. -/
theorem textFrom_opening : ∀ {l : List Char}, ¬ opening <:+: l → ∀ literal cs,
    textFrom literal (l ++ opening ++ cs) = placeholderFrom (l.reverse ++ literal) [] cs
  | [], _, literal, cs => by rw [opening]; rfl
  | c :: l, h, literal, cs => by
    have hnot : ¬ opening <+: c :: (l ++ opening ++ cs) := not_prefix_append h cs
    rw [List.cons_append, List.cons_append, textFrom_cons hnot,
      textFrom_opening (not_infix_of_cons h), List.reverse_cons, List.append_assoc]
    rfl

/-- The first closing brace ends the placeholder. -/
theorem placeholderFrom_close {literal : List Char} : ∀ {e : List Char}, '}' ∉ e →
    ∀ expression cs, placeholderFrom literal expression (e ++ '}' :: cs) =
      (textFrom [] cs).cons literal.reverse (expression.reverse ++ e)
  | [], _, expression, cs => by
    rw [List.nil_append, placeholderFrom, if_pos rfl, List.append_nil]
  | c :: e, h, expression, cs => by
    obtain ⟨hc, he⟩ := List.ne_and_not_mem_of_not_mem_cons h
    rw [List.cons_append, placeholderFrom, if_neg (Ne.symm hc), placeholderFrom_close he,
      List.reverse_cons, List.append_assoc]
    rfl

/-- An opening that nothing closes is text, with everything after it. -/
theorem placeholderFrom_open {literal : List Char} : ∀ {cs : List Char}, '}' ∉ cs →
    ∀ expression, placeholderFrom literal expression cs =
      ⟨[], literal.reverse ++ opening ++ (expression.reverse ++ cs)⟩
  | [], _, expression => by
    rw [placeholderFrom, List.append_nil, opening, List.append_assoc]
    rfl
  | c :: cs, h, expression => by
    obtain ⟨hc, hcs⟩ := List.ne_and_not_mem_of_not_mem_cons h
    rw [placeholderFrom, if_neg (Ne.symm hc), placeholderFrom_open hcs, List.reverse_cons,
      List.append_assoc expression.reverse]
    rfl

/-! ### The reading -/

/-- The scan reads a literal, a placeholder and then the rest of the text. -/
theorem textFrom_placeholder {l e : List Char} (hl : ¬ opening <:+: l) (he : '}' ∉ e)
    (cs : List Char) :
    textFrom [] (l ++ opening ++ (e ++ '}' :: cs)) = (textFrom [] cs).cons l e := by
  rw [textFrom_opening hl, placeholderFrom_close he, List.append_nil, List.reverse_reverse,
    List.reverse_nil, List.nil_append]

/-- A text in which no placeholder is closed is all literal. -/
theorem textFrom_plain {cs : List Char}
    (h : ∀ before after, cs = before ++ opening ++ after → '}' ∉ after) :
    textFrom [] cs = ⟨[], cs⟩ := by
  rcases exists_first_opening cs with hnone | ⟨l, after, rfl, hl, -⟩
  · exact textFrom_of_not_infix hnone []
  · rw [textFrom_opening hl, placeholderFrom_open (h l after rfl), List.append_nil,
      List.reverse_reverse]
    rfl

/-- No placeholder of a text is closed, or it begins with a literal and a placeholder. -/
theorem plain_or_placeholder (cs : List Char) :
    (∀ before after, cs = before ++ opening ++ after → '}' ∉ after) ∨
      ∃ l e after, cs = l ++ opening ++ (e ++ '}' :: after) ∧ ¬ opening <:+: l ∧ '}' ∉ e := by
  rcases exists_first_opening cs with hnone | ⟨l, after, rfl, hl, hfirst⟩
  · exact .inl fun before after heq => absurd ⟨before, after, heq.symm⟩ hnone
  · by_cases hclosed : '}' ∈ after
    · obtain ⟨e, after, rfl, he⟩ := List.eq_append_cons_of_mem hclosed
      exact .inr ⟨l, e, after, rfl, hl, he⟩
    · exact .inl fun before tail heq htail => hclosed ((hfirst before tail heq).subset htail)

theorem text_cons (l e : List Char) (t : Template) :
    (t.cons l e).text = l ++ opening ++ (e ++ '}' :: t.text) := by
  simp [text, cons, opening]

namespace Reads

/-- A text in which no placeholder is closed reads as one literal. -/
theorem plain {cs : List Char}
    (h : ∀ before after, cs = before ++ opening ++ after → '}' ∉ after) :
    Reads ⟨[], cs⟩ cs :=
  ⟨rfl, List.forall_mem_nil _, List.forall_mem_nil _, h⟩

/-- A literal and a placeholder in front of a text go in front of its reading. -/
theorem cons {t : Template} {l e cs : List Char} (h : t.Reads cs) (hl : ¬ opening <:+: l)
    (he : '}' ∉ e) : (t.cons l e).Reads (l ++ opening ++ (e ++ '}' :: cs)) where
  text_eq := by rw [text_cons, h.text_eq]
  literals := List.forall_mem_cons.mpr ⟨hl, h.literals⟩
  expressions := List.forall_mem_cons.mpr ⟨he, h.expressions⟩
  rest := h.rest

end Reads

/-- The scan gives a reading. -/
theorem reads_textFrom (cs : List Char) : (textFrom [] cs).Reads cs := by
  rcases plain_or_placeholder cs with hplain | ⟨l, e, after, heq, hl, he⟩
  · rw [textFrom_plain hplain]
    exact .plain hplain
  · have hshorter : after.length < cs.length := by
      rw [heq, List.length_append, List.length_append, List.length_append, List.length_cons]
      omega
    rw [heq, textFrom_placeholder hl he]
    exact (reads_textFrom after).cons hl he
termination_by cs.length

/-- There is no other reading. The induction is on the placeholders of the reading, each of
which the scan finds where it stands. -/
theorem textFrom_eq_of_reads : ∀ {parts : List (List Char × List Char)} {rest cs : List Char},
    Reads ⟨parts, rest⟩ cs → textFrom [] cs = ⟨parts, rest⟩
  | [], rest, cs, h => by
    have hrest : rest = cs := h.text_eq
    rw [← hrest]
    exact textFrom_plain h.rest
  | (l, e) :: parts, rest, cs, h => by
    obtain ⟨hl, hliterals⟩ := List.forall_mem_cons.mp h.literals
    obtain ⟨he, hexpressions⟩ := List.forall_mem_cons.mp h.expressions
    have htail : Reads ⟨parts, rest⟩ (text ⟨parts, rest⟩) :=
      ⟨rfl, hliterals, hexpressions, h.rest⟩
    have htext : cs = l ++ opening ++ (e ++ '}' :: text ⟨parts, rest⟩) :=
      h.text_eq.symm.trans (text_cons l e ⟨parts, rest⟩)
    rw [htext, textFrom_placeholder hl he, textFrom_eq_of_reads htail]
    rfl

/-- A text has one reading, the template that it is. -/
theorem reads_iff {t : Template} {s : String} : t.Reads s.toList ↔ t = ofText s := by
  constructor
  · exact fun h => (textFrom_eq_of_reads h).symm
  · rintro rfl
    exact reads_textFrom s.toList

/-- A text reads as a single placeholder if it is one from end to end. -/
theorem reads_single_iff {e cs : List Char} :
    Reads ⟨[([], e)], []⟩ cs ↔ cs = opening ++ (e ++ ['}']) ∧ '}' ∉ e := by
  have hnone : ¬ opening <:+: [] := by simp [opening]
  constructor
  · intro h
    exact ⟨h.text_eq.symm.trans (text_cons [] e ⟨[], []⟩),
      h.expressions _ List.mem_cons_self⟩
  · rintro ⟨rfl, he⟩
    have hempty : Reads ⟨[], []⟩ [] := .plain fun before after h => by simp [opening] at h
    exact hempty.cons hnone he

/-- An opening within a placeholder belongs to its expression, and text after the last closing
brace stays, opening or not. -/
example : ofText "$$\x7ba.$\x7bb\x7d-$\x7bc" =
    ⟨[(['$'], "a.$\x7bb".toList)], "-$\x7bc".toList⟩ := by decide

/-! ### What a reading yields -/

/-- A value within a text: a string as it stands, any other value as compact JSON. -/
def shown : Json → String
  | .str s => s
  | v => v.compact

/-- What a template yields, given what expressions refer to. A placeholder is looked up
without the blanks around its expression and is null if that refers to nothing. -/
inductive Yields (lookup : String → Option Json) : Template → Json → Prop where
  /-- A single placeholder, with no text around it and no opening in its expression, yields
  the value as it is. -/
  | value {e : List Char} (h : ¬ opening <:+: e) :
    Yields lookup ⟨[([], e)], []⟩ ((lookup (lookedUp e)).getD .null)
  /-- Any other template yields a text. -/
  | text {t : Template} (h : ∀ e, t = ⟨[([], e)], []⟩ → opening <:+: e) :
    Yields lookup t <| .str <| String.ofList <|
      t.parts.flatMap (fun p => p.1 ++ (shown ((lookup (lookedUp p.2)).getD .null)).toList) ++
        t.rest

theorem whole?_eq_some_iff {t : Template} {e : List Char} :
    t.whole? = some e ↔ t = ⟨[([], e)], []⟩ ∧ ¬ opening <:+: e := by
  constructor
  · intro h
    unfold whole? at h
    split at h
    · rename_i inner
      by_cases hopening : hasOpening inner
      · rw [if_pos hopening] at h
        contradiction
      · rw [if_neg hopening, Option.some.injEq] at h
        subst h
        exact ⟨rfl, mt (hasOpening_iff inner).mpr hopening⟩
    · contradiction
  · rintro ⟨rfl, hopening⟩
    exact if_neg (mt (hasOpening_iff e).mp hopening)

end Template

namespace View

open Template (Yields shown lookedUp)

theorem embedded_eq_shown (v : Json) : embedded v = (shown v).toList := by
  cases v with
  | str s => rfl
  | _ => exact (String.toList_ofList).symm

/-- Filling a template in gives what it yields. -/
theorem yields_fill (view : View) (t : Template) : t.Yields view.lookup? (view.fill t) := by
  unfold fill
  cases hwhole : t.whole? with
  | some e =>
    obtain ⟨rfl, hopening⟩ := Template.whole?_eq_some_iff.mp hwhole
    exact .value hopening
  | none =>
    have hparts : t.parts.flatMap (fun p => p.1 ++ embedded (view.placeholder p.2)) =
        t.parts.flatMap fun p =>
          p.1 ++ (shown ((view.lookup? (lookedUp p.2)).getD .null)).toList :=
      List.flatMap_congr fun p _ => by rw [embedded_eq_shown, placeholder]
    simp only [hparts]
    refine .text fun e ht => ?_
    by_contra hopening
    rw [Template.whole?_eq_some_iff.mpr ⟨ht, hopening⟩] at hwhole
    contradiction

theorem resolveList_eq_map (view : View) (items : List Json) :
    view.resolveList items = items.map view.resolve := by
  induction items with
  | nil => rfl
  | cons v vs ih => rw [resolveList, ih, List.map_cons]

theorem resolveFields_eq_map (view : View) (fields : Json.Fields) :
    view.resolveFields fields = fields.map fun p => (p.1, view.resolve p.2) := by
  induction fields with
  | nil => rfl
  | cons p rest ih =>
    obtain ⟨k, v⟩ := p
    rw [resolveFields, ih, List.map_cons]

/-- **One reading decides.** A text has exactly one reading, and resolves to what that
yields. Arrays and objects resolve item by item and field by field, under the same keys; any
other value is as it was. -/
theorem resolve_reading (view : View) :
    (∀ s : String, ∃ t : Template, (∀ t' : Template, t'.Reads s.toList ↔ t' = t) ∧
      t.Yields view.lookup? (view.resolve (.str s))) ∧
    (∀ items, view.resolve (.arr items) = .arr (items.map view.resolve)) ∧
    (∀ fields, view.resolve (.obj fields) =
      .obj (fields.map fun p => (p.1, view.resolve p.2))) ∧
    view.resolve .null = .null ∧ (∀ b, view.resolve (.bool b) = .bool b) ∧
    ∀ n, view.resolve (.num n) = .num n := by
  refine ⟨fun s => ⟨.ofText s, fun _ => Template.reads_iff, ?_⟩, fun items => ?_,
    fun fields => ?_, rfl, fun _ => rfl, fun _ => rfl⟩
  · exact view.yields_fill (.ofText s)
  · rw [resolve, resolveList_eq_map]
  · rw [resolve, resolveFields_eq_map]

end View
end Stepwise
