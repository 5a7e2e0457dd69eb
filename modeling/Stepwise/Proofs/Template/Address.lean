/-
# Every part of a record can be addressed

A part of a value is reached through the keys of objects and the indices of arrays. Written
out behind the name of a step, in either form of a segment, these make a reference to the
part of what the step put out; as a placeholder it resolves to that part, with its type, and
within a text to the part as it is shown there. Keys may hold points, brackets, quotes and
blanks: a key that the one form does not take is taken by the other.

Key definitions: `Json.HasPart`, `Template.placeholderOf`.

Key theorems: `Json.HasPart.at?_eq`, `View.resolve_placeholderOf`, `View.resolve_embedded`,
`View.resolve_part`.
-/
import Stepwise.Proofs.Template.Spelling

namespace Stepwise

open Template (opening)

/-! ### Parts -/

namespace Json

/-- The value has a part where the segments lead: each is the key of a field, or the index of
an item in decimal. An index is a machine word. -/
inductive HasPart : Json → List String → Json → Prop where
  | here (v : Json) : HasPart v [] v
  | field {fields : Fields} {key : String} {child w : Json} {rest : List String}
      (hchild : Named.get? fields key = some child) (h : HasPart child rest w) :
    HasPart (.obj fields) (key :: rest) w
  | item {items : List Json} {index : UInt64} {child w : Json} {rest : List String}
      (hchild : items[index.toNat]? = some child) (h : HasPart child rest w) :
    HasPart (.arr items) (toString index.toNat :: rest) w

/-- A number in decimal is read as an index. -/
theorem index?_toString {n : Nat} (h : n < 18446744073709551616) :
    index? (toString n) = some n := by
  have hlist : (toString n).toList = Nat.toDigits 10 n := Nat.toList_repr
  have hdigit : ∀ c ∈ Nat.toDigits 10 n, c.isDigit = true := fun c =>
    Nat.isDigit_of_mem_toDigits (by decide) (by decide)
  have hall : ((Nat.toDigits 10 n).isEmpty || !(Nat.toDigits 10 n).all Char.isDigit) = false := by
    rw [Bool.or_eq_false_iff, List.isEmpty_eq_false_iff, Bool.not_eq_false', List.all_eq_true]
    exact ⟨Nat.toDigits_ne_nil, hdigit⟩
  have hvalue : (Nat.toDigits 10 n).foldl (fun n c => 10 * n + (c.toNat - '0'.toNat)) 0 = n :=
    Nat.ofDigitChars_ten_toDigits
  unfold index?
  rw [hlist]
  split
  · rename_i rest heq
    -- No digit is a plus sign.
    have hplus := hdigit '+' (heq ▸ List.mem_cons_self)
    contradiction
  · simp only [hall, hvalue, Bool.false_eq_true, if_false, if_pos h]

theorem HasPart.at?_eq {v w : Json} {segments : List String} (h : v.HasPart segments w) :
    v.at? segments = some w := by
  induction h with
  | here v => rw [at?]
  | field hchild _ ih => rw [at?, child?, hchild, Option.bind_some, ih]
  | @item items index child w rest hchild _ ih =>
    rw [at?, child?, index?_toString index.toNat_lt, Option.bind_some, hchild, Option.bind_some,
      ih]

end Json

/-! ### Placeholders -/

/-- The placeholder of an expression. -/
def Template.placeholderOf (expression : String) : String := "$\x7b" ++ expression ++ "\x7d"

/-- A text with one placeholder, and no other opening, is cut at that placeholder. -/
theorem Template.ofText_embedded {before expression after : String}
    (hbefore : ¬ opening <:+: before.toList) (hafter : ¬ opening <:+: after.toList)
    (hexpression : '}' ∉ expression.toList) :
    ofText (before ++ placeholderOf expression ++ after) =
      ⟨[(before.toList, expression.toList)], after.toList⟩ := by
  have hlist : (before ++ placeholderOf expression ++ after).toList =
      before.toList ++ opening ++ (expression.toList ++ '}' :: after.toList) := by
    have hopen : "$\x7b".toList = opening := rfl
    have hclose : "\x7d".toList = ['}'] := rfl
    simp only [placeholderOf, String.toList_append, hopen, hclose, List.append_assoc,
      List.singleton_append]
  have hplain : Reads ⟨[], after.toList⟩ after.toList := .plain fun l cs heq =>
    absurd ⟨l, cs, heq.symm⟩ hafter
  rw [eq_comm, ← reads_iff, hlist]
  exact hplain.cons hbefore hexpression

namespace View

variable (view : View) {expression : String}

theorem resolve_placeholderOf (hclosing : '}' ∉ expression.toList)
    (hopening : ¬ opening <:+: expression.toList) :
    view.resolve (.str (Template.placeholderOf expression)) =
      view.placeholder expression.toList := by
  have hnone : ¬ opening <:+: "".toList := by decide
  have htext : Template.ofText (Template.placeholderOf expression) =
      ⟨[([], expression.toList)], []⟩ := by
    have hembedded := Template.ofText_embedded hnone hnone hclosing
    rwa [String.empty_append, String.append_empty] at hembedded
  have hwhole := Template.whole?_eq_some_iff.mpr ⟨htext, hopening⟩
  rw [resolve, resolveText, fill, hwhole]

theorem resolve_embedded {before after : String} (hbefore : ¬ opening <:+: before.toList)
    (hafter : ¬ opening <:+: after.toList) (hclosing : '}' ∉ expression.toList)
    (hsome : ¬ (before = "" ∧ after = "")) :
    view.resolve (.str (before ++ Template.placeholderOf expression ++ after)) =
      .str (before ++ Template.shown (view.placeholder expression.toList) ++ after) := by
  have htext := Template.ofText_embedded hbefore hafter hclosing
  have hwhole : (Template.ofText (before ++ Template.placeholderOf expression ++ after)).whole? =
      none := by
    refine Option.eq_none_iff_forall_ne_some.mpr fun e he => hsome ?_
    obtain ⟨heq, -⟩ := Template.whole?_eq_some_iff.mp he
    rw [htext] at heq
    simp only [Template.mk.injEq, List.cons.injEq, Prod.mk.injEq] at heq
    exact ⟨String.toList_eq_nil_iff.mp heq.1.1.1, String.toList_eq_nil_iff.mp heq.2⟩
  rw [resolve, resolveText, fill, hwhole, htext]
  simp only [List.flatMap_cons, List.flatMap_nil, List.append_nil, embedded_eq_shown,
    ← String.toList_append, String.ofList_toList]

/-- What a reference written out refers to, behind the name of a step with a plain output. -/
theorem placeholder_spell {view : View} {root : Reference.Spelled}
    {rest : List Reference.Spelled} {r : StepResult} {v w : Json}
    (hroot : root.segment ≠ configsRoot)
    (hr : Trace.get? view.trace view.path root.segment = some r) (hv : r.output = .value v)
    (hw : v.HasPart (rest.map (·.segment)) w) :
    view.placeholder (Reference.spell (root :: rest)).toList = w := by
  have hpart : r.part? (rest.map (·.segment)) = some w := by
    rw [StepResult.part?, hv]
    exact hw.at?_eq
  have hlooked : Template.lookedUp (Reference.spell (root :: rest)).toList =
      Reference.spell (root :: rest) := by
    rw [Template.lookedUp, Reference.strip_spell, String.ofList_toList]
  have hfind : view.find? (root.segment :: rest.map (·.segment)) = some w := by
    simp only [find?, if_neg hroot, hr, Option.bind_some, hpart]
  rw [placeholder, hlooked, lookup?, Reference.segments?_spell, Option.bind_some, hfind,
    Option.getD_some]

/-- **Every part of a record can be addressed, with its type.** The name of a step and the
segments that lead to the part, each in either form, make a placeholder that resolves to the
part; within any text it resolves to the part as it is shown. -/
theorem resolve_part {view : View} {root : Reference.Spelled} {rest : List Reference.Spelled}
    {r : StepResult} {v w : Json} (hroot : root.segment ≠ configsRoot)
    (hr : Trace.get? view.trace view.path root.segment = some r) (hv : r.output = .value v)
    (hw : v.HasPart (rest.map (·.segment)) w) :
    let placeholder := Template.placeholderOf (Reference.spell (root :: rest))
    view.resolve (.str placeholder) = w ∧
      ∀ before after : String, ¬ opening <:+: before.toList → ¬ opening <:+: after.toList →
        ¬ (before = "" ∧ after = "") →
          view.resolve (.str (before ++ placeholder ++ after)) =
            .str (before ++ Template.shown w ++ after) := by
  have hclosing := Reference.closing_not_mem_spell root rest
  have hopening := Reference.opening_not_infix_spell root rest
  have hplaceholder := placeholder_spell hroot hr hv hw
  refine ⟨?_, fun before after hbefore hafter hsome => ?_⟩
  · rw [view.resolve_placeholderOf hclosing hopening, hplaceholder]
  · rw [view.resolve_embedded hbefore hafter hclosing hsome, hplaceholder]

/-- A value whose keys hold the marks of references. -/
def markedKeys : Json := .obj [("a.b", .arr [.null, .obj [(" [x", .bool true)]])]

theorem resolve_part_markedKeys :
    let view : View := ⟨[("fetch", .succeed .null markedKeys)], [], []⟩
    markedKeys.HasPart ["a.b", "1", " [x"] (.bool true) ∧
      view.resolve (.str "$\x7bfetch[\"a.b\"].1[\" [x\"]\x7d") = .bool true ∧
      view.resolve (.str "is $\x7bfetch[\"a.b\"].1[\" [x\"]\x7d\x7d") = .str "is true\x7d" := by
  intro view
  have hpart : markedKeys.HasPart ["a.b", "1", " [x"] (.bool true) :=
    .field rfl (@Json.HasPart.item _ 1 _ _ _ rfl (.field rfl (.here _)))
  let root : Reference.Spelled := ⟨.plain, "fetch", by decide, by decide, by decide, by decide⟩
  let rest : List Reference.Spelled :=
    [⟨.quoted, "a.b", by decide, by decide, by decide, by decide⟩,
      ⟨.plain, "1", by decide, by decide, by decide, by decide⟩,
      ⟨.quoted, " [x", by decide, by decide, by decide, by decide⟩]
  have hspell : Template.placeholderOf (Reference.spell (root :: rest)) =
      "$\x7bfetch[\"a.b\"].1[\" [x\"]\x7d" := by decide +kernel
  obtain ⟨halone, hwithin⟩ := @resolve_part view root rest _ _ _ (by decide) rfl rfl hpart
  rw [hspell] at halone hwithin
  exact ⟨hpart, halone, hwithin "is " "\x7d" (by decide) (by decide) (by decide)⟩

end View
end Stepwise
