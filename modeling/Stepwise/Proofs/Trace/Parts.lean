/-
# Parts of a loop's output

The output of a loop is read field by field, so that its current item can be had without
turning the whole history into a value. What is found in this way is what the segments
address in the value of the whole summary: the number of the iteration with nothing below it,
the item with all its parts if there is one, the history with every record in it, however
deep, and nothing else.

Key theorems: `LoopSummary.child?_value`, `LoopSummary.part?_eq_at?`,
`StepResult.parts_of_loop`.
-/
import Stepwise.Proofs.Trace.Record
import Stepwise.Proofs.Trace.Sorted

namespace Stepwise

namespace LoopSummary

/-- The fields of a summary as it is written, and no others. -/
theorem exists_written (s : LoopSummary StepResult) :
    ∃ fields, s.written = .obj fields ∧ (Named.names fields).Nodup ∧
      ∀ field, Named.get? fields field =
        if field = "currentIteration" then some (.nat s.currentIteration)
        else if field = "currentItem" then s.currentItem
        else if field = "iterations" then some (.arr (iterationsWritten s.iterations))
        else none := by
  obtain ⟨current, item, iterations⟩ := s
  refine ⟨_, rfl, ?_, fun field => ?_⟩
  · cases item <;> simp [Named.names]
  · cases item with
    | none => by_cases hitem : field = "currentItem" <;> simp [Named.get?, eq_comm, hitem]
    | some v => simp [Named.get?, eq_comm]

/-- The fields of a summary as a value, and no others. -/
theorem child?_value (s : LoopSummary StepResult) (field : String) :
    s.value.child? field =
      if field = "currentIteration" then some (.nat s.currentIteration)
      else if field = "currentItem" then s.currentItem.map Json.canonical
      else if field = "iterations" then
        some (Json.arr (iterationsWritten s.iterations)).canonical
      else none := by
  obtain ⟨fields, hwritten, hnodup, hget⟩ := s.exists_written
  have hcanonical : s.value = .obj (Json.canonicalFields fields) := by
    rw [value, hwritten, Json.canonical]
  have hfield : s.value.child? field = (Named.get? fields field).map Json.canonical := by
    rw [hcanonical]
    exact Json.get?_canonicalFields hnodup field
  rw [hfield, hget]
  split_ifs <;> rfl

/-- Reading field by field is reading in the whole value. -/
theorem part?_eq_at? {s : LoopSummary StepResult} (hitem : ∀ v ∈ s.currentItem, v.Sorted)
    (segments : List String) : s.part? segments = s.value.at? segments := by
  have hsame : s.currentItem.map Json.canonical = s.currentItem := by
    cases h : s.currentItem with
    | none => rfl
    | some v => exact congrArg some (hitem v h)
  unfold part?
  split
  · rw [Json.at?]
  · rw [Json.at?, child?_value, if_pos rfl, Option.bind_some, Json.at?]
  · rw [Json.at?, child?_value, if_neg (by decide), if_pos rfl, hsame]
  · rw [Json.at?, child?_value, if_neg (by decide), if_neg (by decide), if_pos rfl,
      Option.bind_some]
  · -- Below the number of the iteration there is nothing, and no other field is left.
    rename_i hnil hnumber hitem hiterations
    cases segments with
    | nil => exact absurd rfl hnil
    | cons field rest =>
      rw [Json.at?, child?_value]
      by_cases hfield : field = "currentIteration"
      · subst hfield
        cases rest with
        | nil => exact absurd rfl hnumber
        | cons segment rest => rfl
      · have hitem : field ≠ "currentItem" := fun h => hitem rest (congrArg (· :: rest) h)
        have hiterations : field ≠ "iterations" := fun h =>
          hiterations rest (congrArg (· :: rest) h)
        rw [if_neg hfield, if_neg hitem, if_neg hiterations, Option.bind_none]

end LoopSummary

theorem StepResult.part?_of_loop? {r : StepResult} {summary : LoopSummary StepResult}
    (h : r.loop? = some summary) (segments : List String) :
    r.part? segments = summary.part? segments := by
  obtain ⟨input, v | own, status, message, duration⟩ := r
  · contradiction
  · obtain rfl := Option.some.inj h
    rfl

/-- **Reading a loop field by field is reading its whole value.** For every loop whose current
item, if there is one, is a sorted value, and whatever its iterations hold, the part that the
segments address is the one they address in the value of the summary. So there is nothing
under other fields, nothing below the number of the iteration, and nothing of an item that is
not there. -/
theorem StepResult.parts_of_loop {r : StepResult} {summary : LoopSummary StepResult}
    (hloop : r.loop? = some summary) (hitem : ∀ v ∈ summary.currentItem, v.Sorted) :
    (∀ segments, r.part? segments = summary.value.at? segments) ∧
      (∀ field rest, field ∉ ["currentIteration", "currentItem", "iterations"] →
        r.part? (field :: rest) = none) ∧
      (∀ segment rest, r.part? ("currentIteration" :: segment :: rest) = none) ∧
      (summary.currentItem = none → ∀ rest, r.part? ("currentItem" :: rest) = none) := by
  have hvalue : ∀ segments, r.part? segments = summary.value.at? segments := fun segments => by
    rw [r.part?_of_loop? hloop, summary.part?_eq_at? hitem]
  refine ⟨hvalue, fun field rest hfield => ?_, fun segment rest => ?_, fun hnone rest => ?_⟩
  · obtain ⟨hcurrent, hitem, hiterations⟩ :
        field ≠ "currentIteration" ∧ field ≠ "currentItem" ∧ field ≠ "iterations" := by
      simpa using hfield
    rw [hvalue, Json.at?, LoopSummary.child?_value, if_neg hcurrent, if_neg hitem,
      if_neg hiterations, Option.bind_none]
  · rw [hvalue, Json.at?, LoopSummary.child?_value, if_pos rfl]
    rfl
  · rw [hvalue, Json.at?, LoopSummary.child?_value, if_neg (by decide), if_pos rfl, hnone]
    rfl

/-! ### A loop in the history of a loop -/

namespace Rounds

/-- A loop in its second iteration. In the first one another loop ran over one item. -/
def summary : LoopSummary StepResult :=
  ⟨2, some (.obj [("id", .nat 7)]),
    [[("inner", .ofLoop .empty
        ⟨1, some .null, [[("leaf", .succeed .empty (.arr [.nat 3, .str "x"]))]]⟩ none)], []]⟩

/-- Where the last item that the inner loop recorded stands. -/
def leaf : List String :=
  ["iterations", "0", "inner", "output", "iterations", "0", "leaf", "output", "1"]

end Rounds

theorem StepResult.parts_of_loop_rounds :
    let r := StepResult.ofLoop .empty Rounds.summary none
    r.loop? = some Rounds.summary ∧ (∀ v ∈ Rounds.summary.currentItem, v.Sorted) ∧
      r.part? Rounds.leaf = Rounds.summary.value.at? Rounds.leaf ∧
      r.part? Rounds.leaf = some (.str "x") ∧ r.part? ["currentItem", "id"] = some (.nat 7) ∧
      r.part? ("currentIteration" :: Rounds.leaf) = none := by
  intro r
  have hitem : ∀ v ∈ Rounds.summary.currentItem, v.Sorted := by
    rintro v hv
    obtain rfl := Option.some.inj hv
    rfl
  obtain ⟨hvalue, -, hbelow, -⟩ := StepResult.parts_of_loop (r := r) rfl hitem
  refine ⟨rfl, hitem, hvalue _, ?_, ?_, hbelow _ _⟩
  · decide +kernel
  · decide +kernel

end Stepwise
