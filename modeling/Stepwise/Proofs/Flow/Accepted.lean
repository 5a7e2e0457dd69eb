/-
# Accepted documents

A document is accepted if its flow can be built and the names in it pass the check. A
chain is built from a node by itself and from the chains that its links lead to, so
whether a given document is accepted can be told node by node. `Grid.document` is one
that is, with a loop in a loop, and `Ledger.document` one whose steps use the store.

Key definitions: `Grid.document`, `Grid.job`, `Grid.script`, `Grid.lenient`,
`Grid.strict`, `Ledger.document`, `Ledger.job`, `Ledger.script`.
Key theorems: `Chain.build_task`, `Chain.build_loop`, `Flow.check_of_build`,
`Job.build_of_ofJson`, `Grid.accepted`, `Ledger.accepted`.
-/
import Stepwise.Executor.Scripted
import Stepwise.Flow.Job
import Stepwise.Proofs.Json.Records

namespace Stepwise

namespace Chain

variable {document : Json} {label : Label} {rest : Chain}

theorem build_task {task : Task} (h : Node.ofJson document = .ok (.task label task))
    (hrest : buildLink document "nextAction" = .ok rest) :
    build document = .ok (.step label task rest) := by
  rw [build, h]
  unfold buildLink at hrest
  cases hnext : Node.link? document "nextAction" <;> simp_all [Except.map]

theorem build_loop {settings : LoopSettings} {body : Chain}
    (h : Node.ofJson document = .ok (.loop label settings))
    (hbody : buildLink document "firstLoopAction" = .ok body)
    (hrest : buildLink document "nextAction" = .ok rest) :
    build document = .ok (.loop label settings body rest) := by
  rw [build, h]
  unfold buildLink at hbody hrest
  cases hfirst : Node.link? document "firstLoopAction" <;>
    cases hnext : Node.link? document "nextAction" <;> simp_all [Except.map]

end Chain

theorem Flow.check_of_build {document : Json} {f : Flow} (h : build document = .ok f) :
    f.check = .ok () := by
  obtain ⟨flow, -, h⟩ := exists_of_bind h
  obtain ⟨⟨⟩, hcheck, h⟩ := exists_of_bind h
  cases h
  exact hcheck

theorem Flow.build_of_check {document : Json} {f : Flow} (h : buildUnchecked document = .ok f)
    (hcheck : f.check = .ok ()) : build document = .ok f := by
  simp only [build, h, bind, Except.bind, hcheck, pure, Except.pure]

theorem Job.build_of_ofJson {generated : String} {document : Json} {job : Job}
    (h : ofJson generated document = .ok job) : ∃ flow, Flow.build flow = .ok job.flow := by
  unfold ofJson at h
  split at h
  · contradiction
  · rename_i flow _
    obtain ⟨f, hflow, h⟩ := exists_of_bind h
    cases h
    exact ⟨flow, hflow⟩

/-! ### A loop in a loop -/

namespace Grid

/-- Checks one cell. -/
def check : Json :=
  .obj [("kind", .str "Code"), ("name", .str "check"),
    ("settings", .obj [("artifact", .str "checker"), ("input", .str "${cells.currentItem}")])]

/-- Checks the cells of one row. -/
def cells : Json :=
  .obj [("firstLoopAction", check), ("kind", .str "LoopOnItems"), ("name", .str "cells"),
    ("settings", .obj [("items", .str "${rows.currentItem}")])]

/-- Answers with the grid. -/
def answer : Json :=
  .obj [("kind", .str "Response"), ("name", .str "answer"),
    ("settings", .obj [("output", .str "${trigger.rows}")])]

/-- Checks the cells row by row, and then answers. -/
def rows : Json :=
  .obj [("firstLoopAction", cells), ("kind", .str "LoopOnItems"), ("name", .str "rows"),
    ("nextAction", answer), ("settings", .obj [("items", .str "${trigger.rows}")])]

def flow : Json := .obj [("trigger", .obj [("nextAction", rows)])]

def payload : Json := .obj [("rows", .arr [.arr [.nat 1], .arr [.nat 2, .nat 3, .nat 4]])]

def document : Json := .obj [("flow", flow), ("triggerPayload", payload)]

def chain : Chain :=
  .loop ⟨"rows", none⟩ ⟨.str "${trigger.rows}"⟩
    (.loop ⟨"cells", none⟩ ⟨.str "${rows.currentItem}"⟩
      (.step ⟨"check", none⟩ (.code ⟨"checker", .str "${cells.currentItem}"⟩) .nil) .nil)
    (.step ⟨"answer", none⟩ (.response ⟨.str "${trigger.rows}"⟩) .nil)

/-- The body of the loop over rows. -/
def row : Chain :=
  .loop ⟨"cells", none⟩ ⟨.str "${rows.currentItem}"⟩
    (.step ⟨"check", none⟩ (.code ⟨"checker", .str "${cells.currentItem}"⟩) .nil) .nil

/-- The job in the document, run under a given identifier. -/
def job (generated : String) : Job :=
  ⟨generated, "default", none, [], payload, ⟨.empty, .empty, chain⟩⟩

/-- The checker refuses the cell 3. -/
def script : Script := ⟨[("checker", .failIf none (.nat 3) (.failed "no threes"))], [], []⟩

/-- The checker takes every cell. -/
def lenient : Script := ⟨[("checker", .echo)], [], []⟩

/-- The checker refuses the cell 3, and nothing is remembered. -/
def strict : Executors Unit where
  code _ input s := (if input = .nat 3 then .error (.failed "no threes") else .ok input, s)
  integration _ _ input s := (.ok input, s)
  get _ s := (.ok none, s)
  put _ value s := (.ok value, s)

theorem build_rows : Chain.build rows = .ok chain := by
  have hcells : Chain.build cells = .ok row :=
    Chain.build_loop rfl (Chain.build_task rfl rfl) rfl
  exact Chain.build_loop rfl hcells (Chain.build_task rfl rfl)

theorem accepted (generated : String) : Job.ofJson generated document = .ok (job generated) := by
  have hunchecked : Flow.buildUnchecked flow = .ok ⟨.empty, .empty, chain⟩ := by
    show Except.bind (Except.bind (Chain.build rows) _) _ = _
    rw [build_rows]
    rfl
  have hflow : Flow.build flow = .ok ⟨.empty, .empty, chain⟩ :=
    Flow.build_of_check hunchecked rfl
  show Except.bind (Flow.build flow) _ = _
  rw [hflow]
  rfl

end Grid

/-! ### Steps that use the store in a loop -/

namespace Ledger

/-- Reads what stands in the ledger for the first day. -/
def reread : Json :=
  .obj [("kind", .str "Storage"), ("name", .str "reread"),
    ("settings", .obj [("key", .str "1"), ("operation", .str "Get"), ("scope", .str "Run")])]

/-- Notes down the amount of a day. -/
def note : Json :=
  .obj [("kind", .str "Storage"), ("name", .str "note"), ("nextAction", reread),
    ("settings", .obj [("key", .str "${days.currentItem.day}"), ("operation", .str "Put"),
      ("scope", .str "Run"), ("value", .str "${days.currentItem.amount}")])]

/-- Reads the total, which belongs to the flow or to the run. -/
def total (scope : StoreScope) : Json :=
  .obj [("kind", .str "Storage"), ("name", .str "total"),
    ("settings", .obj [("key", .str "total"), ("operation", .str "Get"),
      ("scope", .str scope.word)])]

/-- Notes down day after day, and then reads the total. -/
def days (scope : StoreScope) : Json :=
  .obj [("firstLoopAction", note), ("kind", .str "LoopOnItems"), ("name", .str "days"),
    ("nextAction", total scope), ("settings", .obj [("items", .str "${trigger.days}")])]

def flow (scope : StoreScope) : Json := .obj [("trigger", .obj [("nextAction", days scope)])]

/-- The first day has a number for a key, and the second a text. -/
def payload : Json :=
  .obj [("days", .arr [.obj [("amount", .nat 5), ("day", .nat 1)],
    .obj [("amount", .nat 7), ("day", .str "2")]])]

/-- The document of a run with a given identifier. -/
def document (run : String) (scope : StoreScope) : Json :=
  .obj [("executionId", .str run), ("flow", flow scope), ("triggerPayload", payload)]

def chain (scope : StoreScope) : Chain :=
  .loop ⟨"days", none⟩ ⟨.str "${trigger.days}"⟩
    (.step ⟨"note", none⟩ (.storage ⟨.put, .str "${days.currentItem.day}",
        some (.str "${days.currentItem.amount}"), .run⟩)
      (.step ⟨"reread", none⟩ (.storage ⟨.get, .str "1", none, .run⟩) .nil))
    (.step ⟨"total", none⟩ (.storage ⟨.get, .str "total", none, scope⟩) .nil)

def job (run : String) (scope : StoreScope) : Job :=
  ⟨run, "default", none, [], payload, ⟨.empty, .empty, chain scope⟩⟩

/-- The total of the flow cannot be read. -/
def script : Script := ⟨[], [], [("flows/default/total", .failed "no total")]⟩

theorem accepted (generated run : String) (scope : StoreScope) :
    Job.ofJson generated (document run scope) = .ok (job run scope) := by
  have htotal : Chain.build (total scope) =
      .ok (.step ⟨"total", none⟩ (.storage ⟨.get, .str "total", none, scope⟩) .nil) := by
    cases scope <;> exact Chain.build_task rfl rfl
  have hchain : Chain.build (days scope) = .ok (chain scope) :=
    Chain.build_loop rfl (Chain.build_task rfl (Chain.build_task rfl rfl)) htotal
  have hunchecked : Flow.buildUnchecked (flow scope) = .ok ⟨.empty, .empty, chain scope⟩ := by
    show Except.bind (Except.bind (Chain.build (days scope)) _) _ = _
    rw [hchain]
    rfl
  have hflow : Flow.build (flow scope) = .ok ⟨.empty, .empty, chain scope⟩ :=
    Flow.build_of_check hunchecked (by cases scope <;> rfl)
  show Except.bind (Flow.build (flow scope)) _ = _
  rw [hflow]
  rfl

end Ledger

end Stepwise
