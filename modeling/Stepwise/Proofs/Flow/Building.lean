/-
# The first fault of a document

A chain is built from the nodes of a document: a node itself, then those of the body if its
kind is that of a loop, then those after it. The document is accepted exactly if none of these
nodes has a fault, and the actions of the chain are then these nodes, read one by one in this
order. Otherwise the fault of the first faulty node is reported, whatever is wrong with later
ones. What a node other than a loop holds in place of a body is not looked at.

Key definitions: `Node.isLoop`, `Node.all`, `Node.FirstFault`, `Action.node`.
Key theorems: `Chain.build_eq`, `Chain.build_goesBy`, `Chain.build_firstFault`.
-/
import Mathlib.Data.List.Forall2
import Stepwise.Proofs.Flow.Accepted
import Stepwise.Proofs.Flow.Faults
import Stepwise.Proofs.Json.Records

namespace Stepwise

/-- The node of a label and a work, the body of a loop aside. -/
def Work.node (label : Label) : Work → Node
  | .task t => .task label t
  | .loop s _ => .loop label s

/-- An action without what it is linked to. -/
def Action.node (a : Action) : Node := a.work.node a.label

namespace Node

/-- Whether the kind of a node is that of a loop, whatever may be wrong with the node. -/
def isLoop (document : Json) : Bool := (text? document "kind").any (· ∈ ActionKind.loop.words)

/-- The nodes of a document: the document, those of its body if it is a loop, and those after
it. -/
def all (document : Json) : List Json :=
  document ::
    ((if isLoop document then
        match _link : link? document "firstLoopAction" with
        | none => []
        | some first => all first
      else []) ++
      match _link : link? document "nextAction" with
      | none => []
      | some next => all next)
termination_by sizeOf document
decreasing_by all_goals exact sizeOf_link? ‹_›

/-- The nodes that a field links to. -/
def linked (document : Json) (field : String) : List Json :=
  match link? document field with
  | none => []
  | some v => all v

/-- A fault is that of the first node that has one. -/
def FirstFault (nodes : List Json) (e : FlowError) : Prop :=
  ∃ before v after, nodes = before ++ v :: after ∧ (∀ u ∈ before, ∀ e', ¬Fault u e') ∧ Fault v e

theorem all_eq (document : Json) :
    all document = document ::
      ((if isLoop document then linked document "firstLoopAction" else []) ++
        linked document "nextAction") := by
  rw [all, linked, linked]
  cases link? document "firstLoopAction" <;> cases link? document "nextAction" <;> rfl

namespace FirstFault

variable {v : Json} {nodes more : List Json} {e : FlowError}

theorem head (h : Fault v e) : FirstFault (v :: nodes) e :=
  ⟨[], v, nodes, rfl, by simp, h⟩

theorem append_left (h : FirstFault nodes e) : FirstFault (nodes ++ more) e := by
  obtain ⟨before, v, after, rfl, hbefore, hv⟩ := h
  exact ⟨before, v, after ++ more, by simp, hbefore, hv⟩

theorem append_right (hnodes : ∀ u ∈ nodes, ∀ e', ¬Fault u e') (h : FirstFault more e) :
    FirstFault (nodes ++ more) e := by
  obtain ⟨before, v, after, rfl, hbefore, hv⟩ := h
  refine ⟨nodes ++ before, v, after, by simp, fun u hu => ?_, hv⟩
  rcases List.mem_append.mp hu with hu | hu
  · exact hnodes u hu
  · exact hbefore u hu

theorem cons (hv : ∀ e', ¬Fault v e') (h : FirstFault nodes e) : FirstFault (v :: nodes) e := by
  obtain ⟨before, u, after, rfl, hbefore, hu⟩ := h
  exact ⟨v :: before, u, after, rfl, List.forall_mem_cons.mpr ⟨hv, hbefore⟩, hu⟩

/-- The first fault is that of the first node, or this one has none. -/
theorem cases_cons (h : FirstFault (v :: nodes) e) :
    Fault v e ∨ (∀ e', ¬Fault v e') ∧ FirstFault nodes e := by
  obtain ⟨before, u, after, hnodes, hbefore, hu⟩ := h
  cases before with
  | nil =>
    obtain ⟨rfl, -⟩ := List.cons.inj hnodes
    exact .inl hu
  | cons first before =>
    obtain ⟨rfl, rfl⟩ := List.cons.inj hnodes
    obtain ⟨hv, hbefore⟩ := List.forall_mem_cons.mp hbefore
    exact .inr ⟨hv, before, u, after, rfl, hbefore, hu⟩

theorem exists_mem (h : FirstFault nodes e) : ∃ v ∈ nodes, Fault v e := by
  obtain ⟨before, v, after, rfl, -, hv⟩ := h
  exact ⟨v, by simp, hv⟩

/-- There is one first fault at most. -/
theorem unique {e' : FlowError} (h : FirstFault nodes e) (h' : FirstFault nodes e') : e = e' := by
  induction nodes with
  | nil =>
    obtain ⟨v, hv, -⟩ := h.exists_mem
    exact absurd hv List.not_mem_nil
  | cons v nodes ih =>
    rcases h.cases_cons with hfault | ⟨hnone, hrest⟩
    · rcases h'.cases_cons with hfault' | ⟨hnone', -⟩
      · have hsame : (Except.error e : Except FlowError Node) = .error e' :=
          (ofJson_of_fault hfault).symm.trans (ofJson_of_fault hfault')
        exact Except.error.inj hsame
      · exact absurd hfault (hnone' e)
    · rcases h'.cases_cons with hfault' | ⟨-, hrest'⟩
      · exact absurd hfault' (hnone e')
      · exact ih hrest hrest'

end FirstFault

/-- What is built goes by the nodes: they are the actions, or the first fault is told. -/
def GoesBy (nodes : List Json) : Except FlowError Chain → Prop
  | .ok chain => List.Forall₂ (fun v a => Reads v a.node) nodes chain.walk
  | .error e => FirstFault nodes e

theorem not_fault_of_reads {document : Json} {node : Node} (h : Reads document node) :
    ∀ e, ¬Fault document e :=
  forall_not_fault_iff.mpr ⟨node, h⟩

theorem not_fault_of_forall₂ {nodes : List Json} {actions : List Action}
    (h : List.Forall₂ (fun v a => Reads v a.node) nodes actions) :
    ∀ v ∈ nodes, ∀ e, ¬Fault v e := by
  induction h with
  | nil => simp
  | cons hreads _ ih => exact List.forall_mem_cons.mpr ⟨not_fault_of_reads hreads, ih⟩

theorem exists_reads_of_forall₂ {nodes : List Json} {actions : List Action}
    (h : List.Forall₂ (fun v a => Reads v a.node) nodes actions) :
    ∀ a ∈ actions, ∃ v, Reads v a.node := by
  induction h with
  | nil => simp
  | cons hreads _ ih => exact List.forall_mem_cons.mpr ⟨⟨_, hreads⟩, ih⟩

/-- Settings are decoded to a loop exactly if the kind is that of a loop. -/
theorem isLoop_of_decode {label : Label} {kind : ActionKind} {settings : Json} {node : Node}
    (h : kind.decode label settings = .ok node) :
    (kind ≠ .loop ∧ ∃ task, node = .task label task) ∨
      (kind = .loop ∧ ∃ s, node = .loop label s) := by
  cases kind with
  | code =>
    cases hdecode : CodeSettings.decode .value settings <;>
      simp_all [ActionKind.decode, Except.map, eq_comm]
  | integration =>
    cases hdecode : IntegrationSettings.decode .value settings <;>
      simp_all [ActionKind.decode, Except.map, eq_comm]
  | storage =>
    cases hdecode : StorageSettings.decode .value settings <;>
      simp_all [ActionKind.decode, Except.map, eq_comm]
  | response =>
    cases hdecode : ResponseSettings.decode .value settings <;>
      simp_all [ActionKind.decode, Except.map, eq_comm]
  | loop =>
    cases hdecode : LoopSettings.decode .value settings <;>
      simp_all [ActionKind.decode, Except.map, eq_comm]

/-- The word for a kind names no other. -/
theorem isLoop_eq_of_head {document : Json} {label : Label} {kind : ActionKind}
    (head : Head document label kind) : isLoop document = decide (kind = .loop) := by
  obtain ⟨word, hword, hkind⟩ := head.kind
  have hsame : word ∈ ActionKind.loop.words ↔ kind = .loop := by
    rw [ActionKind.mem_words_iff, ActionKind.mem_words_iff.mp hkind, Option.some.injEq]
  rw [isLoop, hword, Option.any_some]
  exact decide_eq_decide.mpr hsame

/-- What reads as a task is no loop by its kind. -/
theorem isLoop_of_reads_task {document : Json} {label : Label} {task : Task}
    (h : Reads document (.task label task)) : isLoop document = false := by
  obtain @⟨label', kind, -, head, -, hdecode, -⟩ := h
  rcases isLoop_of_decode hdecode with ⟨hne, -⟩ | ⟨-, s, hs⟩
  · rw [isLoop_eq_of_head head, decide_eq_false_iff_not]
    exact hne
  · contradiction

/-- What reads as a loop is one by its kind. -/
theorem isLoop_of_reads_loop {document : Json} {label : Label} {s : LoopSettings}
    (h : Reads document (.loop label s)) : isLoop document = true := by
  obtain @⟨label', kind, -, head, -, hdecode, -⟩ := h
  rcases isLoop_of_decode hdecode with ⟨-, task, htask⟩ | ⟨hloop, -⟩
  · contradiction
  · rw [isLoop_eq_of_head head, decide_eq_true_iff]
    exact hloop

/-- A node by itself is read from its fields, the body aside. -/
theorem ofJson_congr {document other : Json} (hobject : other.isObject = document.isObject)
    (hfields : ∀ field, field ≠ "firstLoopAction" → other.get? field = document.get? field) :
    ofJson other = ofJson document := by
  simp only [ofJson, requireObject, hobject, hfields "name" (by decide),
    hfields "kind" (by decide), hfields "settings" (by decide),
    hfields "displayName" (by decide)]

end Node

namespace Chain

/-- A chain is built from a node by itself, from its body and from what follows it. -/
theorem build_eq (document : Json) :
    build document =
      match Node.ofJson document with
      | .error e => .error e
      | .ok (.task label task) => (buildLink document "nextAction").map (.step label task)
      | .ok (.loop label settings) =>
        match buildLink document "firstLoopAction" with
        | .error e => .error e
        | .ok body => (buildLink document "nextAction").map (.loop label settings body) := by
  rw [build, buildLink, buildLink]
  cases Node.ofJson document with
  | error e => rfl
  | ok node =>
    cases node with
    | task label task => cases Node.link? document "nextAction" <;> rfl
    | loop label settings =>
      cases Node.link? document "firstLoopAction" with
      | none => cases Node.link? document "nextAction" <;> rfl
      | some first =>
        dsimp only
        cases build first with
        | error e => rfl
        | ok body => cases Node.link? document "nextAction" <;> rfl

theorem build_eq_step_iff {document : Json} {label : Label} {task : Task} {rest : Chain} :
    build document = .ok (.step label task rest) ↔
      Node.ofJson document = .ok (.task label task) ∧
        buildLink document "nextAction" = .ok rest := by
  rw [build_eq]
  cases Node.ofJson document with
  | error e => simp
  | ok node =>
    cases node with
    | task label' task' =>
      cases buildLink document "nextAction" <;> simp [Except.map, and_assoc]
    | loop label' settings =>
      cases buildLink document "firstLoopAction" <;> cases buildLink document "nextAction" <;>
        simp [Except.map]

theorem build_eq_loop_iff {document : Json} {label : Label} {settings : LoopSettings}
    {body rest : Chain} :
    build document = .ok (.loop label settings body rest) ↔
      Node.ofJson document = .ok (.loop label settings) ∧
        buildLink document "firstLoopAction" = .ok body ∧
          buildLink document "nextAction" = .ok rest := by
  rw [build_eq]
  cases Node.ofJson document with
  | error e => simp
  | ok node =>
    cases node with
    | task label' task' => cases buildLink document "nextAction" <;> simp [Except.map]
    | loop label' settings =>
      cases buildLink document "firstLoopAction" <;> cases buildLink document "nextAction" <;>
        simp [Except.map, and_assoc]

/-- What is built from a link goes by the nodes it leads to, if it does so for the linked
document. -/
theorem buildLink_goesBy (document : Json) (field : String)
    (h : ∀ v, Node.link? document field = some v → Node.GoesBy (Node.all v) (build v)) :
    Node.GoesBy (Node.linked document field) (buildLink document field) := by
  unfold Node.linked buildLink
  cases hlink : Node.link? document field with
  | none => exact List.Forall₂.nil
  | some v => exact h v hlink

/-- What is built from a document goes by its nodes. -/
theorem build_goesBy (document : Json) : Node.GoesBy (Node.all document) (build document) := by
  have hbody := buildLink_goesBy document "firstLoopAction" fun v hlink => build_goesBy v
  have hrest := buildLink_goesBy document "nextAction" fun v hlink => build_goesBy v
  rw [build_eq, Node.all_eq]
  cases hnode : Node.ofJson document with
  | error e => exact .head (Node.ofJson_eq_error_iff.mp hnode)
  | ok node =>
    have hreads := Node.ofJson_eq_ok_iff.mp hnode
    have hfaultless := Node.not_fault_of_reads hreads
    cases node with
    | task label task =>
      rw [Node.isLoop_of_reads_task hreads]
      cases hbuilt : buildLink document "nextAction" with
      | error e =>
        rw [hbuilt] at hrest
        exact .cons hfaultless hrest
      | ok rest =>
        rw [hbuilt] at hrest
        exact .cons hreads hrest
    | loop label settings =>
      rw [Node.isLoop_of_reads_loop hreads]
      cases hfirst : buildLink document "firstLoopAction" with
      | error e =>
        rw [hfirst] at hbody
        exact .cons hfaultless (.append_left hbody)
      | ok body =>
        rw [hfirst] at hbody
        cases hbuilt : buildLink document "nextAction" with
        | error e =>
          rw [hbuilt] at hrest
          exact .cons hfaultless (.append_right (Node.not_fault_of_forall₂ hbody) hrest)
        | ok rest =>
          rw [hbuilt] at hrest
          exact .cons hreads (List.rel_append hbody hrest)
termination_by sizeOf document
decreasing_by all_goals exact Node.sizeOf_link? hlink

/-- Every action of a chain that is built reads from a node. -/
theorem exists_reads_of_buildLink {document : Json} {field : String} {chain : Chain}
    (h : buildLink document field = .ok chain) : ∀ a ∈ chain.walk, ∃ v, Node.Reads v a.node := by
  have hgoes := buildLink_goesBy document field fun v _ => build_goesBy v
  rw [h] at hgoes
  exact Node.exists_reads_of_forall₂ hgoes

/-- What stands in place of a body in a node that is no loop does not matter. -/
theorem build_congr {document other : Json} (hloop : Node.isLoop document = false)
    (hobject : other.isObject = document.isObject)
    (hfields : ∀ field, field ≠ "firstLoopAction" → other.get? field = document.get? field) :
    build other = build document := by
  have hnext : buildLink other "nextAction" = buildLink document "nextAction" := by
    simp only [buildLink, Node.link?, hfields "nextAction" (by decide)]
  rw [build_eq, build_eq, Node.ofJson_congr hobject hfields, hnext]
  cases hnode : Node.ofJson document with
  | error e => rfl
  | ok node =>
    cases node with
    | task label task => rfl
    | loop label settings =>
      have hreads := Node.isLoop_of_reads_loop (Node.ofJson_eq_ok_iff.mp hnode)
      rw [hloop] at hreads
      contradiction

/-- **The first fault is reported.** A document is accepted exactly if none of its nodes has a
fault, and then the actions of the chain are its nodes, in order, as each of them reads.
Otherwise what is reported is the fault of the first node that has one. What stands in place
of a body in a node that is no loop changes nothing. -/
theorem build_firstFault (document : Json) :
    ((∃ chain, build document = .ok chain) ↔
        ∀ v ∈ Node.all document, ∀ e, ¬Node.Fault v e) ∧
      (∀ chain, build document = .ok chain →
        List.Forall₂ (fun v a => Node.Reads v a.node) (Node.all document) chain.walk) ∧
      (∀ e, build document = .error e ↔ Node.FirstFault (Node.all document) e) ∧
      ∀ other : Json, Node.isLoop document = false → other.isObject = document.isObject →
        (∀ field, field ≠ "firstLoopAction" → other.get? field = document.get? field) →
        build other = build document := by
  have hgoes := build_goesBy document
  refine ⟨⟨?_, fun hnone => ?_⟩, fun chain hchain => ?_,
    fun e => ⟨fun herror => ?_, fun hfirst => ?_⟩,
    fun other hloop hobject hfields => build_congr hloop hobject hfields⟩
  · rintro ⟨chain, hchain⟩
    rw [hchain] at hgoes
    exact Node.not_fault_of_forall₂ hgoes
  · cases hbuilt : build document with
    | ok chain => exact ⟨chain, rfl⟩
    | error e =>
      rw [hbuilt] at hgoes
      obtain ⟨v, hv, hfault⟩ := hgoes.exists_mem
      exact absurd hfault (hnone v hv e)
  · rw [hchain] at hgoes
    exact hgoes
  · rw [herror] at hgoes
    exact hgoes
  · cases hbuilt : build document with
    | ok chain =>
      rw [hbuilt] at hgoes
      obtain ⟨v, hv, hfault⟩ := hfirst.exists_mem
      exact absurd hfault (Node.not_fault_of_forall₂ hgoes v hv e)
    | error e' =>
      rw [hbuilt] at hgoes
      rw [hgoes.unique hfirst]

end Chain

/-- The nodes of the body come before those after the loop. -/
theorem Grid.all_rows : Node.all rows = [rows, cells, check, answer] := by
  have hcheck : Node.all check = [check] := by
    rw [Node.all_eq]
    rfl
  have hcells : Node.all cells = [cells, check] := by
    rw [Node.all_eq]
    show cells :: (Node.all check ++ []) = _
    rw [hcheck]
    rfl
  have hanswer : Node.all answer = [answer] := by
    rw [Node.all_eq]
    rfl
  rw [Node.all_eq]
  show rows :: (Node.all cells ++ Node.all answer) = _
  rw [hcells, hanswer]
  rfl

/-- A loop in a loop and an action after them, four nodes in all. -/
theorem Chain.build_firstFault_grid :
    build Grid.rows = .ok Grid.chain ∧
      Node.all Grid.rows = [Grid.rows, Grid.cells, Grid.check, Grid.answer] ∧
      (∀ v ∈ Node.all Grid.rows, ∀ e, ¬Node.Fault v e) ∧
      List.Forall₂ (fun v a => Node.Reads v a.node)
        [Grid.rows, Grid.cells, Grid.check, Grid.answer] Grid.chain.walk := by
  obtain ⟨haccepted, hwalk, -, -⟩ := build_firstFault Grid.rows
  have hreads := hwalk _ Grid.build_rows
  rw [Grid.all_rows] at hreads
  exact ⟨Grid.build_rows, Grid.all_rows, haccepted.mp ⟨_, Grid.build_rows⟩, hreads⟩

/-- The chain of a trigger that is built is the one its document links to. -/
theorem Trigger.buildLink_of_build {document : Json} {trigger : Trigger}
    (h : build document = .ok trigger) :
    Chain.buildLink document "nextAction" = .ok trigger.chain := by
  obtain ⟨-, -, h⟩ := exists_of_bind h
  obtain ⟨kind, -, h⟩ := exists_of_bind h
  obtain ⟨chain, hchain, h⟩ := exists_of_bind h
  cases h
  exact hchain

end Stepwise
