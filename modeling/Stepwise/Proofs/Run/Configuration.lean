/-
# What a run reads of the configuration

A flow names the keys of the configuration that it reads: they stand in the references of
its templates. Nothing else leads to the configuration. A payload, a reply or an entry of
the configuration may hold the text of a reference to another entry, but what has been
resolved is not resolved again, so that entry stays out of the run.

Key definitions: `Reference.configKey?`, `Action.configKeys`, `Flow.configKeys`.
Key theorems: `Scene.resolve_withConfigs`, `Chain.run_withConfigs`,
`Job.report_withConfigs`.
-/
import Stepwise.Executor.Scripted
import Stepwise.Proofs.Run.Calls
import Stepwise.Proofs.Template.Agreement
import Stepwise.Run.Report

namespace Stepwise

variable {σ : Type}

/-- The key of the configuration that a reference leads to, if it leads to one. -/
def Reference.configKey? (reference : String) : Option String :=
  match segments? reference with
  | some (root :: key :: _) => if root = configsRoot then some key else none
  | _ => none

/-- The keys of the configuration that the references in an action lead to. -/
def Action.configKeys (a : Action) : List String :=
  (Flow.references a).filterMap Reference.configKey?

/-- The keys of the configuration that the actions of a chain refer to, those in the body
of a loop after the loop's own. -/
def Chain.configKeys (chain : Chain) : List String := chain.walk.flatMap Action.configKeys

/-- The keys of the configuration that a flow refers to. -/
def Flow.configKeys (f : Flow) : List String := f.actions.flatMap Action.configKeys

/-- Two configurations that have the same under each of the keys. -/
def AgreeOn (keys : List String) (first second : Named Json) : Prop :=
  ∀ key ∈ keys, Named.get? first key = Named.get? second key

instance (keys : List String) (first second : Named Json) :
    Decidable (AgreeOn keys first second) :=
  inferInstanceAs (Decidable (∀ key ∈ keys, Named.get? first key = Named.get? second key))

/-- The scene with another configuration. -/
def Scene.withConfigs (scene : Scene) (configs : Named Json) : Scene :=
  { scene with configs := configs }

/-- The job with another configuration. -/
def Job.withConfigs (job : Job) (configs : Named Json) : Job := { job with configs := configs }

theorem AgreeOn.of_subset {keys more : List String} {first second : Named Json}
    (h : AgreeOn keys first second) (hsub : more ⊆ keys) : AgreeOn more first second :=
  fun key hkey => h key (hsub hkey)

/-- A reference leads to the same value if the entry is the same that it leads to. -/
theorem Scene.lookup?_withConfigs {scene : Scene} {configs : Named Json} {reference : String}
    (h : ∀ key, Reference.configKey? reference = some key →
      Named.get? scene.configs key = Named.get? configs key) (path : Path) (t : Trace) :
    (scene.view path t).lookup? reference =
      ((scene.withConfigs configs).view path t).lookup? reference := by
  unfold Reference.configKey? at h
  unfold View.lookup?
  cases hsegments : Reference.segments? reference with
  | none => rfl
  | some segments =>
    rw [hsegments] at h
    match segments with
    | [] => rfl
    | [root] => rfl
    | root :: key :: rest =>
      by_cases hroot : root = configsRoot
      · have hentry := h key (if_pos hroot)
        simp only [Option.bind_some, View.find?, if_pos hroot, view, withConfigs, hentry]
      · simp only [Option.bind_some, View.find?, if_neg hroot, view, withConfigs]

/-- What an action resolves depends on the entries alone that the action refers to. -/
theorem Scene.resolve_withConfigs {scene : Scene} {configs : Named Json} {a : Action}
    (h : AgreeOn a.configKeys scene.configs configs) {template : Json}
    (htemplate : template ∈ a.work.templates) (path : Path) (t : Trace) :
    (scene.view path t).resolve template =
      ((scene.withConfigs configs).view path t).resolve template := by
  refine View.resolve_eq_of_references template fun reference hreference => ?_
  refine lookup?_withConfigs (fun key hkey => h key ?_) path t
  have hmem : reference ∈ Flow.references a :=
    List.mem_flatMap.mpr ⟨template, htemplate, hreference⟩
  exact List.mem_filterMap.mpr ⟨reference, hmem, hkey⟩

/-- A chain runs alike with two configurations that agree where the chain reads them: it is
the same process, which looks at the same and makes the same calls, whatever the replies. -/
theorem Chain.run_withConfigs {scene : Scene} {configs : Named Json} :
    ∀ {chain : Chain}, AgreeOn chain.configKeys scene.configs configs →
      chain.run scene = chain.run (scene.withConfigs configs)
  | .nil, _ => rfl
  | .step label task rest, h => by
    have hrest : rest.run scene = rest.run (scene.withConfigs configs) :=
      run_withConfigs (h.of_subset (List.subset_append_right _ _))
    have htask : ∀ path t, task.perform scene (scene.view path t) =
        task.perform (scene.withConfigs configs) ((scene.withConfigs configs).view path t) :=
      fun path t => Task.perform_congr rfl rfl fun template htemplate =>
        Scene.resolve_withConfigs (a := ⟨label, .task task, rest.firstName?⟩)
          (h.of_subset (List.subset_append_left _ _)) htemplate path t
    funext path t
    rw [run, run, htask, hrest]
  | .loop label settings body rest, h => by
    have hkeys : (loop label settings body rest).configKeys =
        Action.configKeys ⟨label, .loop settings body, rest.firstName?⟩ ++
          (body.configKeys ++ rest.configKeys) :=
      congrArg (_ ++ ·) List.flatMap_append
    rw [hkeys] at h
    have hinside := h.of_subset (List.subset_append_right _ _)
    have hbody : body.run scene = body.run (scene.withConfigs configs) :=
      run_withConfigs (hinside.of_subset (List.subset_append_left _ _))
    have hrest : rest.run scene = rest.run (scene.withConfigs configs) :=
      run_withConfigs (hinside.of_subset (List.subset_append_right _ _))
    have hitems : ∀ path t, (scene.view path t).resolve settings.items =
        ((scene.withConfigs configs).view path t).resolve settings.items :=
      Scene.resolve_withConfigs (h.of_subset (List.subset_append_left _ _))
        (List.mem_singleton_self settings.items)
    funext path t
    rw [run, run, hitems, hbody, hrest]

namespace Job

/-- **No leak of the configuration.** A run depends on no entry of the configuration but
those under the keys that its flow refers to: with any other entries the job makes the same
calls with the same arguments, is given the same replies and ends with the same report, and
so do the executors end in the same state. -/
theorem report_withConfigs (job : Job) (configs : Named Json)
    (h : AgreeOn job.flow.configKeys job.configs configs) (ex : Executors σ) (s : σ)
    (startedAt : Timestamp) (durationMs : Nat) :
    job.process.calls ex s = (job.withConfigs configs).process.calls ex s ∧
      job.report ex s startedAt durationMs =
        (job.withConfigs configs).report ex s startedAt durationMs := by
  have hrun : job.flow.trigger.chain.run job.scene =
      job.flow.trigger.chain.run (job.scene.withConfigs configs) := Chain.run_withConfigs h
  have hprocess : job.process = (job.withConfigs configs).process := by
    rw [process, hrun]
    rfl
  refine ⟨by rw [hprocess], ?_⟩
  rw [report, report, hprocess]
  rfl

end Job

/-! ### A note that asks for a secret -/

namespace Notes

/-- Sends on each note under the name of the region, and answers with what came back for
the first. -/
def chain : Chain :=
  .loop ⟨"notes", none⟩ ⟨.str "${trigger.notes}"⟩
    (.step ⟨"send", none⟩
      (.code ⟨"sender", .str "${configs.region}: ${notes.currentItem}"⟩) .nil)
    (.step ⟨"answer", none⟩
      (.response ⟨.str "${notes.iterations[0].send.output}"⟩) .nil)

/-- The note has the text of a reference to the secret. -/
def job (secret : String) : Job :=
  ⟨"run-1", "default", none, [("region", .str "eu"), ("secret", .str secret)],
    .obj [("notes", .arr [.str "${configs.secret}"])], ⟨⟨.empty, .empty, chain⟩⟩⟩

/-- The sender answers with what it was given. -/
def script : Script := ⟨[("sender", .echo)], [], []⟩

end Notes

theorem Job.report_withConfigs_notes :
    let first := Notes.job "first"
    let second := first.withConfigs (Notes.job "second").configs
    AgreeOn first.flow.configKeys first.configs (Notes.job "second").configs ∧
      first.process.calls Notes.script.executors ⟨[], []⟩ =
        second.process.calls Notes.script.executors ⟨[], []⟩ ∧
      first.report Notes.script.executors ⟨[], []⟩ ⟨0, 0⟩ 0 =
        second.report Notes.script.executors ⟨[], []⟩ ⟨0, 0⟩ 0 := by
  have hagree : AgreeOn (Notes.job "first").flow.configKeys (Notes.job "first").configs
      (Notes.job "second").configs := by decide +kernel
  exact ⟨hagree, report_withConfigs (Notes.job "first") (Notes.job "second").configs hagree
    Notes.script.executors ⟨[], []⟩ ⟨0, 0⟩ 0⟩

/-- What came back has the text of the reference, and not the secret. -/
example : ((Notes.job "first").report Notes.script.executors ⟨[], []⟩ ⟨0, 0⟩ 0).1.response =
    some (.str "eu: ${configs.secret}") := by decide +kernel

end Stepwise
