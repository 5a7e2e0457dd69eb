/-
# Artifacts stay inside their folder

An artifact is found exactly if its name is a path that is not blank, does not begin at the root
and has no step outwards, and if this path, continued from that of the folder, leads to a file.
Such a path names a place strictly below that of the folder: its names, those left out that stay
where they are, lead there one below the other. A call of any other artifact is answered with
its name.

Key definitions: `ArtifactFolder.place`, `ArtifactFolder.inward`, `ArtifactFolder.Admits`.
Key theorems: `ArtifactFolder.locate?_eq_some_iff`, `ArtifactFolder.place_join`,
`Artifacts.execute_eq_notFound_iff`, `ArtifactFolder.found_inside`.
-/
import Stepwise.Artifact.Run
import Stepwise.Proofs.Files.Places

namespace Stepwise

namespace ArtifactFolder

/-- The place of the folder. -/
def place (folder : ArtifactFolder) : Location := FileTree.place folder.here folder.path

/-- The names of a path that lead somewhere. -/
def inward (path : String) : List String :=
  (FileName.parts path).filter fun name => !FileName.isStay name

/-- An artifact is the path of a file below the folder, without a way out of it: the path of the
folder, continued with this one, leads to a file. -/
structure Admits (folder : ArtifactFolder) (artifact : String) : Prop where
  visible : Text.allBlank artifact = false
  relative : FileName.isAbsolute artifact = false
  level : ".." ∉ FileName.parts artifact
  /-- A longer path leads nowhere. -/
  short : (FileName.join folder.path artifact).utf8ByteSize ≤ FileName.longestPath
  file :
    let path := FileName.join folder.path artifact
    folder.tree.LeadsToFile (FileTree.start folder.here path) (FileName.parts path)

variable {folder : ArtifactFolder} {artifact path : String}

/-! ### What is found -/

theorem resolve?_eq_some_iff {tree : FileTree} {here location : Location} :
    tree.resolve? here path = some location ↔ tree.resolve here path = .ok location := by
  rw [FileTree.resolve?]
  cases tree.resolve here path <;> simp [Except.toOption]

/-- A file is found exactly for what is admitted. -/
theorem locate?_eq_some_iff :
    folder.locate? artifact = some path ↔
      folder.Admits artifact ∧ path = FileName.join folder.path artifact := by
  constructor
  · intro h
    unfold locate? at h
    split at h
    · contradiction
    · rename_i hname
      simp only [escapes, Bool.or_eq_true, List.contains_eq_mem, decide_eq_true_eq, not_or,
        Bool.not_eq_true] at hname
      obtain ⟨hvisible, hrelative, hlevel⟩ := hname
      dsimp only at h
      split at h
      · rename_i location hresolve
        split at h
        · obtain ⟨hshort, hleads⟩ := FileTree.resolve_file_iff.mp
            ⟨location, resolve?_eq_some_iff.mp hresolve, ‹_›⟩
          exact ⟨⟨hvisible, hrelative, hlevel, hshort, hleads⟩, (Option.some.inj h).symm⟩
        · contradiction
      · contradiction
  · rintro ⟨⟨hvisible, hrelative, hlevel, hshort, hleads⟩, rfl⟩
    obtain ⟨location, hresolve, hfile⟩ := FileTree.resolve_file_iff.mpr ⟨hshort, hleads⟩
    have hname : (Text.allBlank artifact || escapes artifact) = false := by
      simp [escapes, hvisible, hrelative, hlevel]
    simp only [locate?, hname, resolve?_eq_some_iff.mpr hresolve, hfile, Bool.false_eq_true,
      if_false, if_true]

/-- What is not admitted is not found. -/
theorem locate?_eq_none_iff : folder.locate? artifact = none ↔ ¬folder.Admits artifact := by
  rw [Option.eq_none_iff_forall_ne_some]
  constructor
  · intro h hadmits
    exact h _ (locate?_eq_some_iff.mpr ⟨hadmits, rfl⟩)
  · intro h path hpath
    exact h (locate?_eq_some_iff.mp hpath).1

/-! ### Where it is found -/

/-- A path without a way out names a place inwards from that of the folder. -/
theorem place_join (hrelative : FileName.isAbsolute artifact = false)
    (hlevel : ".." ∉ FileName.parts artifact) :
    FileTree.place folder.here (FileName.join folder.path artifact) =
      folder.place ++ inward artifact := by
  obtain ⟨before, hparts, hbefore⟩ :=
    FileTree.exists_parts_join folder.path hrelative folder.here
  rw [FileTree.place, hparts, Location.walk_append, hbefore, Location.walk_of_level hlevel]
  rfl

/-- What is admitted is not at the place of the folder, where no file can be. -/
theorem Admits.inward_ne_nil (h : folder.Admits artifact) : inward artifact ≠ [] := by
  intro hnil
  obtain ⟨before, hparts, hbefore⟩ :=
    FileTree.exists_parts_join folder.path h.relative folder.here
  have hleads := h.file
  simp only [hparts] at hleads
  have hinside : folder.tree.LeadsToFile folder.place (FileName.parts artifact) := by
    have hrest := hleads.of_append
    rwa [hbefore] at hrest
  have hfile : folder.tree.hasFile folder.place = true := by
    have hend := hinside.hasFile
    rwa [Location.walk_of_level h.level, show (FileName.parts artifact).filter _ = [] from hnil,
      List.append_nil] at hend
  cases hnames : FileName.parts artifact with
  | nil => exact FileName.parts_ne_nil artifact hnames
  | cons name names =>
    rw [hnames] at hinside
    exact FileTree.not_hasFile_of_hasFolder hinside.1 hfile

end ArtifactFolder

namespace Outcome

/-- What a program leaves behind is never the reply that there is no such artifact. -/
theorem reply_ne_notFound (o : Outcome) (artifact : String) (limit : Duration) :
    o.reply artifact limit ≠ .error (.artifactNotFound artifact) := by
  unfold reply
  split
  · nofun
  · split <;> nofun

end Outcome

namespace Artifacts

variable {a : Artifacts} {artifact : String} {input : Json}

/-- A call is answered with the name of its artifact exactly if this is not found. -/
theorem execute_eq_notFound_iff :
    a.execute artifact input = .error (.artifactNotFound artifact) ↔
      a.folder.locate? artifact = none := by
  unfold execute
  cases hpath : a.folder.locate? artifact with
  | none => exact iff_of_true rfl rfl
  | some path =>
    refine iff_of_false ?_ nofun
    cases hinterpreter : Interpreter.ofPath? path with
    | none => simp [hinterpreter]
    | some interpreter =>
      simp only [hinterpreter]
      exact Outcome.reply_ne_notFound _ _ _

end Artifacts

/-- An artifact is found exactly if it is admitted, under its path below the folder. This path is
followed to the place that it names, which is strictly below that of the folder, and there is a
file. The call of any other artifact is answered with its name. -/
theorem ArtifactFolder.found_inside (folder : ArtifactFolder) (artifact : String) :
    (∀ path, folder.locate? artifact = some path ↔
      folder.Admits artifact ∧ path = FileName.join folder.path artifact) ∧
    (∀ path, folder.locate? artifact = some path →
      let found := FileTree.place folder.here path
      folder.tree.resolve folder.here path = .ok found ∧ folder.tree.hasFile found = true ∧
        found = folder.place ++ inward artifact ∧ inward artifact ≠ []) ∧
    (∀ timeout interpretation input,
      Artifacts.execute ⟨folder, timeout, interpretation⟩ artifact input =
          .error (.artifactNotFound artifact) ↔ ¬folder.Admits artifact) := by
  refine ⟨fun path => locate?_eq_some_iff, fun path hpath => ?_, fun timeout program input => ?_⟩
  · obtain ⟨hadmits, rfl⟩ := locate?_eq_some_iff.mp hpath
    obtain ⟨location, hresolve, hfile⟩ :=
      FileTree.resolve_file_iff.mpr ⟨hadmits.short, hadmits.file⟩
    obtain rfl := FileTree.place_of_resolve hresolve
    exact ⟨hresolve, hfile, place_join hadmits.relative hadmits.level, hadmits.inward_ne_nil⟩
  · rw [Artifacts.execute_eq_notFound_iff]
    exact locate?_eq_none_iff

/-- Names that stay where they are do no harm. -/
example :
    let folder : ArtifactFolder :=
      ⟨.folder [("bin", .folder [("run.sh", .file .empty)])], [], "bin/"⟩
    folder.locate? ".//run.sh" = some "bin/.//run.sh" ∧ folder.locate? ".//" = none := by
  decide +kernel

end Stepwise
