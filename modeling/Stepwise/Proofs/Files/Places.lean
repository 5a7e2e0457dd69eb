/-
# Places

A path names a place, whether or not anything is there. Its names are taken one after the other,
from the root or from where the path begins: an empty name and a point stay, two points lead out
of a folder, and any other name leads into one. In a file system without links a path that can
be followed leads to its place; it can be followed to a file exactly if there is a file at its
place, every name is followed from a folder and neither the path nor a name is too long.

Key definitions: `Location.step`, `Location.walk`, `FileTree.place`, `FileTree.LeadsToFile`.
Key theorems: `FileTree.place_of_resolve`, `FileTree.resolve_file_iff`, `Location.walk_of_level`,
`FileTree.exists_parts_join`.
-/
import Stepwise.Files.Tree

namespace Stepwise

namespace Location

/-- Where a name leads from a place. -/
def step (place : Location) (name : String) : Location :=
  if FileName.isStay name then place
  else if name = ".." then place.dropLast
  else place ++ [name]

/-- Where a row of names leads from a place. -/
def walk (place : Location) (names : List String) : Location := names.foldl step place

theorem walk_append (place : Location) (before names : List String) :
    walk place (before ++ names) = walk (walk place before) names := List.foldl_append

theorem step_stay {name : String} (h : FileName.isStay name = true) (place : Location) :
    step place name = place := if_pos h

/-- Names none of which leads outwards lead inwards, one below the other. -/
theorem walk_of_level : ∀ {names : List String}, ".." ∉ names → ∀ place : Location,
    walk place names = place ++ names.filter fun name => !FileName.isStay name
  | [], _, place => (List.append_nil place).symm
  | name :: names, hlevel, place => by
    have hne : name ≠ ".." := fun h => hlevel (h ▸ List.mem_cons_self)
    have ih := walk_of_level (fun h => hlevel (List.mem_cons_of_mem name h))
    show walk (step place name) names = _
    rw [ih]
    cases hstay : FileName.isStay name with
    | true => rw [step_stay hstay, List.filter_cons_of_neg (by simp [hstay])]
    | false =>
      rw [step, if_neg (by simp [hstay]), if_neg hne, List.filter_cons_of_pos (by simp [hstay]),
        List.append_assoc, List.singleton_append]

end Location

namespace FileName

/-! ### The names of a path -/

theorem split_ne_nil : ∀ cs : List Char, split cs ≠ []
  | [] => List.cons_ne_nil _ _
  | c :: rest => by
    rw [split]
    split
    · exact List.cons_ne_nil _ _
    · split <;> exact List.cons_ne_nil _ _

theorem split_append_slash (ys : List Char) :
    ∀ xs : List Char, split (xs ++ '/' :: ys) = split xs ++ split ys
  | [] => rfl
  | c :: xs => by
    rw [List.cons_append, split, split, split_append_slash ys xs]
    by_cases hc : c = '/'
    · rw [if_pos hc, if_pos hc, List.cons_append]
    · rw [if_neg hc, if_neg hc]
      cases hxs : split xs with
      | nil => exact absurd hxs (split_ne_nil xs)
      | cons part parts => rfl

theorem parts_ne_nil (path : String) : parts path ≠ [] := by
  intro h
  exact split_ne_nil path.toList (List.map_eq_nil_iff.mp h)

/-- The names before a slash come before those after it. -/
theorem parts_append_slash {whole before after : String}
    (h : whole.toList = before.toList ++ '/' :: after.toList) :
    parts whole = parts before ++ parts after := by
  rw [parts, h, split_append_slash, List.map_append, parts, parts]

end FileName

namespace FileTree

open Location (walk step)

/-- The place that a path names from a location. -/
def place (here : Location) (path : String) : Location :=
  walk (start here path) (FileName.parts path)

/-- A row of names leads to a file: each of them can be followed from a folder. -/
def LeadsToFile (tree : FileTree) : Location → List String → Prop
  | place, [] => tree.hasFile place = true
  | place, name :: names =>
    tree.hasFolder place = true ∧ name.utf8ByteSize ≤ FileName.longestName ∧
      LeadsToFile tree (step place name) names

variable {tree : FileTree} {here location next : Location} {name path : String}
  {names : List String}

/-! ### Following names -/

theorem short_of_isStay (h : FileName.isStay name = true) :
    name.utf8ByteSize ≤ FileName.longestName := by
  simp only [FileName.isStay, Bool.or_eq_true, decide_eq_true_eq] at h
  rcases h with rfl | rfl <;> decide

theorem follow_eq_ok (h : tree.follow location name = .ok next) :
    tree.hasFolder location = true ∧ name.utf8ByteSize ≤ FileName.longestName ∧
      next = step location name := by
  unfold follow at h
  cases hfolder : tree.hasFolder location with
  | false =>
    rw [hfolder] at h
    contradiction
  | true =>
    rw [hfolder] at h
    refine ⟨rfl, ?_⟩
    cases hstay : FileName.isStay name with
    | true =>
      rw [hstay] at h
      exact ⟨short_of_isStay hstay, by rw [Location.step_stay hstay]; exact (Except.ok.inj h).symm⟩
    | false =>
      rw [hstay] at h
      simp only [Bool.not_true, Bool.false_eq_true, if_false] at h
      unfold step
      rw [hstay]
      by_cases hup : name = ".."
      · rw [if_pos hup] at h
        exact ⟨hup ▸ (by decide), by rw [if_pos hup]; exact (Except.ok.inj h).symm⟩
      · rw [if_neg hup] at h
        split at h
        · contradiction
        · split at h
          · exact ⟨Nat.le_of_not_lt ‹_›, by rw [if_neg hup]; exact (Except.ok.inj h).symm⟩
          · contradiction

theorem follow_eq_step (hfolder : tree.hasFolder location = true)
    (hshort : name.utf8ByteSize ≤ FileName.longestName)
    (hthere : (tree.find? (step location name)).isSome = true) :
    tree.follow location name = .ok (step location name) := by
  unfold follow
  rw [hfolder]
  unfold step at hthere ⊢
  cases hstay : FileName.isStay name with
  | true => rfl
  | false =>
    rw [hstay] at hthere
    by_cases hup : name = ".."
    · simp only [if_pos hup]
      rfl
    · simp only [if_neg hup, Bool.false_eq_true, if_false] at hthere ⊢
      rw [if_neg (Nat.not_lt.mpr hshort), if_pos hthere]
      rfl

theorem isSome_of_hasFolder (h : tree.hasFolder location = true) :
    (tree.find? location).isSome = true := by
  unfold hasFolder at h
  cases hfind : tree.find? location with
  | none => simp [hfind] at h
  | some _ => rfl

theorem isSome_of_hasFile (h : tree.hasFile location = true) :
    (tree.find? location).isSome = true := by
  unfold hasFile at h
  cases hfind : tree.find? location with
  | none => simp [hfind] at h
  | some _ => rfl

/-- No place has both a folder and a file. -/
theorem not_hasFile_of_hasFolder (h : tree.hasFolder location = true) :
    ¬tree.hasFile location = true := by
  unfold hasFolder at h
  unfold hasFile
  cases hfind : tree.find? location with
  | none => simp
  | some t =>
    rw [hfind] at h
    simpa using h

theorem LeadsToFile.isSome : ∀ {names : List String} {location : Location},
    LeadsToFile tree location names → (tree.find? location).isSome = true
  | [], _, h => isSome_of_hasFile h
  | _ :: _, _, h => isSome_of_hasFolder h.1

theorem LeadsToFile.hasFile : ∀ {names : List String} {location : Location},
    LeadsToFile tree location names → tree.hasFile (walk location names) = true
  | [], _, h => h
  | name :: names, location, h => by
    have hrest : tree.hasFile (walk (step location name) names) = true := hasFile h.2.2
    exact hrest

theorem LeadsToFile.of_append : ∀ {before : List String} {location : Location},
    LeadsToFile tree location (before ++ names) → LeadsToFile tree (walk location before) names
  | [], _, h => h
  | name :: before, location, h => by
    have hrest : LeadsToFile tree (walk (step location name) before) names := of_append h.2.2
    exact hrest

theorem followAll_cons (h : tree.followAll location (name :: names) = .ok next) :
    tree.hasFolder location = true ∧ name.utf8ByteSize ≤ FileName.longestName ∧
      tree.followAll (step location name) names = .ok next := by
  rw [followAll, List.foldlM_cons] at h
  cases hfollow : tree.follow location name with
  | error fault =>
    rw [hfollow] at h
    contradiction
  | ok between =>
    rw [hfollow] at h
    obtain ⟨hfolder, hshort, rfl⟩ := follow_eq_ok hfollow
    exact ⟨hfolder, hshort, h⟩

/-- Names that are followed lead to the place that they would lead to anyway. -/
theorem walk_of_followAll : ∀ {names : List String} {location next : Location},
    tree.followAll location names = .ok next → next = walk location names
  | [], _, _, h => (Except.ok.inj h).symm
  | name :: names, location, next, h => by
    obtain ⟨-, -, hrest⟩ := followAll_cons h
    have hnext : next = walk (step location name) names := walk_of_followAll hrest
    exact hnext

theorem leadsToFile_of_followAll : ∀ {names : List String} {location next : Location},
    tree.followAll location names = .ok next → tree.hasFile next = true →
      LeadsToFile tree location names
  | [], _, _, h, hfile => (Except.ok.inj h) ▸ hfile
  | name :: names, location, next, h, hfile => by
    obtain ⟨hfolder, hshort, hrest⟩ := followAll_cons h
    exact ⟨hfolder, hshort, leadsToFile_of_followAll hrest hfile⟩

theorem LeadsToFile.followAll : ∀ {names : List String} {location : Location},
    LeadsToFile tree location names → tree.followAll location names = .ok (walk location names)
  | [], _, _ => rfl
  | name :: names, location, ⟨hfolder, hshort, hrest⟩ => by
    rw [FileTree.followAll, List.foldlM_cons, follow_eq_step hfolder hshort hrest.isSome]
    exact followAll hrest

/-! ### Following paths -/

/-- A path that can be followed leads to its place. -/
theorem place_of_resolve (h : tree.resolve here path = .ok location) :
    location = place here path := by
  unfold resolve at h
  split at h
  · contradiction
  · split at h
    · contradiction
    · exact walk_of_followAll h

/-- A path can be followed to a file exactly if it is not too long and its names lead to one. -/
theorem resolve_file_iff :
    (∃ location, tree.resolve here path = .ok location ∧ tree.hasFile location = true) ↔
      path.utf8ByteSize ≤ FileName.longestPath ∧
        LeadsToFile tree (start here path) (FileName.parts path) := by
  constructor
  · rintro ⟨location, hresolve, hfile⟩
    unfold resolve at hresolve
    split at hresolve
    · contradiction
    · split at hresolve
      · contradiction
      · exact ⟨Nat.le_of_not_lt ‹_›, leadsToFile_of_followAll hresolve hfile⟩
  · rintro ⟨hshort, hleads⟩
    have hne : path ≠ "" := by
      rintro rfl
      -- the empty path has one name, which would be followed from a folder and stay there
      exact not_hasFile_of_hasFolder hleads.1 hleads.2.2
    refine ⟨_, ?_, hleads.hasFile⟩
    rw [resolve, if_neg hne, if_neg (Nat.not_lt.mpr hshort), hleads.followAll]

/-! ### Joined paths -/

theorem start_eq {whole before : String} (h : whole.toList.head? = before.toList.head?)
    (here : Location) : start here whole = start here before := by
  rw [start, start, FileName.isAbsolute, FileName.isAbsolute, h]

/-- What is below a folder is followed from the place of the folder. -/
theorem exists_parts_join (folder : String) (h : FileName.isAbsolute path = false)
    (here : Location) :
    ∃ before, FileName.parts (FileName.join folder path) = before ++ FileName.parts path ∧
      walk (start here (FileName.join folder path)) before = place here folder := by
  rw [FileName.join, h, if_neg Bool.false_ne_true]
  by_cases hempty : folder = ""
  · subst hempty
    rw [if_pos (by decide), String.empty_append]
    refine ⟨[], rfl, ?_⟩
    rw [start, h]
    rfl
  by_cases hslash : folder.toList.getLast? = some '/'
  · -- the last name of the folder is empty, so it is not there twice
    rw [if_pos (by simp [hslash])]
    obtain ⟨cs, hcs⟩ := List.getLast?_eq_some_iff.mp hslash
    have hfolder : folder.toList = (String.ofList cs).toList ++ '/' :: "".toList := by
      rw [hcs, String.toList_ofList]
      rfl
    have hwhole : (folder ++ path).toList = (String.ofList cs).toList ++ '/' :: path.toList := by
      rw [String.toList_append, hcs, String.toList_ofList, List.append_assoc]
      rfl
    refine ⟨FileName.parts (String.ofList cs), FileName.parts_append_slash hwhole, ?_⟩
    have hhead : (folder ++ path).toList.head? = folder.toList.head? := by
      rw [hwhole, hfolder]
      cases (String.ofList cs).toList <;> rfl
    rw [place, FileName.parts_append_slash hfolder, Location.walk_append, start_eq hhead]
    rfl
  · rw [if_neg (by simp [hempty, hslash])]
    have hwhole : (folder ++ "/" ++ path).toList = folder.toList ++ '/' :: path.toList := by
      rw [String.toList_append, String.toList_append, List.append_assoc]
      rfl
    refine ⟨FileName.parts folder, FileName.parts_append_slash hwhole, ?_⟩
    have hhead : (folder ++ "/" ++ path).toList.head? = folder.toList.head? := by
      rw [hwhole]
      cases hchars : folder.toList with
      | nil => exact absurd (String.toList_eq_nil_iff.mp hchars) hempty
      | cons c cs => rfl
    rw [start_eq hhead]
    rfl

end FileTree
end Stepwise
