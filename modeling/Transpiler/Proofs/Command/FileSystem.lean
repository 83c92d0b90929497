import Transpiler.Command.FileTree

/-!
Contract: file systems as maps from places to contents.

Owns: what a place where files are kept must promise, so that its files are such a map:
reading changes nothing, and writing puts the whole contents in one place or fails without a
change; and that trees of files and directories keep the promise.

Does not own: when files are read and written.
-/

namespace Transpiler

section

variable {κ : Type} [DecidableEq κ]

/-- The map with the contents of one place replaced; without a place, the map itself. -/
def stored (contents : κ → Option ByteArray) (place : Option κ) (bytes : ByteArray) :
    κ → Option ByteArray :=
  fun key => if place = some key then some bytes else contents key

@[simp] theorem stored_none (contents : κ → Option ByteArray) (bytes : ByteArray) :
    stored contents none bytes = contents := by
  funext key
  simp [stored]

end

/-- A place where files are kept, whose files are a map from places to contents. -/
structure FileSystem (σ κ : Type) [DecidableEq κ] where
  storage : Storage (StateM σ)
  contents : σ → κ → Option ByteArray
  /-- Where a path leads. Nothing is kept at the end of a path that leads nowhere, or to a
  device. -/
  place? : σ → String → Option κ
  read_keeps : ∀ (path : String) (files : σ), ((storage.read path).run files).2 = files
  write_keeps : ∀ {path : String} {bytes : ByteArray} {files next : σ} {cause : FileError},
    (storage.write path bytes).run files = (.error cause, next) → contents next = contents files
  write_stores : ∀ {path : String} {bytes : ByteArray} {files next : σ},
    (storage.write path bytes).run files = (.ok (), next) →
      contents next = stored (contents files) (place? files path) bytes

namespace FileTree

/-- The contents of the file at a location. -/
def contentsAt (tree : FileTree) (location : List String) : Option ByteArray :=
  (tree.files.find? (·.1 == location)).map (·.2)

/-- The location of the file that a path leads to, unless it is the null device. -/
def place? (tree : FileTree) (path : String) : Option (List String) :=
  match tree.locate path with
  | .ok (.named parent name _) =>
      if parent ++ [name] = nullDevice then none else some (parent ++ [name])
  | _ => none

private theorem find?_replaced (files : List (List String × ByteArray)) (location key : List String)
    (bytes : ByteArray) :
    ((files.map fun file => if file.1 == location then (location, bytes) else file).find?
        (·.1 == key)).map (·.2) =
      if location = key ∧ files.any (·.1 == location) = true then some bytes
      else (files.find? (·.1 == key)).map (·.2) := by
  induction files with
  | nil => simp
  | cons file rest inductionHypothesis =>
      rw [List.map_cons, List.any_cons]
      by_cases isHere : (file.1 == location) = true
      · have here : file.1 = location := by simpa using isHere
        rw [if_pos isHere, List.find?_cons, List.find?_cons, here]
        cases isKey : location == key with
        | true => simp [show location = key by simpa using isKey]
        | false =>
            have otherKey : location ≠ key := by simpa using isKey
            simpa [otherKey] using inductionHypothesis
      · rw [if_neg isHere, List.find?_cons, List.find?_cons, Bool.of_not_eq_true isHere,
          Bool.false_or]
        cases isKey : file.1 == key with
        | true =>
            have otherKey : location ≠ key := by
              rintro rfl
              exact isHere isKey
            simp [otherKey]
        | false => exact inductionHypothesis

private theorem contentsAt_store {tree : FileTree} {location : List String} (bytes : ByteArray)
    (kept : location ≠ nullDevice) :
    (tree.store location bytes).contentsAt = stored tree.contentsAt (some location) bytes := by
  funext key
  rw [store, if_neg (by simpa using kept)]
  unfold stored contentsAt
  by_cases present : tree.files.any (·.1 == location) = true
  · rw [if_pos present, find?_replaced]
    simp [present]
  · have absent : tree.files.find? (·.1 == location) = none :=
      List.find?_eq_none.mpr fun file member isHere =>
        present (List.any_eq_true.mpr ⟨file, member, isHere⟩)
    rw [if_neg present, List.find?_append]
    by_cases isKey : location = key
    · subst isKey
      simp [absent]
    · simp [isKey]

/-- A file that was written is the one that the path leads to. -/
private theorem store_of_write {tree next : FileTree} {path : String} {bytes : ByteArray}
    (written : tree.write path bytes = .ok next) :
    ∃ parent name hasSlash, tree.locate path = .ok (.named parent name hasSlash) ∧
      next = tree.store (parent ++ [name]) bytes := by
  unfold write at written
  cases located : tree.locate path with
  | error cause =>
      rw [located] at written
      contradiction
  | ok target =>
      rw [located] at written
      cases target with
      | directory => contradiction
      | named parent name hasSlash =>
          refine ⟨parent, name, hasSlash, rfl, ?_⟩
          cases hasSlash with
          | true => contradiction
          | false =>
              cases found : tree.lookup parent name with
              | error cause => simp [found, bind, Except.bind] at written
              | ok entry =>
                  simp only [found, bind, Except.bind, Bool.false_eq_true, if_false] at written
                  split at written
                  · contradiction
                  · exact (Except.ok.inj written).symm

theorem run_write_of_ok {tree next : FileTree} {path : String} {bytes : ByteArray}
    (written : tree.write path bytes = .ok next) :
    (storage.write path bytes).run tree = (.ok (), next) := by
  simp only [storage, StateT.run_bind, StateT.run_get, pure_bind, written]
  rfl

private theorem run_write_of_error {tree : FileTree} {path : String} {bytes : ByteArray}
    {cause : FileError} (failed : tree.write path bytes = .error cause) :
    (storage.write path bytes).run tree = (.error cause, tree) := by
  simp only [storage, StateT.run_bind, StateT.run_get, pure_bind, failed]
  rfl

/-- Files and directories as a file system. -/
def fileSystem : FileSystem FileTree (List String) where
  storage := storage
  contents := contentsAt
  place? := place?
  read_keeps _ _ := rfl
  write_keeps := by
    intro path bytes files next cause written
    cases outcome : files.write path bytes with
    | ok other =>
        rw [run_write_of_ok outcome] at written
        cases (Prod.mk.inj written).1
    | error other =>
        rw [run_write_of_error outcome] at written
        rw [(Prod.mk.inj written).2]
  write_stores := by
    intro path bytes files next written
    cases outcome : files.write path bytes with
    | error other =>
        rw [run_write_of_error outcome] at written
        cases (Prod.mk.inj written).1
    | ok other =>
        rw [run_write_of_ok outcome] at written
        obtain ⟨_, rfl⟩ := Prod.mk.inj written
        obtain ⟨parent, name, hasSlash, located, rfl⟩ := store_of_write outcome
        rw [place?, located]
        dsimp only
        split
        next isDevice => simp [store, isDevice]
        next kept => exact contentsAt_store bytes kept

end FileTree
end Transpiler
