/-
Files in the store.

What was written is read back, whatever the name looks like: on its way a name
passes folders only, and writing does not touch a folder.  Where a file cannot be
written none can be read, and creating folders keeps every file.
-/

import Rollup.FileStore
import Rollup.Proofs.Membership

namespace Rollup
namespace FileStore

variable {store other : FileStore} {name : String} {bytes : Bytes} {path : Path}

theorem entry?_put_self (entry : StoreEntry) (notRoot : ¬path.isRoot = true) :
    entry? (store.put path entry) path = some entry := by
  unfold entry?
  rw [if_neg notRoot]
  exact (OrderedMap.get?_insert _ _ _ _).trans (if_pos rfl)

theorem entry?_put_of_ne {asked : Path} (entry : StoreEntry) (elsewhere : asked ≠ path) :
    entry? (store.put path entry) asked = store.entry? asked := by
  unfold entry?
  split
  · rfl
  · exact (OrderedMap.get?_insert _ _ _ _).trans (if_neg elsewhere)

theorem entry?_put_of_missing {asked : Path} {entry found : StoreEntry}
    (missing : store.entry? path = none) (isThere : store.entry? asked = some found) :
    entry? (store.put path entry) asked = some found := by
  have elsewhere : asked ≠ path := by
    intro same
    rw [same, missing] at isThere
    cases isThere
  rw [entry?_put_of_ne entry elsewhere, isThere]

/-- Walking only asks which paths are folders. -/
theorem walk_of_folders
    (kept : ∀ path, store.entry? path = some .folder → other.entry? path = some .folder)
    {segments : List String} {current target : Path}
    (arrived : store.walk current segments = .ok target) :
    other.walk current segments = .ok target := by
  induction segments generalizing current with
  | nil => exact arrived
  | cons segment rest inductionHypothesis =>
      unfold walk at arrived ⊢
      cases found : store.entry? current with
      | none =>
          rw [found] at arrived
          cases arrived
      | some entry =>
          rw [found] at arrived
          cases entry with
          | file _ => cases arrived
          | folder =>
              rw [kept current found]
              exact inductionHypothesis arrived

theorem readFile_eq_ok_iff :
    store.readFile name = .ok bytes ↔
      ∃ path, store.locate name = .ok path ∧ store.entry? path = some (.file bytes) := by
  unfold readFile
  cases located : store.locate name with
  | error fault => simp
  | ok path =>
      cases found : store.entry? path with
      | none => simp [found]
      | some entry => cases entry <;> simp [found]

/-! ### Writing -/

theorem writeFile_eq_ok_iff :
    store.writeFile name bytes = .ok other ↔
      ∃ path, store.locate name = .ok path ∧ store.entry? path ≠ some .folder ∧
        other = store.put path (.file bytes) := by
  unfold writeFile
  cases located : store.locate name with
  | error fault => simp
  | ok path =>
      cases found : store.entry? path with
      | none => simp [found, eq_comm]
      | some entry => cases entry <;> simp [found, eq_comm]

theorem readFile_of_writeFile (written : store.writeFile name bytes = .ok other) :
    other.readFile name = .ok bytes := by
  obtain ⟨path, located, notFolder, rfl⟩ := writeFile_eq_ok_iff.mp written
  have notRoot : ¬path.isRoot = true := by
    intro isRoot
    exact notFolder (if_pos isRoot)
  refine readFile_eq_ok_iff.mpr ⟨path, walk_of_folders ?_ located, ?_⟩
  -- no folder on the way of the name is the path written to, even after two dots
  · intro folder found
    have elsewhere : folder ≠ path := by
      intro same
      rw [same] at found
      exact notFolder found
    rw [entry?_put_of_ne _ elsewhere, found]
  · exact entry?_put_self _ notRoot

/-- Where a file can be read one can be written. -/
theorem readFile_ne_ok_of_writeFile {fault : StoreFault}
    (failed : store.writeFile name bytes = .error fault) (found : Bytes) :
    store.readFile name ≠ .ok found := by
  intro read
  obtain ⟨path, located, isFile⟩ := readFile_eq_ok_iff.mp read
  have notFolder : store.entry? path ≠ some .folder := by
    rw [isFile]
    intro same
    cases same
  rw [writeFile_eq_ok_iff.mpr ⟨path, located, notFolder, rfl⟩] at failed
  cases failed

/-! ### Creating folders -/

theorem entry?_of_createAlong {segments : List String} {current : Path} {entry : StoreEntry}
    (created : store.createAlong current segments = .ok other)
    (found : store.entry? path = some entry) : other.entry? path = some entry := by
  induction segments generalizing store current with
  | nil =>
      unfold createAlong at created
      split at created
      · cases created
        exact found
      · cases created
      · rename_i missing
        cases created
        exact entry?_put_of_missing missing found
  | cons segment rest inductionHypothesis =>
      unfold createAlong at created
      split at created
      · exact inductionHypothesis created found
      · cases created
      · rename_i missing
        exact inductionHypothesis created (entry?_put_of_missing missing found)

theorem readFile_of_createFolders {folder : String}
    (created : store.createFolders folder = .ok other) (read : store.readFile name = .ok bytes) :
    other.readFile name = .ok bytes := by
  obtain ⟨path, located, isFile⟩ := readFile_eq_ok_iff.mp read
  exact readFile_eq_ok_iff.mpr ⟨path,
    walk_of_folders (fun _ found => entry?_of_createAlong created found) located,
    entry?_of_createAlong created isFile⟩

end FileStore
end Rollup
