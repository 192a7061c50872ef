import EnterpriseAcs.Luvos.PyText
import Mathlib.Data.List.Flatten
import Mathlib.Data.List.Infix
import Mathlib.Data.List.Perm.Basic

/-!
# The folders with the SCT logs

The folder with the results as `os.walk` goes through it. The order in which a file system lists a
folder is left open.

* `walk_perm`: in every order the walk comes to the same logs.
-/

namespace EnterpriseAcs.Luvos

/-- The errors that end the script. -/
inductive PyError where
  | osError
  | unicodeError
  | indexError
  | valueError
  deriving DecidableEq, Repr

/-- A file: its name, and its text up to the end, or up to where something is raised. A file that
cannot be opened has no text. -/
structure LogFile where
  name : Text
  text : Text
  failure : Option PyError := none

/-! ## Folders -/

inductive Folder where
  | mk (files : List LogFile) (folders : List (Text × Folder))

/-- What `os.walk` yields for a folder: its path and its files. -/
structure Visit where
  dirpath : Text
  filenames : List LogFile

mutual

/-- `os.walk`: a folder comes before those in it. The files and the folders of a folder come in
the order in which the file system lists them, which may be any. -/
inductive Walk : Text → Folder → List Visit → Prop where
  | mk {path : Text} {files filenames : List LogFile} {folders dirnames : List (Text × Folder)}
      {visits : List Visit} (hFiles : filenames.Perm files) (hFolders : dirnames.Perm folders)
      (hRest : Walks path dirnames visits) :
      Walk path (.mk files folders) (⟨path, filenames⟩ :: visits)

/-- The folders of a folder, one after the other. -/
inductive Walks : Text → List (Text × Folder) → List Visit → Prop where
  | nil {path : Text} : Walks path [] []
  | cons {path name : Text} {folder : Folder} {folders : List (Text × Folder)}
      {visits rest : List Visit} (hHead : Walk (pathJoin path name) folder visits)
      (hTail : Walks path folders rest) : Walks path ((name, folder) :: folders) (visits ++ rest)

end

/-- A log with the path of its folder. -/
structure SctLog where
  dirpath : Text
  text : Text
  failure : Option PyError

/-- `if ".log" in entry`. -/
def isLog (file : LogFile) : Bool := decide (".log".toList <:+: file.name)

def logsIn (dirpath : Text) (files : List LogFile) : List SctLog :=
  (files.filter isLog).map fun file => ⟨dirpath, file.text, file.failure⟩

/-- The logs in the order of the visits. -/
def logsOf (visits : List Visit) : List SctLog :=
  visits.flatMap fun visit => logsIn visit.dirpath visit.filenames

mutual

/-- The logs of a folder and of those in it. -/
def Folder.logs (path : Text) : Folder → List SctLog
  | .mk files folders => logsIn path files ++ foldersLogs path folders

def foldersLogs (path : Text) : List (Text × Folder) → List SctLog
  | [] => []
  | (name, folder) :: folders => folder.logs (pathJoin path name) ++ foldersLogs path folders

end

theorem logsIn_perm (dirpath : Text) {files files' : List LogFile} (h : files.Perm files') :
    (logsIn dirpath files).Perm (logsIn dirpath files') := (h.filter isLog).map _

theorem foldersLogs_eq (path : Text) (folders : List (Text × Folder)) :
    foldersLogs path folders =
      folders.flatMap fun folder => folder.2.logs (pathJoin path folder.1) := by
  induction folders with
  | nil => rw [foldersLogs, List.flatMap_nil]
  | cons folder folders ih => rw [foldersLogs, List.flatMap_cons, ih]

theorem foldersLogs_perm (path : Text) {folders folders' : List (Text × Folder)}
    (h : folders.Perm folders') : (foldersLogs path folders).Perm (foldersLogs path folders') := by
  rw [foldersLogs_eq, foldersLogs_eq]
  exact h.flatMap_right _

theorem logsOf_append (visits visits' : List Visit) :
    logsOf (visits ++ visits') = logsOf visits ++ logsOf visits' := List.flatMap_append

mutual

/-- In every order the walk comes to the logs of the folder. -/
theorem walk_perm {path : Text} {folder : Folder} {visits : List Visit} :
    Walk path folder visits → (logsOf visits).Perm (folder.logs path)
  | .mk hFiles hFolders hRest => by
    rw [Folder.logs]
    have hBelow := (walks_perm hRest).trans (foldersLogs_perm path hFolders)
    exact (logsIn_perm path hFiles).append hBelow

theorem walks_perm {path : Text} {folders : List (Text × Folder)} {visits : List Visit} :
    Walks path folders visits → (logsOf visits).Perm (foldersLogs path folders)
  | .nil => by
    rw [foldersLogs]
    exact .nil
  | .cons hHead hTail => by
    rw [foldersLogs, logsOf_append]
    exact (walk_perm hHead).append (walks_perm hTail)

end

mutual

/-- Such a walk is that in which nothing is reordered. -/
theorem exists_walk (path : Text) : ∀ folder : Folder, ∃ visits, Walk path folder visits
  | .mk files folders => by
    obtain ⟨visits, hRest⟩ := exists_walks path folders
    exact ⟨_, .mk (.refl files) (.refl folders) hRest⟩

theorem exists_walks (path : Text) :
    ∀ folders : List (Text × Folder), ∃ visits, Walks path folders visits
  | [] => ⟨[], .nil⟩
  | (name, folder) :: folders => by
    obtain ⟨visits, hHead⟩ := exists_walk (pathJoin path name) folder
    obtain ⟨rest, hTail⟩ := exists_walks path folders
    exact ⟨_, .cons hHead hTail⟩

end

end EnterpriseAcs.Luvos
