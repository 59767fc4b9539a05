import SolarisMesh.Lib.Checked

/-!
# Paths

Slash-separated paths as text and as lists of names. A path that starts at the root and has
no `..` left is the list of its names; containment of such paths is the prefix order on lists.
-/

namespace SolarisMesh.Lib.Path

/-- One component of a path; `.` is skipped where the path is read. -/
inductive Component where
  | parentDir
  | normal (name : String)
deriving DecidableEq, Repr

/-- The names from the root down. -/
abbrev AbsolutePath := List String

def isAbsolute (path : String) : Bool :=
  path.toList.head? = some '/'

def components (path : String) : List Component :=
  (path.toList.splitOn '/').filterMap fun name =>
    if name = [] ∨ name = ['.'] then none
    else if name = ['.', '.'] then some .parentDir
    else some (.normal (String.ofList name))

/-- `path` read from the directory `base`. -/
def join (base path : String) : String :=
  if isAbsolute path then path
  else if base.toList.getLast? = some '/' ∨ base.toList = [] then base ++ path
  else base ++ "/" ++ path

/-- Walk `components` down from `names`; the root has no parent. -/
def walk (names : AbsolutePath) : List Component → Option AbsolutePath
  | [] => some names
  | .normal name :: rest => walk (names ++ [name]) rest
  | .parentDir :: rest => if names = [] then none else walk names.dropLast rest

/-- The text of an absolute path. -/
def render (path : AbsolutePath) : String :=
  "/" ++ "/".intercalate path

/-- `path` is `root` or lies below it. -/
def startsWith (path root : AbsolutePath) : Bool :=
  root.isPrefixOf path

lemma startsWith_iff {path root : AbsolutePath} : startsWith path root = true ↔ root <+: path := by
  rw [startsWith, List.isPrefixOf_iff_prefix]

lemma startsWith_trans {path middle root : AbsolutePath} (hpath : startsWith path middle = true)
    (hmiddle : startsWith middle root = true) : startsWith path root = true := by
  rw [startsWith_iff] at hpath hmiddle ⊢
  exact hmiddle.trans hpath

end SolarisMesh.Lib.Path
