/-!
# Paths

A path is text: names between slashes. A name `.` stands for the directory it is looked up in, `..`
for the one around it, and several slashes in a row count as one. A slash in front starts at the
root, a slash behind asks for a directory.

## Main definitions

* `Path`, `Path.ofString` — the names of a path
* `Path.ancestors` — a path and the directories it needs, from the inside out
* `joinPath` — a name inside a directory
-/

namespace StraightLine

/-- The parts of a text between slashes, empty ones included. -/
def splitSlashes : List Char → List (List Char)
  | [] => [[]]
  | c :: cs =>
    if c = '/' then [] :: splitSlashes cs
    else
      match splitSlashes cs with
      | [] => [[c]]
      | part :: parts => (c :: part) :: parts

/-- A path, taken apart. -/
structure Path where
  /-- Whether it starts at the root. -/
  absolute : Bool
  /-- The names on the way, `.` and `..` among them. -/
  names : List String
  /-- Whether it ends in a slash. -/
  trailingSlash : Bool
  deriving DecidableEq, Repr

namespace Path

/-- Take a path apart. -/
def ofString (path : String) : Path where
  absolute := path.toList.head? == some '/'
  names := ((splitSlashes path.toList).filter (· ≠ [])).map String.ofList
  trailingSlash := path.toList.getLast? == some '/'

/-- Put a path together. -/
def render (p : Path) : String :=
  (if p.absolute then "/" else "") ++ String.intercalate "/" p.names ++
    (if p.trailingSlash then "/" else "")

/-- The names that matter for what a path is inside of: a `.` says nothing, except at the very
beginning of a path that does not start at the root. -/
def components (p : Path) : List String :=
  match p.names with
  | [] => []
  | name :: names =>
    let rest := names.filter (· ≠ ".")
    if name = "." ∧ p.absolute then rest else name :: rest

/-- The proper beginnings of a list, the empty one left out, shortest first. -/
def beginnings {α : Type} : List α → List (List α)
  | [] => []
  | [_] => []
  | a :: as => [a] :: (beginnings as).map (a :: ·)

/-- A path, then the directories that it is inside of, innermost first. The root and the directory
where relative paths start are always there and are left out. -/
def ancestors (path : String) : List String :=
  let p := ofString path
  match p.components with
  | [] => []
  | names =>
    path :: (beginnings names).reverse.map fun names => render ⟨p.absolute, names, false⟩

end Path

/-- The path of a name inside a directory. -/
def joinPath (dir name : String) : String :=
  if dir = "" ∨ (Path.ofString dir).trailingSlash then dir ++ name else dir ++ "/" ++ name

end StraightLine
