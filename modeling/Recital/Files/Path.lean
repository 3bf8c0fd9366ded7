/-!
# Paths

A path is a text whose parts are divided by slashes.  It is absolute when it starts with one.  Two
paths are the same when they have the same components: repeated slashes and parts `.` do not count,
except for a `.` at the very start.
-/

namespace Recital

/-- A part of a path. -/
inductive Path.Component
  /-- The slash at the start of an absolute path. -/
  | root
  /-- A `.` at the start of a relative path. -/
  | here
  /-- The parent directory, `..`. -/
  | up
  /-- A plain name. -/
  | name (s : String)
deriving DecidableEq

/-- A path in the file system. -/
structure Path where
  /-- The text of the path. -/
  text : String
deriving DecidableEq, Inhabited

namespace Path

/-- The texts between slashes, the one being read held in reverse. -/
def splitFrom (held : List Char) : List Char → List String
  | [] => [String.ofList held.reverse]
  | '/' :: cs => String.ofList held.reverse :: splitFrom [] cs
  | c :: cs => splitFrom (c :: held) cs

/-- The texts between slashes. -/
def split (p : Path) : List String := splitFrom [] p.text.toList

/-- The path starts at the root. -/
def isAbsolute (p : Path) : Bool :=
  match p.text.toList with
  | '/' :: _ => true
  | _ => false

/-- The component that a part stands for, if it is one wherever it stands. -/
def component? (part : String) : Option Component :=
  if part = "" ∨ part = "." then none
  else if part = ".." then some .up
  else some (.name part)

/-- The components of a path. -/
def components (p : Path) : List Component :=
  let parts := p.split
  let first : List Component :=
    if p.isAbsolute then [.root] else if parts.head? = some "." then [.here] else []
  first ++ parts.filterMap component?

/-- The path joined with another one, which stands alone when it is absolute. -/
def join (p q : Path) : Path :=
  if q.isAbsolute then q
  else if p.text.isEmpty || p.text.toList.getLast? = some '/' then ⟨p.text ++ q.text⟩
  else ⟨p.text ++ "/" ++ q.text⟩

/-- Characters before trailing slashes and trailing parts `.`, of characters in reverse order that
end a part; a slash at the very start is kept. -/
def trimReversed : List Char → List Char
  | '/' :: cs => if cs.isEmpty then ['/'] else trimReversed cs
  | '.' :: '/' :: cs => trimReversed ('/' :: cs)
  | cs => cs

/-- The path without its last component; there is none for the root and the empty path. -/
def parent? (p : Path) : Option Path :=
  match p.components.getLast? with
  | none => none
  | some .root => none
  | some _ =>
    let body := trimReversed p.text.toList.reverse
    let rest := body.dropWhile (· != '/')
    some ⟨String.ofList (trimReversed rest).reverse⟩

/-- Where following a component leads from the names of a place. -/
def Component.follow (here : List String) : Component → List String
  | .root => []
  | .here => here
  | .up => here.dropLast
  | .name s => here ++ [s]

/-- The names of the place that a path leads to; a relative one starts at `cwd`.  Whether anything
stands there is not asked. -/
def names (cwd : List String) (p : Path) : List String := p.components.foldl Component.follow cwd

end Path

end Recital
