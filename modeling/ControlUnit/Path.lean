/-!
# Paths

File paths as texts, with `/` between their components. Two paths are the same if
their components are: repeated and trailing separators do not count, nor does a
single dot, except at the very beginning. Two dots are kept as they are.

The image of a source file is written next to it with the extension `hex`, or where
the caller says, but never onto the source file itself.
-/

namespace ControlUnit.Path

/-! ## Components -/

/-- A component of a path. -/
inductive Component where
  /-- The root, at the beginning of an absolute path. -/
  | root
  /-- A single dot at the beginning of a relative path. -/
  | here
  /-- Two dots. -/
  | up
  | name (text : List Char)
  deriving DecidableEq, Repr

/-- The texts between the separators of a path. -/
def pieces (path : List Char) : List (List Char) := path.splitOn '/'

/-- The component that a piece inside a path is. Empty pieces and single dots are none. -/
def component? (piece : List Char) : Option Component :=
  if piece = [] ∨ piece = ['.'] then none
  else if piece = ['.', '.'] then some .up
  else some (.name piece)

def components (path : List Char) : List Component :=
  let first := match path with
    | '/' :: _ => [.root]
    | _ => if (pieces path).head? = some ['.'] then [.here] else []
  first ++ (pieces path).filterMap component?

/-! ## Extensions -/

/-- The pieces of a path up to the last one that is not an empty piece or a single dot. -/
def trimmedPieces (path : List Char) : List (List Char) :=
  ((pieces path).reverse.dropWhile fun piece => piece == [] || piece == ['.']).reverse

/-- A file name without its extension, which begins at the last dot. A dot at the
beginning begins no extension. -/
def stem (name : List Char) : List Char :=
  let parts := name.splitOn '.'
  let before := ['.'].intercalate parts.dropLast
  if parts.length = 1 ∨ before = [] then name else before

/-- The file name that a path ends in. Two dots are none. -/
def fileName? (path : List Char) : Option (List Char) :=
  (trimmedPieces path).getLast?.filter fun name => name != ['.', '.']

def extension (name : List Char) : List Char := name.drop ((stem name).length + 1)

/-- A path without as many of its last characters as the extension of its file name
has. Where the file name ends the path, they are the extension. -/
def withoutExtension (path : List Char) : List Char :=
  match fileName? path with
  | none => path
  | some name => path.take (path.length - (extension name).length)

/-- A path with the extension of its file name replaced: the old one is taken away, and
then the new one is put after what is left of the file name. If no file name is left,
nothing is put there. -/
def withExtension (new path : List Char) : List Char :=
  let bare := withoutExtension path
  match fileName? bare with
  | none => bare
  | some name => ['/'].intercalate ((trimmedPieces bare).dropLast ++ [stem name ++ '.' :: new])

/-! ## The path of an image -/

/-- The image would be written onto the source file. -/
structure OverwriteError where
  path : String
  deriving DecidableEq, Repr

/-- The report of a refused image path. -/
def OverwriteError.message (error : OverwriteError) : String :=
  "refusing to overwrite source file " ++ error.path

/-- The path of the image of a source file, or the refusal to write it there. -/
def forImage (source : String) (output? : Option String) : Except OverwriteError String :=
  let target := match output? with
    | some output => output
    | none => String.ofList (withExtension "hex".toList source.toList)
  if components target.toList = components source.toList then .error ⟨target⟩ else .ok target

end ControlUnit.Path
