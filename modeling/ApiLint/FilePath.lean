import ApiLint.Text.CharClass
set_option autoImplicit false

/-!
# File paths

A file path is kept as the text it was given as.  Its components are what counts when
two paths are compared: doubled separators, a separator at the end and `.` components
make no difference, except that a path that begins with `.` keeps it.
-/

namespace ApiLint.FilePath

/-! ## Components -/

/-- A path that begins at the root of the file system. -/
def isAbsolute (path : String) : Bool := path.toList.head? = some '/'

/-- The non-empty pieces between separators. -/
def pieces (path : String) : List String := (Text.split '/' path).filter fun piece => !piece.isEmpty

/-- The components of a path.  The root is a component of its own, spelled like the separator. -/
def components (path : String) : List String :=
  if isAbsolute path then "/" :: (pieces path).filter (· ≠ ".")
  else
    match pieces path with
    | first :: rest => first :: rest.filter (· ≠ ".")
    | [] => []

/-- Two texts name the same path. -/
def same (p q : String) : Bool := components p = components q

/-! ## Names and extensions -/

/-- The last component, unless it leads nowhere by name. -/
def fileName? (path : String) : Option String :=
  match (components path).getLast? with
  | some name => if name = "/" ∨ name = "." ∨ name = ".." then none else some name
  | none => none

/-- What follows the last point of a name; a point in front begins no extension. -/
def extensionOf? (name : List Char) : Option (List Char) :=
  let reversed := name.reverse
  match reversed.dropWhile (· ≠ '.') with
  | _ :: _ :: _ => some (reversed.takeWhile (· ≠ '.')).reverse
  | _ => none

/-- The extension of the last component. -/
def extension? (path : String) : Option String :=
  ((fileName? path).bind fun name => extensionOf? name.toList).map String.ofList

/-! ## Joining -/

/-- The path of `name` inside `directory`. -/
def join (directory name : String) : String :=
  if isAbsolute name then name
  else if directory.isEmpty ∨ directory.toList.getLast? = some '/' then directory ++ name
  else directory ++ "/" ++ name

/-! ## Lemmas -/

theorem same_refl (p : String) : same p p = true := by simp [same]

theorem same_symm {p q : String} (h : same p q = true) : same q p = true := by
  simp only [same, decide_eq_true_eq] at *
  exact h.symm

theorem same_trans {p q r : String} (h : same p q = true) (h' : same q r = true) :
    same p r = true := by
  simp only [same, decide_eq_true_eq] at *
  exact h.trans h'

end ApiLint.FilePath
