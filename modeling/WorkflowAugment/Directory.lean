import WorkflowAugment.Text.Split

/-!
# The directory of a path

A slash-separated path is cleaned by looking at its text alone: its segments are put on a stack one by one, where an empty
segment and `.` do nothing and `..` takes the top off. What cannot be taken off stays as a leading run of `..` in a
relative path and vanishes in a rooted one.
-/

namespace WorkflowAugment

namespace Directory

/-- The segment that names the directory itself. -/
def here : List Char := ['.']

/-- The segment that names the directory above. -/
def above : List Char := ['.', '.']

/-- The stack of segments, top first, after one segment more. -/
def push (rooted : Bool) (stack : List (List Char)) (segment : List Char) : List (List Char) :=
  if segment = [] ∨ segment = here then stack
  else if segment = above then
    match stack with
    | [] => if rooted then [] else [above]
    | top :: rest => if top ≠ above then rest else if rooted then stack else above :: stack
  else segment :: stack

/-- The path begins at the root. -/
def isRooted (path : List Char) : Bool := path.head? = some '/'

/-- The segments of a path that remain once it is cleaned. -/
def segments (path : List Char) : List (List Char) :=
  ((Text.split '/' path).foldl (push (isRooted path)) []).reverse

/-- The shortest path that names the same place. -/
def clean (path : List Char) : List Char :=
  let joined := Text.join '/' (segments path)
  if isRooted path then '/' :: joined else if joined = [] then here else joined

/-- The path up to and including its last slash, empty if there is none. -/
def upToLastSlash (path : List Char) : List Char := (path.reverse.dropWhile (· ≠ '/')).reverse

end Directory

/-- The directory that a path lies in, cleaned: `.` if the path has no slash. -/
def directoryOf (path : String) : String :=
  String.ofList (Directory.clean (Directory.upToLastSlash path.toList))

end WorkflowAugment
