/-!
# Paths

Slash-separated paths and their clean form: no empty segments, no `.`, and no `..` but at the head of a
relative path.
-/

namespace Ceylon.Files.Path

/-- The segments of a path between its slashes. -/
def split (path : String) : List String :=
  (path.toList.splitOn '/').map String.ofList

/-- Adds a segment to a clean list of segments, given innermost first. -/
def step (rooted : Bool) (done : List String) (segment : String) : List String :=
  match segment with
  | "" => done
  | "." => done
  | ".." =>
    match done with
    | [] => if rooted then [] else [".."]
    | ".." :: _ => ".." :: done
    | _ :: outer => outer
  | _ => segment :: done

/-- Whether a path begins at the root. -/
def isRooted (path : String) : Bool :=
  path.startsWith "/"

/-- The clean segments of a path, outermost first. -/
def segments (path : String) : List String :=
  ((split path).foldl (step (isRooted path)) []).reverse

/-- The clean form of a path; an empty one is the current directory. -/
def clean (path : String) : String :=
  let body := "/".intercalate (segments path)
  if isRooted path then "/" ++ body
  else if body.isEmpty then "." else body

/-- Joins paths and cleans the result; empty ones do not count. -/
def join (paths : List String) : String :=
  match paths.filter (!·.isEmpty) with
  | [] => ""
  | paths => clean ("/".intercalate paths)

/-- The last segment of a path. -/
def base (path : String) : String :=
  if path.isEmpty then "."
  else match ((split path).filter (!·.isEmpty)).getLast? with
    | none => "/"
    | some segment => segment

/-- What is left of a list behind its beginning, if it begins so. -/
def dropStart? : List String → List String → Option (List String)
  | [], rest => some rest
  | _ :: _, [] => none
  | a :: start, b :: rest => if a = b then dropStart? start rest else none

/-- The way to a path from a folder that it lies in; none if it does not. -/
def below? (folder path : String) : Option String :=
  if isRooted folder != isRooted path then none
  else match dropStart? (segments folder) (segments path) with
    | none => none
    | some [] => some "."
    | some rest => some ("/".intercalate rest)

end Ceylon.Files.Path
