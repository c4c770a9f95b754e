import WorkMesh.Encoding.Text

/-!
# Paths of files

The lexical operations on paths of a Unix system: cleaning, joining, the last
element and the relative path from one to another.
-/

namespace Encoding

/-- The elements of a path between the slashes. -/
def elements (path : Bytes) : List Bytes := (path.splitOn 47).filter (· ≠ [])

/-- The elements of the cleaned path, the last first. -/
def cleanElement (rooted : Bool) (kept : List Bytes) (element : Bytes) : List Bytes :=
  if element = bytes "." then kept
  else if element = bytes ".." then
    match kept with
    | [] => if rooted then [] else [element]
    | last :: rest => if last = bytes ".." then element :: kept else rest
  else element :: kept

def isRooted (path : Bytes) : Bool := path.head? = some 47

/-- `filepath.Clean`. -/
def cleanPath (path : Bytes) : Bytes :=
  let rooted := isRooted path
  let kept := ((elements path).foldl (cleanElement rooted) []).reverse
  if rooted then 47 :: [47].intercalate kept
  else if kept = [] then bytes "."
  else [47].intercalate kept

/-- `filepath.Join` of two paths that are not empty. -/
def joinPath (path element : Bytes) : Bytes := cleanPath (path ++ 47 :: element)

/-- `filepath.Base`. -/
def basePath (path : Bytes) : Bytes :=
  if path = [] then bytes "." else ((elements path).getLast?).getD [47]

/-- What is left of two lists behind their common beginning. -/
def dropCommon : List Bytes → List Bytes → List Bytes × List Bytes
  | a :: as, b :: bs => if a = b then dropCommon as bs else (a :: as, b :: bs)
  | as, bs => (as, bs)

/-- `filepath.Rel`, `none` for an error. -/
def relativePath (base target : Bytes) : Option Bytes :=
  let base := cleanPath base
  let target := cleanPath target
  if base = target then some (bytes ".")
  else if isRooted base ≠ isRooted target then none
  else
    let named (path : Bytes) := (elements path).filter (· ≠ bytes ".")
    let (up, down) := dropCommon (named base) (named target)
    if bytes ".." ∈ up then none
    else some ([47].intercalate (up.map (fun _ => bytes "..") ++ down))

example : cleanPath (bytes "/srv//work/../mesh/./x/") = bytes "/srv/mesh/x" := by decide +kernel

end Encoding
