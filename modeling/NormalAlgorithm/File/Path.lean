/-
  NormalAlgorithm.File.Path

  Paths as text.

    * `components`: the parts between slashes.
    * `isLongPart`, `isLongPath`: parts and paths that no file can have.
    * `normalPath`: the path without empty parts and without `.`.
    * `suffix`: what follows the last point of the last part, the point included.
-/

import NormalAlgorithm.Text.Split

namespace NormalAlgorithm.File

open NormalAlgorithm.Text

/-- The parts of a path that are not empty and not `.`. -/
def components (path : List Char) : List (List Char) :=
  (splitOn '/' path).filter fun part => !part.isEmpty && part != ['.']

/-- The length of a text in bytes. -/
def byteLength (s : List Char) : Nat := (String.ofList s).utf8ByteSize

/-- Whether a part is longer than the name of a file can be. -/
def isLongPart (part : List Char) : Bool := 255 < byteLength part

/-- Whether a path is longer than a path can be. -/
def isLongPath (path : List Char) : Bool := 4095 < byteLength path

/-- The slashes at the front of a normal path: two stay two, more are one. -/
def rootOf (path : List Char) : List Char :=
  match (path.takeWhile (· == '/')).length with
  | 0 => []
  | 2 => ['/', '/']
  | _ => ['/']

/-- The path in normal form; a path without parts is `.`. -/
def normalPath (path : List Char) : List Char :=
  let text := rootOf path ++ joinWith ['/'] (components path)
  if text.isEmpty then ['.'] else text

/-- The suffix of a part. A point at its start or its end makes none. -/
def suffixOfPart (part : List Char) : List Char :=
  let ending := (part.reverse.takeWhile (· != '.')).reverse
  if ending.isEmpty || ending.length + 1 ≥ part.length then [] else '.' :: ending

/-- The suffix of a path's last part. -/
def suffix (path : List Char) : List Char :=
  match (components path).getLast? with
  | some part => suffixOfPart part
  | none => []

end NormalAlgorithm.File
