/-
  NormalAlgorithm.File.Tree

  A finite tree of files under a working directory. The directories on the way to a
  file are there too.

    * `Tree.lookup`: what stands at a path. The parts are followed one by one, so
      every part but the last has to be a directory, and so has the last if a
      slash follows it.
-/

import NormalAlgorithm.File.Basic

namespace NormalAlgorithm.File

open NormalAlgorithm.Text

/-- Files and directories by their parts. -/
structure Tree where
  entries : List (List (List Char) × Node)

namespace Tree

/-- The tree of files given by their paths. -/
def ofFiles (files : List (List Char × Node)) : Tree :=
  ⟨files.map fun f => (components f.1, f.2)⟩

/-- What stands at a place given by its parts, the last first. -/
def nodeAt (t : Tree) (place : List (List Char)) : Node :=
  match t.entries.find? fun e => e.1 == place.reverse with
  | some (_, node) => node
  | none =>
    if t.entries.any fun e => place.reverse.isPrefixOf e.1 then .directory else .missing

/-- Whether a part leads from a directory outside the tree to another one. -/
def staysOutside (part : List Char) : Bool := part.isEmpty || part = ['.'] || part = ['.', '.']

/-- What stands at parts that start from a directory outside the tree. -/
def outside (parts : List (List Char)) : Node :=
  match parts.dropWhile staysOutside with
  | [] => .directory
  | part :: _ => if isLongPart part then .tooLong else .missing

/-- Follow parts from a directory; the place is given by its parts, the last first. -/
def follow (t : Tree) : List (List Char) → List (List Char) → Node
  | place, [] => if place.isEmpty then .directory else t.nodeAt place
  | place, part :: rest =>
    match if place.isEmpty then Node.directory else t.nodeAt place with
    | .directory =>
      if part.isEmpty || part = ['.'] then t.follow place rest
      else if part = ['.', '.'] then
        match place with
        | [] => outside rest
        | _ :: outer => t.follow outer rest
      else if isLongPart part then .tooLong
      else t.follow (part :: place) rest
    | _ => .missing

/-- What stands at a path. Nothing is known outside the tree but that there are
    directories around it. -/
def lookup (t : Tree) : Files := fun path =>
  if path.isEmpty || path.contains '\x00' then .missing
  else if isLongPath path then .tooLong
  else if path.head? = some '/' then outside (splitOn '/' path)
  else t.follow [] (splitOn '/' path)

end Tree

end NormalAlgorithm.File
