/-
  NormalAlgorithm.File.Basic

  Files as a program sees them: what stands at a path, and the text of a file.

    * `Node`: a file, a directory, nothing, or no possible place.
    * `Files`: what stands at each path.
    * `Node.readText`: the text of a file, decoded strictly and with line ends
      turned into line feeds.
-/

import NormalAlgorithm.File.Path
import NormalAlgorithm.Text.Line

namespace NormalAlgorithm.File

open NormalAlgorithm.Text

/-- What stands at a path. -/
inductive Node where
  | missing
  /-- The path, or a part of it that was reached, is longer than names can be. -/
  | tooLong
  | directory
  | file (bytes : ByteArray)

/-- What stands at each path. -/
abbrev Files := List Char → Node

/-- Why a text could not be read. -/
inductive ReadFault where
  | isMissing
  | isTooLong
  | isDirectory
  | undecodable
  deriving DecidableEq, Repr

/-- The file that holds a text. -/
def Node.ofText (text : List Char) : Node := .file (String.ofList text).toUTF8

/-- The text of a file. -/
def Node.readText : Node → Except ReadFault (List Char)
  | .missing => .error .isMissing
  | .tooLong => .error .isTooLong
  | .directory => .error .isDirectory
  | .file bytes =>
    match String.fromUTF8? bytes with
    | some s => .ok (unifyNewlines s.toList)
    | none => .error .undecodable

end NormalAlgorithm.File
