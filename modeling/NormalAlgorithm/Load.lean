/-
  NormalAlgorithm.Load

  Rules from files: listings, and algorithms of documents. How the text of a document is read
  is left to a reader that is given (`Load.Reader`).

    * `Load.listing`: the rules of a listing file, with the log record (`parse_rules_file`).
    * `Load.algorithm`: the rules of an algorithm, with the log record
      (`parse_yaml_algorithms_file`).
    * `Load.descriptions`: the algorithms of a file with their descriptions
      (`list_yaml_algorithms`).
-/

import NormalAlgorithm.Document
import NormalAlgorithm.File.Basic
import NormalAlgorithm.Journal
import NormalAlgorithm.Listing
import NormalAlgorithm.Yaml.Token

namespace NormalAlgorithm.Load

open NormalAlgorithm.File NormalAlgorithm.Journal

/-- Why the text of a document has no value. -/
inductive Unreadable where
  /-- It is not of the right form, and the reader says why (`YAMLError`). -/
  | invalid (why : List Char)
  /-- The reader failed on it. -/
  | failed (cause : Yaml.Fault)
  deriving Repr

/-- A reader of documents: the value of a text. Collections that stand inside themselves are
    left out there, from a level on. -/
abbrev Reader := Nat → List Char → Except Unreadable Value

/-- Why rules could not be loaded. -/
inductive Fault where
  | noListing (path : List Char)
  | noDocument (path : List Char)
  | pathTooLong
  | isDirectory
  | undecodable
  | listing (cause : ListingFault)
  | unreadable (cause : Unreadable)
  | document (cause : DocumentFault)
  deriving Repr

/-- The text of a fault. -/
def Fault.message : Fault → String
  | .noListing path => "Rules file not found: " ++ String.ofList path
  | .noDocument path => "Algorithm file not found: " ++ String.ofList path
  | .pathTooLong => "File name too long"
  | .isDirectory => "Is a directory"
  | .undecodable => "Not UTF-8 text"
  | .listing cause => cause.message
  | .unreadable (.invalid why) => "Invalid YAML: " ++ String.ofList why
  | .unreadable (.failed _) => "Unreadable document"
  | .document cause => cause.message

/-- Whether a fault is one of those that a user is told of (`MarkovError`); any other ends
    the program. -/
def Fault.isReported : Fault → Bool
  | .listing _ => true
  | .unreadable (.invalid _) => true
  | .document cause => cause.isReported
  | _ => false

/-- The text at a path. -/
def textAt (files : Files) (path : List Char) (missing : Fault) : Except Fault (List Char) :=
  match (files (normalPath path)).readText with
  | .ok text => .ok text
  | .error .isMissing => .error missing
  | .error .isTooLong => .error .pathTooLong
  | .error .isDirectory => .error .isDirectory
  | .error .undecodable => .error .undecodable

/-- The rules of a listing file. -/
def listing (files : Files) (path : List Char) : Except Fault (List Rule × Record) :=
  match textAt files path (.noListing path) with
  | .error fault => .error fault
  | .ok text =>
    match Listing.parse text with
    | .error cause => .error (.listing cause)
    | .ok rules => .ok (rules, .loadedFile rules.length (normalPath path))

/-- The value of a document file, seen from a level on (`_load_yaml_file`). -/
def document (read : Reader) (files : Files) (path : List Char) (levels : Nat) :
    Except Fault Value :=
  match textAt files path (.noDocument path) with
  | .error fault => .error fault
  | .ok text => (read levels text).mapError .unreadable

/-- The level of statements: they stand in the rules of an algorithm among those of a
    document. -/
def statementLevel : Nat := 4

/-- The level of descriptions: they stand in an algorithm among those of a document. -/
def descriptionLevel : Nat := 3

/-- The rules of an algorithm in a document file. -/
def algorithm (m : Machine) (read : Reader) (files : Files) (path : List Char) (name : Value) :
    Except Fault (List Rule × Record) :=
  match document read files path statementLevel with
  | .error fault => .error fault
  | .ok value =>
    match Document.rules m value name with
    | .error cause => .error (.document cause)
    | .ok rules => .ok (rules, .loadedAlgorithm rules.length name.display)

/-- The algorithms of a document file with their descriptions. -/
def descriptions (read : Reader) (files : Files) (path : List Char) :
    Except Fault (List (Value × Value)) :=
  match document read files path descriptionLevel with
  | .error fault => .error fault
  | .ok value => (Document.descriptions value).mapError .document

end NormalAlgorithm.Load
