/-
  NormalAlgorithm.Proofs.Listing.File

  Listing files against the texts that are in them.

  Two conventions for the ends of lines meet when a listing is read from a file. Reading
  turns CR LF and CR into LF, and the lines of the text are split at CR LF, CR, LF and seven
  further characters. The first convention is part of the second: a boundary stays one
  boundary, and no boundary comes or goes (`Text.splitLines_unifyNewlines`). So the lines are
  the same with and without it, and with them their numbers.

    * `Load.listing_agrees_with_text`: a file with a text in it gives the rules of the text, or
      its fault with the same line number and message.
-/

import NormalAlgorithm.File.Tree
import NormalAlgorithm.Load
import NormalAlgorithm.Proofs.Text.Line
import NormalAlgorithm.Ruleset

namespace NormalAlgorithm

open NormalAlgorithm.File NormalAlgorithm.Text

/-! ## Texts in files -/

/-- What was written as a text is decoded as that text. -/
theorem fromUTF8?_toUTF8 (s : String) : String.fromUTF8? s.toUTF8 = some s := by
  have hvalid : s.toUTF8.IsValidUTF8 := s.isValidUTF8
  rw [String.fromUTF8?, dif_pos hvalid]
  rfl

/-- A text in a file is read with its line ends turned into line feeds, and nothing else is
    changed. -/
theorem File.Node.readText_ofText (t : List Char) :
    (Node.ofText t).readText = .ok (unifyNewlines t) := by
  rw [Node.ofText, Node.readText, fromUTF8?_toUTF8]
  exact congrArg (fun s => Except.ok (unifyNewlines s)) String.toList_ofList

/-! ## Listings in files -/

/-- Turning line ends into line feeds does not change a listing. -/
theorem Listing.parse_unifyNewlines (t : List Char) : parse (unifyNewlines t) = parse t := by
  rw [parse, splitLines_unifyNewlines, parse]

namespace Load

variable {files : Files} {path t : List Char}

theorem textAt_of_ofText (h : files (normalPath path) = .ofText t) (missing : Fault) :
    textAt files path missing = .ok (unifyNewlines t) := by
  rw [textAt, h, Node.readText_ofText]

theorem listing_of_ok {rules : List Rule} (h : files (normalPath path) = .ofText t)
    (hparse : Listing.parse t = .ok rules) :
    listing files path = .ok (rules, .loadedFile rules.length (normalPath path)) := by
  rw [listing, textAt_of_ofText h]
  simp only [Listing.parse_unifyNewlines, hparse]

theorem listing_of_error {fault : ListingFault} (h : files (normalPath path) = .ofText t)
    (hparse : Listing.parse t = .error fault) : listing files path = .error (.listing fault) := by
  rw [listing, textAt_of_ofText h]
  simp only [Listing.parse_unifyNewlines, hparse]

/-- A listing file agrees with the text in it, whatever its line ends are. If the text is a
    listing, its rules are those of the file, and of the ruleset made from the text. If it has
    a fault, loading the file fails with that fault, the number of its line included, and so
    does making a ruleset; the message is the same. The text itself may have its line ends
    turned into line feeds without a difference. -/
theorem listing_agrees_with_text (h : files (normalPath path) = .ofText t) :
    (∀ rules, Listing.parse t = .ok rules →
      listing files path = .ok (rules, .loadedFile rules.length (normalPath path)) ∧
      Ruleset.ofListing t = .ok ⟨rules⟩) ∧
    (∀ fault, Listing.parse t = .error fault →
      listing files path = .error (.listing fault) ∧ Ruleset.ofListing t = .error fault ∧
      (Fault.listing fault).message = fault.message) ∧
    Listing.parse (unifyNewlines t) = Listing.parse t := by
  refine ⟨?_, ?_, Listing.parse_unifyNewlines t⟩
  · intro rules hparse
    refine ⟨listing_of_ok h hparse, ?_⟩
    rw [Ruleset.ofListing, hparse]
    rfl
  · intro fault hparse
    refine ⟨listing_of_error h hparse, ?_, rfl⟩
    rw [Ruleset.ofListing, hparse]
    rfl

/-- A file with four kinds of line ends, CR LF CR and LF CR among them, has its fault on the
    seventh line, as the text has. -/
theorem listing_agrees_with_text_mixed_ends :
    ∃ t fault, Listing.parse t = .error fault ∧ fault.line = 7 ∧
      listing (Tree.ofFiles [("rules.txt".toList, .ofText t)]).lookup "./rules.txt".toList =
        .error (.listing fault) ∧
      (Fault.listing fault).message = fault.message := by
  let t := "a -> b\r\n\r\rb -> c\n\r\u2028-> c".toList
  have hfile : ∀ node, (Tree.ofFiles [("rules.txt".toList, node)]).lookup
      (normalPath "./rules.txt".toList) = node := fun _ => rfl
  have hparse : Listing.parse t = .error ⟨7, .noLeft (.text "-> c".toList)⟩ := rfl
  obtain ⟨_, hfault, _⟩ := listing_agrees_with_text (hfile (.ofText t))
  obtain ⟨hloaded, _, hmessage⟩ := hfault _ hparse
  exact ⟨t, _, hparse, rfl, hloaded, hmessage⟩

end Load

end NormalAlgorithm
