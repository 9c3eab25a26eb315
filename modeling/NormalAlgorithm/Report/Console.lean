/-
  NormalAlgorithm.Report.Console

  The console that is printed to. It takes marked up text and tables, and how it shows them
  is its own affair: it may cut lines to its width, draw emoji for their codes and widen
  tabs. So a console is an argument of whatever prints to one.

    * `Console`: how text is escaped and what printing puts out.
    * `shown`: what marked up text stands for, without its styles and without the control
      characters that would move the cursor.
    * `Console.usual`: the console of the program, which has any width and no emoji.
-/

import NormalAlgorithm.Report.Table
import NormalAlgorithm.Text.Markup

namespace NormalAlgorithm.Report

open NormalAlgorithm.Text

/-- A console. -/
structure Console where
  /-- Text as markup that stands for it (`escape`). -/
  escape : List Char → List Char
  /-- What printing marked up text puts out, the line feed included (`Console.print`). -/
  print : List Char → List Char
  /-- What printing a table of marked up texts puts out. -/
  printTable : Table → List Char

/-- Bell, backspace, vertical tab, form feed and carriage return. -/
def isCursorControl (c : Char) : Bool :=
  c = '\x07' || c = '\x08' || c = '\x0B' || c = '\x0C' || c = '\r'

/-- What marked up text puts on the screen. -/
def shown (markup : List Char) : List Char := (Markup.plain markup).filter (!isCursorControl ·)

/-- The console of the program. -/
def Console.usual : Console where
  escape := Markup.escape
  print markup := shown markup ++ ['\n']
  printTable table := (table.map shown).render

end NormalAlgorithm.Report
