import DiagramScript.Export
import DiagramScript.Page.Batch
import DiagramScript.Page.Record
import DiagramScript.Record
import DiagramScript.Source

/-
  From diagram sources to pages and drawings.

  A generator holds checked settings. It puts sources, records or JSON texts on a page, and
  draws the page of a source.
-/

namespace DiagramScript

structure Generator where
  padding : Scalar
  background : String
  arrowPadding : Scalar
  /-- The scale of images, which an image checks once more. -/
  scale : Value

namespace Generator

/-- A generator of some settings; the first one out of range is refused. -/
def ofSettings (padding background arrowPadding scale : Value) : Except Fault Generator := do
  let padding ← Settings.measure "padding" padding
  let arrowPadding ← Settings.measure "arrow_padding" arrowPadding
  let _ ← Settings.scale scale
  let background ← Settings.background background
  .ok { padding, background, arrowPadding, scale }

/-- The generator without settings of its own. -/
def standard : Except Fault Generator :=
  ofSettings Settings.defaultPadding Settings.defaultBackground Settings.defaultArrowPadding
    Settings.defaultScale

/-- Puts instructions on a page. -/
def place (g : Generator) (p : Page) (is : List Instruction) : Report Page := do
  let (p, _) ← p.apply g.arrowPadding is
  return p

/-- Puts a source on a page. -/
def compile (g : Generator) (p : Page) (source : String) : Report Page := do
  let is ← Source.instructions source
  g.place p is

/-- Puts instruction records on a page. -/
def compileRecords (g : Generator) (p : Page) (records : Value) : Report Page := do
  let is ← Record.instructions records
  g.place p is

/-- Puts the records of a JSON text on a page. -/
def compileJson (g : Generator) (p : Page) (text : String) (room : Nat := text.length) :
    Report Page := do
  let is ← Record.instructionsOfJson text room
  g.place p is

/-- Draws a page. -/
def draw (g : Generator) (p : Page) : Except Fault String :=
  Svg.render p.shapes g.background g.padding

/-- Draws a source. -/
def renderSvg (g : Generator) (source : String) : Report String := do
  let p ← g.compile Page.empty source
  g.draw p

/-- Saves the scalable drawing of a source. -/
def saveSvg (g : Generator) (f : Folder) (source file : String) : Report Unit := do
  let p ← g.compile Page.empty source
  Export.saveSvg f p.shapes file (.text g.background) (.ofScalar g.padding)

/-- Saves the image of a source. -/
def savePng (g : Generator) (f : Folder) (source file : String) : Report Unit := do
  let p ← g.compile Page.empty source
  Export.savePng f p.shapes file (.text g.background) (.ofScalar g.padding) g.scale

end Generator

end DiagramScript
