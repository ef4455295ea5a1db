import DiagramScript.Raster
import DiagramScript.Report
import DiagramScript.Settings
import DiagramScript.Svg

/-
  Drawings as files.

  Saving a drawing checks its settings, reports every shape that the drawing leaves out,
  writes the file once the drawing is made, and reports it. A drawing is saved under its
  tidy name; an image that is written without a report is written under the name as it is.
-/

namespace DiagramScript.Export

/-- Reports the shapes that a drawing leaves out. -/
def reportSkipped : List Shape → Report Unit
  | [] => return ()
  | s :: rest => do
    Report.tell (.skipped s.id s.kind.name)
    reportSkipped rest

/-- Writes a file under a name. -/
def write (f : Folder) (file : String) (c : FileContent) : Report Unit := do
  let place ← f.place file
  Report.tell (.saved place c)

/-- Saves a scalable drawing. -/
def saveSvg (f : Folder) (shapes : List Shape) (file : String) (background padding : Value) :
    Report Unit := do
  let padding ← Settings.padding padding
  reportSkipped (Svg.unsupported shapes)
  let text ← Svg.render shapes (Settings.backgroundText background) padding
  write f (FileName.tidy file) (.text text)
  Report.tell (.wroteSvg shapes.length (FileName.tidy file))

/-- The image of a drawing, whose scale is checked before its padding. -/
def image (shapes : List Shape) (background padding scale : Value) :
    Except Fault (List Raster.Call) := do
  let scale ← Settings.imageScale scale
  let padding ← Settings.padding padding
  Raster.drawnCalls shapes background padding scale

/-- What the file of an image holds. -/
def ofCalls (calls : List Raster.Call) : FileContent :=
  .image (Raster.imageSize calls).1 (Raster.imageSize calls).2

/-- Writes an image without a report. -/
def writePng (f : Folder) (shapes : List Shape) (file : String)
    (background padding scale : Value) : Report Unit := do
  let calls ← image shapes background padding scale
  write f file (ofCalls calls)

/-- Saves an image. -/
def savePng (f : Folder) (shapes : List Shape) (file : String)
    (background padding scale : Value) : Report Unit := do
  let scale ← Settings.imageScale scale
  let padding ← Settings.padding padding
  reportSkipped (Raster.unsupported shapes)
  let calls ← Raster.drawnCalls shapes background padding scale
  write f (FileName.tidy file) (ofCalls calls)
  Report.tell (.wrotePng shapes.length (FileName.tidy file))

end DiagramScript.Export
