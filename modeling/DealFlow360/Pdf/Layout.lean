import DealFlow360.Pdf.Wrap

/-!
# Report pages

The `Layout` of `pdf.renderer.ts`: blocks are drawn from the top of the content
area down, and `ensureSpace` begins a page where there is too little room. Only
texts are kept of what is drawn, without their colours.

A `Drawn` is one text with its place, its font and the datum it belongs to; the
layout carries the cursor, the pages so far and what was drawn. The heights,
widths and paddings are the numbers of the renderer, and widths of texts are
the font's. The recorder has no failure because the renderer has sanitized its
texts before they are drawn.
-/

namespace DealFlow360.Pdf

open Events (Text)

/-! ## The content area -/

/-- `PDF_PAGE`. -/
def pageWidth : ℕ := 595

def pageHeight : ℕ := 842

def pageMargin : ℕ := 48

def pageHeader : ℕ := 32

def pageFooter : ℕ := 32

def contentWidth : ℚ := pageWidth - pageMargin * 2

def contentTop : ℤ := pageHeight - pageMargin - pageHeader

def contentBottom : ℤ := pageMargin + pageFooter

/-! ## Drawing -/

structure Fonts where
  font : Font
  bold : Font
  /-- What arithmetic on widths is rounded to. -/
  round : ℚ → ℚ

/-- The texts of a report that are drawn as lines of its data. -/
inductive Site where
  | factValue
  | cell
  | narrative
  deriving DecidableEq, Repr

/-- A call of `drawText`, `y` being the baseline; titles, keys and column names have no site. -/
structure Drawn where
  text : Text
  x : ℚ
  y : ℤ
  size : ℕ
  useBold : Bool
  site : Option Site
  deriving DecidableEq

/-- The pages before, the page at hand, and where the next line is drawn on it. -/
structure Layout where
  earlier : List (List Drawn) := []
  page : List Drawn := []
  y : ℤ := contentTop

namespace Layout

def pages (layout : Layout) : List (List Drawn) := layout.earlier ++ [layout.page]

/-- What is drawn on all pages. -/
def drawn (layout : Layout) : List Drawn := layout.pages.flatten

def drawText (drawing : Drawn) (layout : Layout) : Layout := { layout with page := layout.page ++ [drawing] }

/-- `this.y -= amount`. -/
def down (amount : ℤ) (layout : Layout) : Layout := { layout with y := layout.y - amount }

def ensureSpace (needed : ℤ) (layout : Layout) : Layout :=
  if layout.y - needed < contentBottom then { earlier := layout.pages, page := [], y := contentTop } else layout

/-- Lines one below the other, from a baseline on. -/
def drawColumn {α : Type*} (pitch : ℤ) (drawing : α → ℤ → Drawn) : List α → ℤ → Layout → Layout
  | [], _, layout => layout
  | line :: lines, textY, layout =>
      drawColumn pitch drawing lines (textY - pitch) (layout.drawText (drawing line textY))

end Layout

open Layout

section Blocks

variable (fonts : Fonts)

def clip (text : Text) (font : Font) (size : ℕ) (maxWidth : ℚ) : Text :=
  let value := sanitizePdfText text
  if font.widthOfTextAtSize value size ≤ maxWidth then value
  else shorten value value.length ++ codeUnits "..."
where
  shorten (value : Text) : ℕ → Text
    | length + 2 =>
        if maxWidth < font.widthOfTextAtSize (value.take (length + 2) ++ codeUnits "...") size then
          shorten value (length + 1)
        else value.take (length + 2)
    | length => value.take length

def drawWrapped (text : Text) (size : ℕ) (useBold : Bool) (layout : Layout) : Layout :=
  (wrap (if useBold then fonts.bold else fonts.font) size contentWidth text).foldl (fun layout line =>
    let layout := layout.ensureSpace (size + 6)
    (layout.drawText { text := line, x := pageMargin, y := layout.y, size, useBold, site := none }).down
      (size + 6)) layout

/-- `if (block.title)`. -/
def drawTitle (title : Option Text) (layout : Layout) : Layout :=
  match title with
  | none => layout
  | some title => if title = [] then layout else (drawWrapped fonts title 12 true (layout.ensureSpace 20)).down 2

/-! ### Facts -/

structure Fact where
  key : Text
  value : Text

def keyText (fact : Fact) : Text := fact.key ++ codeUnits ": "

/-- `this.contentWidth * 0.4`. -/
def keyMax : ℚ := fonts.round (contentWidth * fonts.round (2 / 5))

def keyWidth (fact : Fact) : ℚ := min (fonts.bold.widthOfTextAtSize (keyText fact) 11) (keyMax fonts)

def valueLines (fact : Fact) : List Text :=
  let valueMax := fonts.round (fonts.round (contentWidth - keyWidth fonts fact) - 8)
  wrap fonts.font 11 (max 80 valueMax) fact.value

def drawFact (fact : Fact) (layout : Layout) : Layout :=
  let layout := layout.ensureSpace 16
  let key := clip (keyText fact) fonts.bold 11 (keyMax fonts)
  let layout := layout.drawText
    { text := key, x := pageMargin, y := layout.y, size := 11, useBold := true, site := none }
  let lines := valueLines fonts fact
  let layout := (layout.drawText
    { text := lines.headD [], x := fonts.round (pageMargin + keyWidth fonts fact), y := layout.y, size := 11,
      useBold := false,
      site := some .factValue }).down 14
  lines.tail.foldl (fun layout extra =>
    let layout := layout.ensureSpace 14
    (layout.drawText { text := extra, x := pageMargin + 12, y := layout.y, size := 11, useBold := false,
                       site := some .factValue }).down 14) layout

def drawFacts (title : Option Text) (entries : List Fact) (layout : Layout) : Layout :=
  let layout := drawTitle fonts title layout
  if entries = [] then drawWrapped fonts (codeUnits "No source facts provided.") 11 false layout
  else (entries.foldl (fun layout fact => drawFact fonts fact layout) layout).down 6

/-! ### Tables -/

def cellLines (colWidth : ℚ) (header : Bool) (cell : Text) : List Text :=
  wrap (if header then fonts.bold else fonts.font) 9 (fonts.round (colWidth - 8)) cell

def drawTableRow (cells : List Text) (colWidth : ℚ) (header : Bool) (layout : Layout) : Layout :=
  let wrapped := cells.map (cellLines fonts colWidth header)
  let lineCount := (wrapped.map List.length).foldl max 1
  let rowHeight : ℤ := lineCount * 12 + 8
  let layout := layout.ensureSpace rowHeight
  let top := layout.y
  (wrapped.zipIdx.foldl (fun layout (lines, index) => layout.drawColumn 12 (fun line textY =>
    { text := line, x := fonts.round (fonts.round (pageMargin + fonts.round (colWidth * index)) + 4),
      y := textY, size := 9,
      useBold := header, site := if header then none else some .cell }) lines top) layout).down rowHeight

def tableColumns (columns : List Text) : List Text := if 0 < columns.length then columns else [codeUnits "Value"]

def columnWidth (columns : List Text) : ℚ := fonts.round (contentWidth / (tableColumns columns).length)

/-- The rows under the columns; cells without a column are left out, and a table without rows has one of dashes. -/
def tableRows (columns : List Text) (rows : List (List Text)) : List (List Text) :=
  if rows = [] then [(tableColumns columns).map fun _ => codeUnits "—"]
  else rows.map fun row => (tableColumns columns).zipIdx.map fun (_, index) => row.getD index []

def drawTable (title : Option Text) (columns : List Text) (rows : List (List Text)) (layout : Layout) : Layout :=
  let layout := drawTitle fonts title layout
  let layout := drawTableRow fonts (tableColumns columns) (columnWidth fonts columns) true layout
  ((tableRows columns rows).foldl (fun layout cells => drawTableRow fonts cells (columnWidth fonts columns)
    false layout)
    layout).down (if rows = [] then 6 else 8)

/-! ### Narratives -/

structure NarrativeLine where
  text : Text
  size : ℕ
  useBold : Bool

/-- `AI_DISCLAIMER`. -/
def aiDisclaimer : Text := codeUnits "AI-generated narrative - not verified source data"

def narrativeLines (title : Option Text) (text : Text) (disclaimer : Option Text) : List NarrativeLine :=
  let width := contentWidth - 20
  (wrap fonts.bold 11 width (title.getD (codeUnits "AI-generated narrative"))).map
    ({ text := ·, size := 11, useBold := true }) ++
    (wrap fonts.font 8 width (disclaimer.getD aiDisclaimer)).map ({ text := ·, size := 8, useBold := false }) ++
      (wrap fonts.font 11 width text).map ({ text := ·, size := 11, useBold := false })

/-- The boxes of the lines; a box takes at least one. -/
def drawBoxes : ℕ → List NarrativeLine → Layout → Layout
  | 0, _, layout => layout
  | fuel + 1, lines, layout =>
      match lines with
      | [] => layout
      | lines =>
          let padding := 10
          let remaining := layout.y - contentBottom
          let fit := (max 1 ((remaining - padding * 2) / 14)).toNat
          let chunk := lines.take fit
          let boxHeight : ℤ := chunk.length * 14 + padding * 2
          let layout := layout.ensureSpace boxHeight
          let layout := layout.drawColumn 14 (fun line textY =>
            { text := line.text, x := pageMargin + 10, y := textY, size := line.size, useBold := line.useBold,
              site := some .narrative }) chunk layout.y
          drawBoxes fuel (lines.drop chunk.length) (layout.down (boxHeight + 4))

def drawNarrative (title : Option Text) (text : Text) (disclaimer : Option Text) (layout : Layout) : Layout :=
  let lines := narrativeLines fonts title text disclaimer
  drawBoxes lines.length lines layout

/-! ### Documents -/

/-- `PdfBlock`, without charts and spacers. -/
inductive PdfBlock where
  | heading (text : Text) (level : ℕ := 1)
  | paragraph (text : Text)
  | facts (title : Option Text) (entries : List Fact)
  | table (title : Option Text) (columns : List Text) (rows : List (List Text))
  | narrative (title : Option Text) (text : Text) (disclaimer : Option Text)

def drawBlock (block : PdfBlock) (layout : Layout) : Layout :=
  match block with
  | .heading text level =>
      (drawWrapped fonts text (if level = 2 then 13 else 18) true
        (layout.ensureSpace (if level = 2 then 22 else 28))).down 6
  | .paragraph text => (drawWrapped fonts text 11 false layout).down 4
  | .facts title entries => drawFacts fonts title entries layout
  | .table title columns rows => drawTable fonts title columns rows layout
  | .narrative title text disclaimer => drawNarrative fonts title text disclaimer layout

def drawBlocks (blocks : List PdfBlock) : Layout := blocks.foldl (fun layout block => drawBlock fonts block layout) {}

end Blocks

end DealFlow360.Pdf
