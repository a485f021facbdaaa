import DealFlow360.Pdf.Layout

/-!
# What is on the pages of a report

Every block draws the lines of its data in their order. Facts and narratives
look for room line by line and box by box; a table row is drawn as one, so that
one which is taller than the content area runs out of it at the foot of its
page.

`Draws` says of a drawing step which lines of which datum it draws, in order,
that it never moves up, and under which condition all of it is inside the page.
It composes: `Draws.fold` for lists of steps, one lemma for each kind of step
(`draws_line`, `draws_pair`, `draws_drawWrapped`, `draws_drawTableRow`), and
then one for each kind of block.

- `drawnInside_iff`: what is drawn is inside the content area exactly where no
  table row is taller than it;
- `text_kept_iff`: with the wrapping, the exact statement for every list of
  blocks;
- `text_lost`: a row of forty lines.
-/

namespace DealFlow360.Pdf

open Events (Text isSpaceUnit)
open Layout

/-- The baseline is in the content area. -/
def Drawn.Inside (drawing : Drawn) : Prop := contentBottom ≤ drawing.y ∧ drawing.y ≤ contentTop

instance (drawing : Drawn) : Decidable drawing.Inside := inferInstanceAs (Decidable (_ ∧ _))

/-! ## The lines of the data -/

section Data

variable (fonts : Fonts)

def rowLines (columns cells : List Text) : List Text :=
  cells.flatMap (cellLines fonts (columnWidth fonts columns) false)

def PdfBlock.lines : PdfBlock → Site → List Text
  | .facts _ entries, .factValue => entries.flatMap (valueLines fonts)
  | .table _ columns rows, .cell => (tableRows columns rows).flatMap (rowLines fonts columns)
  | .narrative title text disclaimer, .narrative => (narrativeLines fonts title text disclaimer).map (·.text)
  | _, _ => []

/-- The lines of the data are drawn in the content area, each once and in their order. -/
def DrawnInside (blocks : List PdfBlock) : Prop := ∀ site,
  ((drawBlocks fonts blocks).drawn.filter fun drawing => drawing.site = some site ∧ drawing.Inside).map (·.text) =
    blocks.flatMap fun block => block.lines fonts site

/-- The lines of a cell that one page has room for. -/
def pageLines : ℕ := ((contentTop - contentBottom) / 12).toNat + 1

/-- No row is taller than the content area. -/
def PdfBlock.RowsFit : PdfBlock → Prop
  | .table _ columns rows => ∀ cells ∈ tableRows columns rows, ∀ cell ∈ cells,
      (cellLines fonts (columnWidth fonts columns) false cell).length ≤ pageLines
  | _ => True

end Data

/-! ## What a step draws -/

/-- A step draws these lines, and all of them inside in case of the condition. -/
def Draws (run : Layout → Layout) (lines : Site → List Text) (fitting : Prop) : Prop :=
  ∀ layout : Layout, layout.y ≤ contentTop → ∃ drawings, (run layout).drawn = layout.drawn ++ drawings ∧
    (run layout).y ≤ contentTop ∧
    (∀ site, (drawings.filter fun drawing => drawing.site = some site).map (·.text) = lines site) ∧
    ((∀ drawing ∈ drawings, drawing.site ≠ none → drawing.Inside) ↔ fitting)

def noLines (_ : Site) : List Text := []

/-- Lines that are drawn at one site, if at any. -/
def linesAt (site : Option Site) (texts : List Text) (other : Site) : List Text :=
  if site = some other then texts else []

theorem linesAt_append (site : Option Site) (texts texts' : List Text) (other : Site) :
    linesAt site texts other ++ linesAt site texts' other = linesAt site (texts ++ texts') other := by
  unfold linesAt
  split_ifs <;> rfl

theorem linesAt_flatMap {α : Type*} (site : Option Site) (texts : α → List Text) (items : List α) (other : Site) :
    items.flatMap (fun item => linesAt site (texts item) other) = linesAt site (items.flatMap texts) other := by
  unfold linesAt
  split_ifs
  · rfl
  · exact List.flatMap_eq_nil_iff.mpr fun _ _ => rfl

/-- The texts at a site of drawings that all have the same one. -/
theorem texts_at {drawings : List Drawn} {site : Option Site} (h : ∀ drawing ∈ drawings, drawing.site = site)
    (other : Site) :
    (drawings.filter fun drawing => drawing.site = some other).map (·.text) =
      linesAt site (drawings.map (·.text)) other := by
  unfold linesAt
  split_ifs with hother
  · rw [List.filter_eq_self.mpr fun drawing hmem => decide_eq_true ((h drawing hmem).trans hother)]
  · rw [List.filter_eq_nil_iff.mpr fun drawing hmem hsite =>
      hother ((h drawing hmem).symm.trans (of_decide_eq_true hsite)),
      List.map_nil]

theorem drawn_drawText (drawing : Drawn) (layout : Layout) : (layout.drawText drawing).drawn = layout.drawn ++
    [drawing] := by
  unfold Layout.drawn Layout.pages Layout.drawText
  simp only [List.flatten_append, List.flatten_singleton, List.append_assoc]

theorem drawn_ensureSpace (needed : ℤ) (layout : Layout) : (layout.ensureSpace needed).drawn = layout.drawn := by
  unfold Layout.ensureSpace
  split_ifs
  · unfold Layout.drawn Layout.pages
    simp only [List.flatten_append, List.flatten_singleton, List.append_nil]
  · rfl

theorem ensureSpace_y {needed : ℤ} {layout : Layout} (h : layout.y ≤ contentTop) :
    (layout.ensureSpace needed).y ≤ contentTop ∧
      (contentBottom ≤ (layout.ensureSpace needed).y - needed ∨ (layout.ensureSpace needed).y = contentTop) := by
  unfold Layout.ensureSpace
  split_ifs with hshort
  · exact ⟨le_rfl, Or.inr rfl⟩
  · exact ⟨h, Or.inl (not_lt.mp hshort)⟩

theorem Draws.comp {first second : Layout → Layout} {lines lines' : Site → List Text} {fitting fitting' : Prop}
    (h : Draws first lines fitting) (h' : Draws second lines' fitting') :
    Draws (fun layout => second (first layout)) (fun site => lines site ++ lines' site) (fitting ∧ fitting') := by
  intro layout hy
  obtain ⟨drawings, hdrawn, hy, hlines, hfit⟩ := h layout hy
  obtain ⟨drawings', hdrawn', hy', hlines', hfit'⟩ := h' (first layout) hy
  refine ⟨drawings ++ drawings', by rw [hdrawn', hdrawn, List.append_assoc], hy', fun site => ?_, ?_⟩
  · rw [List.filter_append, List.map_append, hlines, hlines']
  · rw [List.forall_mem_append, hfit, hfit']

theorem Draws.congr {run : Layout → Layout} {lines lines' : Site → List Text} {fitting fitting' : Prop}
    (h : Draws run lines fitting) (hlines : ∀ site, lines site = lines' site) (hfit : fitting ↔ fitting') :
    Draws run lines' fitting' := by
  intro layout hy
  obtain ⟨drawings, hdrawn, hy, htexts, hinside⟩ := h layout hy
  exact ⟨drawings, hdrawn, hy, fun site => (htexts site).trans (hlines site), hinside.trans hfit⟩

theorem Draws.fold {α : Type*} {run : α → Layout → Layout} {lines : α → Site → List Text} {fitting : α → Prop}
    (h : ∀ item, Draws (run item) (lines item) (fitting item)) (items : List α) :
    Draws (fun layout => items.foldl (fun layout item => run item layout) layout)
      (fun site => items.flatMap fun item => lines item site) (∀ item ∈ items, fitting item) := by
  induction items with
  | nil =>
      intro layout hy
      refine ⟨[], (List.append_nil _).symm, hy, fun site => rfl, ?_⟩
      exact ⟨fun _ _ hmem => absurd hmem List.not_mem_nil, fun _ _ hmem => absurd hmem List.not_mem_nil⟩
  | cons item items ih =>
      refine ((h item).comp ih).congr (fun site => rfl) ?_
      rw [List.forall_mem_cons]

/-- A step that only moves on. -/
theorem draws_of_moves {run : Layout → Layout} (hdrawn : ∀ layout, (run layout).drawn = layout.drawn)
    (hy : ∀ layout : Layout, layout.y ≤ contentTop → (run layout).y ≤ contentTop) : Draws run noLines True := by
  intro layout htop
  refine ⟨[], ?_, hy layout htop, fun site => rfl, iff_of_true (fun _ hmem => absurd hmem List.not_mem_nil) trivial⟩
  rw [hdrawn, List.append_nil]

theorem draws_nothing : Draws (fun layout => layout) noLines True := draws_of_moves (fun _ => rfl) fun _ h => h

theorem draws_down {amount : ℤ} (h : 0 ≤ amount) : Draws (·.down amount) noLines True := by
  refine draws_of_moves (fun _ => rfl) fun layout hy => ?_
  show layout.y - amount ≤ contentTop
  omega

theorem draws_ensureSpace (needed : ℤ) : Draws (·.ensureSpace needed) noLines True :=
  draws_of_moves (drawn_ensureSpace needed) fun _ hy => (ensureSpace_y hy).1

theorem inside_of_room {needed : ℤ} (hneeded : 0 ≤ needed) {layout : Layout} (hy : layout.y ≤ contentTop)
    {drawing : Drawn}
    (hdrawing : drawing.y = (layout.ensureSpace needed).y) : drawing.Inside := by
  obtain ⟨htop, hroom⟩ := @ensureSpace_y needed layout hy
  unfold Drawn.Inside
  rw [hdrawing]
  refine ⟨?_, htop⟩
  rcases hroom with hroom | hnew
  · omega
  · rw [hnew]
    decide

/-- A line where there is room for it. -/
theorem draws_line {needed amount : ℤ} (hneeded : 0 ≤ needed) (hamount : 0 ≤ amount) (drawing : ℤ → Drawn) (text : Text)
    (site : Option Site) (hdrawing : ∀ y, (drawing y).y = y ∧ (drawing y).text = text ∧ (drawing y).site = site) :
    Draws (fun layout => ((layout.ensureSpace needed).drawText (drawing (layout.ensureSpace needed).y)).down amount)
      (linesAt site [text]) True := by
  intro layout hy
  obtain ⟨hat, htext, hsite⟩ := hdrawing (layout.ensureSpace needed).y
  refine ⟨[drawing (layout.ensureSpace needed).y], ?_, ?_, fun other => ?_,
    iff_of_true (fun other hother _ => ?_) trivial⟩
  · show ((layout.ensureSpace needed).drawText _).drawn = _
    rw [drawn_drawText, drawn_ensureSpace]
  · have htop := (@ensureSpace_y needed layout hy).1
    show (layout.ensureSpace needed).y - amount ≤ contentTop
    omega
  · rw [texts_at fun other hother => (List.mem_singleton.mp hother) ▸ hsite, List.map_singleton, htext]
  · obtain rfl := List.mem_singleton.mp hother
    exact inside_of_room hneeded hy hat

/-- A line with another text in front of it. -/
theorem draws_pair {needed amount : ℤ} (hneeded : 0 ≤ needed) (hamount : 0 ≤ amount) (key value : ℤ → Drawn)
    (text : Text)
    (site : Option Site) (hkey : ∀ y, (key y).y = y ∧ (key y).site = none)
    (hvalue : ∀ y, (value y).y = y ∧ (value y).text = text ∧ (value y).site = site) :
    Draws (fun layout => (((layout.ensureSpace needed).drawText (key (layout.ensureSpace needed).y)).drawText
      (value (layout.ensureSpace needed).y)).down amount) (linesAt site [text]) True := by
  intro layout hy
  obtain ⟨hat, hnone⟩ := hkey (layout.ensureSpace needed).y
  obtain ⟨hat', htext, hsite⟩ := hvalue (layout.ensureSpace needed).y
  refine ⟨[key (layout.ensureSpace needed).y, value (layout.ensureSpace needed).y], ?_, ?_, fun other => ?_,
    iff_of_true (fun drawing hdrawing _ => ?_) trivial⟩
  · show (((layout.ensureSpace needed).drawText _).drawText _).drawn = _
    rw [drawn_drawText, drawn_drawText, drawn_ensureSpace, List.append_assoc]
    rfl
  · have htop := (@ensureSpace_y needed layout hy).1
    show (layout.ensureSpace needed).y - amount ≤ contentTop
    omega
  · rw [List.filter_cons_of_neg (by rw [hnone]; simp),
      texts_at fun other hother => (List.mem_singleton.mp hother) ▸ hsite, List.map_singleton, htext]
  · rcases List.mem_cons.mp hdrawing with rfl | hdrawing
    · exact inside_of_room hneeded hy hat
    · obtain rfl := List.mem_singleton.mp hdrawing
      exact inside_of_room hneeded hy hat'

/-! ## Columns -/

/-- The lines of a column, from a baseline on. -/
def column {α : Type*} (pitch : ℤ) (drawing : α → ℤ → Drawn) : List α → ℤ → List Drawn
  | [], _ => []
  | line :: lines, textY => drawing line textY :: column pitch drawing lines (textY - pitch)

section Column

variable {α : Type*} {pitch : ℤ} {drawing : α → ℤ → Drawn}

theorem drawn_drawColumn (lines : List α) (textY : ℤ) (layout : Layout) :
    (layout.drawColumn pitch drawing lines textY).drawn = layout.drawn ++ column pitch drawing lines textY ∧
      (layout.drawColumn pitch drawing lines textY).y = layout.y := by
  induction lines generalizing textY layout with
  | nil => exact ⟨(List.append_nil _).symm, rfl⟩
  | cons line lines ih =>
      obtain ⟨hdrawn, hy⟩ := ih (textY - pitch) (layout.drawText (drawing line textY))
      refine ⟨hdrawn.trans ?_, hy⟩
      rw [drawn_drawText, List.append_assoc]
      rfl

theorem map_text_column {text : α → Text} (h : ∀ line y, (drawing line y).text = text line) (lines : List α)
    (textY : ℤ) :
    (column pitch drawing lines textY).map (·.text) = lines.map text := by
  induction lines generalizing textY with
  | nil => rfl
  | cons line lines ih => exact congrArg₂ List.cons (h line textY) (ih _)

theorem site_of_mem_column {site : Option Site} (h : ∀ line y, (drawing line y).site = site) {lines : List α}
    {textY : ℤ} :
    ∀ d ∈ column pitch drawing lines textY, d.site = site := by
  induction lines generalizing textY with
  | nil => exact fun d hd => absurd hd List.not_mem_nil
  | cons line lines ih =>
      intro d hd
      rcases List.mem_cons.mp hd with rfl | hd
      · exact h line textY
      · exact ih d hd

/-- A column is inside where its last line is. -/
theorem column_inside_iff (hpitch : 0 ≤ pitch) (h : ∀ line y, (drawing line y).y = y) {lines : List α} {textY : ℤ}
    (htop : textY ≤ contentTop) : (∀ d ∈ column pitch drawing lines textY, d.Inside) ↔
      (lines ≠ [] → contentBottom + pitch * lines.length ≤ textY + pitch) := by
  induction lines generalizing textY with
  | nil => exact ⟨fun _ hnil => absurd rfl hnil, fun _ d hd => absurd hd List.not_mem_nil⟩
  | cons line lines ih =>
      have hfirst : (drawing line textY).Inside ↔ contentBottom ≤ textY := by
        unfold Drawn.Inside
        rw [h]
        exact and_iff_left htop
      have hrest := @ih (textY - pitch) (by omega)
      rw [column, List.forall_mem_cons, hfirst, hrest]
      have hlength : pitch * ((line :: lines).length : ℤ) = pitch * lines.length + pitch := by
        rw [List.length_cons]
        push_cast
        ring
      have hlines : 0 ≤ pitch * (lines.length : ℤ) := mul_nonneg hpitch (Int.natCast_nonneg _)
      rw [hlength]
      constructor
      · rintro ⟨hfirst, hrest⟩ -
        by_cases hnone : lines = []
        · subst hnone
          rw [List.length_nil, Int.natCast_zero, mul_zero]
          omega
        · have hlast := hrest hnone
          omega
      · intro hall
        have hlast := hall (List.cons_ne_nil _ _)
        exact ⟨by omega, fun _ => by omega⟩

end Column

/-! ## Blocks -/

section Blocks

variable {fonts : Fonts}

theorem draws_drawWrapped (text : Text) (size : ℕ) (useBold : Bool) :
    Draws (drawWrapped fonts text size useBold) noLines True := by
  have hsize : (0 : ℤ) ≤ size + 6 := by omega
  have hline (line : Text) := draws_line hsize hsize
    (fun y => { text := line, x := pageMargin, y, size, useBold, site := none }) line none fun y => ⟨rfl, rfl, rfl⟩
  refine (Draws.fold hline (wrap (if useBold then fonts.bold else fonts.font) size contentWidth text)).congr
    (fun site => ?_)
    (iff_of_true (fun _ _ => trivial) trivial)
  exact List.flatMap_eq_nil_iff.mpr fun _ _ => rfl

theorem draws_drawTitle (title : Option Text) : Draws (drawTitle fonts title) noLines True := by
  unfold drawTitle
  cases title with
  | none => exact draws_nothing
  | some title =>
      dsimp only
      by_cases htitle : title = []
      · simpa only [if_pos htitle] using draws_nothing
      · simp only [if_neg htitle]
        exact (((draws_ensureSpace 20).comp (draws_drawWrapped title 12 true)).comp (draws_down (by decide))).congr
          (fun _ => rfl) (iff_of_true ⟨⟨trivial, trivial⟩, trivial⟩ trivial)

theorem wrap_ne_nil (font : Font) (size : ℕ) (maxWidth : ℚ) (text : Text) : wrap font size maxWidth text ≠ [] := by
  unfold wrap
  dsimp only
  split_ifs with hnone hlines
  · exact List.cons_ne_nil _ _
  · exact List.length_pos_iff.mp hlines
  · exact List.cons_ne_nil _ _

/-! ### Facts -/

theorem draws_drawFact (fact : Fact) :
    Draws (drawFact fonts fact) (linesAt (some .factValue) (valueLines fonts fact)) True := by
  obtain ⟨line, lines, hlines⟩ := List.exists_cons_of_ne_nil (wrap_ne_nil fonts.font 11
    (max 80 (fonts.round (fonts.round (contentWidth - keyWidth fonts fact) - 8))) fact.value)
  have hvalue : valueLines fonts fact = line :: lines := hlines
  have hfirst := @draws_pair 16 14 (by decide) (by decide)
    (fun y =>
      { text := clip (keyText fact) fonts.bold 11 (keyMax fonts), x := pageMargin, y, size := 11, useBold := true,
        site := none })
    (fun y => { text := line, x := fonts.round (pageMargin + keyWidth fonts fact), y, size := 11, useBold := false,
                site := some .factValue }) line (some .factValue) (fun y => ⟨rfl, rfl⟩) fun y => ⟨rfl, rfl, rfl⟩
  have hextra (extra : Text) := @draws_line 14 14 (by decide) (by decide)
    (fun y => { text := extra, x := pageMargin + 12, y, size := 11, useBold := false, site := some .factValue }) extra
    (some .factValue) fun y => ⟨rfl, rfl, rfl⟩
  have hboth := hfirst.comp (Draws.fold hextra lines)
  unfold drawFact
  dsimp only
  rw [hvalue]
  refine hboth.congr (fun site => ?_) (iff_of_true ⟨trivial, fun _ _ => trivial⟩ trivial)
  rw [linesAt_flatMap, linesAt_append]
  exact congrArg (linesAt _ · site) (congrArg (line :: ·) (List.flatMap_singleton' lines))

theorem draws_drawFacts (title : Option Text) (entries : List Fact) :
    Draws (drawFacts fonts title entries) (linesAt (some .factValue) (entries.flatMap (valueLines fonts))) True := by
  unfold drawFacts
  dsimp only
  by_cases hnone : entries = []
  · subst hnone
    refine ((draws_drawTitle title).comp (draws_drawWrapped _ 11 false)).congr (fun site => ?_)
      (iff_of_true ⟨trivial, trivial⟩ trivial)
    unfold linesAt
    split_ifs <;> rfl
  · simp only [if_neg hnone]
    have hall := ((@draws_drawTitle fonts title).comp (Draws.fold (@draws_drawFact fonts) entries)).comp
      (@draws_down 6 (by decide))
    refine hall.congr (fun site => ?_) (iff_of_true ⟨⟨trivial, fun _ _ => trivial⟩, trivial⟩ trivial)
    rw [linesAt_flatMap]
    exact List.append_nil _

/-! ### Tables -/

theorem le_foldl_max (lengths : List ℕ) (start : ℕ) :
    start ≤ lengths.foldl max start ∧ ∀ length ∈ lengths, length ≤ lengths.foldl max start := by
  induction lengths generalizing start with
  | nil => exact ⟨le_rfl, fun length hmem => absurd hmem List.not_mem_nil⟩
  | cons first lengths ih =>
      obtain ⟨hstart, hall⟩ := ih (max start first)
      exact ⟨(le_max_left _ _).trans hstart, List.forall_mem_cons.mpr ⟨(le_max_right _ _).trans hstart, hall⟩⟩

theorem drawn_columns {pitch top : ℤ} (drawing : ℕ → Text → ℤ → Drawn) (columns : List (List Text × ℕ))
    (layout : Layout) :
    (columns.foldl (fun layout (lines, index) => layout.drawColumn pitch (drawing index) lines top) layout).drawn =
        layout.drawn ++ columns.flatMap (fun (lines, index) => column pitch (drawing index) lines top) ∧
      (columns.foldl (fun layout (lines, index) => layout.drawColumn pitch (drawing index) lines top)
        layout).y = layout.y := by
  induction columns generalizing layout with
  | nil => exact ⟨(List.append_nil _).symm, rfl⟩
  | cons entry columns ih =>
      obtain ⟨lines, index⟩ := entry
      obtain ⟨hdrawn, hy⟩ := @drawn_drawColumn _ pitch (drawing index) lines top layout
      obtain ⟨hdrawn', hy'⟩ := ih (layout.drawColumn pitch (drawing index) lines top)
      refine ⟨?_, hy'.trans hy⟩
      rw [List.foldl_cons, List.flatMap_cons, ← List.append_assoc, ← hdrawn]
      exact hdrawn'

/-- A cell of a row for which room was looked for is inside where a page has room for its lines. -/
theorem column_of_row {α : Type*} {drawing : α → ℤ → Drawn} (h : ∀ line y, (drawing line y).y = y) {lines : List α}
    {lineCount : ℕ} {top : ℤ} (htop : top ≤ contentTop)
    (hroom : contentBottom ≤ top - (lineCount * 12 + 8) ∨ top = contentTop) (hlength : lines.length ≤ lineCount) :
    (∀ d ∈ column 12 drawing lines top, d.Inside) ↔ lines.length ≤ pageLines := by
  have hpage : pageLines = 57 ∧ contentBottom = 80 ∧ contentTop = 762 := by decide
  obtain ⟨hlines, hbottom, hpageTop⟩ := hpage
  rw [column_inside_iff (by decide) h htop]
  rw [hpageTop] at htop hroom
  rw [hbottom] at hroom ⊢
  rw [hlines]
  constructor
  · intro hlast
    by_cases hnone : lines = []
    · subst hnone
      exact Nat.zero_le _
    · have hlast := hlast hnone
      omega
  · intro hshort _
    omega

/-- A row is inside where none of its cells has more lines than a page has room for. -/
theorem draws_drawTableRow (cells : List Text) (colWidth : ℚ) (header : Bool) :
    Draws (drawTableRow fonts cells colWidth header)
    (linesAt (if header then none else some .cell) (cells.flatMap (cellLines fonts colWidth header)))
    (header = false → ∀ cell ∈ cells, (cellLines fonts colWidth header cell).length ≤ pageLines) := by
  intro layout hy
  generalize hwrapped : cells.map (cellLines fonts colWidth header) = wrapped
  generalize hcount : (wrapped.map List.length).foldl max 1 = lineCount
  generalize hroomy : layout.ensureSpace (lineCount * 12 + 8) = roomy
  generalize hdrawing : (fun (index : ℕ) (line : Text) (textY : ℤ) => ({
    text := line, x := fonts.round (fonts.round (pageMargin + fonts.round (colWidth * index)) + 4), y :=
      textY, size := 9,
    useBold := header, site := if header then none else some .cell } : Drawn)) = drawing
  have hrun : drawTableRow fonts cells colWidth header layout = (wrapped.zipIdx.foldl (fun layout (lines, index) =>
      layout.drawColumn 12 (drawing index) lines roomy.y) roomy).down (lineCount * 12 + 8) := by
    rw [← hdrawing, ← hroomy, ← hcount, ← hwrapped]
    rfl
  have hlengths : ∀ lines ∈ wrapped, lines.length ≤ lineCount := fun lines hlines =>
    hcount ▸ (le_foldl_max (wrapped.map List.length) 1).2 _ (List.mem_map_of_mem hlines)
  have htop := (@ensureSpace_y (lineCount * 12 + 8) layout hy).1
  have hroom := (@ensureSpace_y (lineCount * 12 + 8) layout hy).2
  rw [hroomy] at htop hroom
  obtain ⟨hdrawn, hafter⟩ := @drawn_columns 12 roomy.y drawing wrapped.zipIdx roomy
  have hsite : ∀ d ∈ wrapped.zipIdx.flatMap fun (lines, index) => column 12 (drawing index) lines roomy.y,
      d.site = if header then none else some .cell := by
    intro d hd
    obtain ⟨⟨lines, index⟩, -, hd⟩ := List.mem_flatMap.mp hd
    exact site_of_mem_column (fun line y => by rw [← hdrawing]) d hd
  refine ⟨wrapped.zipIdx.flatMap fun (lines, index) => column 12 (drawing index) lines roomy.y, ?_, ?_,
    fun other => ?_, ?_⟩
  · rw [hrun]
    exact hdrawn.trans (congrArg (· ++ _) (hroomy ▸ drawn_ensureSpace _ layout))
  · rw [hrun]
    show (List.foldl _ roomy wrapped.zipIdx).y - (lineCount * 12 + 8 : ℤ) ≤ contentTop
    omega
  · have htexts : (wrapped.zipIdx.flatMap fun (lines, index) => column 12 (drawing index) lines roomy.y).map (·.text) =
        cells.flatMap (cellLines fonts colWidth header) := by
      have hcolumn (entry : List Text × ℕ) : (column 12 (drawing entry.2) entry.1 roomy.y).map (·.text) = entry.1 := by
        refine (map_text_column (fun line y => ?_) entry.1 roomy.y).trans (List.map_id _)
        rw [← hdrawing]
        rfl
      rw [List.map_flatMap, List.flatMap_congr fun entry _ => hcolumn entry, List.flatMap_def,
        List.zipIdx_map_fst, ← hwrapped,
        List.flatMap_def]
    rw [texts_at hsite, htexts]
  · cases header with
    | true =>
        refine iff_of_true (fun d hd hne => absurd (hsite d hd) hne) fun hfalse => absurd hfalse (by decide)
    | false =>
        have hrow (entry : List Text × ℕ) (hentry : entry ∈ wrapped.zipIdx) :=
          @column_of_row _ (drawing entry.2) (fun line y => by rw [← hdrawing]) entry.1 lineCount roomy.y htop hroom
            (hlengths entry.1 (List.fst_mem_of_mem_zipIdx hentry))
        constructor
        · intro hinside _ cell hcell
          have hmem : cellLines fonts colWidth false cell ∈ wrapped.zipIdx.map Prod.fst := by
            rw [List.zipIdx_map_fst, ← hwrapped]
            exact List.mem_map_of_mem hcell
          obtain ⟨entry, hentry, heq⟩ := List.mem_map.mp hmem
          rw [← heq]
          refine (hrow entry hentry).mp fun d hd => ?_
          have hd : d ∈ wrapped.zipIdx.flatMap fun (lines, index) => column 12 (drawing index) lines roomy.y :=
            List.mem_flatMap.mpr ⟨entry, hentry, hd⟩
          exact hinside d hd (by rw [hsite d hd]; exact Option.some_ne_none _)
        · intro hshort d hd _
          obtain ⟨entry, hentry, hd⟩ := List.mem_flatMap.mp hd
          have hmem := List.fst_mem_of_mem_zipIdx hentry
          rw [← hwrapped] at hmem
          obtain ⟨cell, hcell, heq⟩ := List.mem_map.mp hmem
          exact (hrow entry hentry).mpr (heq ▸ hshort rfl cell hcell) d hd

theorem draws_drawTable (title : Option Text) (columns : List Text) (rows : List (List Text)) :
    Draws (drawTable fonts title columns rows)
      (linesAt (some .cell) ((tableRows columns rows).flatMap (rowLines fonts columns)))
      ((PdfBlock.table title columns rows).RowsFit fonts) := by
  have hheader := @draws_drawTableRow fonts (tableColumns columns) (columnWidth fonts columns) true
  have hrows := Draws.fold (fun cells => @draws_drawTableRow fonts cells (columnWidth fonts columns) false)
    (tableRows columns rows)
  have hdown : (0 : ℤ) ≤ if rows = [] then 6 else 8 := by split_ifs <;> decide
  have hall := (((@draws_drawTitle fonts title).comp hheader).comp hrows).comp (draws_down hdown)
  refine hall.congr (fun site => ?_) ?_
  · simp only [Bool.false_eq_true, if_false]
    rw [linesAt_flatMap]
    exact List.append_nil _
  · unfold PdfBlock.RowsFit
    simp

/-! ### Narratives -/

/-- A box is inside where room was looked for and it has no more lines than fit in what was left of a page. -/
theorem column_of_box {α : Type*} {drawing : α → ℤ → Drawn} (h : ∀ line y, (drawing line y).y = y) {lines : List α}
    {remaining top : ℤ} (hremaining : remaining ≤ contentTop - contentBottom) (htop : top ≤ contentTop)
    (hroom : contentBottom ≤ top - (lines.length * 14 + 10 * 2) ∨ top = contentTop)
    (hlength : lines.length ≤ (max 1 ((remaining - 10 * 2) / 14)).toNat) :
    ∀ d ∈ column 14 drawing lines top, d.Inside := by
  have hpage : contentBottom = 80 ∧ contentTop = 762 := by decide
  obtain ⟨hbottom, hpageTop⟩ := hpage
  rw [column_inside_iff (by decide) h htop]
  rw [hpageTop] at hremaining htop hroom
  rw [hbottom] at hremaining hroom ⊢
  intro _
  omega

theorem draws_drawBoxes (fuel : ℕ) (lines : List NarrativeLine) (h : lines.length ≤ fuel) :
    Draws (drawBoxes fuel lines) (linesAt (some .narrative) (lines.map (·.text))) True := by
  have hnone : Draws (fun layout => layout) (linesAt (some .narrative) []) True :=
    draws_nothing.congr (fun site => by unfold linesAt; split_ifs <;> rfl) Iff.rfl
  induction fuel generalizing lines with
  | zero =>
      obtain rfl := List.length_eq_zero_iff.mp (Nat.le_zero.mp h)
      exact hnone
  | succ fuel ih =>
      cases lines with
      | nil => exact hnone
      | cons line lines =>
          intro layout hy
          generalize hfit : (max 1 ((layout.y - contentBottom - 10 * 2) / 14)).toNat = fit
          generalize hchunk : (line :: lines).take fit = chunk
          generalize hroomy : layout.ensureSpace (chunk.length * 14 + 10 * 2) = roomy
          generalize hdrawing : (fun (line : NarrativeLine) (textY : ℤ) => ({
            text := line.text, x := pageMargin + 10, y := textY, size := line.size, useBold := line.useBold,
            site := some .narrative } : Drawn)) = drawing
          have hrun : drawBoxes (fuel + 1) (line :: lines) layout = drawBoxes fuel ((line :: lines).drop chunk.length)
              ((roomy.drawColumn 14 drawing chunk roomy.y).down (chunk.length * 14 + 10 * 2 + 4)) := by
            rw [← hdrawing, ← hroomy, ← hchunk, ← hfit]
            rfl
          have htop := (@ensureSpace_y (chunk.length * 14 + 10 * 2) layout hy).1
          have hroom := (@ensureSpace_y (chunk.length * 14 + 10 * 2) layout hy).2
          rw [hroomy] at htop hroom
          have hlength : chunk.length =
              min fit (lines.length + 1) := by rw [← hchunk, List.length_take, List.length_cons]
          have hpositive : 0 < fit := by omega
          have hrest : ((line :: lines).drop chunk.length).length ≤ fuel := by
            rw [List.length_drop, List.length_cons]
            rw [List.length_cons] at h
            omega
          obtain ⟨hdrawn, hafter⟩ := @drawn_drawColumn _ 14 drawing chunk roomy.y roomy
          obtain ⟨drawings, hmore, hy', hlines, hinside⟩ := ih ((line :: lines).drop chunk.length) hrest
            ((roomy.drawColumn 14 drawing chunk roomy.y).down (chunk.length * 14 + 10 * 2 + 4)) (by
              show (roomy.drawColumn 14 drawing chunk roomy.y).y - (chunk.length * 14 + 10 * 2 + 4 : ℤ) ≤ contentTop
              omega)
          refine ⟨column 14 drawing chunk roomy.y ++ drawings, ?_, ?_, fun site => ?_, iff_of_true ?_ trivial⟩
          · rw [hrun, hmore]
            show (roomy.drawColumn 14 drawing chunk roomy.y).drawn ++ drawings = _
            rw [hdrawn, ← hroomy, drawn_ensureSpace, List.append_assoc]
          · rw [hrun]
            exact hy'
          · have hsite := @site_of_mem_column _ 14 drawing (some .narrative)
              (fun line y => by rw [← hdrawing]) chunk roomy.y
            have htext := @map_text_column _ 14 drawing (·.text) (fun line y => by rw [← hdrawing]) chunk roomy.y
            have hparts : chunk ++ (line :: lines).drop chunk.length = line :: lines :=
              (List.prefix_iff_eq_append.mp (hchunk ▸ List.take_prefix fit (line :: lines)))
            rw [List.filter_append, List.map_append, hlines, texts_at hsite, htext, linesAt_append,
              ← List.map_append, hparts]
          · refine List.forall_mem_append.mpr ⟨fun d hd _ => ?_, hinside.mpr trivial⟩
            exact @column_of_box _ drawing (fun line y => by rw [← hdrawing]) chunk (layout.y - contentBottom)
              roomy.y (by omega)
              htop hroom (by omega) d hd

theorem draws_drawNarrative (title : Option Text) (text : Text) (disclaimer : Option Text) :
    Draws (drawNarrative fonts title text disclaimer)
      (linesAt (some .narrative) ((narrativeLines fonts title text disclaimer).map (·.text))) True :=
  draws_drawBoxes _ _ le_rfl

/-! ### Documents -/

theorem draws_drawBlock (block : PdfBlock) :
    Draws (drawBlock fonts block) (block.lines fonts) (block.RowsFit fonts) := by
  cases block with
  | heading text level =>
      have hall := ((draws_ensureSpace (if level = 2 then 22 else 28)).comp
        (@draws_drawWrapped fonts text (if level = 2 then 13 else 18) true)).comp (@draws_down 6 (by decide))
      exact hall.congr (fun site => by cases site <;> rfl) (iff_of_true ⟨⟨trivial, trivial⟩, trivial⟩ trivial)
  | paragraph text =>
      have hall := (@draws_drawWrapped fonts text 11 false).comp (@draws_down 4 (by decide))
      exact hall.congr (fun site => by cases site <;> rfl) (iff_of_true ⟨trivial, trivial⟩ trivial)
  | facts title entries => exact (draws_drawFacts title entries).congr (fun site => by cases site <;> rfl) Iff.rfl
  | table title columns rows =>
      exact (draws_drawTable title columns rows).congr (fun site => by cases site <;> rfl) Iff.rfl
  | narrative title text disclaimer =>
      exact (draws_drawNarrative title text disclaimer).congr (fun site => by cases site <;> rfl) Iff.rfl

theorem map_filter_eq_iff {α β : Type*} {items : List α} {p : α → Bool} {f : α → β} :
    (items.filter p).map f = items.map f ↔ ∀ item ∈ items, p item = true := by
  constructor
  · intro h
    have hlength := congrArg List.length h
    rw [List.length_map, List.length_map] at hlength
    exact List.length_filter_eq_length_iff.mp hlength
  · intro h
    rw [List.filter_eq_self.mpr h]

/-- The data of a report is on its pages where no row is taller than the content area. -/
theorem drawnInside_iff (blocks : List PdfBlock) : DrawnInside fonts blocks ↔ ∀ block ∈ blocks,
    block.RowsFit fonts := by
  obtain ⟨drawings, hdrawn, -, hlines, hinside⟩ := Draws.fold (@draws_drawBlock fonts) blocks {} le_rfl
  have hall : (drawBlocks fonts blocks).drawn = drawings := hdrawn
  have hsite (site : Site) : ((drawings.filter fun drawing => drawing.site = some site ∧ drawing.Inside).map (·.text) =
      blocks.flatMap fun block => block.lines fonts site) ↔ ∀ drawing ∈ drawings, drawing.site = some site →
        drawing.Inside := by
    have hboth : (drawings.filter fun drawing => drawing.site = some site ∧ drawing.Inside) =
        (drawings.filter fun drawing => drawing.site = some site).filter fun drawing => decide drawing.Inside := by
      rw [List.filter_filter]
      refine List.filter_congr fun drawing _ => ?_
      rw [Bool.decide_and, Bool.and_comm]
    have htexts := hlines site
    dsimp only at htexts
    rw [hboth, ← htexts, map_filter_eq_iff]
    constructor
    · intro h drawing hmem hdrawing
      exact of_decide_eq_true (h drawing (List.mem_filter.mpr ⟨hmem, decide_eq_true hdrawing⟩))
    · intro h drawing hmem
      obtain ⟨hmem, hdrawing⟩ := List.mem_filter.mp hmem
      exact decide_eq_true (h drawing hmem (of_decide_eq_true hdrawing))
  unfold DrawnInside
  rw [hall, ← hinside]
  constructor
  · intro h drawing hmem hne
    obtain ⟨site, hdrawing⟩ := Option.ne_none_iff_exists'.mp hne
    exact (hsite site).mp (h site) drawing hmem hdrawing
  · intro h site
    exact (hsite site).mpr fun drawing hmem hdrawing => h drawing hmem (by rw [hdrawing]; exact Option.some_ne_none _)

/-- Wrapping keeps what is not white space. A line is too wide only where it is one character, or empty and there
is no room for that. The lines of the data are inside where no row has a cell of more lines than a page has room
for. -/
theorem text_kept_iff (font : Font) (size : ℕ) (maxWidth : ℚ) (text : Text) (blocks : List PdfBlock) :
    Spacing.ink isSpaceUnit (wrap font size maxWidth text).flatten = Spacing.ink isSpaceUnit (sanitizePdfText text) ∧
    ((∀ line ∈ wrap font size maxWidth text, font.widthOfTextAtSize line size ≤ maxWidth ∨ line.length = 1) ↔
      sanitizePdfText text ≠ [] ∨ font.widthOfTextAtSize [] size ≤ maxWidth) ∧
    (DrawnInside fonts blocks ↔ ∀ block ∈ blocks, block.RowsFit fonts) :=
  ⟨ink_wrap text, wrap_fits_iff, drawnInside_iff blocks⟩

end Blocks

/-- A font in which every character is as wide as an a in Helvetica. -/
def monospaced : Font where
  widthOfTextAtSize text size := text.length * size * (556 / 1000)
  monotone text more size := by
    rw [List.length_append]
    push_cast
    gcongr
    exact le_add_of_nonneg_right (Nat.cast_nonneg _)

/-- A cell of 58 characters under one of forty columns. -/
def narrowTable : PdfBlock := .table none (List.replicate 40 (codeUnits "C")) [[List.replicate 58 'a'.toNat]]

theorem text_lost : ¬∀ (fonts : Fonts) (blocks : List PdfBlock), DrawnInside fonts blocks := by
  intro h
  have hfit := (drawnInside_iff _).mp
      (h { font := monospaced, bold := monospaced, round := id } [narrowTable]) narrowTable
    List.mem_cons_self
  have hcell := hfit _ (List.mem_cons_self) (List.replicate 58 'a'.toNat) (by decide)
  exact absurd hcell (by decide +kernel)

end DealFlow360.Pdf
