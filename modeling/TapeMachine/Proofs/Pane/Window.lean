import TapeMachine.Viewer.Draw

/-!
Contract: what a pane follows is inside the window that it shows.

Owns: which members of a list a window shows and where, the windows of the three panes that follow
something, and that each of them shows the place that is followed, whatever the offset was before
and however little room there is.

An offset is changed by keys without regard to what there is to show. The tape and the listing only
follow. The text is also kept from running off its last page, and that comes after following.
-/

namespace TapeMachine

/-! ## Windows -/

namespace Scroll

/-- An index is one of the places of a window that begins at an offset. -/
structure Shows (offset visible index : Nat) : Prop where
  begun : offset ≤ index
  inside : index < offset + visible

theorem shows_follow {visible : Nat} (room : 0 < visible) (offset index : Nat) :
    Shows (follow offset index visible) visible index where
  begun := follow_le_row room
  inside := row_lt_follow_add room

/-- An offset that is lowered to the last full page still shows every index that it showed. -/
theorem Shows.clamp {offset visible index total : Nat} (shows : Shows offset visible index)
    (within : index < total) : Shows (clamp offset total visible) visible index := by
  have begun := shows.begun
  have inside := shows.inside
  constructor
  · exact Nat.le_trans (Nat.min_le_left _ _) begun
  · unfold Scroll.clamp
    omega

theorem clamp_le (offset total visible : Nat) : clamp offset total visible ≤ total - visible :=
  Nat.min_le_right _ _

theorem visibleHeight_pos (height : Nat) : 0 < visibleHeight height :=
  Nat.lt_of_lt_of_le Nat.one_pos (Nat.le_max_right _ _)

/-- A member whose index is shown is in the window, as far behind its front as the index is behind
the offset. -/
theorem Shows.getElem?_window {α : Type} {offset visible index : Nat} {members : List α}
    (shows : Shows offset visible index) :
    (window offset visible members)[index - offset]? = members[index]? := by
  have begun := shows.begun
  have inside := shows.inside
  rw [window, List.getElem?_take_of_lt (by omega), List.getElem?_drop, Nat.add_sub_cancel' begun]

theorem Shows.exists_place {α : Type} {offset visible index : Nat} {members : List α} {member : α}
    (shows : Shows offset visible index) (found : members[index]? = some member) :
    ∃ place, place < visible ∧
      (window offset visible members.zipIdx)[place]? = some (member, index) := by
  have begun := shows.begun
  have inside := shows.inside
  refine ⟨index - offset, by omega, ?_⟩
  rw [shows.getElem?_window, List.getElem?_zipIdx, found, Option.map_some, Nat.zero_add]

end Scroll

namespace Pane

/-! ## The tape -/

namespace Tape

/-- The ruler, the cells and the marks below them, for some cells. -/
def rows (view : View) (shown : List Nat) : List Row :=
  [Row.ofSpans (shown.map rulerSpan),
    Row.ofSpans (shown.map fun cell =>
      cellSpan (view.image.memory[cell]?.getD "") (markAt view cell)),
    Row.ofSpans (shown.map fun cell => markSpan (markAt view cell))]

/-- If the watched cursor is on the tape, its cell is one of those in the window. The three columns
that the ruler gives it end inside the frame, if that has room for a cell at all. -/
def ShowsCursor (area : Area) (view : View) (offset : Nat) : Prop :=
  ∀ position, view.position? = some position → position < view.image.memory.length →
    ∃ place, 3 * place + 3 ≤ max area.inside.width 3 ∧
      (shownCells offset area.width view.image.memory.length)[place]? = some position

theorem columns_pos (width : Nat) : 0 < columns width :=
  Nat.lt_of_lt_of_le Nat.one_pos (Nat.le_max_right _ _)

theorem columns_fit (area : Area) : 3 * columns area.width ≤ max area.inside.width 3 := by
  simp only [columns, Area.inside]
  omega

theorem getElem?_shownCells {offset width count cell : Nat}
    (shows : Scroll.Shows offset (columns width) cell) (within : cell < count) :
    (shownCells offset width count)[cell - offset]? = some cell := by
  have begun := shows.begun
  have inside := shows.inside
  have start : min offset (count - 1) = offset := by omega
  unfold shownCells
  rw [start, List.getElem?_range' (by omega), Nat.one_mul, Nat.add_sub_cancel' begun]

theorem showsCursor_draw (screen : Screen) (area : Area) (view : View) (focused : Bool)
    (old : Nat) : ShowsCursor area view (draw screen area view focused old).2 := by
  intro position found within
  have followed : (draw screen area view focused old).2 =
      Scroll.follow old position (columns area.width) := by
    simp only [draw, found, Option.getD_some]
  rw [followed]
  have shows := Scroll.shows_follow (columns_pos area.width) old position
  have begun := shows.begun
  have inside := shows.inside
  have fit := columns_fit area
  exact ⟨position - Scroll.follow old position (columns area.width), by omega,
    getElem?_shownCells shows within⟩

end Tape

/-! ## The listing -/

namespace Listing

/-- The items of a window of the listing, that of the next instruction marked as such. -/
def items (area : Area) (instructions : List Instruction) (next offset : Nat) : List ListItem :=
  (Scroll.window offset (Scroll.visibleHeight area.height) (listing instructions).zipIdx).map
    fun entry => item entry.1 (entry.2 = next)

/-- The marked line of the next instruction is one of those in the window, and if the frame has
room, not behind the last of its rows. -/
def ShowsNext (area : Area) (instructions : List Instruction) (next offset : Nat) : Prop :=
  ∀ line, (listing instructions)[next]? = some line →
    ∃ place, place < max area.inside.height 1 ∧
      (items area instructions next offset)[place]? = some (item line true)

theorem draw_of_next (screen : Screen) (area : Area) (routine : Routine)
    {instructions : List Instruction} {next : Nat} (within : next < instructions.length)
    (focused : Bool) (old : Nat) :
    ∃ title,
      draw screen area routine instructions (some next) focused old =
        ((drawFrame screen area title focused).drawItems area.inside 0
            (items area instructions next
              (Scroll.follow old next (Scroll.visibleHeight area.height))),
          Scroll.follow old next (Scroll.visibleHeight area.height)) := by
  cases instructions with
  | nil => exact absurd within (Nat.not_lt_zero next)
  | cons first others => exact ⟨_, rfl⟩

theorem showsNext_follow (area : Area) (instructions : List Instruction) (next old : Nat) :
    ShowsNext area instructions next
      (Scroll.follow old next (Scroll.visibleHeight area.height)) := by
  intro line found
  have shows := Scroll.shows_follow (Scroll.visibleHeight_pos area.height) old next
  obtain ⟨place, within, member⟩ := shows.exists_place found
  refine ⟨place, within, ?_⟩
  rw [items, List.getElem?_map, member, Option.map_some, decide_eq_true rfl]

end Listing

/-! ## The text -/

namespace Source

/-- The rows of a window of the text, the current one marked as such. -/
def rows (area : Area) (text : List Char) (current : Option Nat) (offset : Nat) : List Row :=
  (Scroll.window offset (Scroll.visibleHeight area.height) (Text.lines text).zipIdx).map
    fun entry => row (entry.2 + 1) entry.1 (current = some (entry.2 + 1))

/-- If the text has the current line, its marked row is one of those in the window, and if the frame
has room, not behind the last of its rows. Lines are counted from one. -/
def ShowsLine (area : Area) (text : List Char) (current : Option Nat) (offset : Nat) : Prop :=
  ∀ number line, current = some (number + 1) → (Text.lines text)[number]? = some line →
    ∃ place, place < max area.inside.height 1 ∧
      (rows area text current offset)[place]? = some (row (number + 1) line true)

theorem showsLine_offset (area : Area) (text : List Char) (current : Option Nat) (old : Nat) :
    ShowsLine area text current
      (offset (Text.lines text).length current false old (Scroll.visibleHeight area.height)) := by
  intro number line standing found
  subst standing
  obtain ⟨within, -⟩ := List.getElem?_eq_some_iff.mp found
  have shows := (Scroll.shows_follow (Scroll.visibleHeight_pos area.height) old number).clamp within
  obtain ⟨place, inside, member⟩ := shows.exists_place found
  refine ⟨place, inside, ?_⟩
  simp only [offset, Nat.add_sub_cancel]
  rw [rows, List.getElem?_map, member, Option.map_some, decide_eq_true rfl]

/-- Whatever is followed, the last page stays full. -/
theorem offset_le (lineCount : Nat) (current : Option Nat) (focused : Bool) (old visible : Nat) :
    offset lineCount current focused old visible ≤ lineCount - visible :=
  Scroll.clamp_le _ _ _

end Source

end Pane

/-! ## Drawing -/

/-- Every pane of the viewer shows what it follows, where there is something to follow, and the text
begins no later than its last full page. -/
structure Viewer.InSight (viewer : Viewer) (layout : Layout) : Prop where
  cursor : ∀ snapshot, viewer.shown? = some snapshot →
    Pane.Tape.ShowsCursor layout.tape snapshot.view viewer.scroll.tape
  next : ∀ snapshot instructions index, viewer.shown? = some snapshot →
    viewer.machine.program.instructions? snapshot.routine = some instructions →
    snapshot.index = some index → index < instructions.size →
    Pane.Listing.ShowsNext layout.program instructions.toList index viewer.scroll.program
  line : viewer.focus ≠ .source →
    Pane.Source.ShowsLine layout.source viewer.watched.sourceText viewer.currentLine?
      viewer.scroll.source
  fullPage : viewer.scroll.source ≤
    (Text.lines viewer.watched.sourceText).length - max layout.source.inside.height 1

namespace Viewer

variable (viewer : Viewer) (width height : Nat)

/-- The offset of the text after drawing. -/
def drawnSource : Nat :=
  Pane.Source.offset (Text.lines viewer.watched.sourceText).length viewer.currentLine?
    (viewer.focus = .source) viewer.scroll.source
    (Scroll.visibleHeight (Layout.of width height).source.height)

theorem drawn_of_none (nothing : viewer.shown? = none) :
    viewer.drawn width height =
      { viewer with
        scroll := { viewer.scroll with source := viewer.drawnSource width height } } := by
  simp only [drawn, draw, nothing]
  rfl

theorem drawn_of_some {snapshot : Snapshot} (shown : viewer.shown? = some snapshot) :
    ∃ (first second : Screen) (stack : Nat),
      viewer.drawn width height =
        { viewer with
          scroll :=
            { source := viewer.drawnSource width height
              program := (Pane.Listing.draw second (Layout.of width height).program
                snapshot.routine
                ((viewer.machine.program.instructions? snapshot.routine).getD #[]).toList
                snapshot.index (viewer.focus = .program) viewer.scroll.program).2
              stack := stack
              tape := (Pane.Tape.draw first (Layout.of width height).tape snapshot.view
                (viewer.focus = .tape) viewer.scroll.tape).2 } } := by
  simp only [drawn, draw, shown]
  exact ⟨_, _, _, rfl⟩

/-- Drawing changes nothing that the panes follow, so what they follow is in sight afterwards. -/
theorem inSight_drawn : (viewer.drawn width height).InSight (Layout.of width height) := by
  have line : viewer.focus ≠ .source →
      Pane.Source.ShowsLine (Layout.of width height).source viewer.watched.sourceText
        viewer.currentLine? (viewer.drawnSource width height) := by
    intro elsewhere
    rw [drawnSource, decide_eq_false elsewhere]
    exact Pane.Source.showsLine_offset _ _ _ _
  have fullPage : viewer.drawnSource width height ≤
      (Text.lines viewer.watched.sourceText).length -
        max (Layout.of width height).source.inside.height 1 :=
    Pane.Source.offset_le _ _ _ _ _
  cases shown : viewer.shown? with
  | none =>
      rw [drawn_of_none viewer width height shown]
      have nothing (snapshot : Snapshot) : viewer.shown? ≠ some snapshot := by simp [shown]
      exact ⟨fun snapshot same => absurd same (nothing snapshot),
        fun snapshot _ _ same => absurd same (nothing snapshot), line, fullPage⟩
  | some snapshot =>
      obtain ⟨first, second, stack, after⟩ := drawn_of_some viewer width height shown
      rw [after]
      constructor
      case line => exact line
      case fullPage => exact fullPage
      case cursor =>
        intro other same
        obtain rfl := Option.some.inj (shown.symm.trans same)
        exact Pane.Tape.showsCursor_draw first (Layout.of width height).tape snapshot.view
          (viewer.focus = .tape) viewer.scroll.tape
      case next =>
        intro other instructions index same found standing within
        obtain rfl := Option.some.inj (shown.symm.trans same)
        have running : viewer.machine.program.instructions? snapshot.routine =
          some instructions := found
        have inside : index < instructions.toList.length := within
        obtain ⟨title, drawn⟩ := Pane.Listing.draw_of_next second
          (Layout.of width height).program snapshot.routine inside (viewer.focus = .program)
          viewer.scroll.program
        simp only [running, Option.getD_some, standing, drawn]
        exact Pane.Listing.showsNext_follow _ _ _ _

end Viewer

/-- Whatever the offset was before and whatever the size of a pane, the window of cells that is drawn
has the cell of the watched cursor, the window of the listing has the line of the next instruction,
and the window of the text, which begins no later than the last full page, has the current line
unless the pane has the focus. The viewer draws its panes in this way, each at its own offset. -/
theorem followed_place_in_window :
    (∀ (screen : Screen) (area : Area) (view : View) (focused : Bool) (old : Nat),
      let drawn := Pane.Tape.draw screen area view focused old
      (∃ title, drawn.1 = (Pane.drawFrame screen area title focused).drawRows area.inside
        (Pane.Tape.rows view
          (Pane.Tape.shownCells drawn.2 area.width view.image.memory.length))) ∧
        Pane.Tape.ShowsCursor area view drawn.2) ∧
    (∀ (screen : Screen) (area : Area) (routine : Routine) (instructions : List Instruction)
        (next : Nat) (focused : Bool) (old : Nat), next < instructions.length →
      let drawn := Pane.Listing.draw screen area routine instructions (some next) focused old
      (∃ title, drawn.1 = (Pane.drawFrame screen area title focused).drawItems area.inside 0
        (Pane.Listing.items area instructions next drawn.2)) ∧
        Pane.Listing.ShowsNext area instructions next drawn.2) ∧
    (∀ (screen : Screen) (area : Area) (name : String) (text : List Char) (current : Option Nat)
        (focused : Bool) (old : Nat),
      let drawn := Pane.Source.draw screen area name text current focused old
      (∃ title, drawn.1 = (Pane.drawFrame screen area title focused).drawRows area.inside
        (Pane.Source.rows area text current drawn.2)) ∧
        (focused = false → Pane.Source.ShowsLine area text current drawn.2) ∧
        drawn.2 ≤ (Text.lines text).length - max area.inside.height 1) ∧
    ∀ (viewer : Viewer) (width height : Nat),
      (viewer.drawn width height).InSight (Layout.of width height) := by
  refine ⟨?cells, ?listing, ?text, Viewer.inSight_drawn⟩
  case cells =>
    intro screen area view focused old
    exact ⟨⟨_, rfl⟩, Pane.Tape.showsCursor_draw screen area view focused old⟩
  case listing =>
    intro screen area routine instructions next focused old within
    obtain ⟨title, drawn⟩ := Pane.Listing.draw_of_next screen area routine within focused old
    rw [drawn]
    exact ⟨⟨title, rfl⟩, Pane.Listing.showsNext_follow area instructions next old⟩
  case text =>
    intro screen area name text current focused old
    refine ⟨⟨_, rfl⟩, ?_, Pane.Source.offset_le _ _ _ _ _⟩
    intro elsewhere
    subst elsewhere
    exact Pane.Source.showsLine_offset area text current old

/-- A frame with room for one row, or for three cells. -/
def narrowArea : Area := ⟨0, 0, 11, 3⟩

/-- A cursor at the seventh of eight cells. -/
def farView : View := ⟨0, ⟨["a", "b", "c", "d", "e", "f", "g", "h"], [6], [true]⟩, none⟩

/-- In a narrow frame that is scrolled away from what it follows. -/
theorem followed_place_in_window_narrow :
    let cells := (Pane.Tape.draw (.blank 11 3) narrowArea farView true 0).2
    let lines :=
      (Pane.Listing.draw (.blank 11 3) narrowArea .main [.read, .write, .jump (-3)] (some 2)
        false 9).2
    let text := (Pane.Source.draw (.blank 11 3) narrowArea "a" ['b', '\n', 'c'] (some 1) false 9).2
    (cells, lines, text) = (4, 2, 0) ∧
      (∃ place, 3 * place + 3 ≤ 9 ∧ (Pane.Tape.shownCells cells 11 8)[place]? = some 6) ∧
      (∃ place, place < 1 ∧
        (Pane.Listing.items narrowArea [.read, .write, .jump (-3)] 2 lines)[place]? =
          some (Pane.Listing.item (listingLine false 2 (.jump (-3))) true)) ∧
      ∃ place, place < 1 ∧
        (Pane.Source.rows narrowArea ['b', '\n', 'c'] (some 1) text)[place]? =
          some (Pane.Source.row 1 ['b'] true) := by
  obtain ⟨cells, listing, text, -⟩ := followed_place_in_window
  refine ⟨by decide, ?_, ?_, ?_⟩
  · exact (cells (.blank 11 3) narrowArea farView true 0).2 6 rfl (by decide)
  · exact (listing (.blank 11 3) narrowArea .main [.read, .write, .jump (-3)] 2 false 9
      (by decide)).2 _ rfl
  · exact (text (.blank 11 3) narrowArea "a" ['b', '\n', 'c'] (some 1) false 9).2.1 rfl 0 ['b'] rfl
      (by decide)

end TapeMachine
