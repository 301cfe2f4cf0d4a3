import Mathlib
import ScriptConsole.Proofs.Painting
import ScriptConsole.Terminal.Event

/-!
# What the screen of a terminal shows

A terminal draws everything when it is shown and when lines are submitted, and only the row of its
input line when a key is pressed. `Terminal.picture` says for each place what it ought to show. After
an event that draws the input line the screen shows just this (`screen_shows_picture`). Between such
events it does so outside of the row of the input line (`Display.Tidy`), and this is why it is enough
to draw that row.
-/

namespace ScriptConsole

/-- A terminal and the screen it draws on. -/
structure Display where
  terminal : Terminal
  screen : Screen

/-- The terminal answers an event, and what it wants to be drawn is drawn. -/
def Display.handle (display : Display) (event : Event) : Display :=
  let response := display.terminal.handle event
  ⟨response.terminal, display.screen.drawAll response.draws⟩

def Display.run (display : Display) (events : List Event) : Display :=
  events.foldl handle display

/-- Whether the event is a key without a meaning, whose code is shown. -/
def Event.showsCode : Event → Bool
  | .key code => match Key.ofCode code with
    | .unknown _ => true
    | _ => false
  | _ => false

/-- Whether the event is a key, other than the one that leaves, or the terminal being shown. -/
def Event.drawsInput : Event → Bool
  | .connect => true
  | .key code => Key.ofCode code != .escape
  | _ => false

namespace Terminal

/-- The entries of the scrollback that are shown. -/
def newest (terminal : Terminal) : List String :=
  let count := min terminal.lines.length (terminal.settings.height - 1)
  terminal.lines.drop (terminal.lines.length - count)

/-- What a text in a row of its own shows in a column. -/
def letter (text : String) (color : UInt8) (col : Nat) : Cell :=
  (text.toList[col]?.map (⟨·, color⟩)).getD {}

/-- What a place shows on a screen without input line and cursor. -/
def background (terminal : Terminal) (col row : Nat) : Cell :=
  match terminal.newest[row]? with
  | some entry => letter (glyphs entry) terminal.settings.textColor col
  | none => {}

/-- What a place shows: the newest entries of the scrollback, then the input line with a space behind
it, and on every sixteenth tick the cursor. -/
def picture (terminal : Terminal) (col row : Nat) : Cell :=
  let count := min terminal.lines.length (terminal.settings.height - 1)
  if row = count then
    if terminal.ticks &&& 0xF = 0xF ∧ col = terminal.line.length then
      ⟨if terminal.ticks &&& 0x10 = 0 then ' ' else '▄', terminal.settings.cursorColor⟩
    else
      letter (glyphs terminal.input ++ " ") terminal.settings.inputColor col
  else
    terminal.background col row

/-- The columns and rows of the terminal have numbers of 32 bits. -/
structure Addressable (terminal : Terminal) : Prop where
  width_lt : terminal.settings.width < 2147483648
  height_lt : terminal.settings.height < 2147483648

lemma Addressable.inputRow_lt {terminal : Terminal} (h : terminal.Addressable) :
    terminal.inputRow < 2147483648 := by
  have hheight := h.height_lt
  unfold inputRow
  omega

lemma Addressable.lt_lastCoordinate {terminal : Terminal} (h : terminal.Addressable) {col : Nat}
    (hcol : col < terminal.settings.width) : (col : Int) < Screen.lastCoordinate := by
  have hwidth := h.width_lt
  unfold Screen.lastCoordinate
  omega

end Terminal

namespace Draw

lemma paintOver_append (before behind : List Draw) (col row : Int) (cell : Cell) :
    paintOver (before ++ behind) col row cell =
      paintOver behind col row (paintOver before col row cell) :=
  List.foldl_append

lemma paintOver_clear (commands : List Draw) (col row : Int) (cell : Cell) :
    paintOver (.clear :: commands) col row cell = paintOver commands col row {} :=
  rfl

lemma letter?_singleton (color : UInt8) (left top : Int) (c : Char) (col row : Int) :
    letter? color left top 0 [c] col row =
      if col = Screen.columnOf left 0 ∧ row = top then some ⟨c, color⟩ else none :=
  Option.none_or

/-- A text that starts at the left edge of a row. -/
lemma getD_paint?_text (s : String) (color : UInt8) {top : Nat} (htop : top < 2147483648) {col : Nat}
    (hcol : (col : Int) < Screen.lastCoordinate) (row : Nat) (cell : Cell) :
    ((Draw.text s color 0 (Screen.coordinate top)).paint? col row).getD cell =
      if row = top then (s.toList[col]?.map (⟨·, color⟩)).getD cell else cell := by
  rw [paint?, letter?_of_lt color hcol (.inr (Int.le_refl 0)), Screen.coordinate_of_lt htop]
  by_cases hrow : row = top
  · have hindex : ((col : Int) - (0 + (0 : Nat))).toNat = col := by omega
    rw [if_pos hrow, if_pos ⟨by omega, by omega⟩, hindex]
  · rw [if_neg hrow, if_neg (by omega)]
    rfl

end Draw

namespace Terminal

open Draw (paintOver)

lemma paintOver_drawRows (color : UInt8) {first : Nat} {texts : List String}
    (hrows : first + texts.length ≤ 2147483648) {col : Nat}
    (hcol : (col : Int) < Screen.lastCoordinate) (row : Nat) (cell : Cell) :
    paintOver (drawRows color first texts) col row cell =
      if first ≤ row then
        match texts[row - first]? with
        | some text => ((glyphs text).toList[col]?.map (⟨·, color⟩)).getD cell
        | none => cell
      else cell := by
  induction texts generalizing first cell with
  | nil => simp [drawRows, paintOver]
  | cons text texts ih =>
    have hstep : paintOver (drawRows color first (text :: texts)) col row cell =
        paintOver (drawRows color (first + 1) texts) col row
          (((Draw.text (glyphs text) color 0 (Screen.coordinate first)).paint? col row).getD cell) :=
      rfl
    rw [List.length_cons] at hrows
    rw [hstep, ih (by omega), Draw.getD_paint?_text _ _ (by omega) hcol]
    obtain hlt | rfl | hgt := Nat.lt_trichotomy row first
    · rw [if_neg (by omega), if_neg (by omega), if_neg (by omega)]
    · rw [if_neg (by omega), if_pos rfl, if_pos (Nat.le_refl row), Nat.sub_self]
      rfl
    · have hindex : row - first = row - (first + 1) + 1 := by omega
      rw [if_pos (by omega), if_neg (by omega), if_pos (by omega), hindex, List.getElem?_cons_succ]

/-- Drawing the scrollback clears whatever was there. -/
lemma paintOver_drawLines {terminal : Terminal} (h : terminal.Addressable) {col : Nat}
    (hcol : col < terminal.settings.width) (row : Nat) (cell : Cell) :
    paintOver terminal.drawLines col row cell = terminal.background col row := by
  have hcount : terminal.lines.length - (terminal.settings.height - 1) =
      terminal.lines.length - min terminal.lines.length (terminal.settings.height - 1) := by
    omega
  have hheight := h.height_lt
  have hrows : 0 + (terminal.lines.drop
      (terminal.lines.length - (terminal.settings.height - 1))).length ≤ 2147483648 := by
    rw [List.length_drop]
    omega
  unfold drawLines
  rw [Draw.paintOver_clear, paintOver_drawRows _ hrows (h.lt_lastCoordinate hcol),
    if_pos (Nat.zero_le row), Nat.sub_zero, hcount]
  rfl

lemma and_low_bits_iff (ticks : UInt32) : ticks &&& 0xF = 0xF ↔ ticks % 16 = 15 := by
  rw [← UInt32.toNat_inj, ← UInt32.toNat_inj, UInt32.toNat_and, UInt32.toNat_mod]
  have hmod : ticks.toNat &&& 2 ^ 4 - 1 = ticks.toNat % 2 ^ 4 := Nat.and_two_pow_sub_one_eq_mod _ 4
  exact iff_of_eq (congrArg (· = 15) hmod)

lemma and_next_bit_iff (ticks : UInt32) : ticks &&& 0x10 = 0 ↔ ¬ticks / 16 % 2 = 1 := by
  rw [← UInt32.toNat_inj, ← UInt32.toNat_inj, UInt32.toNat_and, UInt32.toNat_mod, UInt32.toNat_div]
  change ticks.toNat &&& 2 ^ 4 = 0 ↔ ¬ticks.toNat / 2 ^ 4 % 2 = 1
  rw [Nat.and_two_pow, Nat.testBit_eq_decide_div_mod_eq]
  simp

/-- The row of the input line is blanked over its whole width. -/
lemma paintOver_drawInput {terminal : Terminal} (h : terminal.Addressable) {col : Nat}
    (hcol : col < terminal.settings.width) (row : Nat) (cell : Cell) :
    paintOver terminal.drawInput col row cell =
      if row = terminal.inputRow then
        letter (glyphs terminal.input ++ " ") terminal.settings.inputColor col
      else cell := by
  have hsteps : paintOver terminal.drawInput col row cell =
      ((Draw.text (glyphs terminal.input ++ " ") terminal.settings.inputColor 0
        (Screen.coordinate terminal.inputRow)).paint? col row).getD
        (((Draw.text (String.ofList (List.replicate terminal.settings.width ' ')) 0 0
          (Screen.coordinate terminal.inputRow)).paint? col row).getD cell) :=
    rfl
  rw [hsteps, Draw.getD_paint?_text _ _ h.inputRow_lt (h.lt_lastCoordinate hcol),
    Draw.getD_paint?_text _ _ h.inputRow_lt (h.lt_lastCoordinate hcol)]
  -- the spaces reach the right edge, so nothing is left of a longer line that stood here
  by_cases hrow : row = terminal.inputRow
  · rw [if_pos hrow, if_pos hrow, if_pos hrow, String.toList_ofList,
      List.getElem?_replicate_of_lt hcol]
    rfl
  · rw [if_neg hrow, if_neg hrow, if_neg hrow]

lemma paintOver_drawCursor {terminal : Terminal} (h : terminal.Addressable) {col : Nat}
    (hcol : col < terminal.settings.width) (row : Nat) (cell : Cell) :
    paintOver terminal.drawCursor col row cell =
      if terminal.ticks &&& 0xF = 0xF ∧ row = terminal.inputRow ∧ col = terminal.line.length then
        ⟨if terminal.ticks &&& 0x10 = 0 then ' ' else '▄', terminal.settings.cursorColor⟩
      else cell := by
  unfold drawCursor
  by_cases hlit : terminal.ticks % 16 = 15
  · have hglyph : (if terminal.ticks / 16 % 2 = 1 then "▄" else " ").toList =
        [if terminal.ticks &&& 0x10 = 0 then ' ' else '▄'] := by
      by_cases hbit : terminal.ticks / 16 % 2 = 1
      · rw [if_pos hbit, if_neg fun hzero => (and_next_bit_iff _).mp hzero hbit]
        rfl
      · rw [if_neg hbit, if_pos ((and_next_bit_iff _).mpr hbit)]
        rfl
    rw [if_pos hlit]
    change (Draw.letter? terminal.settings.cursorColor (Screen.coordinate terminal.line.length)
      (Screen.coordinate terminal.inputRow) 0
      (if terminal.ticks / 16 % 2 = 1 then "▄" else " ").toList col row).getD cell = _
    rw [hglyph, Draw.letter?_singleton, Screen.coordinate_of_lt h.inputRow_lt]
    have hcolumn := Screen.eq_columnOf_coordinate_iff terminal.line.length (h.lt_lastCoordinate hcol)
    have hcast : ((col : Int) = Screen.columnOf (Screen.coordinate terminal.line.length) 0 ∧
        (row : Int) = terminal.inputRow) ↔
        row = terminal.inputRow ∧ col = terminal.line.length := by
      rw [hcolumn]
      omega
    by_cases hplace : row = terminal.inputRow ∧ col = terminal.line.length
    · have hshown : terminal.ticks &&& 0xF = 0xF ∧ row = terminal.inputRow ∧
          col = terminal.line.length :=
        ⟨(and_low_bits_iff _).mpr hlit, hplace⟩
      rw [if_pos (hcast.mpr hplace), if_pos hshown]
      rfl
    · rw [if_neg (mt hcast.mp hplace), if_neg fun h => hplace h.2]
      rfl
  · rw [if_neg hlit, if_neg fun h => hlit ((and_low_bits_iff _).mp h.1)]
    rfl

end Terminal

namespace Display

/-- The screen has the size that the terminal takes it to have, its columns and rows have numbers, and
every place in these rows shows what it ought to. -/
structure ShowsIn (rows : Nat → Prop) (display : Display) : Prop where
  addressable : display.terminal.Addressable
  size : display.screen.size = (display.terminal.settings.width, display.terminal.settings.height)
  cells : ∀ col row, col < display.terminal.settings.width →
    row < display.terminal.settings.height → rows row →
    display.screen.cell? col row = some (display.terminal.picture col row)

/-- The whole screen shows what it ought to. -/
def Shows (display : Display) : Prop :=
  display.ShowsIn fun _ => True

/-- The screen shows what it ought to but maybe in the row of the input line. -/
def Tidy (display : Display) : Prop :=
  display.ShowsIn fun row => row ≠ display.terminal.inputRow

variable {terminal : Terminal} {screen : Screen}

lemma Shows.tidy {display : Display} (h : display.Shows) : display.Tidy :=
  ⟨h.addressable, h.size, fun col row hcol hrow _ => h.cells col row hcol hrow trivial⟩

/-- To know what is shown after commands it is enough to know what they paint. -/
lemma showsIn_drawAll {rows : Nat → Prop} {commands : List Draw} (haddress : terminal.Addressable)
    (hsize : screen.size = (terminal.settings.width, terminal.settings.height))
    (hpaint : ∀ col row old, col < terminal.settings.width → row < terminal.settings.height →
      rows row → screen.cell? col row = some old →
      Draw.paintOver commands col row old = terminal.picture col row) :
    ShowsIn rows ⟨terminal, screen.drawAll commands⟩ := by
  refine ⟨haddress, (screen.size_drawAll commands).trans hsize, fun col row
    (hcol : col < terminal.settings.width) (hrow : row < terminal.settings.height) hrows => ?_⟩
  have hwidth : screen.width = terminal.settings.width := congrArg Prod.fst hsize
  have hheight : screen.height = terminal.settings.height := congrArg Prod.snd hsize
  obtain ⟨old, hold⟩ := screen.exists_cell col row (by rw [hwidth, hheight]; omega)
  rw [Screen.cell?_drawAll, hold, Option.map_some, hpaint col row old hcol hrow hrows hold]

lemma picture_of_ne {col row : Nat} (h : row ≠ terminal.inputRow) :
    terminal.picture col row = terminal.background col row :=
  if_neg h

/-- Whatever was on the screen, the scrollback is drawn on an empty one. -/
lemma tidy_drawLines (haddress : terminal.Addressable)
    (hsize : screen.size = (terminal.settings.width, terminal.settings.height))
    (before : List Draw) : Tidy ⟨terminal, screen.drawAll (before ++ terminal.drawLines)⟩ := by
  refine showsIn_drawAll haddress hsize fun col row old hcol _ hrow _ => ?_
  rw [Draw.paintOver_append, Terminal.paintOver_drawLines haddress hcol, picture_of_ne hrow]

lemma Tidy.drawCursor (h : Tidy ⟨terminal, screen⟩) :
    Tidy ⟨terminal, screen.drawAll terminal.drawCursor⟩ := by
  refine showsIn_drawAll h.addressable h.size fun col row old hcol hrow hne hold => ?_
  have hcell := h.cells col row hcol hrow hne
  rw [Terminal.paintOver_drawCursor h.addressable hcol, if_neg fun hcursor => hne hcursor.2.1]
  exact Option.some.inj (hold.symm.trans hcell)

/-- Drawing the row of the input line is enough if the other rows are as they ought to be. -/
lemma Tidy.drawInput (h : Tidy ⟨terminal, screen⟩) :
    Shows ⟨terminal, screen.drawAll (terminal.drawInput ++ terminal.drawCursor)⟩ := by
  refine showsIn_drawAll h.addressable h.size fun col row old hcol hrow _ hold => ?_
  rw [Draw.paintOver_append, Terminal.paintOver_drawInput h.addressable hcol,
    Terminal.paintOver_drawCursor h.addressable hcol]
  by_cases hinput : row = terminal.inputRow
  · rw [if_pos hinput]
    unfold Terminal.picture
    rw [← Terminal.inputRow]
    simp only [hinput, true_and, if_true]
  · have hcell := h.cells col row hcol hrow hinput
    rw [if_neg hinput, if_neg fun hcursor => hinput hcursor.2.1]
    exact Option.some.inj (hold.symm.trans hcell)

/-- Outside of the row of the input line only the scrollback and the settings matter. -/
lemma Tidy.congr (h : Tidy ⟨terminal, screen⟩) {other : Terminal}
    (hlines : other.lines = terminal.lines) (hsettings : other.settings = terminal.settings) :
    Tidy ⟨other, screen⟩ := by
  have hrow : other.inputRow = terminal.inputRow := by
    rw [Terminal.inputRow, Terminal.inputRow, hlines, hsettings]
  have hbackground : other.background = terminal.background := by
    funext col row
    rw [Terminal.background, Terminal.background, Terminal.newest, Terminal.newest, hlines, hsettings]
  have haddress : other.Addressable :=
    ⟨hsettings ▸ h.addressable.width_lt, hsettings ▸ h.addressable.height_lt⟩
  refine ⟨haddress, hsettings ▸ h.size, fun col row hcol hheight hne => ?_⟩
  change row ≠ other.inputRow at hne
  rw [hrow] at hne
  change screen.cell? col row = some (other.picture col row)
  rw [picture_of_ne (hrow ▸ hne), hbackground, ← picture_of_ne hne]
  exact h.cells col row (hsettings ▸ hcol) (hsettings ▸ hheight) hne

lemma drawAll_append (before behind : List Draw) :
    screen.drawAll (before ++ behind) = (screen.drawAll before).drawAll behind :=
  List.foldl_append

lemma shows_connect (haddress : terminal.Addressable)
    (hsize : screen.size = (terminal.settings.width, terminal.settings.height)) :
    Shows (handle ⟨terminal, screen⟩ .connect) := by
  have htidy := tidy_drawLines haddress hsize []
  change Shows ⟨terminal, screen.drawAll terminal.drawScreen⟩
  rw [Terminal.drawScreen, List.append_assoc, drawAll_append]
  exact htidy.drawInput

lemma tidy_submit (haddress : terminal.Addressable)
    (hsize : screen.size = (terminal.settings.width, terminal.settings.height)) (text : String) :
    Tidy ⟨(terminal.submit text).terminal, screen.drawAll (terminal.submit text).draws⟩ := by
  have hsubmitted : (terminal.submit text).terminal.Addressable :=
    ⟨haddress.width_lt, haddress.height_lt⟩
  exact tidy_drawLines hsubmitted hsize _

lemma edit_kept (terminal : Terminal) (key : Key) :
    (terminal.edit key).lines = terminal.lines ∧ (terminal.edit key).settings = terminal.settings := by
  have hbrowse (direction : Terminal.Direction) :
      (terminal.browse direction).lines = terminal.lines ∧
        (terminal.browse direction).settings = terminal.settings := by
    unfold Terminal.browse
    cases direction <;> dsimp only <;> constructor <;> split <;> rfl
  cases key with
  | up => exact hbrowse .older
  | down => exact hbrowse .newer
  | _ => exact ⟨rfl, rfl⟩

/-- A key that has a meaning and does not leave leads from a tidy screen to one that is right. -/
lemma Tidy.press (h : Tidy ⟨terminal, screen⟩) {key : Key} (hescape : key ≠ .escape)
    (hcode : ∀ code, key ≠ .unknown code) :
    Shows ⟨(terminal.press key).terminal, screen.drawAll (terminal.press key).draws⟩ := by
  have hedit (key : Key) : Shows ⟨terminal.edit key, screen.drawAll
      ((terminal.edit key).drawInput ++ (terminal.edit key).drawCursor)⟩ :=
    (h.congr (edit_kept terminal key).1 (edit_kept terminal key).2).drawInput
  cases key with
  | escape => exact absurd rfl hescape
  | unknown code => exact absurd rfl (hcode code)
  | enter =>
    -- the scrollback is drawn with the new lines before the empty input line is
    have haddress : { terminal with line := [] }.Addressable :=
      ⟨h.addressable.width_lt, h.addressable.height_lt⟩
    have hsubmit := tidy_submit haddress h.size terminal.input
    have hshows := hsubmit.drawInput
    rw [← drawAll_append, ← List.append_assoc] at hshows
    exact hshows
  | backspace => exact hedit .backspace
  | tab => exact hedit .tab
  | up => exact hedit .up
  | down => exact hedit .down
  | deleteWord => exact hedit .deleteWord
  | char byte => exact hedit (.char byte)

/-- Every event with a meaning leaves a tidy screen, and one that draws the input line leaves a screen
that shows what it ought to. -/
theorem Tidy.handle {display : Display} (h : display.Tidy) {event : Event}
    (hcode : event.showsCode = false) :
    (display.handle event).Tidy ∧
      (event.drawsInput = true → (display.handle event).Shows) := by
  obtain ⟨terminal, screen⟩ := display
  cases event with
  | connect =>
    have hshows := shows_connect h.addressable h.size
    exact ⟨hshows.tidy, fun _ => hshows⟩
  | tick =>
    -- the cursor stays in the row of the input line, which need not be right after a tick
    have hticked : Tidy ⟨{ terminal with ticks := terminal.ticks + 1 }, screen⟩ := h.congr rfl rfl
    exact ⟨hticked.drawCursor, fun hdraws => absurd hdraws (by decide)⟩
  | submit text =>
    exact ⟨tidy_submit h.addressable h.size text, fun hdraws => absurd hdraws Bool.noConfusion⟩
  | key code =>
    by_cases hescape : Key.ofCode code = .escape
    · refine ⟨?_, fun hdraws => ?_⟩
      · change Tidy ⟨(terminal.press (Key.ofCode code)).terminal,
          screen.drawAll (terminal.press (Key.ofCode code)).draws⟩
        rw [hescape]
        exact h
      · exact absurd hescape (bne_iff_ne.mp hdraws)
    · have hknown (c : UInt8) : Key.ofCode code ≠ .unknown c := by
        intro hunknown
        simp [Event.showsCode, hunknown] at hcode
      have hshows := h.press hescape hknown
      exact ⟨hshows.tidy, fun _ => hshows⟩

theorem Tidy.run {display : Display} (h : display.Tidy) {events : List Event}
    (hcode : ∀ event ∈ events, event.showsCode = false) : (display.run events).Tidy := by
  induction events generalizing display with
  | nil => exact h
  | cons event events ih =>
    obtain ⟨hevent, hevents⟩ := List.forall_mem_cons.mp hcode
    exact ih (h.handle hevent).1 hevents

lemma settings_handle (display : Display) (event : Event) :
    (display.handle event).terminal.settings = display.terminal.settings := by
  cases event with
  | key code =>
    change (display.terminal.press (Key.ofCode code)).terminal.settings = _
    cases Key.ofCode code with
    | enter | escape | unknown => rfl
    | backspace | tab | up | down | deleteWord | char => exact (edit_kept display.terminal _).2
  | connect | tick | submit => rfl

lemma settings_run (display : Display) (events : List Event) :
    (display.run events).terminal.settings = display.terminal.settings := by
  induction events generalizing display with
  | nil => rfl
  | cons event events ih => exact (ih _).trans (settings_handle display event)

/-- From the first time on that the terminal is shown. -/
lemma shows_run (haddress : terminal.Addressable)
    (hsize : screen.size = (terminal.settings.width, terminal.settings.height)) {events : List Event} {event : Event}
    (hstart : (events ++ [event]).head? = some .connect)
    (hcode : ∀ e ∈ events ++ [event], e.showsCode = false) (hdraws : event.drawsInput = true) :
    (run ⟨terminal, screen⟩ (events ++ [event])).Shows := by
  have hconnect := shows_connect haddress hsize
  cases events with
  | nil =>
    obtain rfl : event = .connect := Option.some.inj hstart
    exact hconnect
  | cons first events =>
    obtain rfl : first = .connect := Option.some.inj hstart
    obtain ⟨hevents, hevent⟩ := List.forall_mem_append.mp (List.forall_mem_cons.mp hcode).2
    have hrun : run ⟨terminal, screen⟩ (.connect :: events ++ [event]) =
        (run (handle ⟨terminal, screen⟩ .connect) events).handle event :=
      List.foldl_append
    rw [hrun]
    exact ((hconnect.tidy.run hevents).handle (hevent event List.mem_cons_self)).2 hdraws

/-- What a terminal ought to show determines its screen. -/
lemma Shows.cell?_eq {screen' : Screen} (h : Shows ⟨terminal, screen⟩)
    (h' : Shows ⟨terminal, screen'⟩) (col row : Int) :
    screen.cell? col row = screen'.cell? col row := by
  have hwidth : screen.width = terminal.settings.width := congrArg Prod.fst h.size
  have hheight : screen.height = terminal.settings.height := congrArg Prod.snd h.size
  have hwidth' : screen'.width = terminal.settings.width := congrArg Prod.fst h'.size
  have hheight' : screen'.height = terminal.settings.height := congrArg Prod.snd h'.size
  by_cases hplace : 0 ≤ col ∧ col < screen.width ∧ 0 ≤ row ∧ row < screen.height
  · obtain ⟨c, rfl⟩ := Int.eq_ofNat_of_zero_le hplace.1
    obtain ⟨r, rfl⟩ := Int.eq_ofNat_of_zero_le hplace.2.2.1
    have hc : c < terminal.settings.width := by omega
    have hr : r < terminal.settings.height := by omega
    exact (h.cells c r hc hr trivial).trans (h'.cells c r hc hr trivial).symm
  · rw [Screen.cell?_eq_none screen col row hplace, Screen.cell?_eq_none screen' col row (by omega)]

end Display

/-- Let a terminal, whose measures are numbers of 32 bits, be shown on a screen of its size, and let any
events follow, but for keys without a meaning. Whenever the terminal is shown again or a key is pressed that does not leave, the screen
shows the picture of the terminal at every place. So it is the screen that drawing everything anew
would give. -/
theorem screen_shows_picture (terminal : Terminal) (screen : Screen) (events : List Event)
    (event : Event)
    (hwidth : terminal.settings.width < 2147483648) (hheight : terminal.settings.height < 2147483648)
    (hsize : screen.size = (terminal.settings.width, terminal.settings.height))
    (hstart : (events ++ [event]).head? = some .connect)
    (hcode : ∀ e ∈ events ++ [event], e.showsCode = false) (hdraws : event.drawsInput = true) :
    let display := Display.run ⟨terminal, screen⟩ (events ++ [event])
    let settings := terminal.settings
    display.terminal.settings = settings ∧
    display.screen.size = (settings.width, settings.height) ∧
    (∀ col row : Nat, col < settings.width → row < settings.height →
      display.screen.cell? col row = some (display.terminal.picture col row)) ∧
    ∀ col row : Int, display.screen.cell? col row =
      ((Screen.blank settings.width settings.height).drawAll
        display.terminal.drawScreen).cell? col row := by
  dsimp only
  have hshows := Display.shows_run ⟨hwidth, hheight⟩ hsize hstart hcode hdraws
  have hsettings := Display.settings_run ⟨terminal, screen⟩ (events ++ [event])
  generalize Display.run ⟨terminal, screen⟩ (events ++ [event]) = display at hshows hsettings
  change display.terminal.settings = terminal.settings at hsettings
  rw [← hsettings]
  let empty := Screen.blank display.terminal.settings.width display.terminal.settings.height
  have hanew : (Display.handle ⟨display.terminal, empty⟩ .connect).Shows :=
    Display.shows_connect hshows.addressable rfl
  exact ⟨rfl, hshows.size, fun col row hcol hrow => hshows.cells col row hcol hrow trivial,
    fun col row => hshows.cell?_eq hanew col row⟩

/-- A letter that was typed while the cursor was shown and is erased again leaves nothing behind. -/
theorem screen_shows_erasedLetter :
    let terminal := { Terminal.new { width := 3, height := 2 } with ticks := 31 }
    let events := [.connect, .key 97, .tick, .key 8]
    let display := Display.run ⟨terminal, Screen.blank 3 2⟩ events
    display.screen.cell? 0 0 = some ⟨' ', 13⟩ ∧ display.screen.cell? 1 0 = some ⟨' ', 0⟩ := by
  intro terminal events display
  have hpicture := (screen_shows_picture terminal (Screen.blank 3 2) [.connect, .key 97, .tick]
    (.key 8) (by decide) (by decide) rfl rfl (by decide) rfl).2.2.1
  have hfirst : display.terminal.picture 0 0 = ⟨' ', 13⟩ := by
    cbv
  have hsecond : display.terminal.picture 1 0 = ⟨' ', 0⟩ := by
    cbv
  exact ⟨(hpicture 0 0 (by decide) (by decide)).trans (congrArg some hfirst),
    (hpicture 1 0 (by decide) (by decide)).trans (congrArg some hsecond)⟩

end ScriptConsole
