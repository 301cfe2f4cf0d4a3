import Mathlib
import ScriptConsole.Proofs.TerminalRuns

/-!
# Keys without a meaning

The code of a key that has no meaning is drawn in the first row, and then, as after every key, the row
of the input line is drawn anew. With an empty scrollback this is the same row, and the code is gone
before anyone sees it (`code_shown_iff_lines_ne_nil`).
-/

namespace ScriptConsole

namespace Terminal

open Draw (paintOver)

/-- The code of a key, aligned to the right in three characters. -/
def codeChars (code : UInt8) : List Char :=
  (Nat.toDigits 10 code.toNat).leftpad 3 ' '

lemma length_codeChars (code : UInt8) : (codeChars code).length = 3 := by
  have hlt : code.toNat < 10 ^ 3 := code.toNat_lt.trans (by decide)
  have hle := (Nat.length_toDigits_le_iff (by decide) (by decide)).mpr hlt
  rw [codeChars, List.length_leftpad]
  omega

lemma exists_last_codeChars (code : UInt8) : ∃ digit, (codeChars code)[2]? = some digit ∧ digit ≠ ' ' := by
  obtain ⟨digit, hdigit⟩ : ∃ digit, (Nat.toDigits 10 code.toNat).getLast? = some digit :=
    ⟨_, List.getLast?_eq_some_getLast Nat.toDigits_ne_nil⟩
  have hlast : (codeChars code).getLast? = some digit := by
    rw [codeChars, List.leftpad, List.getLast?_append, hdigit, Option.some_or]
  rw [List.getLast?_eq_getElem?, length_codeChars] at hlast
  refine ⟨digit, hlast, ?_⟩
  rintro rfl
  have hisDigit := Nat.isDigit_of_mem_toDigits (by decide) (by decide) (List.mem_of_getLast? hdigit)
  exact absurd hisDigit (by decide)

lemma drawCode_eq (terminal : Terminal) (code : UInt8) :
    terminal.drawCode code = [.text (String.ofList (codeChars code)) terminal.settings.textColor
      (Screen.coordinate (terminal.settings.width - 6)) 0] := by
  have hdigits : (toString code.toNat).toList = Nat.toDigits 10 code.toNat := Nat.toList_repr
  have hpadded : String.ofList (List.replicate (3 - (toString code.toNat).length) ' ') ++
      toString code.toNat = String.ofList (codeChars code) := by
    apply String.toList_injective
    rw [String.toList_append, String.toList_ofList, String.toList_ofList, ← String.length_toList,
      hdigits]
    rfl
  unfold drawCode
  dsimp only
  rw [hpadded]

lemma paintOver_drawCode {terminal : Terminal} (h : terminal.Addressable) (code : UInt8)
    {col place : Nat} (hcol : col = terminal.settings.width - 6 + place) (hplace : place < 3)
    (hshown : col < terminal.settings.width) (cell : Cell) :
    some (paintOver (terminal.drawCode code) col (0 : Nat) cell) =
      (codeChars code)[place]?.map (⟨·, terminal.settings.textColor⟩) := by
  have hwidth := h.width_lt
  have hindex : ((col : Int) - ((terminal.settings.width - 6 : Nat) + (0 : Nat))).toNat = place := by
    omega
  have hlt : place < (codeChars code).length := by
    rw [length_codeChars]
    exact hplace
  rw [drawCode_eq, Screen.coordinate_of_lt (by omega)]
  change some ((Draw.letter? _ _ _ 0 (String.ofList (codeChars code)).toList _ _).getD cell) = _
  rw [Draw.letter?_of_lt _ (h.lt_lastCoordinate hshown) (.inr (Int.natCast_nonneg _)),
    if_pos ⟨by omega, rfl⟩, hindex, String.toList_ofList, List.getElem?_eq_getElem hlt]
  rfl

lemma letter_of_length_lt {s : String} {col : Nat} (h : s.length < col) (color : UInt8) :
    letter (glyphs s ++ " ") color col = {} := by
  have hbeyond : (glyphs s ++ " ").toList[col]? = none := by
    apply List.getElem?_eq_none
    rw [String.length_toList, String.length_append, glyphs, String.length_map]
    exact h
  rw [letter, hbeyond]
  rfl

/-- The row of the input line shows what it always does, and only the other rows show the code. -/
lemma paintOver_press_unknown {terminal : Terminal} (h : terminal.Addressable) (code : UInt8)
    {col : Nat} (hcol : col < terminal.settings.width) (row : Nat) (cell : Cell) :
    paintOver (terminal.press (.unknown code)).draws col row cell =
      if row = terminal.inputRow then terminal.picture col row
      else paintOver (terminal.drawCode code) col row cell := by
  change paintOver (terminal.drawCode code ++ terminal.drawInput ++ terminal.drawCursor) col row
    cell = _
  rw [Draw.paintOver_append, Draw.paintOver_append, paintOver_drawCursor h hcol,
    paintOver_drawInput h hcol]
  by_cases hrow : row = terminal.inputRow
  · unfold picture
    rw [← inputRow]
    simp only [hrow, if_true, true_and]
  · rw [if_neg hrow, if_neg hrow, if_neg fun hcursor => hrow hcursor.2.1]

end Terminal

namespace Display

variable {terminal : Terminal} {screen : Screen} {code : UInt8}

lemma handle_unknown (hcode : Key.ofCode code = .unknown code) :
    handle ⟨terminal, screen⟩ (.key code) =
      ⟨terminal, screen.drawAll (terminal.press (.unknown code)).draws⟩ := by
  unfold handle Terminal.handle
  dsimp only
  rw [hcode]
  rfl

lemma exists_cell?_unknown (haddress : terminal.Addressable)
    (hsize : screen.size = (terminal.settings.width, terminal.settings.height))
    (hcode : Key.ofCode code = .unknown code) (col row : Nat)
    (hcol : col < terminal.settings.width) (hrow : row < terminal.settings.height) :
    ∃ old, (handle ⟨terminal, screen⟩ (.key code)).screen.cell? col row =
      some (if row = terminal.inputRow then terminal.picture col row
        else Draw.paintOver (terminal.drawCode code) col row old) := by
  have hwidth : screen.width = terminal.settings.width := congrArg Prod.fst hsize
  have hheight : screen.height = terminal.settings.height := congrArg Prod.snd hsize
  obtain ⟨old, hold⟩ := screen.exists_cell col row (by rw [hwidth, hheight]; omega)
  refine ⟨old, ?_⟩
  rw [handle_unknown hcode]
  dsimp only
  rw [Screen.cell?_drawAll, hold, Option.map_some, Terminal.paintOver_press_unknown haddress code hcol]

/-- Of the default measures: the code starts in column 50. -/
lemma cell?_corner (hsettings : terminal.settings = {}) (hsize : screen.size = (56, 20))
    (hdark : terminal.ticks &&& 0xF ≠ 0xF) (hcode : Key.ofCode code = .unknown code) {place : Nat}
    (hplace : place < 3) :
    (handle ⟨terminal, screen⟩ (.key code)).screen.cell? (50 + place : Nat) (0 : Nat) =
      if terminal.lines = [] then
        some (Terminal.letter (Terminal.glyphs terminal.input ++ " ") 13 (50 + place))
      else (Terminal.codeChars code)[place]?.map (⟨·, 13⟩) := by
  have hwidth : terminal.settings.width = 56 := by rw [hsettings]
  have hheight : terminal.settings.height = 20 := by rw [hsettings]
  have htext : terminal.settings.textColor = 13 := by rw [hsettings]
  have hinput : terminal.settings.inputColor = 13 := by rw [hsettings]
  have hmeasures : screen.size = (terminal.settings.width, terminal.settings.height) := by
    rw [hsize, hwidth, hheight]
  have haddress : terminal.Addressable := ⟨by omega, by omega⟩
  obtain ⟨old, hcell⟩ :=
    exists_cell?_unknown haddress hmeasures hcode (50 + place) 0 (by omega) (by omega)
  have hrow : 0 = terminal.inputRow ↔ terminal.lines = [] := by
    rw [Terminal.inputRow, hheight, ← List.length_eq_zero_iff]
    omega
  rw [hcell]
  by_cases hlines : terminal.lines = []
  · rw [if_pos (hrow.mpr hlines), if_pos hlines, Terminal.picture, ← Terminal.inputRow,
      if_pos (hrow.mpr hlines), if_neg fun hlit => hdark hlit.1, hinput]
  · rw [if_neg (mt hrow.mp hlines), if_neg hlines,
      Terminal.paintOver_drawCode haddress code (by rw [hwidth]) hplace (by omega), htext]

end Display

/-- Let a key without a meaning be pressed at a terminal with the default settings, while no cursor is
drawn. The terminal stays as it is. If the scrollback holds an entry, columns 50 to 52 of the first row
show the code of the key, aligned to the right. If it is empty, they show the input line instead, so
that with a line too short to reach them the code is shown if and only if the scrollback is not
empty. -/
theorem code_shown_iff_lines_ne_nil (terminal : Terminal) (hsettings : terminal.settings = {})
    (screen : Screen) (hsize : screen.size = (56, 20)) (hdark : terminal.ticks &&& 0xF ≠ 0xF)
    (code : UInt8) (hcode : Key.ofCode code = .unknown code) :
    let display := Display.handle ⟨terminal, screen⟩ (.key code)
    let corner := [50, 51, 52].map fun col => display.screen.cell? col 0
    display.terminal = terminal ∧ (Terminal.codeChars code).length = 3 ∧
      (terminal.lines ≠ [] → corner = (Terminal.codeChars code).map fun c => some ⟨c, 13⟩) ∧
      (terminal.lines = [] → corner = [50, 51, 52].map fun col =>
        some (Terminal.letter (Terminal.glyphs terminal.input ++ " ") 13 col)) ∧
      (terminal.input.length < 50 →
        (corner.map (Option.map Cell.char) = (Terminal.codeChars code).map some ↔
          terminal.lines ≠ [])) := by
  intro display corner
  have hlength := Terminal.length_codeChars code
  have hcell {place : Nat} (hplace : place < 3) :=
    Display.cell?_corner hsettings hsize hdark hcode hplace
  have hcorner : corner = [display.screen.cell? (50 + 0 : Nat) (0 : Nat),
      display.screen.cell? (50 + 1 : Nat) (0 : Nat), display.screen.cell? (50 + 2 : Nat) (0 : Nat)] :=
    rfl
  rw [hcell (by decide), hcell (by decide), hcell (by decide)] at hcorner
  have hshown (hlines : terminal.lines ≠ []) :
      corner = (Terminal.codeChars code).map fun c => some ⟨c, 13⟩ := by
    obtain ⟨a, b, c, habc⟩ := List.length_eq_three.mp hlength
    rw [hcorner, if_neg hlines, if_neg hlines, if_neg hlines, habc]
    rfl
  have hhidden (hlines : terminal.lines = []) : corner = [50, 51, 52].map fun col =>
      some (Terminal.letter (Terminal.glyphs terminal.input ++ " ") 13 col) := by
    rw [hcorner, if_pos hlines, if_pos hlines, if_pos hlines]
    rfl
  refine ⟨congrArg Display.terminal (Display.handle_unknown hcode), hlength, hshown, hhidden, ?_⟩
  intro hshort
  constructor
  · intro hsame hlines
    obtain ⟨digit, hdigit, hne⟩ := Terminal.exists_last_codeChars code
    have hlast : some (some (Terminal.letter (Terminal.glyphs terminal.input ++ " ") 13 52).char) =
        ((Terminal.codeChars code).map some)[2]? := by
      rw [← hsame, hhidden hlines]
      rfl
    rw [Terminal.letter_of_length_lt (by omega), List.getElem?_map, hdigit] at hlast
    exact hne (Option.some.inj (Option.some.inj hlast)).symm
  · intro hlines
    rw [hshown hlines, List.map_map]
    rfl

/-- Behind a statement with its result, the code of a key is there to be seen. -/
theorem code_shown_behind_result :
    let terminal := (Terminal.new {}).run [.submit "x = 1"]
    let display := Display.handle ⟨terminal, Screen.blank 56 20⟩ (.key 200)
    [50, 51, 52].map (fun col => display.screen.cell? col 0) =
      [some ⟨'2', 13⟩, some ⟨'0', 13⟩, some ⟨'0', 13⟩] := by
  intro terminal display
  have hsettings : terminal.settings = {} := by cbv
  have hdark : terminal.ticks &&& 0xF ≠ 0xF := by cbv
  have hlines : terminal.lines = ["x = 1", "#═ 1"] := by cbv
  exact (code_shown_iff_lines_ne_nil terminal hsettings (Screen.blank 56 20) rfl hdark 200
    rfl).2.2.1 (hlines ▸ List.cons_ne_nil _ _)

/-- At a terminal that has just been started, the code of a key is blanked by the empty input line. -/
theorem code_blanked_by_input :
    let display := Display.handle ⟨Terminal.new {}, Screen.blank 56 20⟩ (.key 200)
    let corner := [50, 51, 52].map fun col => display.screen.cell? col 0
    Key.ofCode 200 = .unknown 200 ∧ (Terminal.new {}).ticks &&& 0xF ≠ 0xF ∧
      corner = List.replicate 3 (some {}) ∧
      corner.map (Option.map Cell.char) ≠ (Terminal.codeChars 200).map some := by
  intro display corner
  have hlines : (Terminal.new {}).lines = [] := rfl
  have hcell {place : Nat} (hplace : place < 3) :
      display.screen.cell? (50 + place : Nat) (0 : Nat) = some {} := by
    have hinput : (Terminal.new {}).input.length = 0 := by cbv
    rw [Display.cell?_corner rfl rfl (by decide) rfl hplace, if_pos hlines,
      Terminal.letter_of_length_lt (by omega)]
  have hcorner : corner = List.replicate 3 (some {}) := by
    change [display.screen.cell? (50 + 0 : Nat) (0 : Nat),
      display.screen.cell? (50 + 1 : Nat) (0 : Nat),
      display.screen.cell? (50 + 2 : Nat) (0 : Nat)] = _
    rw [hcell (by decide), hcell (by decide), hcell (by decide)]
    rfl
  refine ⟨rfl, by decide, hcorner, ?_⟩
  rw [hcorner]
  decide

end ScriptConsole
