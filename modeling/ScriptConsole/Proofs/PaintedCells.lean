import Mathlib.Data.List.Induction
import Mathlib.Data.List.TakeWhile
import Mathlib.Tactic.Common
import ScriptConsole.Proofs.Painting

/-!
# A screen holds what was painted last

`Draw.Paints` says which places a command covers on a screen without edges, and with which cells.
`Draw.Leaves` says what is left at a place after commands in order: the cell of the last command that
covers it. A screen that starts blank holds just these cells (`Screen.cell?_drawAll_blank`), and its
rows are their characters (`Screen.getElem?_rows`).

Columns have 32 bits. Where characters of a text would need more, several of them come to one column,
and only the last one is left there.
-/

namespace ScriptConsole

namespace Draw

/-- The command covers a place and paints a cell there. A text covers the columns of its characters, a
box the border of a rectangle with at least two columns and rows, and clearing covers everything. -/
inductive Paints : Draw → Int → Int → Cell → Prop
  /-- The number of a character and its column are held within 32 bits, and no later character comes to
  the same column. -/
  | letter {text color top c} {left col : Int} {i : Nat} (hchar : text.toList[i]? = some c)
      (hcol : col = min (left + min (i : Int) 2147483647) 2147483647)
      (hlast : ∀ j : Nat, i < j → j < text.length →
        col ≠ min (left + min (j : Int) 2147483647) 2147483647) :
      Paints (.text text color left top) col top ⟨c, color⟩
  | upperLeft {color left top width height} (hwidth : 2 ≤ width) (hheight : 2 ≤ height) :
      Paints (.box color left top width height) left top ⟨'┌', color⟩
  | upperRight {color left top width height} (hwidth : 2 ≤ width) (hheight : 2 ≤ height) :
      Paints (.box color left top width height) (left + width - 1) top ⟨'┐', color⟩
  | lowerLeft {color left top width height} (hwidth : 2 ≤ width) (hheight : 2 ≤ height) :
      Paints (.box color left top width height) left (top + height - 1) ⟨'└', color⟩
  | lowerRight {color left top width height} (hwidth : 2 ≤ width) (hheight : 2 ≤ height) :
      Paints (.box color left top width height) (left + width - 1) (top + height - 1) ⟨'┘', color⟩
  | across {color left top width height col row} (hheight : 2 ≤ height)
      (hrow : row = top ∨ row = top + height - 1) (hcol : left < col ∧ col < left + width - 1) :
      Paints (.box color left top width height) col row ⟨'─', color⟩
  | down {color left top width height col row} (hwidth : 2 ≤ width)
      (hcol : col = left ∨ col = left + width - 1) (hrow : top < row ∧ row < top + height - 1) :
      Paints (.box color left top width height) col row ⟨'│', color⟩
  | blank {col row} : Paints .clear col row {}

/-- The command paints something at a place. -/
def Covers (command : Draw) (col row : Int) : Prop :=
  ∃ cell, command.Paints col row cell

/-- What commands leave at a place that was blank: the cell of the last one that covers it. -/
inductive Leaves : List Draw → Int → Int → Cell → Prop
  | untouched {commands col row} (hnone : ∀ command ∈ commands, ¬command.Covers col row) :
      Leaves commands col row {}
  | painted {before command behind col row cell} (hpaints : command.Paints col row cell)
      (hbehind : ∀ later ∈ behind, ¬later.Covers col row) :
      Leaves (before ++ command :: behind) col row cell

section

variable {col row : Int} {cell : Cell}

lemma letter?_eq_none_iff {color : UInt8} {left top : Int} {before : Nat} {cs : List Char} :
    letter? color left top before cs col row = none ↔
      (row = top → ∀ i < cs.length, Screen.columnOf left (before + i) ≠ col) := by
  induction cs generalizing before with
  | nil => simp [letter?]
  | cons c cs ih =>
    rw [letter?, Option.or_eq_none_iff, ih]
    constructor
    · rintro ⟨hbehind, hfirst⟩ hrow (_ | i) hi hcol
      · rw [if_pos ⟨hcol.symm, hrow⟩] at hfirst
        cases hfirst
      · exact hbehind hrow i (Nat.lt_of_succ_lt_succ hi) (Nat.add_right_comm before 1 i ▸ hcol)
    · intro h
      refine ⟨fun hrow i hi hcol => ?_, if_neg fun hfirst => h hfirst.2 0 (Nat.succ_pos _) hfirst.1.symm⟩
      exact h hrow (i + 1) (Nat.succ_lt_succ hi) (Nat.add_right_comm before 1 i ▸ hcol)

/-- A place shows the last of the characters that come to its column. -/
lemma letter?_eq_some_iff {color : UInt8} {left top : Int} {before : Nat} {cs : List Char} :
    letter? color left top before cs col row = some cell ↔
      row = top ∧ ∃ i c, cs[i]? = some c ∧ Screen.columnOf left (before + i) = col ∧
        (∀ j, i < j → j < cs.length → Screen.columnOf left (before + j) ≠ col) ∧
        cell = ⟨c, color⟩ := by
  induction cs generalizing before with
  | nil => simp [letter?]
  | cons d cs ih =>
    rw [letter?, Option.or_eq_some_iff, ih, letter?_eq_none_iff]
    simp only [Nat.add_right_comm before 1]
    constructor
    · rintro (⟨hrow, i, c, hchar, hcol, hlast, hcell⟩ | ⟨hbehind, hfirst⟩)
      · refine ⟨hrow, i + 1, c, hchar, hcol, ?_, hcell⟩
        rintro (_ | j) hij hj
        · omega
        · exact hlast j (Nat.lt_of_succ_lt_succ hij) (Nat.lt_of_succ_lt_succ hj)
      · split at hfirst
        · next hplace =>
          obtain ⟨hcol, hrow⟩ := hplace
          refine ⟨hrow, 0, d, rfl, hcol.symm, ?_, (Option.some.inj hfirst).symm⟩
          rintro (_ | j) hij hj
          · omega
          · exact hbehind hrow j (Nat.lt_of_succ_lt_succ hj)
        · cases hfirst
    · rintro ⟨hrow, _ | i, c, hchar, hcol, hlast, hcell⟩
      · obtain rfl : d = c := Option.some.inj hchar
        exact .inr ⟨fun _ j hj => hlast (j + 1) (Nat.succ_pos j) (Nat.succ_lt_succ hj),
          (if_pos ⟨hcol.symm, hrow⟩).trans (congrArg some hcell.symm)⟩
      · exact .inl ⟨hrow, i, c, hchar, hcol, fun j hij hj =>
          hlast (j + 1) (Nat.succ_lt_succ hij) (Nat.succ_lt_succ hj), hcell⟩

lemma letter?_text_eq_some_iff {color : UInt8} {left top : Int} {text : String} :
    letter? color left top 0 text.toList col row = some cell ↔
      (Draw.text text color left top).Paints col row cell := by
  rw [letter?_eq_some_iff]
  simp only [Nat.zero_add, String.length_toList]
  constructor
  · rintro ⟨rfl, i, c, hchar, hcol, hlast, rfl⟩
    exact .letter hchar hcol.symm fun j hij hj => (hlast j hij hj).symm
  · rintro ⟨hchar, hcol, hlast⟩
    exact ⟨rfl, _, _, hchar, hcol.symm, fun j hij hj => (hlast j hij hj).symm, rfl⟩

/-- No two of at most `2 ^ 31` characters come to one column left of the last. -/
lemma paints_text_iff {text : String} {color : UInt8} {left top : Int}
    (hcol : col < Screen.lastCoordinate) (hlength : text.length ≤ 2147483648) :
    (Draw.text text color left top).Paints col row cell ↔
      row = top ∧ ∃ (i : Nat) (c : Char), left + i = col ∧ text.toList[i]? = some c ∧
        cell = ⟨c, color⟩ := by
  have hfits : 0 + text.toList.length ≤ 2147483648 := by
    rwa [Nat.zero_add, String.length_toList]
  rw [← letter?_text_eq_some_iff, letter?_of_lt color hcol (.inl hfits)]
  constructor
  · intro h
    split at h
    · next hplace =>
      obtain ⟨c, hchar, rfl⟩ := Option.map_eq_some_iff.mp h
      exact ⟨hplace.2, _, c, by omega, hchar, rfl⟩
    · cases h
  · rintro ⟨rfl, i, c, rfl, hchar, rfl⟩
    have hindex : (left + i - (left + (0 : Nat))).toNat = i := by omega
    rw [if_pos ⟨by omega, rfl⟩, hindex, hchar]
    rfl

/-- A rectangle with at least two columns and rows has four different corners, and no place on its
border is both on an upright and on a level side. -/
lemma border?_eq_some_iff {color : UInt8} {left top width height : Int} (hwidth : 2 ≤ width)
    (hheight : 2 ≤ height) :
    (border? left top (left + width - 1) (top + height - 1) col row).map (⟨·, color⟩) = some cell ↔
      (Draw.box color left top width height).Paints col row cell := by
  unfold border?
  constructor
  · intro h
    split_ifs at h with hlowerRight hlowerLeft hupperRight hupperLeft hdown hacross
    · obtain ⟨rfl, rfl⟩ := hlowerRight
      cases h
      exact .lowerRight hwidth hheight
    · obtain ⟨rfl, rfl⟩ := hlowerLeft
      cases h
      exact .lowerLeft hwidth hheight
    · obtain ⟨rfl, rfl⟩ := hupperRight
      cases h
      exact .upperRight hwidth hheight
    · obtain ⟨rfl, rfl⟩ := hupperLeft
      cases h
      exact .upperLeft hwidth hheight
    · cases h
      exact .down hwidth hdown.1 hdown.2
    · cases h
      exact .across hheight hacross.1 hacross.2
    · cases h
  · intro h
    cases h with
    | upperLeft | upperRight | lowerLeft | lowerRight | across | down => grind

lemma paint?_eq_some_iff {command : Draw} :
    command.paint? col row = some cell ↔ command.Paints col row cell := by
  cases command with
  | text text color left top => exact letter?_text_eq_some_iff
  | box color left top width height =>
    simp only [paint?]
    by_cases hsmall : width < 2 ∨ height < 2
    · rw [if_pos hsmall]
      constructor
      · intro h
        cases h
      · intro h
        cases h <;> omega
    · rw [if_neg hsmall]
      exact border?_eq_some_iff (by omega) (by omega)
  | clear =>
    constructor
    · rintro ⟨⟩
      exact .blank
    · rintro ⟨⟩
      rfl

lemma paint?_eq_none_iff {command : Draw} :
    command.paint? col row = none ↔ ¬command.Covers col row := by
  unfold Covers
  rw [Option.eq_none_iff_forall_ne_some]
  simp only [ne_eq, paint?_eq_some_iff, not_exists]

end

/-- Painting over a blank place leaves the cell of the last command that covers it. -/
lemma leaves_paintOver (commands : List Draw) (col row : Int) :
    Leaves commands col row (paintOver commands col row {}) := by
  induction commands using List.reverseRecOn with
  | nil => exact .untouched (List.forall_mem_nil _)
  | append_singleton commands last ih =>
    have hover : paintOver (commands ++ [last]) col row {} =
        (last.paint? col row).getD (paintOver commands col row {}) :=
      List.foldl_append
    rw [hover]
    cases hpaint : last.paint? col row with
    | some cell => exact .painted (paint?_eq_some_iff.mp hpaint) (List.forall_mem_nil _)
    | none =>
      have hlast : ∀ later ∈ [last], ¬later.Covers col row :=
        List.forall_mem_singleton.mpr (paint?_eq_none_iff.mp hpaint)
      rw [Option.getD_none]
      -- the last command covers another place, so what was left before it stays
      generalize paintOver commands col row {} = cell at ih
      cases ih with
      | untouched hnone => exact .untouched (List.forall_mem_append.mpr ⟨hnone, hlast⟩)
      | painted hpaints hbehind =>
        rw [List.append_assoc, List.cons_append]
        exact .painted hpaints (List.forall_mem_append.mpr ⟨hbehind, hlast⟩)

end Draw

namespace Text

/-- Trimming removes blanks at the end, and all of them. -/
lemma exists_blanks_of_trimEnd (cs : List Char) :
    ∃ blanks, cs = trimEnd cs ++ blanks ∧ (∀ c ∈ blanks, isBlank c = true) ∧
      ∀ c ∈ (trimEnd cs).getLast?, isBlank c = false := by
  refine ⟨(cs.reverse.takeWhile isBlank).reverse, ?_, ?_, ?_⟩
  · rw [trimEnd, ← List.reverse_append, List.takeWhile_append_dropWhile, List.reverse_reverse]
  · intro c hc
    exact List.mem_takeWhile_imp (List.mem_reverse.mp hc)
  · intro c hc
    rw [trimEnd, List.getLast?_reverse, Option.mem_def] at hc
    have hhead := List.head?_dropWhile_not isBlank cs.reverse
    rw [hc] at hhead
    simpa using hhead

end Text

namespace Screen

variable (screen : Screen)

lemma cell?_blank {width height : Nat} {col row : Int}
    (hplace : 0 ≤ col ∧ col < width ∧ 0 ≤ row ∧ row < height) :
    (blank width height).cell? col row = some {} := by
  have hclear := (blank width height).cell?_draw col row .clear
  obtain ⟨old, hold⟩ := (blank width height).exists_cell col row hplace
  rw [hold] at hclear
  exact hclear

/-- Each place of a screen that starts blank holds what was painted there last. -/
lemma cell?_drawAll_blank {width height : Nat} {col row : Int} (commands : List Draw)
    (hplace : 0 ≤ col ∧ col < width ∧ 0 ≤ row ∧ row < height) :
    ∃ cell, ((blank width height).drawAll commands).cell? col row = some cell ∧
      Draw.Leaves commands col row cell := by
  refine ⟨_, ?_, Draw.leaves_paintOver commands col row⟩
  rw [cell?_drawAll, cell?_blank hplace]
  rfl

/-- A row ends where the next one starts, or at the end of the cells. -/
lemma row_le_size {row : Nat} (hrow : row < screen.height) :
    row * screen.width + screen.width ≤ screen.cells.size := by
  have hrows : (row + 1) * screen.width ≤ screen.height * screen.width :=
    Nat.mul_le_mul_right _ hrow
  rw [Nat.succ_mul] at hrows
  rw [screen.size_cells, Nat.mul_comm screen.width]
  exact hrows

/-- The cells of a row stand in its columns. -/
lemma getElem?_rowCells (col row : Nat) :
    (screen.rowCells row)[col]? = screen.cell? col row := by
  unfold rowCells cell?
  by_cases hrow : row < screen.height
  · rw [if_pos (by omega)]
    have hend := screen.row_le_size hrow
    by_cases hcol : col < screen.width
    · rw [if_pos (by omega)]
      simp only [Int.toNat_natCast, Array.getElem?_toList]
      rw [Array.getElem?_extract, if_pos (by omega)]
    · rw [if_neg (by omega), List.getElem?_eq_none]
      simp only [Int.toNat_natCast, Array.length_toList, Array.size_extract]
      omega
  · rw [if_neg (by omega), if_neg (by omega), List.getElem?_nil]

lemma length_rowCells {row : Nat} (hrow : row < screen.height) :
    (screen.rowCells row).length = screen.width := by
  have hend := screen.row_le_size hrow
  rw [rowCells, if_pos (by omega)]
  simp only [Int.toNat_natCast, Array.length_toList, Array.size_extract]
  omega

/-- A row is its characters without the blanks at the end. -/
lemma getElem?_rows {row : Nat} (hrow : row < screen.height) :
    ∃ text blanks, screen.rows[row]? = some text ∧ (text.toList ++ blanks).length = screen.width ∧
      (∀ col : Nat, (text.toList ++ blanks)[col]? = (screen.cell? col row).map Cell.char) ∧
      (∀ c ∈ blanks, Text.isBlank c = true) ∧
      ∀ c ∈ text.toList.getLast?, Text.isBlank c = false := by
  obtain ⟨blanks, hchars, hblanks, hlast⟩ :=
    Text.exists_blanks_of_trimEnd ((screen.rowCells row).map Cell.char)
  refine ⟨screen.rowText row, blanks, ?_, ?_⟩
  · rw [rows, List.getElem?_map, List.getElem?_range hrow]
    rfl
  · rw [rowText, String.toList_ofList, ← hchars, List.length_map, screen.length_rowCells hrow]
    refine ⟨rfl, fun col => ?_, hblanks, hlast⟩
    rw [List.getElem?_map, getElem?_rowCells]

lemma make?_eq_some_iff {width height : Nat} {start : Screen} :
    make? width height = some start ↔ width * height < cellLimit ∧ blank width height = start := by
  rw [make?, Option.ite_none_right_eq_some, Option.some.injEq]

/-- A new screen can be made if its cells can be allocated, and then it is what its commands paint:
each place holds the cell of the last command that covers it, or stays blank, and nothing is painted
outside of the screen. The cells are as many as the places, every access stays within them, and each
row shows its characters up to the last one that is not blank. A text of no more than `2 ^ 31`
characters covers their places side by side. -/
theorem drawn_as_painted {width height : Nat} (hnarrow : width < 2147483648) (commands : List Draw) :
    (width * height < cellLimit ↔ ∃ start, make? width height = some start) ∧
    (∀ start, make? width height = some start →
      let screen := start.drawAll commands
      screen.size = (width, height) ∧ screen.cells.size = width * height ∧
      (∀ col row : Int, 0 ≤ col ∧ col < width ∧ 0 ≤ row ∧ row < height →
        row.toNat * width + col.toNat < screen.cells.size ∧
        ∃ cell, screen.cell? col row = some cell ∧ Draw.Leaves commands col row cell) ∧
      (∀ col row : Int, ¬(0 ≤ col ∧ col < width ∧ 0 ≤ row ∧ row < height) →
        screen.cell? col row = none) ∧
      screen.rows.length = height ∧
      ∀ row : Nat, row < height →
        row * width + width ≤ screen.cells.size ∧
        ∃ text blanks, screen.rows[row]? = some text ∧ (text.toList ++ blanks).length = width ∧
          (∀ col : Nat, (text.toList ++ blanks)[col]? = (screen.cell? col row).map Cell.char) ∧
          (∀ c ∈ blanks, Text.isBlank c = true) ∧
          ∀ c ∈ text.toList.getLast?, Text.isBlank c = false) ∧
    ∀ (text : String) (color : UInt8) (left top col row : Int) (cell : Cell),
      text.length ≤ 2147483648 → col < width →
      ((Draw.text text color left top).Paints col row cell ↔
        row = top ∧ ∃ (i : Nat) (c : Char), left + i = col ∧ text.toList[i]? = some c ∧
          cell = ⟨c, color⟩) := by
  refine ⟨⟨fun hcells => ⟨_, make?_eq_some_iff.mpr ⟨hcells, rfl⟩⟩, ?_⟩, fun start hstart => ?_, ?_⟩
  · rintro ⟨start, hstart⟩
    exact (make?_eq_some_iff.mp hstart).1
  · obtain ⟨-, rfl⟩ := make?_eq_some_iff.mp hstart
    intro screen
    have hsize : screen.size = (width, height) := size_drawAll _ commands
    have hwidth : screen.width = width := congrArg Prod.fst hsize
    have hheight : screen.height = height := congrArg Prod.snd hsize
    refine ⟨hsize, ?_, fun col row hplace => ⟨?_, cell?_drawAll_blank commands hplace⟩,
      fun col row hplace => ?_, ?_, fun row hrow => ?_⟩
    · rw [screen.size_cells, hwidth, hheight]
    · have hlt := screen.index_lt col row (by omega)
      rwa [hwidth] at hlt
    · exact screen.cell?_eq_none col row (by omega)
    · rw [rows, List.length_map, List.length_range, hheight]
    · have hend := screen.row_le_size (by omega : row < screen.height)
      have hrows := screen.getElem?_rows (by omega : row < screen.height)
      rw [hwidth] at hend hrows
      exact ⟨hend, hrows⟩
  · intro text color left top col row cell hlength hcol
    exact Draw.paints_text_iff (by unfold lastCoordinate; omega) hlength

/-- The second of three characters, on a screen that has room for one. -/
theorem drawn_as_painted_clipped :
    let command := Draw.text "abc" 7 (-1) 0
    command.Paints 0 0 ⟨'b', 7⟩ ∧
      ∃ start cell, make? 1 1 = some start ∧
        (start.drawAll [command]).cell? 0 0 = some cell ∧ Draw.Leaves [command] 0 0 cell := by
  intro command
  obtain ⟨hmade, hdrawn, hpaints⟩ := @drawn_as_painted 1 1 (by decide) [command]
  obtain ⟨start, hstart⟩ := hmade.mp (by decide)
  obtain ⟨-, cell, hcell, hleaves⟩ := (hdrawn start hstart).2.2.1 0 0 (by decide)
  exact ⟨(hpaints "abc" 7 (-1) 0 0 0 _ (by decide) (by decide)).mpr ⟨rfl, 1, 'b', rfl, rfl, rfl⟩,
    start, cell, hstart, hcell, hleaves⟩

/-- A character with `2 ^ 31` others in front of it comes to the same column as the one before it and
takes its place, instead of the next one. Besides, not every size of 32 bits can be allocated. -/
theorem last_letters_in_one_column :
    let text := String.ofList (List.replicate 2147483647 'x' ++ ['a', 'b'])
    let screen := (blank 3 1).draw (.text text 7 (-2147483647) 0)
    text.toList[2147483647]? = some 'a' ∧ (-2147483647 : Int) + 2147483647 = 0 ∧
      text.toList[2147483648]? = some 'b' ∧ (-2147483647 : Int) + 2147483648 = 1 ∧
      screen.cell? 0 0 = some ⟨'b', 7⟩ ∧ screen.cell? 1 0 = some {} ∧
      make? 1073741824 1073741824 = none := by
  have hlength : (List.replicate 2147483647 'x').length = 2147483647 := List.length_replicate
  generalize List.replicate 2147483647 'x' = xs at hlength ⊢
  intro text screen
  have hchars : text.toList = xs ++ ['a', 'b'] := String.toList_ofList
  have hfirst : text.toList[2147483647]? = some 'a' := by
    rw [hchars, List.getElem?_append_right (by omega), hlength]
    rfl
  have hsecond : text.toList[2147483648]? = some 'b' := by
    rw [hchars, List.getElem?_append_right (by omega), hlength]
    rfl
  have hcells (col : Int) (hcol : 0 ≤ col ∧ col < 3) : screen.cell? col 0 =
      some ((Draw.letter? 7 (-2147483647) 0 0 text.toList col 0).getD {}) := by
    rw [cell?_draw, cell?_blank (by omega)]
    rfl
  have hshown : Draw.letter? 7 (-2147483647) 0 0 text.toList 0 0 = some ⟨'b', 7⟩ := by
    refine Draw.letter?_eq_some_iff.mpr ⟨rfl, _, _, hsecond, rfl, fun j hj hend => ?_, rfl⟩
    rw [hchars, List.length_append, hlength] at hend
    change j < 2147483647 + 2 at hend
    omega
  have hnone : Draw.letter? 7 (-2147483647) 0 0 text.toList 1 0 = none := by
    refine Draw.letter?_eq_none_iff.mpr fun _ i _ hcol => ?_
    unfold columnOf coordinate lastCoordinate at hcol
    omega
  exact ⟨hfirst, rfl, hsecond, rfl, by rw [hcells 0 (by decide), hshown, Option.getD_some],
    by rw [hcells 1 (by decide), hnone, Option.getD_none], rfl⟩

end Screen

end ScriptConsole
