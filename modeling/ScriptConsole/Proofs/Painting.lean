import Mathlib.Tactic.Common
import ScriptConsole.Screen

/-!
# What commands paint

`Draw.paint?` says what a command paints at a place, on a screen without edges. A command that is
carried out changes the cells of the screen in just this way (`Screen.cell?_draw`), and commands in
order paint over each other (`Screen.cell?_drawAll`). Where columns need not be held within 32 bits,
the characters of a text stand side by side (`Draw.letter?_of_lt`).
-/

namespace ScriptConsole

namespace Screen

lemma coordinate_of_lt {n : Nat} (h : n < 2147483648) : coordinate n = n := by
  unfold coordinate lastCoordinate
  omega

/-- Left of the last column, a character stands as many columns from the start of its text as there are
others in front of it. That their number is held makes a difference only in a text of more than
`2 ^ 31` characters, and only if it starts left of the screen. -/
lemma columnOf_eq_iff {left col : Int} (hcol : col < lastCoordinate) {before : Nat}
    (hfits : before < 2147483648 ∨ 0 ≤ left) : columnOf left before = col ↔ left + before = col := by
  unfold columnOf coordinate
  unfold lastCoordinate at *
  omega

/-- What is held at the last column cannot be seen left of it. -/
lemma eq_columnOf_coordinate_iff {col : Nat} (n : Nat) (hcol : (col : Int) < lastCoordinate) :
    (col : Int) = columnOf (coordinate n) 0 ↔ col = n := by
  unfold columnOf coordinate
  unfold lastCoordinate at *
  omega

end Screen

namespace Draw

/-- The part of the border of a rectangle that stands at a place, if the place is on the border. -/
def border? (left top right bottom col row : Int) : Option Char :=
  if col = right ∧ row = bottom then some '┘'
  else if col = left ∧ row = bottom then some '└'
  else if col = right ∧ row = top then some '┐'
  else if col = left ∧ row = top then some '┌'
  else if (col = left ∨ col = right) ∧ top < row ∧ row < bottom then some '│'
  else if (row = top ∨ row = bottom) ∧ left < col ∧ col < right then some '─'
  else none

/-- What characters of a text paint at a place, with `before` others in front of them: where several
come to the same column, the last one. -/
def letter? (color : UInt8) (left top : Int) (before : Nat) : List Char → (col row : Int) → Option Cell
  | [], _, _ => none
  | c :: cs, col, row =>
    (letter? color left top (before + 1) cs col row).or
      (if col = Screen.columnOf left before ∧ row = top then some ⟨c, color⟩ else none)

/-- Left of the last column, characters stand side by side. -/
lemma letter?_of_lt (color : UInt8) {left top col row : Int} {before : Nat} {cs : List Char}
    (hcol : col < Screen.lastCoordinate) (hfits : before + cs.length ≤ 2147483648 ∨ 0 ≤ left) :
    letter? color left top before cs col row =
      if left + before ≤ col ∧ row = top then
        cs[(col - (left + before)).toNat]?.map (⟨·, color⟩)
      else none := by
  induction cs generalizing before with
  | nil => simp [letter?]
  | cons c cs ih =>
    rw [List.length_cons] at hfits
    have hcolumn : Screen.columnOf left before = col ↔ left + before = col :=
      Screen.columnOf_eq_iff hcol (by omega)
    rw [letter?, ih (by omega)]
    -- the place lies on the first character, behind it, or nowhere on the text
    by_cases hfirst : left + before = col ∧ row = top
    · have hbehind : ¬(left + (before + 1 : Nat) ≤ col ∧ row = top) := by omega
      rw [if_neg hbehind, if_pos ⟨(hcolumn.mpr hfirst.1).symm, hfirst.2⟩, if_pos (by omega),
        ← hfirst.1, Int.sub_self]
      rfl
    · have hnot : ¬(col = Screen.columnOf left before ∧ row = top) :=
        fun h => hfirst ⟨hcolumn.mp h.1.symm, h.2⟩
      rw [if_neg hnot, Option.or_none]
      by_cases hlater : left + (before + 1 : Nat) ≤ col ∧ row = top
      · have hindex : (col - (left + before)).toNat =
            (col - (left + (before + 1 : Nat))).toNat + 1 := by omega
        rw [if_pos hlater, if_pos (by omega), hindex, List.getElem?_cons_succ]
      · rw [if_neg hlater, if_neg (by omega)]

/-- What a command paints at a place, if it covers the place. -/
def paint? : Draw → (col row : Int) → Option Cell
  | .text chars color left top, col, row => letter? color left top 0 chars.toList col row
  | .box color left top width height, col, row =>
    if width < 2 ∨ height < 2 then none
    else (border? left top (left + width - 1) (top + height - 1) col row).map (⟨·, color⟩)
  | .clear, _, _ => some {}

/-- What a place shows after commands that are carried out in order. -/
def paintOver (commands : List Draw) (col row : Int) (cell : Cell) : Cell :=
  commands.foldl (fun cell command => (command.paint? col row).getD cell) cell

end Draw

namespace Screen

variable (screen : Screen) (cell : Cell) (col row c r : Int)

/-- Two places of one grid have the same index only if they are the same. -/
lemma index_inj {width a b i j : Nat} (hi : i < width) (hj : j < width)
    (h : a * width + i = b * width + j) : a = b ∧ i = j := by
  have hquotient (k l : Nat) (hl : l < width) : (k * width + l) / width = k := by
    rw [Nat.mul_comm, Nat.mul_add_div (by omega), Nat.div_eq_of_lt hl, Nat.add_zero]
  have hab : a = b := by
    rw [← hquotient a i hi, h, hquotient b j hj]
  subst hab
  omega

lemma index_lt (h : 0 ≤ c ∧ c < screen.width ∧ 0 ≤ r ∧ r < screen.height) :
    r.toNat * screen.width + c.toNat < screen.cells.size := by
  have hrow : (r.toNat + 1) * screen.width ≤ screen.height * screen.width :=
    Nat.mul_le_mul_right _ (by omega)
  rw [Nat.succ_mul] at hrow
  rw [screen.size_cells, Nat.mul_comm screen.width]
  omega

/-- There is a cell at every place of the screen. -/
lemma exists_cell (h : 0 ≤ c ∧ c < screen.width ∧ 0 ≤ r ∧ r < screen.height) :
    ∃ cell, screen.cell? c r = some cell := by
  rw [cell?, if_pos h]
  exact ⟨_, Array.getElem?_eq_getElem (screen.index_lt c r h)⟩

lemma cell?_eq_none (h : ¬(0 ≤ c ∧ c < screen.width ∧ 0 ≤ r ∧ r < screen.height)) :
    screen.cell? c r = none := by
  rw [cell?, if_neg h]

/-- Setting a cell changes this cell, if it is on the screen, and no other. -/
lemma cell?_put : (screen.put cell col row).cell? c r =
    (screen.cell? c r).map fun old => if c = col ∧ r = row then cell else old := by
  unfold put
  by_cases hplace : 0 ≤ col ∧ col < screen.width ∧ 0 ≤ row ∧ row < screen.height
  · rw [if_pos hplace]
    unfold cell?
    by_cases hc : 0 ≤ c ∧ c < screen.width ∧ 0 ≤ r ∧ r < screen.height
    · rw [if_pos hc, if_pos hc, Array.getElem?_setIfInBounds]
      have hlt := screen.index_lt col row hplace
      by_cases hsame : c = col ∧ r = row
      · rw [hsame.1, hsame.2, if_pos rfl, if_pos hlt, Array.getElem?_eq_getElem hlt]
        simp
      · rw [if_neg fun hindex => hsame ?_]
        · simp only [if_neg hsame, Option.map_id']
        · obtain ⟨hr, hc⟩ := index_inj (by omega) (by omega) hindex
          omega
    · rw [if_neg hc, if_neg hc, Option.map_none]
  · rw [if_neg hplace]
    by_cases hsame : c = col ∧ r = row
    · rw [hsame.1, hsame.2, cell?_eq_none screen col row hplace, Option.map_none]
    · simp only [if_neg hsame, Option.map_id']

lemma cell?_putChars (color : UInt8) (before : Nat) (cs : List Char) :
    (screen.putChars color col row before cs).cell? c r =
      (screen.cell? c r).map fun old => (Draw.letter? color col row before cs c r).getD old := by
  induction cs generalizing screen before with
  | nil =>
    unfold putChars Draw.letter?
    simp
  | cons d cs ih =>
    rw [putChars, ih, cell?_put, Option.map_map]
    congr 1
    funext old
    rw [Function.comp_apply, Draw.letter?, Option.getD_or]
    split <;> rfl

/-- The same cell set at several places. -/
lemma cell?_foldl_put (covers : Nat → Prop) [DecidablePred covers] (x y : Nat → Int)
    (ns : List Nat) :
    (ns.foldl (fun screen n => if covers n then screen.put cell (x n) (y n) else screen)
      screen).cell? c r =
      (screen.cell? c r).map fun old =>
        if ∃ n ∈ ns, covers n ∧ c = x n ∧ r = y n then cell else old := by
  induction ns generalizing screen with
  | nil => simp
  | cons n ns ih =>
    rw [List.foldl_cons, ih]
    by_cases hn : covers n
    · rw [if_pos hn, cell?_put, Option.map_map]
      congr 1
      funext old
      simp only [Function.comp_apply, List.mem_cons, exists_eq_or_imp, hn, true_and]
      by_cases hplace : c = x n ∧ r = y n
      · simp [hplace]
      · simp [hplace]
    · rw [if_neg hn]
      simp [hn]

lemma cell?_putAcross (first last : Int) :
    (screen.putAcross cell row first last).cell? c r =
      (screen.cell? c r).map fun old =>
        if r = row ∧ first ≤ c ∧ c < last then cell else old := by
  unfold putAcross
  rw [cell?_foldl_put]
  by_cases hplace : 0 ≤ c ∧ c < screen.width ∧ 0 ≤ r ∧ r < screen.height
  · have hcovered : (∃ n ∈ List.range screen.width, (first ≤ (n : Int) ∧ (n : Int) < last) ∧
        c = n ∧ r = row) ↔ r = row ∧ first ≤ c ∧ c < last := by
      constructor
      · rintro ⟨n, -, hn, rfl, rfl⟩
        exact ⟨rfl, hn⟩
      · rintro ⟨rfl, hfirst, hlast⟩
        refine ⟨c.toNat, List.mem_range.mpr ?_, ?_, ?_, rfl⟩ <;> omega
    simp only [hcovered]
  · rw [cell?_eq_none screen c r hplace, Option.map_none, Option.map_none]

lemma cell?_putDown (first last : Int) :
    (screen.putDown cell col first last).cell? c r =
      (screen.cell? c r).map fun old =>
        if c = col ∧ first ≤ r ∧ r < last then cell else old := by
  unfold putDown
  rw [cell?_foldl_put]
  by_cases hplace : 0 ≤ c ∧ c < screen.width ∧ 0 ≤ r ∧ r < screen.height
  · have hcovered : (∃ n ∈ List.range screen.height, (first ≤ (n : Int) ∧ (n : Int) < last) ∧
        c = col ∧ r = n) ↔ c = col ∧ first ≤ r ∧ r < last := by
      constructor
      · rintro ⟨n, -, hn, rfl, rfl⟩
        exact ⟨rfl, hn⟩
      · rintro ⟨rfl, hfirst, hlast⟩
        refine ⟨r.toNat, List.mem_range.mpr ?_, ?_, rfl, ?_⟩ <;> omega
    simp only [hcovered]
  · rw [cell?_eq_none screen c r hplace, Option.map_none, Option.map_none]

lemma cell?_putBox (color : UInt8) (width height : Int) :
    (screen.putBox color col row width height).cell? c r =
      (screen.cell? c r).map fun old =>
        ((Draw.box color col row width height).paint? c r).getD old := by
  unfold putBox Draw.paint?
  by_cases hsmall : width < 2 ∨ height < 2
  · simp only [if_pos hsmall, Option.getD_none, Option.map_id']
  · simp only [if_neg hsmall, cell?_put, cell?_putAcross, cell?_putDown, Option.map_map]
    congr 1
    funext old
    simp only [Function.comp_apply]
    unfold Draw.border?
    -- the corners are drawn last, so the cases are those of `border?` in its order
    by_cases hlower : c = col + width - 1 ∧ r = row + height - 1
    · rw [if_pos hlower, if_pos hlower]
      rfl
    rw [if_neg hlower, if_neg hlower]
    by_cases hlower : c = col ∧ r = row + height - 1
    · rw [if_pos hlower, if_pos hlower]
      rfl
    rw [if_neg hlower, if_neg hlower]
    by_cases hupper : c = col + width - 1 ∧ r = row
    · rw [if_pos hupper, if_pos hupper]
      rfl
    rw [if_neg hupper, if_neg hupper]
    by_cases hupper : c = col ∧ r = row
    · rw [if_pos hupper, if_pos hupper]
      rfl
    rw [if_neg hupper, if_neg hupper]
    by_cases hside : (c = col ∨ c = col + width - 1) ∧ row < r ∧ r < row + height - 1
    · rw [if_pos hside]
      by_cases hright : c = col + width - 1
      · rw [if_pos (by omega)]
        rfl
      · rw [if_neg (by omega), if_pos (by omega)]
        rfl
    rw [if_neg hside, if_neg (by omega), if_neg (by omega)]
    by_cases hedge : (r = row ∨ r = row + height - 1) ∧ col < c ∧ c < col + width - 1
    · rw [if_pos hedge]
      by_cases hbottom : r = row + height - 1
      · rw [if_pos (by omega)]
        rfl
      · rw [if_neg (by omega), if_pos (by omega)]
        rfl
    rw [if_neg hedge, if_neg (by omega), if_neg (by omega)]
    rfl

/-- A command paints what it covers and leaves the rest as it is. -/
theorem cell?_draw (command : Draw) :
    (screen.draw command).cell? c r =
      (screen.cell? c r).map fun old => (command.paint? c r).getD old := by
  cases command with
  | text s color left top => exact screen.cell?_putChars left top c r color 0 s.toList
  | box color left top width height => exact screen.cell?_putBox left top c r color width height
  | clear =>
    change (blank screen.width screen.height).cell? c r = (screen.cell? c r).map fun _ => {}
    by_cases hplace : 0 ≤ c ∧ c < screen.width ∧ 0 ≤ r ∧ r < screen.height
    · obtain ⟨old, hold⟩ := screen.exists_cell c r hplace
      obtain ⟨cell, hcell⟩ := (blank screen.width screen.height).exists_cell c r hplace
      have hblank : cell = {} := by
        unfold cell? at hcell
        split at hcell
        · exact Array.eq_of_mem_replicate (Array.mem_of_getElem? hcell)
        · cases hcell
      rw [hold, hcell, hblank, Option.map_some]
    · rw [cell?_eq_none screen c r hplace, Option.map_none]
      exact cell?_eq_none _ c r hplace

/-- Commands paint over each other. -/
theorem cell?_drawAll (commands : List Draw) :
    (screen.drawAll commands).cell? c r =
      (screen.cell? c r).map fun old => Draw.paintOver commands c r old := by
  unfold drawAll
  induction commands generalizing screen with
  | nil => simp [Draw.paintOver]
  | cons command commands ih =>
    rw [List.foldl_cons, ih, cell?_draw, Option.map_map]
    rfl

/-- Columns and rows. -/
def size (screen : Screen) : Nat × Nat :=
  (screen.width, screen.height)

lemma size_put : (screen.put cell col row).size = screen.size := by
  unfold put
  split <;> rfl

lemma size_foldl {α : Type} {f : Screen → α → Screen} (hf : ∀ screen a, (f screen a).size = screen.size)
    (as : List α) : (as.foldl f screen).size = screen.size := by
  induction as generalizing screen with
  | nil => rfl
  | cons a as ih => rw [List.foldl_cons, ih, hf]

lemma size_draw (command : Draw) : (screen.draw command).size = screen.size := by
  have hacross (screen : Screen) (cell : Cell) (row first last : Int) :
      (screen.putAcross cell row first last).size = screen.size := by
    refine screen.size_foldl (fun screen n => ?_) _
    split
    · exact size_put ..
    · rfl
  have hdown (screen : Screen) (cell : Cell) (col first last : Int) :
      (screen.putDown cell col first last).size = screen.size := by
    refine screen.size_foldl (fun screen n => ?_) _
    split
    · exact size_put ..
    · rfl
  cases command with
  | text s color col row =>
    rw [draw]
    generalize 0 = before
    induction s.toList generalizing screen before with
    | nil => rfl
    | cons c cs ih => rw [putChars, ih, size_put]
  | box color col row width height =>
    rw [draw, putBox]
    split
    · rfl
    · simp only [size_put, hacross, hdown]
  | clear => rfl

lemma size_drawAll (commands : List Draw) : (screen.drawAll commands).size = screen.size :=
  screen.size_foldl size_draw commands

end Screen

end ScriptConsole
