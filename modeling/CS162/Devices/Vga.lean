import Mathlib.Logic.Function.Basic
import Mathlib.Tactic.IntervalCases
import CS162.Foundation.TransitionSystem

/-!
# The text display

`devices/vga.c`, with the cursor registers of the display, and a typewriter on paper
without an end, whose last rows the display shows.  Interrupts are off in `vga_putc` but
for the time of a beep, so that a call is one step and a beep is two.
-/

namespace CS162.Devices

open CS162.Foundation

universe u

/-- `COL_CNT`. -/
def colCnt : Nat := 80

/-- `ROW_CNT`. -/
def rowCnt : Nat := 25

/-- A character with its attribute. -/
structure VgaCell where
  char : UInt8
  attr : UInt8
  deriving DecidableEq

/-- `GRAY_ON_BLACK`. -/
def grayOnBlack : UInt8 := 0x07

/-- What `clear_row` puts in every column. -/
def blankCell : VgaCell := ⟨32, grayOnBlack⟩

/-- The index register at port 0x3d4, and the registers 0x0e and 0x0f behind port
0x3d5. -/
structure Crtc where
  index : BitVec 8
  cursorHigh : BitVec 8
  cursorLow : BitVec 8
  deriving DecidableEq

namespace Crtc

/-- `outb (0x3d4, index)`. -/
def outIndex (crtc : Crtc) (index : BitVec 8) : Crtc := { crtc with index := index }

/-- `outb (0x3d5, value)`. -/
def outData (crtc : Crtc) (value : BitVec 8) : Crtc :=
  if crtc.index = 0x0e#8 then { crtc with cursorHigh := value }
  else if crtc.index = 0x0f#8 then { crtc with cursorLow := value }
  else crtc

/-- `inb (0x3d5)`, of a cursor register. -/
def inData (crtc : Crtc) : BitVec 8 :=
  if crtc.index = 0x0e#8 then crtc.cursorHigh else crtc.cursorLow

/-- `outw (0x3d4, value)`: the second byte goes to the next port. -/
def outw (crtc : Crtc) (value : BitVec 16) : Crtc :=
  (crtc.outIndex (value.setWidth 8)).outData ((value >>> 8).setWidth 8)

end Crtc

/-- The variables of `vga.c`, and the display. -/
structure Vga where
  cx : Nat
  cy : Nat
  inited : Bool
  fb : Nat → Nat → VgaCell
  crtc : Crtc

namespace Vga

/-- `move_cursor`. -/
def moveCursor (v : Vga) : Vga :=
  let cp := BitVec.ofNat 16 (v.cx + colCnt * v.cy)
  { v with
    crtc := (v.crtc.outw (0x0e#16 ||| (cp &&& 0xff00#16))).outw (0x0f#16 ||| (cp <<< 8)) }

/-- `find_cursor`: `cp`, and the registers. -/
def findCursor (crtc : Crtc) : BitVec 16 × Crtc :=
  let first := crtc.outIndex 0x0e#8
  let second := first.outIndex 0x0f#8
  ((first.inData.setWidth 16 <<< 8) ||| second.inData.setWidth 16, second)

/-- `init`. -/
def init (v : Vga) : Vga :=
  if v.inited then v
  else
    { v with
      cx := (findCursor v.crtc).1.toNat % colCnt
      cy := (findCursor v.crtc).1.toNat / colCnt
      inited := true
      crtc := (findCursor v.crtc).2 }

/-- `clear_row`. -/
def clearRow (v : Vga) (y : Nat) : Vga :=
  { v with
    fb := Function.update v.fb y fun x => if x < colCnt then blankCell else v.fb y x }

/-- `cls`. -/
def cls (v : Vga) : Vga := { (List.range rowCnt).foldl clearRow v with cx := 0, cy := 0 }.moveCursor

/-- `memmove (&fb[0], &fb[1], sizeof fb[0] * (ROW_CNT - 1))`. -/
def scroll (v : Vga) : Vga :=
  { v with
    fb := fun y x => if y < rowCnt - 1 ∧ x < colCnt then v.fb (y + 1) x else v.fb y x }

/-- `newline`. -/
def newline (v : Vga) : Vga :=
  if rowCnt ≤ v.cy + 1 then
    ({ v with cx := 0, cy := rowCnt - 1 }.scroll).clearRow (rowCnt - 1)
  else { v with cx := 0, cy := v.cy + 1 }

/-- `fb[cy][cx][0] = c` and `fb[cy][cx][1] = GRAY_ON_BLACK`. -/
def put (v : Vga) (c : UInt8) : Vga :=
  { v with
    fb := Function.update v.fb v.cy (Function.update (v.fb v.cy) v.cx ⟨c, grayOnBlack⟩) }

/-- The `switch` in `vga_putc`, but for `'\a'`. -/
def interpret (v : Vga) (c : UInt8) : Vga :=
  if c = 10 then v.newline
  else if c = 12 then v.cls
  else if c = 8 then
    if 0 < v.cx then { v with cx := v.cx - 1 } else v
  else if c = 13 then { v with cx := 0 }
  else if c = 9 then
    let next := (v.cx + 1 + 8 - 1) / 8 * 8
    if colCnt ≤ next then { v with cx := next }.newline else { v with cx := next }
  else
    let next := { v.put c with cx := v.cx + 1 }
    if colCnt ≤ next.cx then next.newline else next

/-- `vga_putc`, but for `'\a'`. -/
def vgaPutc (v : Vga) (c : UInt8) : Vga := (v.init.interpret c).moveCursor

end Vga

/-- A call of `vga_putc`; for `'\a'` until the beep and from there on. -/
inductive VgaMove where
  | putc (c : UInt8)
  | beep
  | beeped
  deriving DecidableEq

def Vga.step (v : Vga) : VgaMove → Option Vga
  | .putc c => if c = 7 then none else some (v.vgaPutc c)
  | .beep => some v.init
  | .beeped => if v.inited then some v.moveCursor else none

/-- All runs from a state of the display. -/
def vgaSystem (start : Vga) : TransitionSystem Vga VgaMove where
  initial v := v = start
  step := Vga.step

/-! ## Typing on paper -/

/-- What can be done with a typewriter that has a tabulator and can be given new
paper. -/
inductive Stroke (Cell : Type u) where
  | strike (cell : Cell)
  | newline
  | feed
  | back
  | home
  | tab
  deriving DecidableEq

/-- What is in each row and column, and where the next character goes. -/
structure Paper (Cell : Type u) where
  cell : Nat → Nat → Cell
  row : Nat
  column : Nat

namespace Paper

section Typing

variable {Cell : Type u} (columns tabStop : Nat) (blank : Cell)

/-- Paper without a character. -/
def blankPaper : Paper Cell := ⟨fun _ _ => blank, 0, 0⟩

def newline (p : Paper Cell) : Paper Cell := { p with row := p.row + 1, column := 0 }

/-- The carriage goes to a column. -/
def moveTo (p : Paper Cell) (column : Nat) : Paper Cell :=
  if columns ≤ column then p.newline else { p with column := column }

def strike (p : Paper Cell) (cell : Cell) : Paper Cell :=
  { p with
    cell := Function.update p.cell p.row (Function.update (p.cell p.row) p.column cell) }

def type (p : Paper Cell) : Stroke Cell → Paper Cell
  | .strike cell => (p.strike cell).moveTo columns (p.column + 1)
  | .newline => p.newline
  | .feed => blankPaper blank
  | .back => { p with column := p.column - 1 }
  | .home => { p with column := 0 }
  | .tab => p.moveTo columns ((p.column / tabStop + 1) * tabStop)

def typeAll (p : Paper Cell) (strokes : List (Stroke Cell)) : Paper Cell :=
  strokes.foldl (type columns tabStop blank) p

end Typing

end Paper

/-! ## What is on the screen -/

/-- Where the hardware shows the cursor. -/
def Crtc.cursor (crtc : Crtc) : Nat := (crtc.cursorHigh ++ crtc.cursorLow).toNat

/-- What a character does on paper.  `'\a'` does nothing. -/
def strokeOf (c : UInt8) : Stroke VgaCell :=
  if c = 10 then .newline
  else if c = 12 then .feed
  else if c = 8 then .back
  else if c = 13 then .home
  else if c = 9 then .tab
  else .strike ⟨c, grayOnBlack⟩

def VgaMove.char : VgaMove → Option UInt8
  | .putc c => some c
  | .beep => none
  | .beeped => none

/-- The kernel has not written to the display, and the BIOS has left the cursor on the
screen. -/
structure Untouched (start : Vga) : Prop where
  inited : start.inited = false
  cursor : start.crtc.cursor < colCnt * rowCnt

/-- The screen that the BIOS has left, on paper. -/
def Vga.paper (start : Vga) : Paper VgaCell where
  cell y x := if y < rowCnt ∧ x < colCnt then start.fb y x else blankCell
  row := start.crtc.cursor / colCnt
  column := start.crtc.cursor % colCnt

/-- What is typed onto a paper by calls of `vga_putc`. -/
def typed (p : Paper VgaCell) (moves : List VgaMove) : Paper VgaCell :=
  p.typeAll colCnt 8 blankCell ((moves.filterMap VgaMove.char).map strokeOf)

/-- The screen shows the last rows of the paper, and no memory beside it has
changed. -/
structure Pictures (start v : Vga) (p : Paper VgaCell) : Prop where
  cy : v.cy = min p.row (rowCnt - 1)
  fb : ∀ y x, y < rowCnt → x < colCnt → v.fb y x = p.cell (p.row - (rowCnt - 1) + y) x
  below : ∀ row column, p.row < row → rowCnt ≤ row → p.cell row column = blankCell
  beside : ∀ y x, rowCnt ≤ y ∨ colCnt ≤ x → v.fb y x = start.fb y x

/-- The variables are those of the paper as well. -/
structure Follows (start v : Vga) (p : Paper VgaCell) : Prop where
  picture : Pictures start v p
  inited : v.inited = true
  cx : v.cx = p.column
  column : p.column < colCnt

/-- The screen with its cursor. -/
structure Shows (start v : Vga) (p : Paper VgaCell) : Prop where
  follows : Follows start v p
  cursor : v.crtc.cursor = v.cx + colCnt * v.cy

section Display

variable {start v target : Vga} {p : Paper VgaCell} {moves : List VgaMove}

@[simp] theorem newline_inited (v : Vga) : v.newline.inited = v.inited := by
  rw [Vga.newline]
  split <;> rfl

@[simp] theorem newline_cx (v : Vga) : v.newline.cx = 0 := by
  rw [Vga.newline]
  split <;> rfl

theorem clearRow_fb (v : Vga) (row y x : Nat) :
    (v.clearRow row).fb y x = if y = row ∧ x < colCnt then blankCell else v.fb y x := by
  by_cases same : y = row
  · simp [Vga.clearRow, same]
  · simp [Vga.clearRow, same]

theorem clearRows_spec (v : Vga) (count : Nat) :
    (∀ y x, ((List.range count).foldl Vga.clearRow v).fb y x =
      if y < count ∧ x < colCnt then blankCell else v.fb y x) ∧
    ((List.range count).foldl Vga.clearRow v).inited = v.inited := by
  induction count with
  | zero => simp
  | succ count inductionHypothesis =>
      obtain ⟨cells, inited⟩ := inductionHypothesis
      rw [List.range_succ, List.foldl_append, List.foldl_cons, List.foldl_nil]
      refine ⟨?_, inited⟩
      intro y x
      rw [clearRow_fb, cells]
      have lower : y < count + 1 ↔ y = count ∨ y < count := by omega
      by_cases last : y = count
      · simp [last]
      · simp [last, lower]

theorem cls_inited (v : Vga) : v.cls.inited = v.inited := by
  simpa only [Vga.cls, Vga.moveCursor] using (clearRows_spec v rowCnt).2

/-- Two words that go out: an index with half of the cursor. -/
theorem outw_high (crtc : Crtc) (index : BitVec 8) (cp : BitVec 16) :
    crtc.outw (index.setWidth 16 ||| (cp &&& 0xff00#16)) =
      (crtc.outIndex index).outData ((cp >>> 8).setWidth 8) := by
  have low : (index.setWidth 16 ||| (cp &&& 0xff00#16)).setWidth 8 = index := by
    ext i inside
    simp
  have high : ((index.setWidth 16 ||| (cp &&& 0xff00#16)) >>> 8).setWidth 8 =
      (cp >>> 8).setWidth 8 := by
    ext i inside
    interval_cases i <;> simp
  rw [Crtc.outw, low, high]

theorem outw_low (crtc : Crtc) (index : BitVec 8) (cp : BitVec 16) :
    crtc.outw (index.setWidth 16 ||| (cp <<< 8)) =
      (crtc.outIndex index).outData (cp.setWidth 8) := by
  have low : (index.setWidth 16 ||| (cp <<< 8)).setWidth 8 = index := by
    ext i inside
    simp
  have high : ((index.setWidth 16 ||| (cp <<< 8)) >>> 8).setWidth 8 = cp.setWidth 8 := by
    apply BitVec.eq_of_getLsbD_eq
    intro i inside
    have room : 8 + i < 16 := by omega
    have wide : i < 16 := by omega
    simp [inside, room, ← BitVec.getLsbD_eq_getElem wide]
  rw [Crtc.outw, low, high]

theorem halves_append (cp : BitVec 16) :
    ((cp >>> 8).setWidth 8 ++ cp.setWidth 8 : BitVec 16) = cp := by
  apply BitVec.eq_of_getLsbD_eq
  intro i inside
  rw [BitVec.getLsbD_append]
  by_cases lower : i < 8
  · simp [lower]
  · have upper : 8 + (i - 8) = i := by omega
    have byte : i - 8 < 8 := by omega
    simp [lower, upper, byte]

/-- The two halves of the cursor go to their registers. -/
theorem moveCursor_cursor (v : Vga) (room : v.cx + colCnt * v.cy < 2 ^ 16) :
    v.moveCursor.crtc.cursor = v.cx + colCnt * v.cy := by
  obtain ⟨cp, position⟩ : ∃ cp, cp = BitVec.ofNat 16 (v.cx + colCnt * v.cy) := ⟨_, rfl⟩
  have high : v.crtc.outw (0x0e#16 ||| (cp &&& 0xff00#16)) = _ := outw_high v.crtc 0x0e#8 cp
  have low : ∀ crtc : Crtc, crtc.outw (0x0f#16 ||| (cp <<< 8)) = _ :=
    fun crtc => outw_low crtc 0x0f#8 cp
  have registers : v.moveCursor.crtc = ⟨0x0f#8, (cp >>> 8).setWidth 8, cp.setWidth 8⟩ := by
    rw [Vga.moveCursor]
    dsimp only
    rw [← position, high, low]
    rfl
  rw [Crtc.cursor, registers, halves_append, position, BitVec.toNat_ofNat]
  exact Nat.mod_eq_of_lt room

/-! ## One call -/

theorem Pictures.newline (pictures : Pictures start v p) : Pictures start v.newline p.newline := by
  have height : rowCnt = 25 := rfl
  have cy := pictures.cy
  rw [Vga.newline]
  by_cases scrolls : rowCnt ≤ v.cy + 1
  · rw [if_pos scrolls]
    have low : 24 ≤ p.row := by omega
    constructor
    · change rowCnt - 1 = min (p.row + 1) (rowCnt - 1)
      omega
    · intro y x yInside xInside
      rw [clearRow_fb]
      by_cases last : y = rowCnt - 1
      · rw [if_pos ⟨last, xInside⟩]
        exact (pictures.below _ _ (by simp only [Paper.newline]; omega)
          (by simp only [Paper.newline]; omega)).symm
      · have moved : y < rowCnt - 1 ∧ x < colCnt := ⟨by omega, xInside⟩
        have place : p.row + 1 - (rowCnt - 1) + y = p.row - (rowCnt - 1) + (y + 1) := by
          omega
        rw [if_neg (by tauto), Vga.scroll]
        dsimp only [Paper.newline]
        rw [if_pos moved, pictures.fb _ _ (by omega) xInside, place]
    · intro row column after inside
      exact pictures.below row column (Nat.lt_of_succ_lt after) inside
    · intro y x outside
      rw [clearRow_fb, if_neg (by omega), Vga.scroll]
      dsimp only
      rw [if_neg (by omega), pictures.beside y x outside]
  · rw [if_neg scrolls]
    have upper : p.row < 24 := by omega
    constructor
    · change v.cy + 1 = min (p.row + 1) (rowCnt - 1)
      omega
    · intro y x yInside xInside
      have place : p.row + 1 - (rowCnt - 1) + y = p.row - (rowCnt - 1) + y := by omega
      exact (pictures.fb y x yInside xInside).trans (by rw [← place]; rfl)
    · intro row column after inside
      exact pictures.below row column (Nat.lt_of_succ_lt after) inside
    · exact pictures.beside

/-- The column alone moves. -/
theorem Pictures.moved (pictures : Pictures start v p) (cx column : Nat) :
    Pictures start { v with cx := cx } { p with column := column } :=
  ⟨pictures.cy, pictures.fb, pictures.below, pictures.beside⟩

theorem Pictures.put (pictures : Pictures start v p) (same : v.cx = p.column)
    (inside : p.column < colCnt) (c : UInt8) :
    Pictures start (v.put c) (p.strike ⟨c, grayOnBlack⟩) := by
  have height : rowCnt = 25 := rfl
  have cy := pictures.cy
  constructor
  · exact pictures.cy
  · intro y x yInside xInside
    have row : y = v.cy ↔ p.row - (rowCnt - 1) + y = p.row := by omega
    simp only [Vga.put, Paper.strike]
    by_cases here : y = v.cy
    · rw [here, Function.update_self, ← here, row.mp here, Function.update_self, same]
      by_cases place : x = p.column
      · rw [place, Function.update_self, Function.update_self]
      · rw [Function.update_of_ne place, Function.update_of_ne place,
          pictures.fb y x yInside xInside, row.mp here]
    · rw [Function.update_of_ne here, Function.update_of_ne (row.not.mp here),
        pictures.fb y x yInside xInside]
  · intro other column after outside
    simp only [Paper.strike] at after ⊢
    rw [Function.update_of_ne (by omega)]
    exact pictures.below other column after outside
  · intro y x outside
    rw [← pictures.beside y x outside, Vga.put]
    by_cases here : y = v.cy
    · have beyond : x ≠ v.cx := by omega
      simp [here, beyond]
    · simp [here]

theorem Pictures.cls (pictures : Pictures start v p) :
    Pictures start v.cls (Paper.blankPaper blankCell) := by
  have cells := (clearRows_spec v rowCnt).1
  constructor
  · rfl
  · intro y x yInside xInside
    exact (cells y x).trans (if_pos ⟨yInside, xInside⟩)
  · exact fun _ _ _ _ => rfl
  · intro y x outside
    refine (cells y x).trans ?_
    rw [if_neg (by omega), pictures.beside y x outside]

theorem Follows.newline (pictures : Pictures start v p) (inited : v.inited = true) :
    Follows start v.newline p.newline where
  picture := pictures.newline
  inited := by simp [inited]
  cx := by simp [Paper.newline]
  column := by simp [Paper.newline, colCnt]

/-- The end of the `switch` for characters that may end a line. -/
theorem Follows.moveTo (pictures : Pictures start v p) (inited : v.inited = true) (cx : Nat) :
    Follows start
      (if colCnt ≤ cx then { v with cx := cx }.newline else { v with cx := cx })
      (p.moveTo colCnt cx) := by
  rw [Paper.moveTo]
  by_cases wraps : colCnt ≤ cx
  · rw [if_pos wraps, if_pos wraps]
    exact Follows.newline (pictures.moved cx p.column) inited
  · rw [if_neg wraps, if_neg wraps]
    exact ⟨pictures.moved cx cx, inited, rfl, Nat.lt_of_not_le wraps⟩

/-- What a character does. -/
theorem Follows.interpret (follows : Follows start v p) (c : UInt8) :
    Follows start (v.interpret c) (p.type colCnt 8 blankCell (strokeOf c)) := by
  obtain ⟨picture, inited, cx, column⟩ := follows
  rw [Vga.interpret, strokeOf]
  split_ifs with isNewline isFeed isBack positive isHome isTab
  · exact Follows.newline picture inited
  · exact ⟨picture.cls, (cls_inited v).trans inited, rfl, (by decide : 0 < colCnt)⟩
  · refine ⟨picture.moved (v.cx - 1) (p.column - 1), inited, congrArg (· - 1) cx, ?_⟩
    exact Nat.lt_of_le_of_lt (Nat.sub_le _ _) column
  · have first : p.column = 0 := by omega
    refine ⟨picture.moved v.cx (p.column - 1), inited, (by omega : v.cx = p.column - 1), ?_⟩
    exact Nat.lt_of_le_of_lt (Nat.sub_le _ _) column
  · exact ⟨picture.moved 0 0, inited, rfl, (by decide : 0 < colCnt)⟩
  · have stop : (p.column / 8 + 1) * 8 = (v.cx + 1 + 8 - 1) / 8 * 8 := by omega
    rw [Paper.type, stop]
    exact Follows.moveTo picture inited _
  · rw [Paper.type, ← cx]
    exact Follows.moveTo (picture.put cx column c) inited _

theorem Follows.moveCursor (follows : Follows start v p) : Shows start v.moveCursor p := by
  refine ⟨⟨⟨follows.picture.cy, follows.picture.fb, follows.picture.below,
    follows.picture.beside⟩, follows.inited, follows.cx, follows.column⟩, ?_⟩
  have cy := follows.picture.cy
  have inside := follows.column
  rw [← follows.cx] at inside
  exact moveCursor_cursor v (by simp only [colCnt, rowCnt] at *; omega)

/-- What `find_cursor` reads. -/
theorem findCursor_cursor (crtc : Crtc) : (Vga.findCursor crtc).1.toNat = crtc.cursor := by
  have joined : (Vga.findCursor crtc).1 = crtc.cursorHigh ++ crtc.cursorLow := by
    apply BitVec.eq_of_getLsbD_eq
    intro i inside
    rw [BitVec.getLsbD_append]
    by_cases lower : i < 8
    · simp [Vga.findCursor, Crtc.outIndex, Crtc.inData, lower, inside]
    · have byte : crtc.cursorLow.getLsbD i = false :=
        BitVec.getLsbD_of_ge _ _ (by omega)
      simp [Vga.findCursor, Crtc.outIndex, Crtc.inData, lower, inside, byte]
  rw [joined, Crtc.cursor]

/-- The first call finds what the BIOS has left. -/
theorem Untouched.init (untouched : Untouched start) : Shows start start.init start.paper := by
  have bound := untouched.cursor
  have height : rowCnt = 25 := rfl
  have row : start.crtc.cursor / colCnt < rowCnt := Nat.div_lt_of_lt_mul bound
  have started : start.init = _ := if_neg (by simp [untouched.inited])
  have screen : start.paper.row - (rowCnt - 1) = 0 := by
    change start.crtc.cursor / colCnt - (rowCnt - 1) = 0
    omega
  rw [started]
  refine ⟨⟨⟨?_, ?_, ?_, fun _ _ _ => rfl⟩, rfl, ?_, Nat.mod_lt _ (by decide)⟩, ?_⟩
  · change (Vga.findCursor start.crtc).1.toNat / colCnt =
      min (start.crtc.cursor / colCnt) (rowCnt - 1)
    rw [findCursor_cursor]
    omega
  · intro y x yInside xInside
    rw [screen, Nat.zero_add, Vga.paper]
    exact (if_pos ⟨yInside, xInside⟩).symm
  · intro other column _ outside
    exact if_neg (by omega)
  · change (Vga.findCursor start.crtc).1.toNat % colCnt = _
    rw [findCursor_cursor]
    rfl
  · change (Vga.findCursor start.crtc).2.cursor = (Vga.findCursor start.crtc).1.toNat %
      colCnt + colCnt * ((Vga.findCursor start.crtc).1.toNat / colCnt)
    rw [findCursor_cursor, Nat.mod_add_div]
    rfl

theorem init_of_inited (inited : v.inited = true) : v.init = v := if_pos inited

/-- One move. -/
theorem Shows.step (shown : Shows start v.init p) {move : VgaMove}
    (moved : v.step move = some target) :
    Shows start target (typed p [move]) := by
  cases move with
  | putc c =>
      rw [Vga.step] at moved
      obtain ⟨audible, moved⟩ := Option.ite_none_left_eq_some.mp moved
      cases moved
      exact (shown.follows.interpret c).moveCursor
  | beep =>
      cases moved
      exact shown
  | beeped =>
      obtain ⟨inited, moved⟩ := Option.ite_none_right_eq_some.mp moved
      cases moved
      rw [init_of_inited inited] at shown
      exact shown.follows.moveCursor

theorem typed_cons (p : Paper VgaCell) (move : VgaMove) (moves : List VgaMove) :
    typed p (move :: moves) = typed (typed p [move]) moves := by
  cases move <;> rfl

theorem Shows.run (shown : Shows start v p) (run : (vgaSystem start).run v moves = some target) :
    Shows start target (typed p moves) := by
  induction moves generalizing v p with
  | nil =>
      cases run
      exact shown
  | cons move rest inductionHypothesis =>
      obtain ⟨middle, first, remainder⟩ := TransitionSystem.run_cons_eq_some.mp run
      rw [typed_cons]
      refine inductionHypothesis (Shows.step ?_ first) remainder
      rwa [init_of_inited shown.follows.inited]

/-- After any calls of `vga_putc`, the screen shows what they have typed. -/
theorem vga_shows_paper (untouched : Untouched start) (written : moves ≠ [])
    (run : (vgaSystem start).run start moves = some v) :
    Shows start v (typed start.paper moves) := by
  obtain ⟨move, rest, rfl⟩ := List.exists_cons_of_ne_nil written
  obtain ⟨middle, first, remainder⟩ := TransitionSystem.run_cons_eq_some.mp run
  rw [typed_cons]
  exact (untouched.init.step first).run remainder

/-- A display whose cursor is in the last row. -/
def sampleVga : Vga where
  cx := 0
  cy := 0
  inited := false
  fb := fun y x => ⟨UInt8.ofNat (65 + y), UInt8.ofNat x⟩
  crtc := ⟨0#8, 0x07#8, 0x80#8⟩

theorem sampleVga_untouched : Untouched sampleVga := ⟨rfl, by decide⟩

theorem vga_shows_paper_hello :
    ∃ v, (vgaSystem sampleVga).run sampleVga
        [.putc 72, .beep, .putc 105, .beeped, .putc 10] = some v ∧
      Shows sampleVga v (typed sampleVga.paper
        [.putc 72, .beep, .putc 105, .beeped, .putc 10]) :=
  ⟨_, rfl, vga_shows_paper sampleVga_untouched (by decide) rfl⟩

end Display

end CS162.Devices
