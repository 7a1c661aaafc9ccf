import PacketSections.Text.Lines

/-!
The part of long lines that is shown.
-/

namespace PacketSections.Report

/-- The columns of the screen. -/
def screenWidth : Nat := 140

/-- Columns kept free around what is pointed at. -/
def windowPadding : Nat := 6

/-- The part of a line that is shown: the columns from `left` to `right`. -/
structure Window where
  left : Nat
  right : Nat
  /-- The columns that there is room for. -/
  room : Nat
deriving DecidableEq, Repr

/-- What has to be seen: the white space that all lines begin with, the columns between which
something is pointed at, the end of the labels, and the length of the longest line. -/
structure Extent where
  blank : Nat
  spanLeft : Nat
  spanRight : Nat
  labelRight : Nat
  longest : Nat
deriving DecidableEq, Repr

namespace Window

/-- Cuts white space first, and more only as far as the lines do not fit. -/
def ofExtent (room : Nat) (e : Extent) : Window :=
  let blank := min e.blank e.spanLeft - windowPadding
  let spanLeft := e.spanLeft - windowPadding
  let spanRight := e.spanRight + windowPadding
  let labelRight := e.labelRight + windowPadding
  let left := if 20 < blank then blank - 16 else 0
  let right := max e.longest left
  if right - left ≤ room then ⟨left, right, room⟩
  else if labelRight - blank ≤ room then ⟨blank, blank + room, room⟩
  else if labelRight - spanLeft ≤ room then
    let left := spanLeft - (room - (labelRight - spanLeft)) / 2
    ⟨left, left + room, room⟩
  else if spanRight - spanLeft ≤ room then
    let left := spanLeft - (room - (spanRight - spanLeft)) / 5 * 2
    ⟨left, left + room, room⟩
  else ⟨spanLeft, spanRight, room⟩

def leftOf (w : Window) (length : Nat) : Nat := min w.left length

def rightOf (w : Window) (length : Nat) : Nat :=
  if length - w.left ≤ w.room then length else min length w.right

end Window

/-- Drops characters until at least `n` columns are dropped; also gives the columns dropped. -/
def dropColumns : Nat → Nat → List Char → Nat × List Char
  | _, dropped, [] => (dropped, [])
  | n, dropped, c :: cs =>
    if dropped < n then dropColumns n (dropped + Text.charWidth c) cs else (dropped, c :: cs)

/-- Characters that fit into `n` columns. -/
def takeColumns : Nat → List Char → List Char
  | _, [] => []
  | n, c :: cs =>
    if Text.charWidth c ≤ n then c :: takeColumns (n - Text.charWidth c) cs else []

/-- The fewest characters that take at least `n` columns. -/
def coverColumns : Nat → List Char → List Char
  | _, [] => []
  | n, c :: cs => if n ≤ Text.charWidth c then [c] else c :: coverColumns (n - Text.charWidth c) cs

end PacketSections.Report
