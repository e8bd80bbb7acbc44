import Firmware.Text.Utf8

/-!
# Writing into limited space

A text is written piece by piece into space for a fixed number of bytes. Of each piece the
characters up to the first that does not fit are kept. A piece that was cut short does not stop the
pieces after it, so a smaller character may still follow.

* `size_fitting_le`: what is kept of a piece fits the room there was.
* `put_eq`: one call of the writer puts what fits behind the text, and always goes well.
* `foldlM_put`: the calls come to writing the pieces.
* `size_write_le`: a text never outgrows its space.
* `write_eq_flatten`: where all pieces fit together, all of them is kept.
-/

namespace Firmware.Text.Clipped

/-- The characters of a piece up to the first that does not fit the room left. -/
def fitting : (room : Nat) → List Char → List Char
  | _, [] => []
  | room, c :: cs => if c.utf8Size ≤ room then c :: fitting (room - c.utf8Size) cs else []

/-- Puts a character behind a text with space for `capacity` bytes in all, if its bytes still fit. -/
def push? (capacity : Nat) (text : List Char) (c : Char) : Option (List Char) :=
  if Utf8.size text + c.utf8Size ≤ capacity then some (text ++ [c]) else none

/-- One call of the writer: the characters of a piece are put behind the text up to the first that
is refused. The caller is not told that any were dropped. -/
def put (capacity : Nat) : (text piece : List Char) → Except Unit (List Char)
  | text, [] => .ok text
  | text, c :: cs =>
    match push? capacity text c with
    | some longer => put capacity longer cs
    | none => .ok text

/-- Writes pieces one after another into `room` bytes. -/
def write : (room : Nat) → List (List Char) → List Char
  | _, [] => []
  | room, piece :: pieces =>
    let kept := fitting room piece
    kept ++ write (room - Utf8.size kept) pieces

theorem size_append (text text' : List Char) :
    Utf8.size (text ++ text') = Utf8.size text + Utf8.size text' := by
  induction text with
  | nil => simp [Utf8.size]
  | cons c text ih =>
    rw [List.cons_append, Utf8.size, ih, Utf8.size, Nat.add_assoc]

theorem size_fitting_le (room : Nat) (piece : List Char) :
    Utf8.size (fitting room piece) ≤ room := by
  induction piece generalizing room with
  | nil => simp [fitting, Utf8.size]
  | cons c cs ih =>
    rw [fitting]
    split
    · have h := ih (room - c.utf8Size)
      simp only [Utf8.size]
      omega
    · simp [Utf8.size]

theorem put_eq (capacity : Nat) (text piece : List Char) :
    put capacity text piece = .ok (text ++ fitting (capacity - Utf8.size text) piece) := by
  induction piece generalizing text with
  | nil => rw [put, fitting, List.append_nil]
  | cons c cs ih =>
    have hpos := c.utf8Size_pos
    rw [put, push?, fitting]
    by_cases hfits : Utf8.size text + c.utf8Size ≤ capacity
    · have hrest : capacity - Utf8.size (text ++ [c]) = capacity - Utf8.size text - c.utf8Size := by
        rw [size_append, Utf8.size, Utf8.size]
        omega
      rw [if_pos hfits, if_pos (by omega)]
      dsimp only
      rw [ih, hrest, List.append_assoc, List.singleton_append]
    · rw [if_neg hfits, if_neg (by omega), List.append_nil]

/-- The calls for some pieces, one after another, come to writing them into the room that is left. -/
theorem foldlM_put (capacity : Nat) (text : List Char) (pieces : List (List Char)) :
    pieces.foldlM (put capacity) text = .ok (text ++ write (capacity - Utf8.size text) pieces) := by
  induction pieces generalizing text with
  | nil => rw [write, List.append_nil]; rfl
  | cons piece pieces ih =>
    rw [List.foldlM_cons, put_eq]
    show pieces.foldlM (put capacity) (text ++ fitting (capacity - Utf8.size text) piece) = _
    rw [ih, size_append, Nat.sub_add_eq, write, List.append_assoc]

/-- A piece that fits is kept whole. -/
theorem fitting_eq_self (room : Nat) (piece : List Char) (h : Utf8.size piece ≤ room) :
    fitting room piece = piece := by
  induction piece generalizing room with
  | nil => rfl
  | cons c cs ih =>
    simp only [Utf8.size] at h
    rw [fitting, if_pos (by omega), ih]
    omega

theorem size_write_le (room : Nat) (pieces : List (List Char)) :
    Utf8.size (write room pieces) ≤ room := by
  induction pieces generalizing room with
  | nil => simp [write, Utf8.size]
  | cons piece pieces ih =>
    have hkept := size_fitting_le room piece
    have hrest := ih (room - Utf8.size (fitting room piece))
    rw [write, size_append]
    omega

/-- Nothing is lost where there is room: all pieces are kept if they fit together. -/
theorem write_eq_flatten (room : Nat) (pieces : List (List Char))
    (h : Utf8.size pieces.flatten ≤ room) : write room pieces = pieces.flatten := by
  induction pieces generalizing room with
  | nil => rfl
  | cons piece pieces ih =>
    rw [List.flatten_cons, size_append] at h
    rw [write, fitting_eq_self room piece (by omega), ih _ (by omega), List.flatten_cons]

end Firmware.Text.Clipped
